import OpenSwap.Btc.Tx

/-!
# Primitives from tables

A lawful instance of `Prims` for evaluating a development on concrete data: the
keys are the first fifteen multiples of the secp256k1 generator, with their real
encodings, and one more point whose discrete logarithm nobody knows; the values of
hash functions, commitments and signatures are looked up in tables.  A table entry
is meant to be the real value; outside of its table a function has a fixed value.
-/

namespace Btc

/-- `n` in exactly `k` big-endian bytes. -/
def natBe (k n : Nat) : Bytes := (natLe k n).reverse

@[simp] theorem length_natBe (k n : Nat) : (natBe k n).length = k := by
  simp [natBe]

instance neZeroFifteen : NeZero 15 := ⟨by decide⟩

/-- The point `k + 1` times the generator, or the point with `x = 0x0202…02`. -/
inductive TablePoint where
  | mul (k : Fin 15)
  | unknown
deriving DecidableEq, Repr

/-- The points as `04`, first and second coordinate. -/
def generatorMultiples : List Nat :=
  [
    0x0479be667ef9dcbbac55a06295ce870b07029bfcdb2dce28d959f2815b16f81798483ada7726a3c4655da4fbfc0e1108a8fd17b448a68554199c47d08ffb10d4b8,
    0x04c6047f9441ed7d6d3045406e95c07cd85c778e4b8cef3ca7abac09b95c709ee51ae168fea63dc339a3c58419466ceaeef7f632653266d0e1236431a950cfe52a,
    0x04f9308a019258c31049344f85f89d5229b531c845836f99b08601f113bce036f9388f7b0f632de8140fe337e62a37f3566500a99934c2231b6cb9fd7584b8e672,
    0x04e493dbf1c10d80f3581e4904930b1404cc6c13900ee0758474fa94abe8c4cd1351ed993ea0d455b75642e2098ea51448d967ae33bfbdfe40cfe97bdc47739922,
    0x042f8bde4d1a07209355b4a7250a5c5128e88b84bddc619ab7cba8d569b240efe4d8ac222636e5e3d6d4dba9dda6c9c426f788271bab0d6840dca87d3aa6ac62d6,
    0x04fff97bd5755eeea420453a14355235d382f6472f8568a18b2f057a1460297556ae12777aacfbb620f3be96017f45c560de80f0f6518fe4a03c870c36b075f297,
    0x045cbdf0646e5db4eaa398f365f2ea7a0e3d419b7e0330e39ce92bddedcac4f9bc6aebca40ba255960a3178d6d861a54dba813d0b813fde7b5a5082628087264da,
    0x042f01e5e15cca351daff3843fb70f3c2f0a1bdd05e5af888a67784ef3e10a2a015c4da8a741539949293d082a132d13b4c2e213d6ba5b7617b5da2cb76cbde904,
    0x04acd484e2f0c7f65309ad178a9f559abde09796974c57e714c35f110dfc27ccbecc338921b0a7d9fd64380971763b61e9add888a4375f8e0f05cc262ac64f9c37,
    0x04a0434d9e47f3c86235477c7b1ae6ae5d3442d49b1943c2b752a68e2a47e247c7893aba425419bc27a3b6c7e693a24c696f794c2ed877a1593cbee53b037368d7,
    0x04774ae7f858a9411e5ef4246b70c65aac5649980be5c17891bbec17895da008cbd984a032eb6b5e190243dd56d7b7b365372db1e2dff9d6a8301d74c9c953c61b,
    0x04d01115d548e7561b15c38f004d734633687cf4419620095bc5b0f47070afe85aa9f34ffdc815e0d7a8b64537e17bd81579238c5dd9a86d526b051b13f4062327,
    0x04f28773c2d975288bc7d1d205c3748651b075fbc6610e58cddeeddf8f19405aa80ab0902e8d880a89758212eb65cdaf473a1a06da521fa91f29b5cb52db03ed81,
    0x04499fdf9e895e719cfd64e67f07d38e3226aa7b63678949e6e49b241a60e823e4cac2f6c4b54e855190f044e4a7b3d464464279c27a3f95bcc65f40d403a13f5b,
    0x04d7924d4f7d43ea965a465ae3095ff41131e5946f3c85f79e44adbcf8e27e080e581e2872a86c72a683842ec228cc6defea40af2bd896d3a5c504dc9ff6a26b58]

def TablePoint.uncompressed : TablePoint → Nat
  | .mul k => generatorMultiples.getD k 0
  | .unknown =>
    0x040202020202020202020202020202020202020202020202020202020202020202415456f0fc01d66476251cab4525d9db70bfec652b2d8130608675674cde64b2

def TablePoint.serializeUncompressed (p : TablePoint) : Bytes := natBe 65 p.uncompressed

/-- The parity of the second coordinate, and the first. -/
def TablePoint.serialize (p : TablePoint) : Bytes :=
  natBe 33 ((2 + p.uncompressed % 2) * 2 ^ 256 + p.uncompressed / 2 ^ 256 % 2 ^ 256)

def TablePoint.all : List TablePoint := .unknown :: (List.finRange 15).map .mul

def TablePoint.parse (b : Bytes) : Option TablePoint :=
  TablePoint.all.find? fun p => p.serialize = b

def scalarAdd (a b : Fin 15) : Option (Fin 15) :=
  if h : a.val + b.val + 1 < 15 then some ⟨a.val + b.val + 1, h⟩ else none

def TablePoint.combine : TablePoint → TablePoint → Option TablePoint
  | .mul a, .mul b => (scalarAdd a b).map .mul
  | _, _ => none

structure Tables where
  sha256 : List (Bytes × Bytes)
  hash160 : List (Bytes × Bytes)
  txid : List (Transaction × Bytes)
  aggregate : List ((Fin 15 × Fin 15) × Bytes)
  taproot : List ((Bytes × Bytes × Bytes) × (Bytes × Bytes))
  sighash : List ((Transaction × Nat × Bytes × Nat × UInt8) × Bytes)
  signatures : List ((Fin 15 × Bytes) × Bytes)

def Tables.empty : Tables := ⟨[], [], [], [], [], [], []⟩

def digest {α : Type} [BEq α] (n : Nat) (table : List (α × Bytes)) (a : α) : Bytes :=
  match table.lookup a with
  | some d => if d.length = n then d else List.replicate n 0
  | none => List.replicate n 0

theorem length_digest {α : Type} [BEq α] (n : Nat) (table : List (α × Bytes)) (a : α) :
    (digest n table a).length = n := by
  unfold digest
  split
  · split
    · assumption
    · simp
  · simp

theorem mem_of_digest_eq {α : Type} [BEq α] [LawfulBEq α] {n : Nat} {table : List (α × Bytes)}
    {a : α} {d : Bytes} (h : digest n table a = d) (hd : d ≠ List.replicate n 0) :
    (a, d) ∈ table := by
  unfold digest at h
  split at h
  · rename_i hlookup
    split at h
    · subst h
      obtain ⟨_, _, rfl, -⟩ := List.lookup_eq_some_iff.mp hlookup
      simp
    · exact absurd h.symm hd
  · exact absurd h.symm hd

theorem TablePoint.parse_serialize (p : TablePoint) : parse p.serialize = some p := by
  cases p with
  | unknown => decide
  | mul k => revert k; decide +kernel

theorem TablePoint.serialize_parse {b p} (h : parse b = some p) :
    p.serialize = b := by
  have := List.find?_some h
  simpa using this

def Tables.signature (t : Tables) (sk : Fin 15) (d : Bytes) : Bytes :=
  ((t.signatures.lookup (sk, d)).getD []).take 72

def Tables.prims (t : Tables) : Prims where
  sha256 := digest 32 t.sha256
  sha256_length := length_digest 32 t.sha256
  hash160 := digest 20 t.hash160
  hash160_length := length_digest 20 t.hash160
  txid tx := digest 32 t.txid tx.stripWitness
  txid_stripWitness tx := by
    simp [Transaction.stripWitness, Function.comp_def]
  SecretKey := Fin 15
  Point := TablePoint
  secretKeyDecEq := inferInstance
  pointDecEq := inferInstance
  pubOf := .mul
  addTweak := scalarAdd
  combine := TablePoint.combine
  combine_pubOf _ _ := rfl
  serialize := TablePoint.serialize
  serialize_length p := by simp [TablePoint.serialize]
  serializeUncompressed := TablePoint.serializeUncompressed
  serializeUncompressed_length p := by simp [TablePoint.serializeUncompressed]
  parse := TablePoint.parse
  parse_serialize := TablePoint.parse_serialize
  serialize_parse _ _ := TablePoint.serialize_parse
  aggregate
    | .mul a, .mul b => t.aggregate.lookup (a, b)
    | _, _ => none
  taproot l₁ l₂ key := t.taproot.lookup (l₁, l₂, key)
  sighash tx i script value ty := digest 32 t.sighash (tx.stripWitness, i, script, value, ty)
  sighash_stripWitness tx := by
    funext
    simp [Transaction.stripWitness, Function.comp_def]
  verify p d s :=
    match p with
    | .mul k => s = t.signature k d
    | .unknown => false
  sign := t.signature
  verify_sign _ _ := decide_eq_true rfl
  length_of_verify p d s h := by
    cases p with
    | unknown => cases h
    | mul k =>
      rw [of_decide_eq_true h]
      exact List.length_take_le _ _

end Btc
