import OpenSwap.Btc.Script

/-!
# Transactions, keys and what is left abstract

Transactions as the records they are, and one structure, `Prims`, for the parts a
program takes from its cryptography libraries: hash functions, the curve, the
MuSig2 aggregate, the Taproot commitment and ECDSA.  Its laws are only shape
laws (lengths, that parsing inverts serialization, that tweaking commutes with
taking public keys, that a signature verifies).  A result that rests on collision
resistance or unforgeability says so in its own hypotheses.
-/

namespace Btc

/-! ## Transactions -/

structure OutPoint where
  txid : Bytes
  vout : Nat
deriving DecidableEq, Repr

structure TxIn where
  previousOutput : OutPoint
  scriptSig : Bytes
  sequence : Nat
  witness : List Bytes
deriving DecidableEq, Repr

structure TxOut where
  value : Nat
  scriptPubkey : Bytes
deriving DecidableEq, Repr

structure Transaction where
  version : Nat
  lockTime : Nat
  input : List TxIn
  output : List TxOut
deriving DecidableEq, Repr

def Transaction.stripWitness (tx : Transaction) : Transaction :=
  { tx with input := tx.input.map fun i => { i with witness := [] } }

/-- An ECDSA signature as scripts carry it: the signature proper, then one byte
that says what it commits to. -/
structure EcdsaSig where
  signature : Bytes
  sighashType : UInt8
deriving DecidableEq, Repr

def EcdsaSig.toBytes (s : EcdsaSig) : Bytes := s.signature ++ [s.sighashType]

/-- The sighash type that commits to all inputs and outputs. -/
def sighashAll : UInt8 := 1

/-! ## Primitives -/

/-- The functions taken from hash, curve and signature libraries. -/
structure Prims where
  sha256 : Bytes → Bytes
  sha256_length : ∀ b, (sha256 b).length = 32
  hash160 : Bytes → Bytes
  hash160_length : ∀ b, (hash160 b).length = 20
  txid : Transaction → Bytes
  txid_stripWitness : ∀ tx, txid tx.stripWitness = txid tx
  SecretKey : Type
  Point : Type
  secretKeyDecEq : DecidableEq SecretKey
  pointDecEq : DecidableEq Point
  pubOf : SecretKey → Point
  /-- scalar addition; fails when the sum is zero -/
  addTweak : SecretKey → SecretKey → Option SecretKey
  /-- point addition; fails at infinity -/
  combine : Point → Point → Option Point
  combine_pubOf : ∀ a b, combine (pubOf a) (pubOf b) = (addTweak a b).map pubOf
  serialize : Point → Bytes
  serialize_length : ∀ p, (serialize p).length = 33
  /-- the 65-byte uncompressed form -/
  serializeUncompressed : Point → Bytes
  serializeUncompressed_length : ∀ p, (serializeUncompressed p).length = 65
  parse : Bytes → Option Point
  parse_serialize : ∀ p, parse (serialize p) = some p
  serialize_parse : ∀ b p, parse b = some p → serialize p = b
  /-- the MuSig2 aggregate of two keys, x-only -/
  aggregate : Point → Point → Option Bytes
  /-- output key and tap tweak for two leaves at depth one and an internal key -/
  taproot : (leaf₁ leaf₂ internalKey : Bytes) → Option (Bytes × Bytes)
  /-- the segwit-v0 digest of an input for its script code, value and sighash type -/
  sighash : Transaction → Nat → Bytes → Nat → UInt8 → Bytes
  sighash_stripWitness : ∀ tx, sighash tx.stripWitness = sighash tx
  /-- ECDSA: `verify key digest signature`, and signing -/
  verify : Point → Bytes → Bytes → Bool
  sign : SecretKey → Bytes → Bytes
  verify_sign : ∀ sk digest, verify (pubOf sk) digest (sign sk digest)
  length_of_verify : ∀ p digest sig, verify p digest sig → sig.length ≤ 72

namespace Prims

variable (P : Prims)

instance : DecidableEq P.SecretKey := P.secretKeyDecEq

instance : DecidableEq P.Point := P.pointDecEq

/-- A public key as the wire carries it: the curve point and the form in which it
is written into scripts. -/
structure PublicKey (P : Prims) where
  compressed : Bool
  inner : P.Point

instance : DecidableEq P.PublicKey := fun a b =>
  decidable_of_iff (a.compressed = b.compressed ∧ a.inner = b.inner) (by
    cases a; cases b; simp)

variable {P}

/-- The bytes a key is pushed with. -/
def PublicKey.toBytes (k : P.PublicKey) : Bytes :=
  if k.compressed then P.serialize k.inner else P.serializeUncompressed k.inner

def publicKey (sk : P.SecretKey) : P.PublicKey := ⟨true, P.pubOf sk⟩

/-- The x-only form of a point drops the parity byte. -/
def xOnly (p : P.Point) : Bytes := (P.serialize p).drop 1

def PublicKey.fromSlice (P : Prims) (b : Bytes) : Option P.PublicKey :=
  (P.parse b).map (⟨true, ·⟩)

variable {b : Bytes} {k : P.PublicKey}

@[simp] theorem length_xOnly (p : P.Point) : (xOnly p).length = 32 := by
  simp [xOnly, P.serialize_length]

theorem PublicKey.toBytes_of_fromSlice (h : PublicKey.fromSlice P b = some k) : k.toBytes = b := by
  obtain ⟨p, hp, rfl⟩ := Option.map_eq_some_iff.mp h
  simpa [toBytes] using P.serialize_parse b p hp

theorem PublicKey.compressed_of_fromSlice (h : PublicKey.fromSlice P b = some k) :
    k.compressed = true := by
  obtain ⟨p, -, rfl⟩ := Option.map_eq_some_iff.mp h
  rfl

theorem PublicKey.length_toBytes (h : k.compressed) :
    k.toBytes.length = 33 := by
  rw [PublicKey.toBytes, if_pos h, P.serialize_length]

theorem PublicKey.parse_toBytes (h : k.compressed) :
    P.parse k.toBytes = some k.inner := by
  rw [PublicKey.toBytes, if_pos h, P.parse_serialize]

theorem serialize_injective {p q} (h : P.serialize p = P.serialize q) : p = q := by
  have hp := P.parse_serialize p
  rw [h, P.parse_serialize] at hp
  exact (Option.some.inj hp).symm

end Prims

/-! ## Outputs -/

/-- `OP_0 <sha256 script>`. -/
def p2wsh (P : Prims) (script : Bytes) : Bytes := encode [.push [], .push (P.sha256 script)]

/-- `OP_1 <output key>`. -/
def p2tr (outputKey : Bytes) : Bytes := encode [intInstr 1, .push outputKey]

/-- The smallest value of a witness-program output that is not dust at the default
relay rate of three satoshi per byte. -/
def minimalNonDust (scriptPubkey : Bytes) : Nat := 3 * (67 + 8 + 1 + scriptPubkey.length)

variable {n : Nat}

@[simp] theorem length_p2wsh (P : Prims) (script : Bytes) : (p2wsh P script).length = 34 := by
  simp [p2wsh, encodeInstr, pushSlice, P.sha256_length]

@[simp] theorem minimalNonDust_p2wsh (P : Prims) (script : Bytes) :
    minimalNonDust (p2wsh P script) = 330 := by
  simp [minimalNonDust]

/-! ## Doubles -/

/-- The double nearest to a natural number, ties to even. -/
def roundF64 (n : Nat) : Nat :=
  let e := Nat.log2 n + 1 - 53
  let q := n / 2 ^ e
  let r := n % 2 ^ e
  (if 2 ^ e < 2 * r ∨ (2 ^ e = 2 * r ∧ q % 2 = 1) then q + 1 else q) * 2 ^ e

theorem roundF64_eq (h : n < 2 ^ 53) : roundF64 n = n := by
  have he : Nat.log2 n + 1 - 53 = 0 := by
    rcases Nat.eq_zero_or_pos n with rfl | hn
    · rfl
    · have : Nat.log2 n < 53 := (Nat.log2_lt hn.ne').mpr h
      omega
  simp [roundF64, he, Nat.mod_one]

theorem two_pow_le_roundF64 (hn : n ≠ 0) : 2 ^ Nat.log2 n ≤ roundF64 n := by
  have hle : 2 ^ Nat.log2 n ≤ n := Nat.log2_self_le hn
  unfold roundF64
  rcases Nat.lt_or_ge (Nat.log2 n) 53 with hlog | hlog
  · have he : Nat.log2 n + 1 - 53 = 0 := by omega
    simp [he, Nat.mod_one, hle]
  · have hsplit : 2 ^ Nat.log2 n = 2 ^ 52 * 2 ^ (Nat.log2 n + 1 - 53) := by
      rw [← Nat.pow_add]
      congr 1
      omega
    have hquot : 2 ^ 52 ≤ n / 2 ^ (Nat.log2 n + 1 - 53) := by
      rw [Nat.le_div_iff_mul_le (Nat.two_pow_pos _), ← hsplit]
      exact hle
    rw [hsplit]
    exact Nat.mul_le_mul_right _ (by split <;> omega)

theorem roundF64_le_two_pow (n : Nat) : roundF64 n ≤ 2 ^ (Nat.log2 n + 1) := by
  have hlt : n < 2 ^ (Nat.log2 n + 1) := Nat.lt_log2_self
  unfold roundF64
  rcases Nat.lt_or_ge (Nat.log2 n) 53 with hlog | hlog
  · have he : Nat.log2 n + 1 - 53 = 0 := by omega
    simp [he, Nat.mod_one, hlt.le]
  · have hsplit : 2 ^ (Nat.log2 n + 1) = 2 ^ 53 * 2 ^ (Nat.log2 n + 1 - 53) := by
      rw [← Nat.pow_add]
      congr 1
      omega
    have hquot : n / 2 ^ (Nat.log2 n + 1 - 53) < 2 ^ 53 := by
      rw [Nat.div_lt_iff_lt_mul (Nat.two_pow_pos _), ← hsplit]
      exact hlt
    rw [hsplit]
    exact Nat.mul_le_mul_right _ (by split <;> omega)

theorem roundF64_mono {m} (h : m ≤ n) : roundF64 m ≤ roundF64 n := by
  rcases Nat.eq_zero_or_pos m with rfl | hm
  · exact Nat.zero_le _
  have hlog : Nat.log2 m ≤ Nat.log2 n :=
    (Nat.le_log2 (by omega)).mpr ((Nat.log2_self_le hm.ne').trans h)
  rcases hlog.eq_or_lt with heq | hlt
  · -- one binade: the quotients are ordered, and equal ones round by the remainders
    unfold roundF64
    rw [heq]
    dsimp only
    generalize 2 ^ (Nat.log2 n + 1 - 53) = unit
    have hquot : m / unit ≤ n / unit := Nat.div_le_div_right h
    have hm' := Nat.div_add_mod m unit
    have hn' := Nat.div_add_mod n unit
    refine Nat.mul_le_mul_right _ ?_
    rcases hquot.eq_or_lt with hquot | hquot
    · rw [hquot] at hm' ⊢
      split <;> split <;> omega
    · split <;> split <;> omega
  · calc roundF64 m ≤ 2 ^ (Nat.log2 m + 1) := roundF64_le_two_pow m
      _ ≤ 2 ^ Nat.log2 n := Nat.pow_le_pow_right (by omega) hlt
      _ ≤ roundF64 n := two_pow_le_roundF64 (by omega)

theorem le_roundF64 (h : 2 ^ 64 ≤ n) : 2 ^ 64 ≤ roundF64 n :=
  (by decide : 2 ^ 64 ≤ roundF64 (2 ^ 64)).trans (roundF64_mono h)

end Btc
