import OpenSwap.Base.Checked
import OpenSwap.Btc.Spend
import OpenSwap.Btc.Tables
import OpenSwap.Protocol.Common

/-!
# Legacy contract scripts and transactions

The two scripts of a Legacy hop, the 2-of-2 multisig of the funding output and the
hash time lock of the contract output, with the functions that build them, read
fields back out of them and check them.
-/

namespace OpenSwap

open Btc Checked List Option

variable {P : Prims}

/-! ## Multisig -/

/-- Keys are ordered by their compressed serialization. -/
def keyLt (a b : P.PublicKey) : Prop := P.serialize a.inner < P.serialize b.inner

instance (a b : P.PublicKey) : Decidable (keyLt a b) :=
  inferInstanceAs (Decidable (P.serialize a.inner < P.serialize b.inner))

/-- `OP_2 <key> <key> OP_2 OP_CHECKMULTISIG`, the smaller key first. -/
def createMultisigRedeemscript (key1 key2 : P.PublicKey) : Bytes :=
  let keys := if keyLt key1 key2 then (key1, key2) else (key2, key1)
  encode [.op Opcode.pushNum2, .push keys.1.toBytes, .push keys.2.toBytes,
    .op Opcode.pushNum2, .op Opcode.checkMultiSig]

/-- The witness items of a 2-of-2 spend, signatures in the order of the keys. -/
def applyTwoSignaturesTo2of2MultisigSpend (key1 key2 : P.PublicKey) (sig1 sig2 : EcdsaSig)
    (input : TxIn) (redeemscript : Bytes) : TxIn :=
  let sigs := if keyLt key1 key2 then (sig1, sig2) else (sig2, sig1)
  { input with
    witness := input.witness ++ [[], sigs.1.toBytes, sigs.2.toBytes, redeemscript] }

/-- The key a tweakable point and a nonce give: `point + nonce * G`. -/
def calculatePubkeyFromNonce (tweakablePoint : P.PublicKey) (nonce : P.SecretKey) :
    Except ProtocolError P.PublicKey := do
  let inner ← okOr (P.combine tweakablePoint.inner (P.pubOf nonce)) .secp
  .ok ⟨true, inner⟩

def pubPlaceholder : Bytes := List.replicate 33 0x02

/-- Replace the bytes from `i` up to `j`. -/
def splice (b : Bytes) (i j : Nat) (new : Bytes) : Bytes := b.take i ++ new ++ b.drop j

def checkRedeemscriptIsMultisig (P : Prims) (redeemscript : Bytes) :
    Except ProtocolError Unit := do
  let placeholder ← okOr (Prims.PublicKey.fromSlice P pubPlaceholder) .secp
  let template := createMultisigRedeemscript placeholder placeholder
  ensure (redeemscript.length = template.length) (.general "Wrong multisig_redeemscript length")
  let bytes := splice (splice redeemscript 2 35 pubPlaceholder) 36 69 pubPlaceholder
  ensure (bytes = template) (.general "Redeemscript not matching multisig template")

def pubkeyLength : Nat := 33
def pubkey1Offset : Nat := 2
def pubkey2Offset : Nat := pubkey1Offset + pubkeyLength + 1

/-- The bytes from `i` up to `i + n`. -/
def slice (b : Bytes) (i n : Nat) : Bytes := (b.drop i).take n

def readPubkeysFromMultisigRedeemscript (P : Prims) (redeemscript : Bytes) :
    Except ProtocolError (P.PublicKey × P.PublicKey) := do
  ensure (pubkey2Offset + pubkeyLength ≤ redeemscript.length)
    (.general "Multisig redeemscript too short")
  let pubkey1 ← okOr (Prims.PublicKey.fromSlice P (slice redeemscript pubkey1Offset pubkeyLength))
    .secp
  let pubkey2 ← okOr (Prims.PublicKey.fromSlice P (slice redeemscript pubkey2Offset pubkeyLength))
    .secp
  .ok (pubkey1, pubkey2)

variable (redeemscript : Bytes)

def checkMultisigHasPubkey (tweakablePoint : P.PublicKey) (nonce : P.SecretKey) :
    Except ProtocolError Unit := do
  let (pubkey1, pubkey2) ← readPubkeysFromMultisigRedeemscript P redeemscript
  let myPubkey ← calculatePubkeyFromNonce tweakablePoint nonce
  ensure (pubkey1 = myPubkey ∨ pubkey2 = myPubkey)
    (.general "Wrong pubkeys in multisig_redeemscript")

def multisigScript (key1 key2 : Bytes) : Bytes :=
  encode [.op Opcode.pushNum2, .push key1, .push key2, .op Opcode.pushNum2,
    .op Opcode.checkMultiSig]

variable {key1 key2 hashlockKey timelockKey hashvalue : Bytes} {ctx : SpendCtx} {st : List Bytes}
  {b script x : Bytes} {a pubkey1 pubkey2 : P.PublicKey} {locktime : Nat} {rest : List Instr}
  {sig preimage : Bytes}

theorem createMultisigRedeemscript_eq (key1 key2 : P.PublicKey) :
    createMultisigRedeemscript key1 key2 =
      if keyLt key1 key2 then multisigScript key1.toBytes key2.toBytes
      else multisigScript key2.toBytes key1.toBytes := by
  unfold createMultisigRedeemscript multisigScript
  split <;> rfl

theorem multisigScript_eq (h1 : key1.length = 33) (h2 : key2.length = 33) :
    multisigScript key1 key2 = [0x52, 33] ++ (key1 ++ ([33] ++ (key2 ++ [0x52, 0xae]))) := by
  simp [multisigScript, encodeInstr, pushSlice, h1, h2, Opcode.pushNum2, Opcode.checkMultiSig]

theorem exists_multisig_parts (h : b.length = 71) :
    ∃ head key1 sep key2 tail : Bytes, head.length = 2 ∧ key1.length = 33 ∧ sep.length = 1 ∧
      key2.length = 33 ∧ b = head ++ (key1 ++ (sep ++ (key2 ++ tail))) := by
  refine ⟨b.take 2, (b.drop 2).take 33, (b.drop 35).take 1, (b.drop 36).take 33, b.drop 69,
    ?_, ?_, ?_, ?_, ?_⟩
  · rw [length_take]; omega
  · rw [length_take, length_drop]; omega
  · rw [length_take, length_drop]; omega
  · rw [length_take, length_drop]; omega
  · have h69 : b.drop 69 = (b.drop 36).drop 33 := by rw [drop_drop]
    have h36 : b.drop 36 = (b.drop 35).drop 1 := by rw [drop_drop]
    have h35 : b.drop 35 = (b.drop 2).drop 33 := by rw [drop_drop]
    rw [h69, take_append_drop, h36, take_append_drop, h35, take_append_drop, take_append_drop]

theorem splice_append {a c new i j} (hi : a.length = i) (hj : a.length + x.length = j) :
    splice (a ++ (x ++ c)) i j new = a ++ (new ++ c) := by
  subst hi hj
  simp [splice, drop_append]

/-- **The template check** accepts exactly the 2-of-2 scripts over two slots of 33
bytes: neither the order of the keys nor their validity is looked at. -/
theorem checkRedeemscriptIsMultisig_ok {redeemscript}
    (h : checkRedeemscriptIsMultisig P redeemscript = .ok ()) :
    ∃ key1 key2 : Bytes, key1.length = 33 ∧ key2.length = 33 ∧
      redeemscript = multisigScript key1 key2 := by
  have hph : pubPlaceholder.length = 33 := by simp [pubPlaceholder]
  simp only [checkRedeemscriptIsMultisig, bind_ok_iff, okOr_eq_ok, ensure_eq_ok] at h
  obtain ⟨placeholder, hparse, _, hlen, htemplate⟩ := h
  have hbytes := Prims.PublicKey.toBytes_of_fromSlice hparse
  have htmpl : createMultisigRedeemscript placeholder placeholder =
      multisigScript pubPlaceholder pubPlaceholder := by
    rw [createMultisigRedeemscript_eq, hbytes, ite_self]
  rw [htmpl, multisigScript_eq hph hph] at htemplate hlen
  obtain ⟨head, key1, sep, key2, tail, hhead, hkey1, hsep, hkey2, rfl⟩ :=
    exists_multisig_parts (hlen.trans (by simp [hph]))
  refine ⟨key1, key2, hkey1, hkey2, ?_⟩
  rw [splice_append hhead (by omega)] at htemplate
  have hassoc : head ++ (pubPlaceholder ++ (sep ++ (key2 ++ tail))) =
      (head ++ (pubPlaceholder ++ sep)) ++ (key2 ++ tail) := by simp
  rw [hassoc, splice_append (by simp [hhead, hph, hsep]) (by simp [hhead, hph, hsep, hkey2])]
    at htemplate
  -- the parts outside the two key slots are the template's own
  simp only [append_assoc] at htemplate
  obtain ⟨hhead', hrest⟩ := append_inj htemplate hhead
  obtain ⟨hsep', hrest'⟩ := append_inj (append_cancel_left hrest) hsep
  rw [multisigScript_eq hkey1 hkey2, hhead', hsep', append_cancel_left hrest']

theorem slice_multisigScript_key1 (h1 : key1.length = 33) (h2 : key2.length = 33) :
    slice (multisigScript key1 key2) pubkey1Offset pubkeyLength = key1 := by
  rw [multisigScript_eq h1 h2]
  simp [slice, pubkey1Offset, pubkeyLength, drop_append, h1]

theorem slice_multisigScript_key2 (h1 : key1.length = 33) (h2 : key2.length = 33) :
    slice (multisigScript key1 key2) pubkey2Offset pubkeyLength = key2 := by
  rw [multisigScript_eq h1 h2]
  simp [slice, pubkey1Offset, pubkey2Offset, pubkeyLength, drop_append, take_append, h1, h2]

theorem readPubkeysFromMultisigRedeemscript_multisigScript {pubkeys} (h1 : key1.length = 33)
    (h2 : key2.length = 33) :
    readPubkeysFromMultisigRedeemscript P (multisigScript key1 key2) = .ok pubkeys ↔
      Prims.PublicKey.fromSlice P key1 = some pubkeys.1 ∧
      Prims.PublicKey.fromSlice P key2 = some pubkeys.2 := by
  have hlen : pubkey2Offset + pubkeyLength ≤ (multisigScript key1 key2).length := by
    rw [multisigScript_eq h1 h2]
    simp [pubkey1Offset, pubkey2Offset, pubkeyLength, h1, h2]
  simp only [readPubkeysFromMultisigRedeemscript, bind_ok_iff, ensure_eq_ok, okOr_eq_ok,
    slice_multisigScript_key1 h1 h2, slice_multisigScript_key2 h1 h2]
  constructor
  · rintro ⟨_, -, k1, hk1, k2, hk2, hk⟩
    cases hk
    exact ⟨hk1, hk2⟩
  · rintro ⟨hk1, hk2⟩
    exact ⟨(), hlen, _, hk1, _, hk2, rfl⟩

theorem multisigScript_inj {a c d} (ha : a.length = 33) (hb : b.length = 33) (hc : c.length = 33)
    (hd : d.length = 33) (h : multisigScript a b = multisigScript c d) :
    a = c ∧ b = d := by
  rw [multisigScript_eq ha hb, multisigScript_eq hc hd] at h
  obtain ⟨hac, h⟩ := append_inj (append_cancel_left h) (ha.trans hc.symm)
  obtain ⟨hbd, -⟩ := append_inj (append_cancel_left h) (hb.trans hd.symm)
  exact ⟨hac, hbd⟩

theorem eq_of_not_keyLt {b} (ha : a.compressed) (hb : b.compressed)
    (hab : ¬ keyLt a b) (hba : ¬ keyLt b a) : a = b := by
  have hser : P.serialize a.inner = P.serialize b.inner := List.le_antisymm hba hab
  have hinner := Prims.serialize_injective hser
  cases a
  cases b
  simp_all

theorem createMultisigRedeemscript_comm {b} (ha : a.compressed) (hb : b.compressed) :
    createMultisigRedeemscript a b = createMultisigRedeemscript b a := by
  rw [createMultisigRedeemscript_eq, createMultisigRedeemscript_eq]
  by_cases hab : keyLt a b
  · have hba : ¬ keyLt b a := List.lt_asymm hab
    rw [if_pos hab, if_neg hba]
  · by_cases hba : keyLt b a
    · rw [if_neg hab, if_pos hba]
    · rw [eq_of_not_keyLt ha hb hab hba]

/-- **The script rebuilt from the two keys of a template match** is the script
itself exactly when its keys stand in ascending order. -/
theorem createMultisigRedeemscript_eq_iff (h1 : Prims.PublicKey.fromSlice P key1 = some pubkey1)
    (h2 : Prims.PublicKey.fromSlice P key2 = some pubkey2) :
    createMultisigRedeemscript pubkey1 pubkey2 = multisigScript key1 key2 ↔ key1 ≤ key2 := by
  have hc1 := Prims.PublicKey.compressed_of_fromSlice h1
  have hc2 := Prims.PublicKey.compressed_of_fromSlice h2
  have hb1 := Prims.PublicKey.toBytes_of_fromSlice h1
  have hb2 := Prims.PublicKey.toBytes_of_fromSlice h2
  have hs1 : P.serialize pubkey1.inner = key1 := by simpa [Prims.PublicKey.toBytes, hc1] using hb1
  have hs2 : P.serialize pubkey2.inner = key2 := by simpa [Prims.PublicKey.toBytes, hc2] using hb2
  have hl1 : key1.length = 33 := hs1 ▸ P.serialize_length _
  have hl2 : key2.length = 33 := hs2 ▸ P.serialize_length _
  have hkeyLt : keyLt pubkey1 pubkey2 ↔ key1 < key2 := by rw [keyLt, hs1, hs2]
  rw [createMultisigRedeemscript_eq, hb1, hb2]
  by_cases hlt : key1 < key2
  · rw [if_pos (hkeyLt.mpr hlt)]
    exact ⟨fun _ => List.lt_asymm hlt, fun _ => rfl⟩
  · rw [if_neg (mt hkeyLt.mp hlt)]
    constructor
    · intro h
      rw [(multisigScript_inj hl2 hl1 hl1 hl2 h).1]
      exact List.le_refl _
    · intro hle
      rw [List.le_antisymm hle hlt]

/-- **The script rebuilt from one's own key and the other one** of a template match is the
script itself when its keys stand in ascending order. -/
theorem rebuilt_multisig_eq {myPubkey} (htemplate : checkRedeemscriptIsMultisig P script = .ok ())
    (hread : readPubkeysFromMultisigRedeemscript P script = .ok (pubkey1, pubkey2))
    (hown : pubkey1 = myPubkey ∨ pubkey2 = myPubkey)
    (hasc : slice script pubkey1Offset pubkeyLength ≤ slice script pubkey2Offset pubkeyLength) :
    createMultisigRedeemscript myPubkey (if pubkey1 = myPubkey then pubkey2 else pubkey1) = script ∧
      (if pubkey1 = myPubkey then pubkey2 else pubkey1).compressed = true := by
  obtain ⟨key1, key2, hlen1, hlen2, rfl⟩ := checkRedeemscriptIsMultisig_ok htemplate
  rw [readPubkeysFromMultisigRedeemscript_multisigScript hlen1 hlen2] at hread
  obtain ⟨hparse1, hparse2⟩ := hread
  have hc1 := Prims.PublicKey.compressed_of_fromSlice hparse1
  have hc2 := Prims.PublicKey.compressed_of_fromSlice hparse2
  rw [slice_multisigScript_key1 hlen1 hlen2, slice_multisigScript_key2 hlen1 hlen2] at hasc
  rw [← (createMultisigRedeemscript_eq_iff hparse1 hparse2).mpr hasc]
  split
  · rename_i heq
    exact ⟨by rw [heq], hc2⟩
  · rename_i hne
    rw [← hown.resolve_left hne, createMultisigRedeemscript_comm hc2 hc1]
    exact ⟨rfl, hc1⟩

theorem length_toBytes_le (k : P.PublicKey) : k.toBytes.length ≤ 65 := by
  unfold Prims.PublicKey.toBytes
  split
  · rw [P.serialize_length]; omega
  · rw [P.serializeUncompressed_length]

theorem collect_createMultisigRedeemscript (key1 key2 : P.PublicKey) :
    collect (instructions (createMultisigRedeemscript key1 key2)) =
      .ok (if keyLt key1 key2 then twoOfTwo key1.toBytes key2.toBytes
        else twoOfTwo key2.toBytes key1.toBytes) := by
  have hpair : ∀ a b : P.PublicKey, collect (instructions (encode (twoOfTwo a.toBytes b.toBytes))) =
      .ok (twoOfTwo a.toBytes b.toBytes) := by
    intro a b
    have hla := length_toBytes_le a
    have hlb := length_toBytes_le b
    refine (congrArg collect (instructions_encode ?_)).trans (collect_map_ok _)
    intro i hi
    simp only [twoOfTwo, mem_cons, not_mem_nil, or_false] at hi
    rcases hi with rfl | rfl | rfl | rfl | rfl
    · exact (by decide : 0x4e < Opcode.pushNum2.toNat)
    · show a.toBytes.length < 2 ^ 32
      omega
    · show b.toBytes.length < 2 ^ 32
      omega
    · exact (by decide : 0x4e < Opcode.pushNum2.toNat)
    · exact (by decide : 0x4e < Opcode.checkMultiSig.toNat)
  unfold createMultisigRedeemscript
  split
  · exact hpair key1 key2
  · exact hpair key2 key1

theorem keyLt_swap {key1 key2 : P.PublicKey} (hne : key1.inner ≠ key2.inner) :
    keyLt key2 key1 ↔ ¬ keyLt key1 key2 := by
  constructor
  · intro hlt
    exact List.lt_asymm hlt
  · intro hle
    by_contra hge
    exact hne (Prims.serialize_injective (List.le_antisymm hge hle))

/-- **The two signatures stand in the order of the script.**  Keys of two points give one
script and one witness in either order, and the script accepts that witness. -/
theorem two_signatures_accepted {key1 key2 : P.PublicKey} {sig1 sig2 : EcdsaSig} (input : TxIn)
    (hne : key1.inner ≠ key2.inner) (h1 : ctx.sigOk key1.toBytes sig1.toBytes)
    (h2 : ctx.sigOk key2.toBytes sig2.toBytes) :
    createMultisigRedeemscript key2 key1 = createMultisigRedeemscript key1 key2 ∧
      (∀ script, applyTwoSignaturesTo2of2MultisigSpend key2 key1 sig2 sig1 input script =
        applyTwoSignaturesTo2of2MultisigSpend key1 key2 sig1 sig2 input script) ∧
      ∃ instrs first second,
        collect (instructions (createMultisigRedeemscript key1 key2)) = .ok instrs ∧
        (applyTwoSignaturesTo2of2MultisigSpend key1 key2 sig1 sig2 input
          (createMultisigRedeemscript key1 key2)).witness =
          input.witness ++ [[], first, second, createMultisigRedeemscript key1 key2] ∧
        run ctx instrs [] [second, first, []] = some [ofBool true] := by
  have hswap := keyLt_swap hne
  refine ⟨?_, ?_, _, _, _, collect_createMultisigRedeemscript key1 key2, rfl, ?_⟩
  · unfold createMultisigRedeemscript
    by_cases hlt : keyLt key1 key2 <;> simp [hswap, hlt]
  · intro script
    unfold applyTwoSignaturesTo2of2MultisigSpend
    by_cases hlt : keyLt key1 key2 <;> simp [hswap, hlt]
  · by_cases hlt : keyLt key1 key2 <;> simp [hlt, run_twoOfTwo, h1, h2]

theorem two_signatures_accepted_table :
    let key1 : Tables.empty.prims.PublicKey := ⟨true, TablePoint.mul 2⟩
    let key2 : Tables.empty.prims.PublicKey := ⟨true, TablePoint.mul 1⟩
    let ctx : SpendCtx := ⟨id, id, fun key sig => (key, sig) ∈
      [(key1.toBytes, [7, 1]), (key2.toBytes, [8, 1])], 2, 0, 0, []⟩
    ∃ instrs first second, collect (instructions (createMultisigRedeemscript key1 key2)) =
      .ok instrs ∧ run ctx instrs [] [second, first, []] = some [ofBool true] := by
  intro key1 key2 ctx
  obtain ⟨-, -, instrs, first, second, hinstrs, -, hrun⟩ := @two_signatures_accepted
    Tables.empty.prims ctx key1 key2 ⟨[7], 1⟩ ⟨[8], 1⟩ ⟨⟨[], 0⟩, [], 0, []⟩
    (by decide) (by decide) (by decide)
  exact ⟨instrs, first, second, hinstrs, hrun⟩

/-! ## The hash time lock -/

def contractInstrs (hashlockKey timelockKey hashvalue : Bytes) (locktime : Nat) : List Instr :=
  [.op Opcode.size, .op Opcode.swap, .op Opcode.hash160, .push hashvalue, .op Opcode.equal,
    .op Opcode.opIf, .push hashlockKey, intInstr 32, intInstr 0,
    .op Opcode.opElse, .push timelockKey, intInstr 0, intInstr locktime, .op Opcode.opEndIf,
    .op Opcode.csv, .op Opcode.drop, .op Opcode.rot, .op Opcode.equalVerify,
    .op Opcode.checkSig]

def createContractRedeemscript (pubHashlock pubTimelock : P.PublicKey) (hashvalue : Bytes)
    (locktime : Nat) : Bytes :=
  encode (contractInstrs pubHashlock.toBytes pubTimelock.toBytes hashvalue locktime)

/-- The instruction at a position of the iterator, with both ways to miss it. -/
def instrAt (i : Nat) : Except ProtocolError Instr :=
  match (instructions redeemscript)[i]? with
  | none => .error (.general "contract redeemscript too short")
  | some (.error _) => .error .scriptError
  | some (.ok instr) => .ok instr

def minHashvLen : Nat := 25

def readHashvalueFromContract : Except ProtocolError Bytes := do
  ensure (minHashvLen ≤ redeemscript.length) (.general "Contract redeemscript too short!")
  ensure ((← instrAt redeemscript 2) = .op Opcode.hash160) (.general "Hash is not present!")
  match ← instrAt redeemscript 3 with
  | .op _ => .error (.general "Invalid script!")
  | .push hash => do
    ensure (hash.length = 20) .scriptError
    .ok hash

def locktimeUnreadable : ProtocolError :=
  .general "Can't read locktime value from contract redeemscript"

def readContractLocktime : Except ProtocolError Nat := do
  match ← instrAt redeemscript 12 with
  | .push bytes =>
    if bytes.length = 1 then .ok (leNat bytes)
    else if bytes.length = 2 ∨ bytes.length = 3 then do
      ensure ((bytes.drop 2).all (· = 0)) locktimeUnreadable
      .ok (leNat (bytes.take 2))
    else .error locktimeUnreadable
  | .op code =>
    match Opcode.pushNum code with
    | none => .error locktimeUnreadable
    | some n => if 0 ≤ n then .ok n.toNat else .error locktimeUnreadable

def readHashlockPubkeyFromContract (P : Prims) (redeemscript : Bytes) :
    Except ProtocolError P.PublicKey := do
  ensure (61 ≤ redeemscript.length) (.general "Contract redeemscript too short")
  okOr (Prims.PublicKey.fromSlice P (slice redeemscript 27 33)) .secp

def checkHashlockHasPubkey (contractRedeemscript : Bytes) (tweakablePoint : P.PublicKey)
    (nonce : P.SecretKey) : Except ProtocolError Unit := do
  let contractHashlockPubkey ← readHashlockPubkeyFromContract P contractRedeemscript
  let derivedHashlockPubkey ← calculatePubkeyFromNonce tweakablePoint nonce
  ensure (contractHashlockPubkey = derivedHashlockPubkey)
    (.general "Contract hashlock pubkey doesn't match with key derived from nonce")

/-! ### What a contract script accepts -/

theorem contractInstrs_wellFormed (hh : hashlockKey.length < 2 ^ 32)
    (ht : timelockKey.length < 2 ^ 32) (hv : hashvalue.length < 2 ^ 32) (hl : locktime < 2 ^ 32) :
    ∀ i ∈ contractInstrs hashlockKey timelockKey hashvalue locktime, i.WellFormed := by
  have h32 := intInstr_wellFormed (n := 32) (by decide)
  have h0 := intInstr_wellFormed (n := 0) (by decide)
  have hn := intInstr_wellFormed hl
  have hop : ∀ code : UInt8, 0x4e < code.toNat → (Instr.op code).WellFormed := fun _ h => h
  intro i hi
  simp only [contractInstrs, mem_cons, not_mem_nil, or_false] at hi
  rcases hi with rfl | rfl | rfl | rfl | rfl | rfl | rfl | rfl | rfl | rfl | rfl | rfl | rfl | rfl |
    rfl | rfl | rfl | rfl | rfl
  all_goals first | assumption | exact hop _ (by decide)

/-- **A contract script reads back** as the instructions it was built from. -/
theorem instructions_createContractRedeemscript {pubHashlock pubTimelock : P.PublicKey}
    (hv : hashvalue.length < 2 ^ 32) (hl : locktime < 2 ^ 32) :
    instructions (createContractRedeemscript pubHashlock pubTimelock hashvalue locktime) =
      (contractInstrs pubHashlock.toBytes pubTimelock.toBytes hashvalue locktime).map .ok := by
  have h1 := length_toBytes_le pubHashlock
  have h2 := length_toBytes_le pubTimelock
  exact instructions_encode (contractInstrs_wellFormed (by omega) (by omega) hv hl)

/-- The conditional of a contract leaves the lock, the length and the key of its branch. -/
theorem run_contract_branch (equal : Bool) :
    run ctx (.op Opcode.opIf :: .push hashlockKey :: intInstr 32 :: intInstr 0 ::
      .op Opcode.opElse :: .push timelockKey :: intInstr 0 :: intInstr locktime ::
      .op Opcode.opEndIf :: rest) [] (ofBool equal :: st) =
    run ctx rest [] (if equal then [] :: [0x20] :: hashlockKey :: st
      else scriptNum locktime :: [] :: timelockKey :: st) := by
  have hif : ∀ is, run ctx (.op Opcode.opIf :: is) [] (ofBool equal :: st) =
      run ctx is [equal] st := by cases equal <;> exact fun _ => rfl
  have helse : ∀ is st, run ctx (.op Opcode.opElse :: is) [equal] st = run ctx is [!equal] st :=
    fun _ _ => rfl
  have hendif : ∀ is st, run ctx (.op Opcode.opEndIf :: is) [!equal] st = run ctx is [] st :=
    fun _ _ => rfl
  rw [hif, run_pushes_cond rfl, run_pushes_cond intInstr_pushes, run_pushes_cond intInstr_pushes,
    helse, run_pushes_cond rfl, run_pushes_cond intInstr_pushes, run_pushes_cond intInstr_pushes,
    hendif]
  cases equal <;> rfl

theorem run_contract_checks {lock required key length} :
    run ctx (.op Opcode.csv :: .op Opcode.drop :: .op Opcode.rot :: .op Opcode.equalVerify :: rest)
      [] (lock :: required :: key :: length :: st) =
    if csvOk ctx lock = true ∧ length = required then run ctx rest [] (key :: st) else none := by
  rw [run_op .csv rfl rfl]
  by_cases hcsv : csvOk ctx lock = true
  · simp only [exec, hcsv, ↓reduceIte, bind_some, true_and]
    rw [run_op .drop rfl rfl]
    simp only [exec, bind_some]
    rw [run_op .rot rfl rfl]
    simp only [exec, bind_some]
    rw [run_op .equalVerify rfl rfl]
    by_cases hlen : length = required
    · simp only [exec, hlen, ↓reduceIte, bind_some]
    · simp only [exec, hlen, ↓reduceIte, bind_none]
  · simp only [exec, hcsv, Bool.false_eq_true, ↓reduceIte, bind_none, false_and]

theorem run_contract :
    run ctx ((contractInstrs hashlockKey timelockKey hashvalue locktime).dropLast ++ rest) []
      (x :: st) =
    if ctx.hash160 x = hashvalue then
      if csvOk ctx [] = true ∧ scriptNum x.length = [0x20] then
        run ctx rest [] (hashlockKey :: st) else none
    else
      if csvOk ctx (scriptNum locktime) = true ∧ scriptNum x.length = [] then
        run ctx rest [] (timelockKey :: st) else none := by
  simp only [contractInstrs, dropLast_cons_cons, dropLast_singleton, cons_append, nil_append]
  rw [run_op .size rfl rfl]
  simp only [exec, bind_some]
  rw [run_op .swap rfl rfl]
  simp only [exec, bind_some]
  rw [run_op .hash160 rfl rfl]
  simp only [exec, bind_some, run_push]
  rw [run_op .equal rfl rfl]
  simp only [exec, bind_some]
  rw [run_contract_branch]
  by_cases hhash : ctx.hash160 x = hashvalue
  · rw [if_pos hhash, if_pos (by simp [hhash]), run_contract_checks]
  · rw [if_neg hhash, if_neg (by simpa using Ne.symm hhash), run_contract_checks]

/-- A spend through the hash branch: a 32-byte preimage, a signature of the receiver and a
sequence number that counts blocks. -/
structure HashBranch (ctx : SpendCtx) (hashlockKey hashvalue sig x : Bytes) : Prop where
  hash : ctx.hash160 x = hashvalue
  length : x.length = 32
  sig : ctx.sigOk hashlockKey sig
  enabled : ctx.sequence.testBit 31 = false
  blocks : ctx.sequence.testBit 22 = false

/-- A spend through the timelock branch: an empty item, a signature of the sender and a
relative lock of at least the contract's blocks. -/
structure TimelockBranch (ctx : SpendCtx) (timelockKey hashvalue : Bytes) (locktime : Nat)
    (sig x : Bytes) : Prop where
  hash : ctx.hash160 x ≠ hashvalue
  empty : x = []
  sig : ctx.sigOk timelockKey sig
  enabled : ctx.sequence.testBit 31 = false
  blocks : ctx.sequence.testBit 22 = false
  mature : locktime ≤ ctx.sequence % 2 ^ 16

theorem run_contractInstrs :
    run ctx (contractInstrs hashlockKey timelockKey hashvalue locktime) [] st =
      match st with
      | x :: sig :: st =>
        if ctx.hash160 x = hashvalue then
          if csvOk ctx [] = true ∧ scriptNum x.length = [0x20] then
            some (ofBool (ctx.sigOk hashlockKey sig) :: st) else none
        else
          if csvOk ctx (scriptNum locktime) = true ∧ scriptNum x.length = [] then
            some (ofBool (ctx.sigOk timelockKey sig) :: st) else none
      | _ => none := by
  have hcheck : ∀ key : Bytes, run ctx [.op Opcode.checkSig] [] [key] = none := fun _ => rfl
  change run ctx ((contractInstrs hashlockKey timelockKey hashvalue locktime).dropLast ++
    [.op Opcode.checkSig]) [] st = _
  rcases st with _ | ⟨x, _ | ⟨sig, st⟩⟩
  · rfl
  · rw [run_contract, hcheck, hcheck]
    simp
  · rw [run_contract]
    rfl

theorem scriptNum_length_iff {n} (hx : x.length ≤ maxElementSize) (hn : n < 2 ^ 64) :
    scriptNum x.length = scriptNum n ↔ x.length = n :=
  ⟨scriptNum_inj (Nat.lt_of_le_of_lt hx (by decide)) hn, fun h => h ▸ rfl⟩

/-- **What a contract accepts**: two items, for one of its branches, in a transaction whose
version has relative locks. -/
theorem satisfies_contract {ctx script hashlockKey timelockKey hashvalue locktime stack}
    (hs : collect (instructions script) =
      .ok (contractInstrs hashlockKey timelockKey hashvalue locktime)) (hlock : locktime < 2 ^ 16) :
    satisfies ctx script stack ↔
      2 ≤ ctx.version ∧ ∃ sig x, stack = [sig, x] ∧ sig.length ≤ maxElementSize ∧
        (HashBranch ctx hashlockKey hashvalue sig x ∨
          TimelockBranch ctx timelockKey hashvalue locktime sig x) := by
  have h0 : csvOk ctx [] = true ↔
      2 ≤ ctx.version ∧ ctx.sequence.testBit 31 = false ∧ ctx.sequence.testBit 22 = false := by
    rw [show ([] : Bytes) = scriptNum 0 from rfl, csvOk_scriptNum (by decide)]
    simp
  simp only [satisfies, hs, run_contractInstrs, Bool.and_eq_true, h0, csvOk_scriptNum hlock]
  constructor
  · rintro ⟨hlen, hrun⟩
    rcases hst : stack.reverse with _ | ⟨x, _ | ⟨sig, st⟩⟩ <;> rw [hst] at hrun
    · cases hrun
    · cases hrun
    · obtain rfl : stack = st.reverse ++ [sig, x] := by
        rw [← reverse_reverse stack, hst]
        simp
      obtain ⟨-, hsig, hx⟩ : (∀ item ∈ st, item.length ≤ maxElementSize) ∧
          sig.length ≤ maxElementSize ∧ x.length ≤ maxElementSize := by simpa using hlen
      dsimp only at hrun
      split_ifs at hrun with hhash hbranch hbranch
      · obtain ⟨⟨hversion, h31, h22⟩, hsize⟩ := hbranch
        cases st with
        | cons _ _ => cases hrun
        | nil =>
          have h32 : x.length = 32 := (scriptNum_length_iff hx (by decide)).mp hsize
          exact ⟨hversion, sig, x, rfl, hsig, .inl ⟨hhash, h32, by simpa using hrun, h31, h22⟩⟩
      · obtain ⟨⟨hversion, h31, h22, hle⟩, hsize⟩ := hbranch
        cases st with
        | cons _ _ => cases hrun
        | nil =>
          have hnil : x.length = 0 := (scriptNum_length_iff (n := 0) hx (by decide)).mp hsize
          exact ⟨hversion, sig, x, rfl, hsig, .inr ⟨hhash, length_eq_zero_iff.mp hnil,
            by simpa using hrun, h31, h22, hle⟩⟩
  · rintro ⟨hversion, sig, x, rfl, hsig, hbranch | hbranch⟩
    · have hx : x.length ≤ maxElementSize := by
        rw [hbranch.length]
        decide
      have hsize : scriptNum x.length = [0x20] := by
        rw [hbranch.length]
        rfl
      simp [hsig, hx, hversion, hbranch.hash, hbranch.enabled, hbranch.blocks, hsize, hbranch.sig]
    · obtain rfl := hbranch.empty
      have hmature : locktime ≤ ctx.sequence % 65536 := hbranch.mature
      simp [hsig, hbranch.hash, hversion, hbranch.enabled, hbranch.blocks, hmature, scriptNum,
        hbranch.sig]

theorem run_contract_hash (hhash : ctx.hash160 preimage = hashvalue) :
    run ctx ((contractInstrs hashlockKey timelockKey hashvalue locktime).dropLast ++ rest) []
      [preimage, sig] =
    if csvOk ctx [] = true ∧ scriptNum preimage.length = [0x20] then
      run ctx rest [] [hashlockKey, sig] else none := by
  rw [run_contract, if_pos hhash]

/-- **The hash branch** of a contract takes a 32-byte preimage and a signature under
the hashlock key, and nothing else. -/
theorem satisfies_contract_hash (hs : collect (instructions script) =
      .ok (contractInstrs hashlockKey timelockKey hashvalue locktime))
    (hhash : ctx.hash160 preimage = hashvalue) :
    satisfies ctx script [sig, preimage] ↔
      sig.length ≤ maxElementSize ∧ preimage.length = 32 ∧ csvOk ctx [] ∧
        ctx.sigOk hashlockKey sig = true := by
  simp only [satisfies, hs, reverse_cons, reverse_nil, nil_append,
    cons_append, run_contractInstrs, if_pos hhash, all_cons, all_nil, Bool.and_true,
    Bool.and_eq_true, decide_eq_true_eq]
  constructor
  · rintro ⟨⟨hsig, hle⟩, h⟩
    split_ifs at h with hbranch
    have h32 : preimage.length = 32 := (scriptNum_length_iff hle (by decide)).mp hbranch.2
    exact ⟨hsig, h32, hbranch.1, by simpa using h⟩
  · rintro ⟨hsig, hlen, hcsv, hok⟩
    have h32 : scriptNum preimage.length = [0x20] := by
      rw [hlen]
      rfl
    refine ⟨⟨hsig, by rw [hlen]; decide⟩, ?_⟩
    rw [if_pos ⟨hcsv, h32⟩]
    simpa using hok

/-! ## Contract transactions -/

def redeemscriptToScriptpubkey (P : Prims) (redeemscript : Bytes) : Bytes := p2wsh P redeemscript

def createSendersContractTx (P : Prims) (input : OutPoint) (inputValue : Nat)
    (contractRedeemscript : Bytes) (feeRate : Nat) : Except ProtocolError Transaction := do
  let feeAmount ← okOr (feeAtRateSats contractTxVsize feeRate)
    (.general "Contract tx fee rate cannot be priced")
  let contractValue ← okOr (checkedSub inputValue feeAmount)
    (.general "Funding output below contract tx fee")
  let scriptPubkey := redeemscriptToScriptpubkey P contractRedeemscript
  ensure (minimalNonDust scriptPubkey ≤ contractValue)
    (.general "Contract output below the dust threshold")
  .ok {
    input := [{ previousOutput := input, sequence := 0, witness := [], scriptSig := [] }]
    output := [{ scriptPubkey := scriptPubkey, value := contractValue }]
    lockTime := 0
    version := 2 }

def createReceiversContractTx (P : Prims) (input : OutPoint) (inputValue : Nat)
    (contractRedeemscript : Bytes) (feeRate : Nat) : Except ProtocolError Transaction :=
  createSendersContractTx P input inputValue contractRedeemscript feeRate

/-- The contract transaction as it is built: one input, one output, final at once. -/
def mkContractTx (input : OutPoint) (value : Nat) (scriptPubkey : Bytes) : Transaction where
  version := 2
  lockTime := 0
  input := [{ previousOutput := input, sequence := 0, witness := [], scriptSig := [] }]
  output := [{ scriptPubkey := scriptPubkey, value := value }]

/-- **The contract transaction** pays the funding value less the fee of its size. -/
theorem createSendersContractTx_ok {input inputValue feeRate contractRedeemscript tx} :
    createSendersContractTx P input inputValue contractRedeemscript feeRate = .ok tx ↔
      ∃ fee, feeAtRateSats contractTxVsize feeRate = some fee ∧ fee + 330 ≤ inputValue ∧
        tx = mkContractTx input (inputValue - fee) (p2wsh P contractRedeemscript) := by
  simp only [createSendersContractTx, redeemscriptToScriptpubkey, minimalNonDust_p2wsh,
    bind_ok_iff, okOr_eq_ok, ensure_eq_ok, checkedSub, ite_none_right_eq_some,
    Option.some.injEq]
  constructor
  · rintro ⟨fee, hfee, value, ⟨hle, rfl⟩, _, hdust, htx⟩
    cases htx
    exact ⟨fee, hfee, by omega, rfl⟩
  · rintro ⟨fee, hfee, hle, rfl⟩
    exact ⟨fee, hfee, _, ⟨by omega, rfl⟩, (), by omega, rfl⟩

def isContractOutValid (contractOutput : TxOut) (hashlockPubkey timelockPubkey : P.PublicKey)
    (hashvalue : Bytes) (locktime minimumLocktime : Nat) : Except ProtocolError Unit := do
  ensure (minimumLocktime ≤ locktime) (.general "Locktime too short")
  let redeemscript := createContractRedeemscript hashlockPubkey timelockPubkey hashvalue locktime
  ensure (contractOutput.scriptPubkey = redeemscriptToScriptpubkey P redeemscript)
    (.general "Given transaction does not pay to requested contract")

def validateContractTx (P : Prims) (receiversContractTx : Transaction)
    (fundingOutpoint : Option OutPoint) (contractRedeemscript : Bytes) :
    Except ProtocolError Unit :=
  match receiversContractTx.input, receiversContractTx.output with
  | [txin], [txout] => do
    ensure (∀ op ∈ fundingOutpoint, txin.previousOutput = op)
      (.general "Not spending the funding outpoint")
    ensure (txout.scriptPubkey = redeemscriptToScriptpubkey P contractRedeemscript)
      (.general "Doesn't pay to requested contract")
  | _, _ => .error (.general "Invalid number of inputs or outputs")

def contractSighash (P : Prims) (contractTx : Transaction) (multisigRedeemscript : Bytes)
    (fundingAmount : Nat) : Except ProtocolError Bytes := do
  ensure (contractTx.input ≠ []) .scriptError
  .ok (P.sighash contractTx 0 multisigRedeemscript fundingAmount sighashAll)

def signContractTx (contractTx : Transaction) (multisigRedeemscript : Bytes)
    (fundingAmount : Nat) (privkey : P.SecretKey) : Except ProtocolError EcdsaSig := do
  let sighash ← contractSighash P contractTx multisigRedeemscript fundingAmount
  .ok { signature := P.sign privkey sighash, sighashType := sighashAll }

def verifyContractTxSig (contractTx : Transaction) (multisigRedeemscript : Bytes)
    (fundingAmount : Nat) (pubkey : P.PublicKey) (sig : Bytes) : Except ProtocolError Unit := do
  let sighash ← contractSighash P contractTx multisigRedeemscript fundingAmount
  ensure (P.verify pubkey.inner sighash sig) .secp

/-- Sum claimed amounts; the error is the first amount that breaks the cap. -/
def sumClaimedAmounts : List Nat → Nat → Except Nat Nat
  | [], total => .ok total
  | amount :: rest, total =>
    if maxMoney < amount ∨ maxMoney < total + amount then .error amount
    else sumClaimedAmounts rest (total + amount)

end OpenSwap
