import OpenSwap.Taker.LightningRecords
import OpenSwap.Wallet.RecoverySpends

/-!
# The preimage a spend shows

`extractPreimage` takes the first input whose witness has the shape of a claim, whatever
output that input spends.  In a valid transaction only two kinds of inputs can have the
shape: a claim, and an input of a witness version that has no rules yet.
-/

namespace OpenSwap

open Btc Checked

variable {P : Prims}

/-! ## Valid transactions -/

/-- BIP141: the version and the program of an output script. -/
def witnessProgram : Bytes → Option (Nat × Bytes)
  | code :: n :: program =>
    if (code = 0 ∨ 0x51 ≤ code ∧ code ≤ 0x60) ∧ n.toNat = program.length ∧ 2 ≤ n ∧ n ≤ 40 then
      some (if code = 0 then 0 else code.toNat - 0x50, program)
    else none
  | _ => none

/-- The program an input spends, the output's own or one nested in a script hash output. -/
def spentProgram (P : Prims) (input : TxIn) (output : TxOut) : Option (Bool × Nat × Bytes) :=
  match witnessProgram output.scriptPubkey, input.scriptSig with
  | some program, _ => some (false, program)
  | none, n :: redeem =>
    if n.toNat = redeem.length ∧
        output.scriptPubkey = [0xa9, 0x14] ++ P.hash160 redeem ++ [0x87] then
      (witnessProgram redeem).map (true, ·)
    else none
  | none, [] => none

/-- What consensus asks of the witness of input `i`, by the program it is for. -/
inductive InputValid (P : Prims) (sigOk : Bytes → Bytes → Bool) (tx : Transaction) (i : Nat)
    (input : TxIn) (output : TxOut) : Prop
  | legacy (h : spentProgram P input output = none) (hw : input.witness = [])
  | keyHash {nested key sig} (h : spentProgram P input output = some (nested, 0, P.hash160 key))
      (hw : input.witness = [sig, key])
  | scriptHash {nested script stack}
      (h : spentProgram P input output = some (nested, 0, P.sha256 script))
      (hw : input.witness = stack ++ [script])
      (hs : satisfies (inputCtx P sigOk tx i input) script stack)
  | keyPath {key sig annex} (h : spentProgram P input output = some (false, 1, key))
      (hkey : key.length = 32) (hw : input.witness = sig :: annex) (hannex : annex.length ≤ 1)
  | scriptPath {key leaf control stack annex}
      (h : spentProgram P input output = some (false, 1, key)) (hkey : key.length = 32)
      (hw : input.witness = stack ++ leaf :: control :: annex) (hannex : annex.length ≤ 1)
      (hcontrol : control.length % 32 = 1)
  | unknown {nested version program}
      (h : spentProgram P input output = some (nested, version, program)) (hv : version ≠ 0)
      (htaproot : version = 1 → nested ∨ program.length ≠ 32)

def TxValid (P : Prims) (sigOk : Nat → Bytes → Bytes → Bool) (prevout : OutPoint → TxOut)
    (tx : Transaction) : Prop :=
  ∀ i input, tx.input[i]? = some input →
    InputValid P (sigOk i) tx i input (prevout input.previousOutput)

/-- An input spends the script, and goes through the branch. -/
def SpendsThrough (P : Prims) (sigOk : Nat → Bytes → Bytes → Bool) (prevout : OutPoint → TxOut)
    (tx : Transaction) (script : Bytes) (branch : SpendCtx → Bytes → Bytes → Prop) : Prop :=
  ∃ i input nested sig x, tx.input[i]? = some input ∧
    spentProgram P input (prevout input.previousOutput) = some (nested, 0, P.sha256 script) ∧
    input.witness = [sig, x, script] ∧
    satisfies (inputCtx P (sigOk i) tx i input) script [sig, x] = true ∧
    branch (inputCtx P (sigOk i) tx i input) sig x

/-- The input spends an output of a witness version that has no rules yet. -/
def WithoutRules (P : Prims) (input : TxIn) (output : TxOut) : Prop :=
  ∃ nested version program, spentProgram P input output = some (nested, version, program) ∧
    version ≠ 0 ∧ (version = 1 → nested = true ∨ program.length ≠ 32)

/-- An input without rules that is the first of the shape of a claim shows a harmless value. -/
def NoDecoy (P : Prims) (prevout : OutPoint → TxOut) (tx : Transaction) (htlc : SwapHtlc)
    (harmless : Bytes → Prop) : Prop :=
  ∀ before input after, tx.input = before ++ input :: after →
    (∀ earlier ∈ before, htlc.shownPreimage earlier = none) →
    WithoutRules P input (prevout input.previousOutput) →
    ∀ x, htlc.shownPreimage input = some x → harmless x

variable {input : TxIn} {script : Bytes}

theorem spentProgram_p2wsh {value} :
    spentProgram P input ⟨value, p2wsh P script⟩ = some (false, 0, P.sha256 script) := by
  have h : p2wsh P script = 0 :: 32 :: P.sha256 script := by
    simp [p2wsh, encodeInstr, pushSlice, P.sha256_length]
  simp [spentProgram, witnessProgram, h, P.sha256_length]

namespace SwapHtlc

variable {htlc : SwapHtlc} {tx : Transaction}

theorem shownPreimage_eq_some {input x} :
    htlc.shownPreimage input = some x ↔
      (∃ sig, input.witness = [sig, x, htlc.redeemscript]) ∧ x.length = 32 := by
  unfold shownPreimage
  split
  · rename_i sig y script hw
    rw [hw]
    grind
  · rename_i hw
    exact ⟨nofun, fun ⟨⟨sig, hsig⟩, _⟩ => (hw _ _ _ hsig).elim⟩

/-- The first input of the shape of a claim shows the value. -/
theorem extractPreimage_eq_some {x} :
    htlc.extractPreimage tx = some x ↔ ∃ before input after, tx.input = before ++ input :: after ∧
      htlc.shownPreimage input = some x ∧ ∀ earlier ∈ before, htlc.shownPreimage earlier = none :=
  List.findSome?_eq_some_iff

theorem extractPreimage_isSome {input sig x} (hmem : input ∈ tx.input)
    (hw : input.witness = [sig, x, htlc.redeemscript]) (hx : x.length = 32) :
    (htlc.extractPreimage tx).isSome = true :=
  List.findSome?_isSome_iff.mpr
    ⟨input, hmem, by rw [shownPreimage_eq_some.mpr ⟨⟨sig, hw⟩, hx⟩]; rfl⟩

end SwapHtlc

theorem length_contractScript {pubHashlock pubTimelock : P.PublicKey} {hashvalue : Bytes}
    {locktime : Nat} (hhash : hashvalue.length = 20) (hlock : locktime ≤ 65535) :
    (createContractRedeemscript pubHashlock pubTimelock hashvalue locktime).length % 32 ≠ 1 := by
  have hkey : ∀ k : P.PublicKey, (pushSlice k.toBytes).length % 32 = 2 := fun k => by
    unfold Prims.PublicKey.toBytes
    split <;> simp [pushSlice, P.serialize_length, P.serializeUncompressed_length]
  have hint : (encodeInstr (intInstr locktime)).length ≤ 4 := by
    have hlen : (scriptNum locktime).length ≤ 3 := length_scriptNum_le (j := 2) (by omega)
    unfold intInstr
    split_ifs
    · simp [encodeInstr]
    · simp only [encodeInstr, pushSlice, show (scriptNum locktime).length ≤ 0x4b by omega,
        ↓reduceIte, List.length_cons]
      omega
  have h1 := hkey pubHashlock
  have h2 := hkey pubTimelock
  have h32 : (encodeInstr (intInstr 32)).length = 2 := rfl
  have h0 : (encodeInstr (intInstr 0)).length = 1 := rfl
  have hv : (pushSlice hashvalue).length = 21 := by simp [pushSlice, hhash]
  have hop : ∀ code, (encodeInstr (.op code)).length = 1 := fun _ => rfl
  have hpush : ∀ data, encodeInstr (.push data) = pushSlice data := fun _ => rfl
  simp only [createContractRedeemscript, contractInstrs, encode_cons, encode_nil,
    List.length_append, List.length_nil, hop, hpush, h32, h0, hv]
  omega

theorem InputValid.scriptHash_of_shape {sigOk : Bytes → Bytes → Bool} {tx : Transaction} {i : Nat}
    {output : TxOut} {sig x : Bytes} (h : InputValid P sigOk tx i input output)
    (hw : input.witness = [sig, x, script]) (hx : x.length = 32) (hscript : script.length % 32 ≠ 1)
    (hknown : ¬ WithoutRules P input output) :
    ∃ nested, spentProgram P input output = some (nested, 0, P.sha256 script) ∧
      satisfies (inputCtx P sigOk tx i input) script [sig, x] = true := by
  have hshape : input.witness = [sig, x] ++ [script] := hw
  cases h with
  | legacy _ hw' => simp [hw'] at hw
  | keyHash _ hw' => simp [hw'] at hw
  | scriptHash h hw' hs =>
    rw [hw'] at hshape
    obtain ⟨rfl, hlast⟩ := List.append_inj' hshape rfl
    cases hlast
    exact ⟨_, h, hs⟩
  | keyPath _ _ hw' hannex =>
    cases hw'.symm.trans hw
    simp at hannex
  | @scriptPath _ _ _ stack _ _ _ hw' hannex hcontrol =>
    -- the control block would be the script or, before an annex, the 32 bytes
    have heq := hw'.symm.trans hw
    rcases stack with _ | ⟨_, _ | ⟨_, stack⟩⟩
    · cases heq
      omega
    · cases heq
      exact absurd hcontrol hscript
    · have hlen := congrArg List.length heq
      simp at hlen
      omega
  | unknown h hv htaproot => exact absurd ⟨_, _, _, h, hv, htaproot⟩ hknown

namespace SampleLnTaker

/-- An input of a version without rules, with a witness of the shape of a claim. -/
def decoyTx : Transaction where
  version := 2
  lockTime := 0
  input := [⟨⟨List.replicate 32 0x0d, 0⟩, [], 0, [[], List.replicate 32 0x99, htlc.redeemscript]⟩]
  output := [⟨99700, receiveScript⟩]

def decoyOutput : TxOut := ⟨100000, 0x52 :: 32 :: List.replicate 32 0x0d⟩

theorem hash160_eq (b : Bytes) : prims.hash160 b = ripemd160 (prims.sha256 b) := by
  by_cases hb : b = preimage
  · subst hb
    decide +kernel
  by_cases hs : b = htlc.redeemscript
  · subst hs
    decide +kernel
  have h160 : prims.hash160 b = List.replicate 20 0 := by
    simp [prims, Tables.prims, tables, digest, hb]
  have h256 : prims.sha256 b = List.replicate 32 0 := by
    by_contra h
    simpa [tables, hb, hs] using @mem_of_digest_eq _ _ _ 32 tables.sha256 b _ rfl h
  rw [h160, h256]
  decide +kernel

end SampleLnTaker

end OpenSwap
