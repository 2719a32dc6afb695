import OpenSwap.Btc.Interp
import OpenSwap.Btc.Tx

/-!
# Spending a script hash output

What makes an input of a transaction a valid spend of a version-0 script hash output:
the witness ends with the script whose hash the output pays, and its other items
satisfy the script, with every signature checked over the digest of this input.
-/

namespace Btc

variable (P : Prims)

/-- A signature as a witness carries it, against a compressed key: the last byte says
which digest of the input it is for. -/
def segwitSigOk (tx : Transaction) (i : Nat) (script : Bytes) (value : Nat)
    (key sig : Bytes) : Bool :=
  match P.parse key, sig.getLast? with
  | some point, some sighashType =>
    P.verify point (P.sighash tx i script value sighashType) sig.dropLast
  | _, _ => false

def segwitCtx (tx : Transaction) (i : Nat) (input : TxIn) (script : Bytes) (value : Nat) :
    SpendCtx where
  sha256 := P.sha256
  hash160 := P.hash160
  sigOk := segwitSigOk P tx i script value
  version := tx.version
  lockTime := tx.lockTime
  sequence := input.sequence
  otherSequences := (tx.input.eraseIdx i).map (·.sequence)

/-- Input `i` of the transaction is a valid spend of the output. -/
def spendsScriptHash (tx : Transaction) (i : Nat) (output : TxOut) : Bool :=
  match tx.input[i]? with
  | none => false
  | some input =>
    match input.witness.getLast? with
    | none => false
    | some script =>
      input.scriptSig = [] && output.scriptPubkey = p2wsh P script &&
        satisfies (segwitCtx P tx i input script output.value) script input.witness.dropLast

variable {P} {tx : Transaction} {i : Nat} {script : Bytes} {value : Nat} {ctx : SpendCtx}
  {key1 key2 sig1 sig2 : Bytes}

theorem spendsScriptHash_iff {input output stack} (hin : tx.input[i]? = some input)
    (hwit : input.witness = stack ++ [script]) :
    spendsScriptHash P tx i output ↔
      input.scriptSig = [] ∧ output.scriptPubkey = p2wsh P script ∧
        satisfies (segwitCtx P tx i input script output.value) script stack = true := by
  simp [spendsScriptHash, hin, hwit, and_assoc]

theorem segwitSigOk_toBytes {key : Bytes} {point : P.Point} {sig : EcdsaSig}
    (hkey : P.parse key = some point) :
    segwitSigOk P tx i script value key sig.toBytes =
      P.verify point (P.sighash tx i script value sig.sighashType) sig.signature := by
  simp [segwitSigOk, hkey, EcdsaSig.toBytes]

theorem length_of_segwitSigOk {key sig} (h : segwitSigOk P tx i script value key sig) :
    sig.length ≤ 73 := by
  unfold segwitSigOk at h
  split at h
  · have hlen := P.length_of_verify _ _ _ h
    rw [List.length_dropLast] at hlen
    omega
  · cases h

/-! ## Two of two -/

/-- `OP_2 <key> <key> OP_2 OP_CHECKMULTISIG`. -/
def twoOfTwo (key1 key2 : Bytes) : List Instr :=
  [.op Opcode.pushNum2, .push key1, .push key2, .op Opcode.pushNum2, .op Opcode.checkMultiSig]

theorem multiSigOk_two (ok : Bytes → Bytes → Bool) (key1 key2 sig1 sig2 : Bytes) :
    multiSigOk ok [key2, key1] [sig2, sig1] = (ok key1 sig1 && ok key2 sig2) := by
  cases h2 : ok key2 sig2 <;> cases h1 : ok key1 sig1 <;> cases h : ok key1 sig2 <;>
    simp [multiSigOk, h1, h2, h]

theorem run_twoOfTwo :
    run ctx (twoOfTwo key1 key2) [] [sig2, sig1, []] =
      some [ofBool (ctx.sigOk key1 sig1 && ctx.sigOk key2 sig2)] := by
  have hnum : ∀ is st, run ctx (.op Opcode.pushNum2 :: is) [] st = run ctx is [] ([2] :: st) :=
    fun _ _ => rfl
  rw [twoOfTwo, hnum, run_push, run_push, hnum, run_op .checkMultiSig rfl rfl, ← multiSigOk_two]
  rfl

/-- **A 2-of-2 script** takes a signature for each key, in the order of the keys. -/
theorem satisfies_twoOfTwo (hs : collect (instructions script) = .ok (twoOfTwo key1 key2)) :
    satisfies ctx script [[], sig1, sig2] ↔
      sig1.length ≤ maxElementSize ∧ sig2.length ≤ maxElementSize ∧
        ctx.sigOk key1 sig1 ∧ ctx.sigOk key2 sig2 = true := by
  simp [satisfies, hs, run_twoOfTwo, and_assoc]

end Btc
