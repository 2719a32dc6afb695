import OpenSwap.Wallet.UtxoCache

/-!
# Building a spend

`spendCoinsTo` makes a transaction of given coins: a sweep, payments with change, or an
exact spend, which fixes what leaves the wallet and returns everything else.

* Signing is left abstract (`SpendEnv.sign`): it fills in witnesses (`SpendEnv.Signs`).
-/

namespace OpenSwap

open Btc Checked

/-! ## Sizes -/

def varIntLen (n : Nat) : Nat :=
  if n < 0xfd then 1 else if n ≤ 0xffff then 3 else if n ≤ 0xffffffff then 5 else 9

def inputBaseSize (input : TxIn) : Nat :=
  32 + 4 + (varIntLen input.scriptSig.length + input.scriptSig.length) + 4

def outputSize (output : TxOut) : Nat :=
  8 + (varIntLen output.scriptPubkey.length + output.scriptPubkey.length)

def witnessSize (witness : List Bytes) : Nat :=
  varIntLen witness.length + (witness.map fun item => varIntLen item.length + item.length).sum

variable (tx : Transaction)

def baseSize : Nat :=
  4 + (varIntLen tx.input.length + (tx.input.map inputBaseSize).sum) +
    (varIntLen tx.output.length + (tx.output.map outputSize).sum) + 4

def weight : Nat :=
  4 * baseSize tx + if tx.input.all (·.witness.isEmpty) then 0
    else 2 + (tx.input.map fun input => witnessSize input.witness).sum

/-- `tx.weight().to_vbytes_ceil()` -/
def vbytes : Nat := (weight tx + 3) / 4

def UtxoSpendInfo.estimateWitnessSize : UtxoSpendInfo → Nat
  | .seedCoin .p2wpkh | .sweptCoin .p2wpkh => 107
  | .seedCoin .p2tr | .sweptCoin .p2tr => 66
  | .incomingSwapCoin _ | .outgoingSwapCoin _ => 218
  | .timelockContract _ _ => 179
  | .hashlockContract _ _ => 211
  | .fidelityBondCoin _ _ => 115

def estimatedVsize (totalWitnessSize : Nat) : Nat :=
  (baseSize tx * 4 + totalWitnessSize + 2 + 3) / 4

/-! ## Spending -/

/-- A fee rate: whether it can be used, the fee of a size, and how it reads. -/
structure FeeRate where
  usable : Bool
  price : Nat → Option Nat
  text : String

def FeeRate.whole (feerate : Nat) : FeeRate where
  usable := decide (minRelayFeeRate ≤ feerate)
  price vbytes := feeAtRateSats vbytes feerate
  text := toString feerate

inductive SpendTarget
  | sweep (scriptPubkey : Bytes)
  | multi (outputs : List TxOut) (opReturnData : Option Bytes) (changeAddressType : AddressType)
  | exactSpend (outputs : List TxOut) (spend : Nat) (changeAddressType : AddressType)

structure SpendEnv where
  lockTime : Except WalletError Nat
  fidelityBond : Nat → Except WalletError OutPoint
  findOutgoingSwapcoin : Bytes → Option (OutPoint × Option Nat)
  findIncomingSwapcoin : Bytes → Option OutPoint
  nextInternalScript : AddressType → Except WalletError Bytes
  sign : Transaction → List UtxoSpendInfo → Except WalletError Transaction

def amountOverflow : WalletError := .general "Amount addition error"

/-- Amounts added up; the program stops on an overflow. -/
def addAmounts : List Nat → Nat → Except WalletError Nat
  | [], total => .ok total
  | amount :: rest, total => do
    let total ← okOr (checkedAdd64 total amount) amountOverflow
    addAmounts rest total

section Spend

variable (env : SpendEnv)

def coinInput (coin : Coin) : Except WalletError (TxIn × Nat) :=
  match coin.spendInfo with
  | .seedCoin _ | .sweptCoin _ | .incomingSwapCoin _ | .outgoingSwapCoin _ =>
    .ok (⟨coin.1, [], 0, []⟩, coin.entry.amount)
  | .fidelityBondCoin index inputValue => do
    let outpoint ← env.fidelityBond index
    .ok (⟨outpoint, [], 0, []⟩, inputValue)
  | .timelockContract multisigRedeemscript inputValue => do
    let (outpoint, timelock) ← okOr (env.findOutgoingSwapcoin multisigRedeemscript)
      (.general "outgoing swapcoin not found in wallet store")
    let timelock ← okOr timelock (.general "outgoing swapcoin has no timelock")
    .ok (⟨outpoint, [], timelock, []⟩, inputValue)
  | .hashlockContract multisigRedeemscript inputValue => do
    let outpoint ← okOr (env.findIncomingSwapcoin multisigRedeemscript)
      (.general "incoming swapcoin not found in wallet store")
    .ok (⟨outpoint, [], 0, []⟩, inputValue)

variable (fees : FeeRate)

def feeOverflow (vsize : Nat) : WalletError :=
  .general s!"fee at {fees.text} sat/vB overflows for a {vsize} vB transaction"

def addSweepOutput (tx : Transaction) (totalInput totalWitnessSize : Nat) (scriptPubkey : Bytes) :
    Except WalletError Transaction := do
  let vsize := estimatedVsize { tx with output := [⟨0, scriptPubkey⟩] } totalWitnessSize
  let fee ← okOr (fees.price vsize) (feeOverflow fees vsize)
  ensure (fee ≤ totalInput) (.insufficientFund totalInput fee)
  .ok { tx with output := [⟨totalInput - fee, scriptPubkey⟩] }

/-- An output that carries data: `OP_RETURN` and one push. -/
def opReturnScript (data : Bytes) : Bytes := 0x6a :: pushSlice data

def addPaymentOutputs (tx : Transaction) (totalInput totalWitnessSize : Nat)
    (outputs : List TxOut) (opReturnData : Option Bytes) (changeAddressType : AddressType) :
    Except WalletError Transaction := do
  let totalOutput ← addAmounts (outputs.map (·.value)) 0
  ensure (∀ data ∈ opReturnData, data.length < 2 ^ 32)
    (.general "Failed to add OP_RETURN data to transaction output")
  let paid := { tx with
    output := outputs ++ opReturnData.toList.map fun data => ⟨0, opReturnScript data⟩ }
  let internalSpk ← env.nextInternalScript changeAddressType
  -- priced with change whether or not there will be one
  let withChange := { paid with output := paid.output ++ [⟨0, internalSpk⟩] }
  let vsize := estimatedVsize withChange totalWitnessSize
  let fee ← okOr (fees.price vsize) (feeOverflow fees vsize)
  let remaining ← okOr ((checkedSub totalInput totalOutput).bind (checkedSub · fee))
    (.insufficientFund totalInput (totalOutput + fee))
  .ok (if minimalNonDust internalSpk < remaining then
    { paid with output := paid.output ++ [⟨remaining, internalSpk⟩] } else paid)

def exactSpendChange (totalInput totalOutput spend : Nat) : Except WalletError Nat := do
  ensure (totalOutput ≤ spend) (.general
    s!"outputs of {totalOutput} sats exceed the exact spend of {spend} sats")
  let change ← okOr (checkedSub totalInput spend) (.insufficientFund totalInput spend)
  ensure (¬ (0 < change ∧ change < p2trMinNonDustSats)) (.general
    s!"exact spend leaves {change} sats of change, below the dust limit")
  .ok change

def addExactOutputs (tx : Transaction) (totalInput : Nat) (outputs : List TxOut) (spend : Nat)
    (changeAddressType : AddressType) : Except WalletError Transaction := do
  let totalOutput ← (addAmounts (outputs.map (·.value)) 0).mapError fun _ =>
    .general "output amount overflow"
  let change ← exactSpendChange totalInput totalOutput spend
  if 0 < change then
    let internalSpk ← env.nextInternalScript changeAddressType
    .ok { tx with output := outputs ++ [⟨change, internalSpk⟩] }
  else .ok { tx with output := outputs }

/-- The fee of an exact spend is fixed up front; refuse one below its real size. -/
def checkExactSpendFee (fee txSize : Nat) : Except WalletError Unit := do
  let required ← okOr (fees.price txSize) (feeOverflow fees txSize)
  ensure (required ≤ fee) (.general
    s!"exact spend pays {fee} sats, below the {required} sats a {txSize} vB tx needs at {fees.text} sat/vB")

def checkSpendFee : SpendTarget → (actualFee txSize : Nat) → Except WalletError Unit
  | .exactSpend _ _ _, actualFee, txSize => checkExactSpendFee fees actualFee txSize
  | _, _, _ => .ok ()

def addOutputs (tx : Transaction) (totalInput totalWitnessSize : Nat) :
    SpendTarget → Except WalletError Transaction
  | .sweep scriptPubkey => addSweepOutput fees tx totalInput totalWitnessSize scriptPubkey
  | .multi outputs opReturnData changeAddressType =>
    addPaymentOutputs env fees tx totalInput totalWitnessSize outputs opReturnData changeAddressType
  | .exactSpend outputs spend changeAddressType =>
    addExactOutputs env tx totalInput outputs spend changeAddressType

def spendCoinsTo (coins : List Coin) (target : SpendTarget) : Except WalletError Transaction := do
  let lockTime ← env.lockTime
  let inputs ← collectM (coinInput env) coins
  let totalInput ← addAmounts (inputs.map Prod.snd) 0
  let totalWitnessSize := (coins.map (·.spendInfo.estimateWitnessSize)).sum
  ensure (fees.usable = true) (.general
    s!"feerate {fees.text} sat/vB must be finite and at least the 1 sat/vB relay floor")
  let unpaid : Transaction := ⟨2, lockTime, inputs.map Prod.fst, []⟩
  let tx ← addOutputs env fees unpaid totalInput totalWitnessSize target
  let signed ← env.sign tx (coins.map (·.spendInfo))
  let actualFee := totalInput - (signed.output.map (·.value)).sum
  checkSpendFee fees target actualFee (vbytes signed)
  .ok signed

end Spend

/-! ## Executing a plan -/

/-- `txid:vout`, the identifier in the byte order it is shown in. -/
def OutPoint.text (outpoint : OutPoint) : String :=
  s!"{hexString outpoint.txid.reverse}:{outpoint.vout}"

def plannedCoin (w : CoinStore) (outpoint : OutPoint) : Except WalletError Coin := do
  ensure (outpoint ∉ w.lockedUtxos)
    (.general s!"planned funding input {OutPoint.text outpoint} is locked")
  okOr ((w.listDescriptorUtxoSpendInfo ++ w.listSweptIncomingSwapUtxos).find? (·.1 = outpoint))
    (.general s!"planned funding input {OutPoint.text outpoint} is no longer in the wallet")

/-- The funding transaction of a split and its miner fee; with a `spend` it is exact. -/
def fundSplit (env : SpendEnv) (fees : FeeRate) (w : CoinStore) (spend : Option Nat)
    (split : SplitPlan) (destination : Bytes) : Except WalletError (Transaction × Nat) := do
  let coins ← collectM (plannedCoin w) split.utxos
  let outputs : List TxOut := [⟨split.value, destination⟩]
  let tx ← spendCoinsTo env fees coins (match spend with
    | some spend => .exactSpend outputs spend .p2tr
    | none => .multi outputs none .p2tr)
  let inputSum := (coins.map (·.entry.amount)).foldl wrapAdd64 0
  let outputSum := (tx.output.map (·.value)).foldl wrapAdd64 0
  let fee ← okOr (checkedSub inputSum outputSum) (.general "funding tx outputs exceed its inputs")
  .ok (tx, fee)

/-- `execute_funding_plan_inner`: one transaction per split, in order; `env i` is what the
wallet answers for split `i`. -/
def executeFundingPlan (env : Nat → SpendEnv) (fees : FeeRate) (w : CoinStore)
    (plan : List SplitPlan) (spends : Option (List Nat)) (destinations : List Bytes) :
    Except WalletError (List (Transaction × Nat)) := do
  ensure (plan ≠ []) (.general "cannot execute an empty funding plan")
  ensure (∀ amounts ∈ spends, amounts.length = plan.length)
    (.general "an exact funding plan needs one spend per split")
  ensure (plan.length ≤ destinations.length) (.general
    s!"funding plan has {plan.length} splits but only {destinations.length} destinations")
  collectM (fun p => fundSplit (env p.2) fees w (spends.bind (·[p.2]?)) p.1.1 p.1.2)
    (plan.zip destinations).zipIdx

/-! ## What a spend does -/

/-- Signing fills in witnesses and nothing else. -/
def SpendEnv.Signs (env : SpendEnv) : Prop :=
  ∀ tx infos signed, env.sign tx infos = .ok signed → signed.stripWitness = tx.stripWitness

variable {amounts : List Nat} {tx tx' : Transaction} {spend : Nat} {changeType : AddressType}
  {start : Nat} {env : SpendEnv} {coins : List Coin} {outputs : List TxOut}

theorem addAmounts_eq_ok {total} :
    addAmounts amounts start = .ok total ↔
      start + amounts.sum = total ∧ (amounts ≠ [] → total < 2 ^ 64) := by
  induction amounts generalizing start with
  | nil => simp [addAmounts]
  | cons amount rest ih =>
    simp only [addAmounts, bind_ok_iff, okOr_eq_ok, checkedAdd64_eq_some, ih, List.sum_cons]
    constructor
    · rintro ⟨_, ⟨rfl, hlt⟩, rfl, hrest⟩
      refine ⟨by omega, fun _ => ?_⟩
      rcases eq_or_ne rest [] with rfl | hne
      · simpa using hlt
      · exact hrest hne
    · rintro ⟨rfl, hlt⟩
      have := hlt (List.cons_ne_nil _ _)
      exact ⟨_, ⟨rfl, by omega⟩, by omega, fun _ => hlt (List.cons_ne_nil _ _)⟩

theorem addAmounts_error {e} (h : addAmounts amounts start = .error e) :
    e = amountOverflow := by
  induction amounts generalizing start with
  | nil => cases h
  | cons amount rest ih =>
    rw [addAmounts, bind_error_iff, okOr_eq_error] at h
    rcases h with ⟨-, h⟩ | ⟨_, -, h⟩
    · exact h.symm
    · exact ih h

theorem eq_of_stripWitness_eq (h : tx.stripWitness = tx'.stripWitness) :
    tx.input.map (·.previousOutput) = tx'.input.map (·.previousOutput) ∧
      tx.output = tx'.output := by
  have hinput := congrArg (fun tx : Transaction => tx.input.map (·.previousOutput)) h
  simp only [Transaction.stripWitness, List.map_map] at hinput
  have houtput : tx.stripWitness.output = tx'.stripWitness.output := congrArg _ h
  exact ⟨hinput, houtput⟩

theorem coinInput_plain {coin} (hplain : coin.spendInfo.isSeedCoin || coin.spendInfo.isSweptCoin) :
    coinInput env coin = .ok (⟨coin.1, [], 0, []⟩, coin.entry.amount) := by
  unfold coinInput
  cases hinfo : coin.spendInfo <;> rw [hinfo] at hplain <;> first | rfl | cases hplain

section

variable (hplain : ∀ coin ∈ coins, coin.spendInfo.isSeedCoin || coin.spendInfo.isSweptCoin)

include hplain

theorem collectM_plain_ok :
    collectM (coinInput env) coins =
      .ok (coins.map fun coin => (⟨coin.1, [], 0, []⟩, coin.entry.amount)) := by
  induction coins with
  | nil => rfl
  | cons coin rest ih =>
    obtain ⟨hcoin, hrest⟩ := List.forall_mem_cons.mp hplain
    rw [collectM, coinInput_plain hcoin, ih hrest]
    rfl

theorem collectM_plain {inputs} (h : collectM (coinInput env) coins = .ok inputs) :
    inputs.map (·.1.previousOutput) = coins.map Sigma.fst ∧
      inputs.map Prod.snd = coins.map (·.entry.amount) := by
  obtain rfl := Except.ok.inj ((collectM_plain_ok hplain).symm.trans h)
  simp only [List.map_map, Function.comp_def, true_and]

end

theorem addExactOutputs_ok {totalInput}
    (h : addExactOutputs env tx totalInput outputs spend changeType = .ok tx') :
    tx'.input = tx.input ∧ ∃ change : List TxOut, tx'.output = outputs ++ change ∧
      totalInput = spend + (change.map (·.value)).sum ∧
      ∀ out ∈ change, env.nextInternalScript changeType = .ok out.scriptPubkey ∧
        p2trMinNonDustSats ≤ out.value := by
  simp only [addExactOutputs, exactSpendChange, bind_ok_iff, mapError_ok_iff, ensure_eq_ok,
    okOr_eq_ok, checkedSub_eq_some] at h
  obtain ⟨totalOutput, -, change, ⟨_, -, rest, hrest, _, hdust, heq⟩, h⟩ := h
  obtain rfl := Except.ok.inj heq
  split at h
  · obtain ⟨script, hscript, h⟩ := bind_ok_iff.mp h
    obtain rfl := Except.ok.inj h
    refine ⟨rfl, [⟨rest, script⟩], rfl, by simp [hrest], fun out hout => ?_⟩
    obtain rfl := List.mem_singleton.mp hout
    exact ⟨hscript, by dsimp only; omega⟩
  · obtain rfl := Except.ok.inj h
    exact ⟨rfl, [], by simp, by simp; omega, by simp⟩

/-- **An exact spend takes exactly what it says from the wallet**: its coins are spent, its
outputs are paid, and all but the spend comes back as change that is not dust. -/
theorem exactSpend_ok {fees} (hsigns : env.Signs)
    (hplain : ∀ coin ∈ coins, coin.spendInfo.isSeedCoin || coin.spendInfo.isSweptCoin)
    (h : spendCoinsTo env fees coins (.exactSpend outputs spend changeType) = .ok tx) :
    tx.input.map (·.previousOutput) = coins.map Sigma.fst ∧
      ∃ change : List TxOut, tx.output = outputs ++ change ∧
        (coins.map (·.entry.amount)).sum = spend + (change.map (·.value)).sum ∧
        ∀ out ∈ change, env.nextInternalScript changeType = .ok out.scriptPubkey ∧
          p2trMinNonDustSats ≤ out.value := by
  simp only [spendCoinsTo, bind_ok_iff] at h
  obtain ⟨lockTime, -, inputs, hinputs, totalInput, hsum, _, -, unsigned, hout, signed, hsign, _, -,
    h⟩ := h
  cases h
  obtain ⟨hspent, hworth⟩ := collectM_plain hplain hinputs
  obtain ⟨rfl, -⟩ := addAmounts_eq_ok.mp hsum
  obtain ⟨hins, houts⟩ := eq_of_stripWitness_eq (hsigns _ _ _ hsign)
  obtain ⟨hinsUnsigned, change, hunsigned, hchange, hscript⟩ := addExactOutputs_ok hout
  rw [Nat.zero_add, hworth] at hchange
  exact ⟨by rw [hins, hinsUnsigned, ← hspent, List.map_map]; rfl, change, houts.trans hunsigned,
    hchange, hscript⟩

end OpenSwap
