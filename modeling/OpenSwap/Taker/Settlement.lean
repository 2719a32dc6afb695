import OpenSwap.Taker.Payment

/-!
# Settling a payment

The incoming coins of a payment swap are settled to the receiver.  Each coin keeps an
equal share of the settlement budget for its claim, and what they hold above the
receiver's amount is cut off the largest outputs, never below dust.
-/

namespace OpenSwap

open Btc Checked List

/-! ## The outputs -/

/-- Dust floor per settlement output -/
def minPaymentOutputSats : Nat := 546

def amountText (sats : Nat) : String :=
  let whole := sats / 10 ^ 8
  let rest := sats % 10 ^ 8
  if rest = 0 then s!"{whole} BTC"
  else
    let places := "".pushn '0' (8 - (toString rest).length) ++ toString rest
    s!"{whole}.{places} BTC"

def settlementOutput (perCoinBudget fundingAmount : Nat) : Except TakerError Nat :=
  let text := amountText fundingAmount
  okOr ((checkedSub fundingAmount perCoinBudget).filter fun value =>
      decide (minPaymentOutputSats ≤ value))
    (.general s!"Incoming swapcoin funding {text} cannot retain the {perCoinBudget} sat settlement budget above dust")

/-- The largest value with its position, the last one among equals. -/
def largestAt : List Nat → Option (Nat × Nat)
  | [] => none
  | value :: rest =>
    match largestAt rest with
    | none => some (0, value)
    | some (i, largest) => if largest < value then some (0, value) else some (i + 1, largest)

/-- Cut the surplus off the largest output, as often as it takes. -/
def shaveSurplus (outputs : List Nat) (surplus : Nat) : Except TakerError (List Nat) :=
  if surplus = 0 then .ok outputs
  else
    match largestAt outputs with
    | none => .error (.general "No settlement outputs")
    | some (i, output) =>
      let reducible := output - minPaymentOutputSats
      if reducible = 0 then
        .error (.general "Cannot remove the surplus without breaching dust")
      else
        let cut := min reducible surplus
        shaveSurplus (outputs.set i (output - cut)) (surplus - cut)
termination_by surplus

def settlementOutputs (fundingAmounts : List Nat) (settlementBudget receiverAmount : Nat) :
    Except TakerError (List Nat) := do
  let coinCount := fundingAmounts.length
  ensure (coinCount ≠ 0) (.general "Payment swap produced no incoming swapcoins to settle")
  let perCoinBudget := settlementBudget / coinCount
  let outputs ← collectM (settlementOutput perCoinBudget) fundingAmounts
  let surplus ← okOr (checkedSub (outputs.foldl wrapAdd64 0) receiverAmount)
    (.general "Settlement outputs cannot cover the receiver amount")
  shaveSurplus outputs surplus

/-! ## One cut -/

variable {perCoinBudget : Nat} {fundingAmounts : List Nat} {outputs values : List Nat}
  {i output value receiverAmount settlementBudget : Nat}

theorem largestAt_eq_none : largestAt outputs = none ↔ outputs = [] := by
  cases outputs with
  | nil => simp [largestAt]
  | cons value rest =>
    rw [largestAt]
    cases largestAt rest with
    | none => simp
    | some found =>
      dsimp only
      split <;> simp

theorem largestAt_spec (h : largestAt outputs = some (i, output)) :
    outputs[i]? = some output ∧ ∀ value ∈ outputs, value ≤ output := by
  induction outputs generalizing i output with
  | nil => cases h
  | cons value rest ih =>
    rw [largestAt] at h
    cases hrest : largestAt rest with
    | none =>
      rw [hrest] at h
      cases h
      obtain rfl := largestAt_eq_none.mp hrest
      simp
    | some found =>
      obtain ⟨hat, hmax⟩ := ih hrest
      rw [hrest] at h
      dsimp only at h
      split at h
      · rename_i hlt
        cases h
        refine ⟨rfl, forall_mem_cons.mpr ⟨le_rfl, fun v hv => ?_⟩⟩
        exact (hmax v hv).trans hlt.le
      · rename_i hle
        cases h
        exact ⟨hat, forall_mem_cons.mpr ⟨not_lt.mp hle, hmax⟩⟩

theorem sum_set (h : outputs[i]? = some output) :
    (outputs.set i value).sum + output = outputs.sum + value := by
  induction outputs generalizing i with
  | nil => cases h
  | cons first rest ih =>
    cases i with
    | zero =>
      cases h
      simp only [set_cons_zero, sum_cons]
      omega
    | succ i =>
      have hrest := ih h
      simp only [set_cons_succ, sum_cons]
      omega

theorem forall₂_set_le (h : List.Forall₂ (· ≤ ·) outputs values) (hat : outputs[i]? = some output)
    (hle : value ≤ output) : List.Forall₂ (· ≤ ·) (outputs.set i value) values := by
  induction h generalizing i with
  | nil => cases hat
  | cons hfirst hrest ih =>
    cases i with
    | zero =>
      cases hat
      exact .cons (hle.trans hfirst) hrest
    | succ i => exact .cons hfirst (ih hat)

/-! ## The cuts -/

/-- Outputs above dust that hold the receiver's amount and a surplus lose exactly the
surplus, or fail if dust for each of them is more than the receiver's amount. -/
theorem shaveSurplus_spec {surplus} (hdust : ∀ value ∈ outputs, minPaymentOutputSats ≤ value)
    (hle : List.Forall₂ (· ≤ ·) outputs values) (hsum : outputs.sum = receiverAmount + surplus) :
    (minPaymentOutputSats * outputs.length ≤ receiverAmount →
      ∃ settled, shaveSurplus outputs surplus = .ok settled) ∧
    ∀ settled, shaveSurplus outputs surplus = .ok settled →
      settled.sum = receiverAmount ∧ (∀ value ∈ settled, minPaymentOutputSats ≤ value) ∧
        List.Forall₂ (· ≤ ·) settled values := by
  -- the surplus falls with every cut, and the outputs with it
  fun_induction shaveSurplus outputs surplus with
  | case1 outputs =>
    refine ⟨fun _ => ⟨outputs, rfl⟩, fun settled h => ?_⟩
    cases h
    exact ⟨by omega, hdust, hle⟩
  | case2 outputs surplus hpos hnone =>
    obtain rfl := largestAt_eq_none.mp hnone
    simp only [sum_nil] at hsum
    omega
  | case3 outputs surplus hpos i output hfound reducible hstuck =>
    refine ⟨fun hfloor => ?_, nofun⟩
    -- every output is at the floor, so the sum is
    obtain ⟨-, hmax⟩ := largestAt_spec hfound
    have hfloors : ∀ value ∈ outputs, value ≤ minPaymentOutputSats := fun value hvalue =>
      (hmax value hvalue).trans (Nat.sub_eq_zero_iff_le.mp hstuck)
    have hmost := sum_le_card_nsmul outputs _ hfloors
    rw [smul_eq_mul, Nat.mul_comm] at hmost
    omega
  | case4 outputs surplus hpos i output hfound reducible hcuttable cut ih =>
    obtain ⟨hat, -⟩ := largestAt_spec hfound
    have hset : (outputs.set i (output - cut)).sum + output = outputs.sum + (output - cut) :=
      sum_set hat
    have hdust' : ∀ value ∈ outputs.set i (output - cut), minPaymentOutputSats ≤ value := by
      intro value hvalue
      rcases mem_or_eq_of_mem_set hvalue with hold | hnew
      · exact hdust value hold
      · omega
    have hrest := ih hdust' (forall₂_set_le hle hat (Nat.sub_le output cut)) (by omega)
    rwa [length_set] at hrest

/-! ## When the outputs exist -/

theorem settlementOutput_ok {fundingAmount} :
    settlementOutput perCoinBudget fundingAmount = .ok value ↔
      perCoinBudget + minPaymentOutputSats ≤ fundingAmount ∧
        value = fundingAmount - perCoinBudget := by
  simp only [settlementOutput, okOr_eq_ok, Option.filter_eq_some_iff, checkedSub,
    Option.ite_none_right_eq_some, Option.some.injEq, decide_eq_true_eq]
  omega

theorem collectM_settlementOutput :
    collectM (settlementOutput perCoinBudget) fundingAmounts = .ok outputs ↔
      (∀ amount ∈ fundingAmounts, perCoinBudget + minPaymentOutputSats ≤ amount) ∧
        outputs = fundingAmounts.map (· - perCoinBudget) := by
  induction fundingAmounts generalizing outputs with
  | nil => simp [collectM, eq_comm]
  | cons amount rest ih =>
    simp only [collectM, bind_ok_iff, settlementOutput_ok, ih, forall_mem_cons, map_cons]
    constructor
    · rintro ⟨value, ⟨hfirst, rfl⟩, values, ⟨hrest, rfl⟩, h⟩
      cases h
      exact ⟨⟨hfirst, hrest⟩, rfl⟩
    · rintro ⟨⟨hfirst, hrest⟩, rfl⟩
      exact ⟨_, ⟨hfirst, rfl⟩, _, ⟨hrest, rfl⟩, rfl⟩

theorem foldl_wrapAdd64 {amounts : List Nat} {total : Nat} (h : total + amounts.sum < 2 ^ 64) :
    amounts.foldl wrapAdd64 total = total + amounts.sum := by
  have hmod := foldl_wrapAdd64_mod amounts total
  rwa [Nat.mod_eq_of_lt (by omega), Nat.mod_eq_of_lt h] at hmod

theorem sum_map_sub_le (amounts : List Nat) (share : Nat) :
    (amounts.map (· - share)).sum ≤ amounts.sum := by
  induction amounts with
  | nil => simp
  | cons amount rest ih =>
    simp only [map_cons, sum_cons]
    omega

theorem settlementOutputs_ok (hsupply : fundingAmounts.sum < 2 ^ 64) {share}
    (hshare : settlementBudget / fundingAmounts.length = share)
    (hvalues : fundingAmounts.map (· - share) = values) :
    settlementOutputs fundingAmounts settlementBudget receiverAmount = .ok outputs ↔
      fundingAmounts ≠ [] ∧ (∀ amount ∈ fundingAmounts, share + minPaymentOutputSats ≤ amount) ∧
        receiverAmount ≤ values.sum ∧
        shaveSurplus values (values.sum - receiverAmount) = .ok outputs := by
  subst hshare hvalues
  have hle := sum_map_sub_le fundingAmounts (settlementBudget / fundingAmounts.length)
  simp only [settlementOutputs, bind_ok_iff, ensure_eq_ok, collectM_settlementOutput, okOr_eq_ok,
    ne_eq, length_eq_zero_iff, checkedSub, Option.ite_none_right_eq_some, Option.some.injEq]
  constructor
  · rintro ⟨_, hne, _, ⟨hcoins, rfl⟩, surplus, ⟨hcovers, rfl⟩, hshave⟩
    rw [foldl_wrapAdd64 (by omega), Nat.zero_add] at hcovers hshave
    exact ⟨hne, hcoins, hcovers, hshave⟩
  · rintro ⟨hne, hcoins, hcovers, hshave⟩
    refine ⟨(), hne, _, ⟨hcoins, rfl⟩, _, ⟨?_, rfl⟩, ?_⟩
    · rwa [foldl_wrapAdd64 (by omega), Nat.zero_add]
    · rwa [foldl_wrapAdd64 (by omega), Nat.zero_add]

/-- The outputs sum to the receiver's amount, none is dust and none is more than its coin
leaves. -/
theorem settlementOutputs_exact (hsupply : fundingAmounts.sum < 2 ^ 64)
    (h : settlementOutputs fundingAmounts settlementBudget receiverAmount = .ok outputs) :
    outputs.sum = receiverAmount ∧ (∀ value ∈ outputs, minPaymentOutputSats ≤ value) ∧
      List.Forall₂ (· ≤ ·) outputs
        (fundingAmounts.map (· - settlementBudget / fundingAmounts.length)) := by
  obtain ⟨-, hcoins, hcovers, hshave⟩ := (settlementOutputs_ok hsupply rfl rfl).mp h
  refine (shaveSurplus_spec ?_ (forall₂_refl _) (by omega)).2 outputs hshave
  refine forall_mem_map.mpr fun amount hamount => ?_
  have := hcoins amount hamount
  omega

/-- **When a payment can be settled**: exactly if there are coins, each keeps its share of the
budget above dust, together they cover the receiver's amount, and that is dust or more for
each.  The coins are worth less than `2 ^ 64` sats. -/
theorem settlement_succeeds_iff {fundingAmounts : List Nat} (hsupply : fundingAmounts.sum < 2 ^ 64)
    (settlementBudget receiverAmount : Nat) :
    let share := settlementBudget / fundingAmounts.length
    let values := fundingAmounts.map (· - share)
    ((∃ outputs, settlementOutputs fundingAmounts settlementBudget receiverAmount = .ok outputs) ↔
      fundingAmounts ≠ [] ∧ (∀ amount ∈ fundingAmounts, share + minPaymentOutputSats ≤ amount) ∧
        receiverAmount ≤ values.sum ∧
        minPaymentOutputSats * fundingAmounts.length ≤ receiverAmount) ∧
    ∀ outputs, settlementOutputs fundingAmounts settlementBudget receiverAmount = .ok outputs →
      outputs.sum = receiverAmount ∧ (∀ value ∈ outputs, minPaymentOutputSats ≤ value) ∧
        List.Forall₂ (· ≤ ·) outputs values := by
  intro share values
  refine ⟨⟨?_, ?_⟩, fun outputs h => settlementOutputs_exact hsupply h⟩
  · rintro ⟨outputs, h⟩
    obtain ⟨hne, hcoins, hcovers, -⟩ := (settlementOutputs_ok hsupply rfl rfl).mp h
    obtain ⟨hsum, hdust, hle⟩ := settlementOutputs_exact hsupply h
    have hfloor := card_nsmul_le_sum outputs _ hdust
    have hlen : outputs.length = fundingAmounts.length := by
      rw [hle.length_eq, length_map]
    rw [smul_eq_mul, hsum, hlen, Nat.mul_comm] at hfloor
    exact ⟨hne, hcoins, hcovers, hfloor⟩
  · rintro ⟨hne, hcoins, hcovers, hfloor⟩
    have hdust : ∀ value ∈ values, minPaymentOutputSats ≤ value := by
      refine forall_mem_map.mpr fun amount hamount => ?_
      have := hcoins amount hamount
      omega
    have hsum : values.sum = receiverAmount + (values.sum - receiverAmount) := by omega
    obtain ⟨outputs, hshave⟩ :=
      (shaveSurplus_spec hdust (forall₂_refl _) hsum).1 (by rwa [length_map])
    exact ⟨outputs, (settlementOutputs_ok hsupply rfl rfl).mpr ⟨hne, hcoins, hcovers, hshave⟩⟩

/-- Two coins, a budget of 2000 sats and a surplus that comes off the larger one. -/
theorem settlement_succeeds_iff_sample :
    ∃ outputs, settlementOutputs [80000, 20000] 2000 90000 = .ok outputs ∧
      outputs.sum = 90000 := by
  have hsettled := settlement_succeeds_iff (by decide : [80000, 20000].sum < 2 ^ 64) 2000 90000
  obtain ⟨outputs, h⟩ := hsettled.1.mpr (by decide)
  exact ⟨outputs, h, (hsettled.2 outputs h).1⟩

/-! ## The targets of the coins -/

structure PaymentTarget where
  scriptPubkey : Bytes
  amount : Nat
deriving DecidableEq, Repr

/-- `payment_stamp_targets`: the targets of the incoming coins, in their order; a regular
swap has none. -/
def paymentStampTargets {Address : Type} (scriptPubkey : Address → Bytes)
    (payment : Option (PaymentQuote Address)) (fundingAmounts : List Nat) :
    Except TakerError (List PaymentTarget) :=
  match payment with
  | none => .ok []
  | some payment => do
    let outputs ← settlementOutputs fundingAmounts payment.settlementBudget payment.amount
    let total := outputs.foldl wrapAdd64 0
    ensure (total = payment.amount) (.general
      s!"Settlement outputs total {total} sats, expected exactly {payment.amount}")
    .ok (outputs.map (⟨scriptPubkey payment.address, ·⟩))

/-- The outputs that are pinned are the settlement outputs: the check of their total never
fails. -/
theorem paymentStampTargets_eq {Address : Type} {scriptPubkey : Address → Bytes} {payment}
    (hsupply : fundingAmounts.sum < 2 ^ 64) :
    paymentStampTargets scriptPubkey (some payment) fundingAmounts =
      (settlementOutputs fundingAmounts payment.settlementBudget payment.amount).map
        fun outputs => outputs.map (⟨scriptPubkey payment.address, ·⟩) := by
  unfold paymentStampTargets
  dsimp only
  cases houtputs : settlementOutputs fundingAmounts payment.settlementBudget payment.amount with
  | error e => rfl
  | ok outputs =>
    obtain ⟨-, -, hcovers, -⟩ := (settlementOutputs_ok hsupply rfl rfl).mp houtputs
    obtain ⟨hsum, -⟩ := settlementOutputs_exact hsupply houtputs
    have hle := sum_map_sub_le fundingAmounts (payment.settlementBudget / fundingAmounts.length)
    have htotal : outputs.foldl wrapAdd64 0 = payment.amount := by
      rw [foldl_wrapAdd64 (by omega), Nat.zero_add, hsum]
    simp only [bind, Except.bind, htotal, ensure, if_true, Except.map]

theorem paymentStampTargets_eq_sample :
    paymentStampTargets id (some (⟨[81], 90000, 2000, 500⟩ : PaymentQuote Bytes)) [80000, 20000] =
      (settlementOutputs [80000, 20000] 2000 90000).map fun outputs => outputs.map (⟨[81], ·⟩) :=
  paymentStampTargets_eq (by decide)

end OpenSwap
