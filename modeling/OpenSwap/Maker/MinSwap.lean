import OpenSwap.Taker.PaymentSolver

/-!
# The advertised minimum

A maker advertises the smallest swap that every protocol accepts: one coin in, one coin
out, at the relay feerate and a one-maker lock, rounded up to a multiple of 500 sats.

* `minSwapAmountAt` — the closed form, at any rounding of its divisions.
* `MakerServerConfig.PassesFloor` — what admission asks of such a swap
  (`planAdmission_below_floor`).
-/

namespace OpenSwap

open Btc Checked Binary64

/-! ## The closed form -/

structure MakerServerConfig where
  baseFee : Nat
  amountRelativeFeePct : ℚ
  timeRelativeFeePct : ℚ

def MakerServerConfig.terms (config : MakerServerConfig) (timelock : Nat) : HopFeeTerms where
  baseFee := config.baseFee
  amountRelativeFeePct := config.amountRelativeFeePct
  timeRelativeFeePct := config.timeRelativeFeePct
  locktime := timelock

variable (round : ℚ → ℚ)

/-- `calculate_swap_fee`, the formula of `hop_net_sats` term by term -/
def MakerServerConfig.calculateSwapFeeAt (config : MakerServerConfig) (amount timelock : Nat) :
    Nat := (config.terms timelock).swapFeeAt round amount

def minSwapStepSats : Nat := 500

/-- `u64::div_ceil` -/
def divCeil (a b : Nat) : Nat := (a + b - 1) / b

/-- `u64::saturating_mul` -/
def satMul64 (a b : Nat) : Nat := min (a * b) (2 ^ 64 - 1)

def MakerServerConfig.relAt (config : MakerServerConfig) : ℚ :=
  round (round (config.amountRelativeFeePct +
    round (refundLocktimeBase * config.timeRelativeFeePct)) / 100)

/-- The cost floors of a one-in one-out swap at the relay feerate, by protocol. -/
def relayFloors : List Nat :=
  [ProtocolVersion.legacy, .taproot].filterMap fun protocol =>
    swapCostFloor protocol minRelayFeeRate 1 1

def minSwapAmountAt (config : MakerServerConfig) : Nat :=
  let rel := config.relAt round
  let amount := (relayFloors.max?.filter fun _ => decide (0 ≤ rel ∧ rel < 1)).map fun cost =>
    -- solves `amount - fee(amount) >= cost` for `amount`
    let exact := castU64
      ⌈round (round (satAdd64 config.baseFee cost : Nat) / round (1 - rel))⌉.toNat
    satMul64 (divCeil exact minSwapStepSats) minSwapStepSats
  amount.getD (2 ^ 64 - 1)

/-! ## What admission asks -/

/-- The amount less its service fee is at least the floor of a one-in one-out swap. -/
def MakerServerConfig.PassesFloor (config : MakerServerConfig) (protocol : ProtocolVersion)
    (amount : Nat) : Prop :=
  ∃ floor, swapCostFloor protocol minRelayFeeRate 1 1 = some floor ∧
    config.calculateSwapFeeAt round amount refundLocktimeBase + floor ≤ amount

theorem planAdmission_below_floor {P : Prims} {round : ℚ → ℚ} {config : MakerServerConfig}
    {pools : Pools} {state : ConnectionState P} (hrate : state.swapFeerate = minRelayFeeRate)
    (hincoming : state.incomingCount = 1) (hbudget : state.maxInputBudget = 1)
    (hfee : state.serviceFeeSats =
      config.calculateSwapFeeAt round state.swapAmount refundLocktimeBase)
    (h : ¬ config.PassesFloor round state.protocol state.swapAmount) :
    planAdmission pools state =
      .error (.general "Swap amount below the minimum for its shape") := by
  obtain ⟨floor, hfloor⟩ : ∃ floor,
      swapCostFloor state.protocol minRelayFeeRate 1 1 = some floor := by
    cases state.protocol <;> exact ⟨_, rfl⟩
  obtain ⟨sweepFee, hsweep⟩ : ∃ sweepFee, (sweepFeePolicySats state.protocol minRelayFeeRate).bind
      (checkedMul64 · 1) = some sweepFee := by
    cases state.protocol <;> exact ⟨_, rfl⟩
  have hbelow : (checkedSub state.swapAmount state.serviceFeeSats).filter
      (fun kept => decide (floor ≤ kept)) = none := by
    rw [Option.filter_eq_none_iff]
    intro kept hkept hle
    have hsum := checkedSub_eq_some.mp hkept
    rw [decide_eq_true_eq] at hle
    exact h ⟨floor, hfloor, by omega⟩
  simp only [planAdmission, hrate, hincoming, hbudget, hsweep, hfloor, hbelow, okOr, bind,
    Except.bind]

/-! ## Exact arithmetic -/

theorem swapCostFloor_relay :
    swapCostFloor .legacy minRelayFeeRate 1 1 = some 945 ∧
      swapCostFloor .taproot minRelayFeeRate 1 1 = some 762 := by decide

theorem relayFloors_max : relayFloors.max? = some 945 := by decide

theorem MakerServerConfig.relAt_id (config : MakerServerConfig) :
    config.relAt id = (config.terms refundLocktimeBase).rate := rfl

variable {config : MakerServerConfig}

/-- A floor is passed exactly if what the fee leaves of the amount, not rounded, covers it
and the base fee. -/
theorem fee_add_le_iff (hrel : 0 ≤ config.relAt id) {floor amount} (hfloor : 0 < floor)
    (hamount : amount < 2 ^ 64) :
    config.calculateSwapFeeAt id amount refundLocktimeBase + floor ≤ amount ↔
      ((config.baseFee + floor : Nat) : ℚ) ≤ amount * (1 - config.relAt id) := by
  have hfee : (config.terms refundLocktimeBase).rawFeeAt id amount =
      config.baseFee + amount * config.relAt id := by
    rw [HopFeeTerms.rawFeeAt_id, HopFeeTerms.exactFee_eq, config.relAt_id]
    rfl
  have hnonneg : (0 : ℚ) ≤ config.baseFee + amount * config.relAt id :=
    add_nonneg (Nat.cast_nonneg _) (mul_nonneg (Nat.cast_nonneg _) hrel)
  have hceil : ⌈(config.baseFee : ℚ) + amount * config.relAt id⌉ ≤ (amount : ℤ) - floor ↔
      ((config.baseFee + floor : Nat) : ℚ) ≤ amount * (1 - config.relAt id) := by
    rw [Int.ceil_le]
    push_cast
    constructor <;> intro h <;> linarith
  have hceil₀ : 0 ≤ ⌈(config.baseFee : ℚ) + amount * config.relAt id⌉ := Int.ceil_nonneg hnonneg
  rw [← hceil, MakerServerConfig.calculateSwapFeeAt, HopFeeTerms.swapFeeAt, hfee, castU64]
  omega

def MakerServerConfig.solution (config : MakerServerConfig) : Nat :=
  ⌈((config.baseFee + 945 : Nat) : ℚ) / (1 - config.relAt id)⌉.toNat

theorem passesFloor_iff (hrel : 0 ≤ config.relAt id ∧ config.relAt id < 1) {amount}
    (hamount : amount < 2 ^ 64) :
    (∀ protocol, config.PassesFloor id protocol amount) ↔ config.solution ≤ amount := by
  have hpos : 0 < 1 - config.relAt id := by linarith
  have hsolution : config.solution ≤ amount ↔
      ((config.baseFee + 945 : Nat) : ℚ) ≤ amount * (1 - config.relAt id) := by
    rw [MakerServerConfig.solution, Int.toNat_le, Int.ceil_le, div_le_iff₀ hpos]
    rfl
  rw [hsolution, ← fee_add_le_iff hrel.1 (by decide) hamount]
  constructor
  · intro h
    obtain ⟨floor, hfloor, hle⟩ := h .legacy
    rw [swapCostFloor_relay.1, Option.some.injEq] at hfloor
    exact hfloor ▸ hle
  · rintro h (_ | _)
    · exact ⟨945, swapCostFloor_relay.1, h⟩
    · exact ⟨762, swapCostFloor_relay.2, by omega⟩

theorem divCeil_mul_le_iff {n m} (hstep : minSwapStepSats ∣ m) :
    divCeil n minSwapStepSats * minSwapStepSats ≤ m ↔ n ≤ m := by
  obtain ⟨k, rfl⟩ := hstep
  unfold divCeil minSwapStepSats
  omega

theorem minSwapAmountAt_id (hrel : 0 ≤ config.relAt id ∧ config.relAt id < 1) :
    minSwapAmountAt id config =
      satMul64 (divCeil config.solution minSwapStepSats) minSwapStepSats := by
  have hpos : 0 < 1 - config.relAt id := by linarith
  have hform : minSwapAmountAt id config = satMul64 (divCeil (castU64
      ⌈((satAdd64 config.baseFee 945 : Nat) : ℚ) / (1 - config.relAt id)⌉.toNat)
        minSwapStepSats) minSwapStepSats := by
    simp only [minSwapAmountAt, relayFloors_max, hrel, id_eq, and_self, decide_true,
      Option.filter_some, if_true, Option.map_some, Option.getD_some]
  -- the quotient is at least the dividend
  have hquot : ∀ n : Nat, n ≤ ⌈(n : ℚ) / (1 - config.relAt id)⌉.toNat := by
    intro n
    have hle : (n : ℚ) ≤ n / (1 - config.relAt id) := by
      rw [le_div_iff₀ hpos]
      have : 0 ≤ (n : ℚ) * config.relAt id := mul_nonneg (Nat.cast_nonneg _) hrel.1
      linarith
    have hceil : (n : ℤ) ≤ ⌈(n : ℚ) / (1 - config.relAt id)⌉ := by
      rw [Int.le_ceil_iff]
      push_cast
      linarith
    omega
  rw [hform]
  rcases Nat.lt_or_ge (config.baseFee + 945) (2 ^ 64) with hfits | hbig
  · have hadd : satAdd64 config.baseFee 945 = config.baseFee + 945 := by
      unfold satAdd64
      omega
    rw [hadd, ← MakerServerConfig.solution]
    unfold castU64 divCeil satMul64 minSwapStepSats
    omega
  · have hadd : satAdd64 config.baseFee 945 = 2 ^ 64 - 1 := by
      unfold satAdd64
      omega
    have hsum := hquot (2 ^ 64 - 1)
    have hsolution : config.baseFee + 945 ≤ config.solution := hquot _
    rw [hadd]
    unfold castU64 divCeil satMul64 minSwapStepSats
    omega

/-- **The minimum is the least that passes.**  For a share of at least nothing and less than
all, the advertised minimum is the least multiple of 500 sats that passes the floor of both
protocols, if a 64-bit amount passes; if none does, it is the largest 64-bit number. -/
theorem min_swap_is_least (hrel : 0 ≤ config.relAt id ∧ config.relAt id < 1) :
    ((∃ amount < 2 ^ 64, minSwapStepSats ∣ amount ∧
        ∀ protocol, config.PassesFloor id protocol amount) →
      IsLeast {amount | amount < 2 ^ 64 ∧ minSwapStepSats ∣ amount ∧
        ∀ protocol, config.PassesFloor id protocol amount} (minSwapAmountAt id config)) ∧
    ((¬ ∃ amount < 2 ^ 64, minSwapStepSats ∣ amount ∧
        ∀ protocol, config.PassesFloor id protocol amount) →
      minSwapAmountAt id config = 2 ^ 64 - 1) := by
  rw [minSwapAmountAt_id hrel]
  generalize hleast : divCeil config.solution minSwapStepSats * minSwapStepSats = least
  have hdvd : minSwapStepSats ∣ least := hleast ▸ Nat.dvd_mul_left _ _
  have hreach : ∀ amount, minSwapStepSats ∣ amount → (config.solution ≤ amount ↔ least ≤ amount) :=
    fun amount hamount => by rw [← hleast, divCeil_mul_le_iff hamount]
  have hresult : satMul64 (divCeil config.solution minSwapStepSats) minSwapStepSats =
      min least (2 ^ 64 - 1) := by rw [satMul64, hleast]
  rw [hresult]
  constructor
  · rintro ⟨amount, hamount, hstep, hpasses⟩
    have hle := (hreach amount hstep).mp ((passesFloor_iff hrel hamount).mp hpasses)
    have hmin : min least (2 ^ 64 - 1) = least := by omega
    rw [hmin]
    refine ⟨⟨by omega, hdvd, ?_⟩, fun other hother => ?_⟩
    · exact (passesFloor_iff hrel (by omega)).mpr ((hreach least hdvd).mpr le_rfl)
    · obtain ⟨hfits, hstep', hpasses'⟩ := hother
      exact (hreach other hstep').mp ((passesFloor_iff hrel hfits).mp hpasses')
  · intro hnone
    have hbig : 2 ^ 64 ≤ least := by
      by_contra hlt
      exact hnone ⟨least, by omega, hdvd,
        (passesFloor_iff hrel (by omega)).mpr ((hreach least hdvd).mpr le_rfl)⟩
    omega

def feeSample : MakerServerConfig := ⟨500, 25 / 10000, 1 / 10000⟩

theorem min_swap_is_least_sample :
    IsLeast {amount | amount < 2 ^ 64 ∧ minSwapStepSats ∣ amount ∧
      ∀ protocol, feeSample.PassesFloor id protocol amount} (minSwapAmountAt id feeSample) := by
  have hrel : 0 ≤ feeSample.relAt id ∧ feeSample.relAt id < 1 := by decide +kernel
  have hpasses : ∀ protocol, feeSample.PassesFloor id protocol 1500 := by
    rintro (_ | _)
    · exact ⟨945, swapCostFloor_relay.1, by decide +kernel⟩
    · exact ⟨762, swapCostFloor_relay.2, by decide +kernel⟩
  exact (min_swap_is_least hrel).1 ⟨1500, by decide, by decide, hpasses⟩

/-- A base fee at the end of 64 bits: the minimum saturates and is no multiple of 500. -/
theorem min_swap_saturates :
    let config : MakerServerConfig := ⟨2 ^ 64 - 1, 0, 0⟩
    (0 ≤ config.relAt id ∧ config.relAt id < 1) ∧ minSwapAmountAt id config = 2 ^ 64 - 1 ∧
      ¬ minSwapStepSats ∣ minSwapAmountAt id config := by
  decide +kernel

end OpenSwap
