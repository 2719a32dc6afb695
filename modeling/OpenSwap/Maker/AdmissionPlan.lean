import OpenSwap.Maker.Forwarding
import OpenSwap.Wallet.FittedPlans
import OpenSwap.Wallet.UtxoCache

/-!
# The plan of an admission

`planAdmission` asks the wallet for a plan of the forwardable amount, nets the reimbursed
fees out of it, and asks again for one split fewer where the netting refuses.
-/

namespace OpenSwap

open Btc Checked

variable {P : Prims}

/-- The state a maker plans for: the terms of validated swap details. -/
def AdmissionState (state : ConnectionState P) : Prop :=
  ∃ (prior : ConnectionState P) (env : AdmissionEnv P) (d : SwapDetails)
    (protocol : ProtocolVersion) (offset : Nat), d.protocol = some protocol ∧
    validateSwapParameters env.maxSwapAmount env.currentHeight d = .ok offset ∧
    state = prior.withTerms env d protocol offset

variable {state : ConnectionState P} {amount maxSplits : Nat} {pools : Pools}
  {net : List SplitPlan}

theorem AdmissionState.maxInputBudget_pos (h : AdmissionState state) :
    0 < state.maxInputBudget := by
  obtain ⟨_, env, d, protocol, offset, -, hvalid, rfl⟩ := h
  simp only [validateSwapParameters, bind_ok_iff, ensure_eq_ok] at hvalid
  obtain ⟨_, -, _, hbudget, -⟩ := hvalid
  exact Nat.pos_of_ne_zero hbudget

/-- The miner fees of a plan and what the taker reimburses of them. -/
structure PlanFees (state : ConnectionState P) (plan : List SplitPlan) (real policy : List Nat) :
    Prop where
  real : plan.map (fun split => feeAtRateSats (fundingTxVsize split.utxos.length)
    state.swapFeerate) = real.map some
  policy : plan.map (fun split => fundingFeePolicySats split.utxos.length state.maxInputBudget
    state.swapFeerate) = policy.map some

structure SoundPlan (pools : Pools) (state : ConnectionState P) (plan : List SplitPlan) : Prop where
  count : plan.length ≤ state.txCount
  pool : ∃ fromSwept, DrawnFrom (pools.side fromSwept) plan
  floor : ∃ minSplit, minContractValueSats state.protocol state.swapFeerate = some minSplit ∧
    ∀ split ∈ plan, minSplit ≤ split.value
  accounts : ∃ sweep real policy, PlanFees state plan real policy ∧
    sweepFeePolicySats state.protocol state.swapFeerate = some sweep ∧
    (plan.map (·.value)).sum + policy.sum + sweep * state.incomingCount + state.serviceFeeSats =
      state.swapAmount ∧
    real.sum ≤ policy.sum + state.serviceFeeSats

theorem soundPlan_of_netted {plan sweep} (hdistinct : pools.Distinct)
    (hbudget : 0 < state.maxInputBudget)
    (hplan : planFunding pools amount maxSplits state.swapFeerate state.maxInputBudget
      (some state.serviceFeeSats) [] [] state.protocol = .ok plan)
    (hnet : netPolicyFees plan (plan.map (·.utxos.length)) state.maxInputBudget
      state.swapFeerate state.protocol = .ok net) (hcount : maxSplits ≤ state.txCount)
    (hsweep : sweepFeePolicySats state.protocol state.swapFeerate = some sweep)
    (hamount : amount + sweep * state.incomingCount + state.serviceFeeSats = state.swapAmount) :
    SoundPlan pools state net := by
  obtain ⟨-, hlen, htotal⟩ := planFunding_meets hplan
  obtain ⟨_, -, -, hfrom⟩ := planFundingWithChange_ok hplan
  obtain ⟨fromSwept, hfunded⟩ := hfrom.funded hdistinct nofun
  obtain ⟨_, _, -, -, -, -, hguard⟩ := hfrom
  obtain ⟨real, policy, hreal, hpolicy, hle⟩ := checkOverBudgetSpendAt_ok hbudget hguard
  obtain ⟨hpriced, minSplit, hmin, hnetted⟩ := netPolicyFeesAt_ok hnet
  obtain ⟨hutxos, policy', hpolicy', -, hsum⟩ := nettedAt_spec hpriced hnetted
  obtain rfl : policy' = policy :=
    List.map_injective_iff.mpr (Option.some_injective _) (hpolicy'.symm.trans hpolicy)
  -- fees are a matter of the coins, which the netting keeps
  have hsame : ∀ fee : List OutPoint → Option Nat,
      net.map (fun split => fee split.utxos) = plan.map (fun split => fee split.utxos) := by
    intro fee
    have := congrArg (List.map fee) hutxos
    rwa [List.map_map, List.map_map] at this
  refine ⟨?_, ⟨fromSwept, hfunded.toDrawnFrom.of_utxos hutxos⟩, ⟨minSplit, hmin, ?_⟩, sweep, real,
    policy', ⟨?_, ?_⟩, hsweep, by omega, hle⟩
  · have := congrArg List.length hutxos
    rw [List.length_map, List.length_map] at this
    omega
  · intro split hs
    obtain ⟨_, -, hsplit⟩ := exists_of_forall₂ hnetted hs
    exact hsplit.floor
  · exact (hsame fun utxos => feeAtRateSats (fundingTxVsize utxos.length) state.swapFeerate).trans
      hreal
  · refine (hsame fun utxos => fundingFeePolicySats utxos.length state.maxInputBudget
      state.swapFeerate).trans ?_
    rw [List.map_map] at hpolicy'
    exact hpolicy'

/-- **Planning an admission ends**, within one round more than there may be splits, **and every
plan it returns is sound.** -/
theorem admission_plan_sound (w : CoinStore) {state : ConnectionState P}
    (hstate : AdmissionState state) :
    (∀ amount rounds, state.txCount < rounds →
      Rounds.run (planRound w.plannablePools state amount) rounds state.txCount =
        some (planRetries w.plannablePools state amount state.txCount)) ∧
    ∀ plan, planAdmission w.plannablePools state = .ok plan →
      SoundPlan w.plannablePools state plan := by
  refine ⟨fun amount rounds hlt => by unfold planRetries; exact Rounds.run_eq_complete hlt,
    fun net h => ?_⟩
  simp only [planAdmission, bind_ok_iff, okOr_eq_ok, Option.filter_eq_some_iff,
    decide_eq_true_eq, checkedSub_eq_some, Option.bind_eq_some_iff] at h
  obtain ⟨sweepFee, ⟨sweep, hsweep, hmul⟩, minKept, hmin, kept, ⟨hkept, hle⟩, hloop⟩ := h
  obtain ⟨fewer, hfewer, plan, hplan, hnet⟩ := planRetries_ok hloop
  have hcovered := sweeps_le_swapCostFloor hmin hsweep hmul
  obtain ⟨rfl, -⟩ := checkedMul64_eq_some.mp hmul
  exact soundPlan_of_netted w.plannablePools_distinct hstate.maxInputBudget_pos hplan hnet hfewer
    hsweep (by omega)

namespace SampleSessions

def coinStore : CoinStore where
  utxoCache := AList.singleton ⟨List.replicate 32 0xbb, 1⟩
    (⟨none, [], 200000⟩, .seedCoin .p2tr)
  lockedUtxos := []
  swapLocks := ∅

def admissionState : ConnectionState prims :=
  (ConnectionState.new .legacy 0).withTerms admission details .legacy 20

end SampleSessions

open SampleSessions in
/-- The coin forwards the amount less the service fee, one sweep and its own input. -/
theorem admission_plan_sound_sample :
    SoundPlan coinStore.plannablePools admissionState [⟨[⟨List.replicate 32 0xbb, 1⟩], 98685⟩] := by
  have hstate : AdmissionState admissionState :=
    ⟨_, admission, details, .legacy, 20, by decide +kernel,
      by decide +kernel, rfl⟩
  exact (admission_plan_sound coinStore hstate).2 _ (by decide +kernel)

end OpenSwap
