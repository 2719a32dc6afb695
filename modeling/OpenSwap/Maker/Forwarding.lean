import OpenSwap.Base.Rounds
import OpenSwap.Maker.Admissions
import OpenSwap.Wallet.FundingPolicy

/-!
# What a maker forwards

At admission the maker plans its forwarding on the amount the taker declares, and nets
the reimbursed fee out of every split.  When the contracts arrive it prices the amount
again and takes the frozen plan only if the plan is worth exactly that.

* `planAdmission` — the plan of an admission, with fewer splits where the netting
  pushes one below the floor.
* `priced_of_reachable` — every admission of a run is priced, in the live swaps and on
  the connections.
-/

namespace OpenSwap

open Btc Checked Run Option

variable {P : Prims}

/-! ## The plan of an admission -/

/-- What a hop must keep after its own fee. -/
def swapCostFloor (protocol : ProtocolVersion) (feerate incomingCount maxInputBudget : Nat) :
    Option Nat := do
  let sweeps ← checkedMul64 (← sweepFeePolicySats protocol feerate) incomingCount
  let kept ← checkedAdd64 sweeps (← minContractValueSats protocol feerate)
  checkedAdd64 kept (← fundingFeePolicySats 1 maxInputBudget feerate)

variable {state : ConnectionState P} {maxSplits : Nat}
  {fee : (amount lockedBlocks : Nat) → Nat} {protocol : ProtocolVersion} {pools : Pools}
  {plan : List SplitPlan}

theorem sweeps_le_swapCostFloor {feerate incomingCount maxInputBudget floor perContract sweeps}
    (h : swapCostFloor protocol feerate incomingCount maxInputBudget = some floor)
    (hper : sweepFeePolicySats protocol feerate = some perContract)
    (hsweeps : checkedMul64 perContract incomingCount = some sweeps) : sweeps ≤ floor := by
  simp only [swapCostFloor, hper, hsweeps, bind_eq_bind, bind_some,
    bind_eq_some_iff, checkedAdd64_eq_some] at h
  omega

/-- One round of the planning loop: where the netting refuses a plan of several splits, the next
one asks for one split fewer. -/
def planRound (pools : Pools) (state : ConnectionState P) (forwardable maxSplits : Nat) :
    Nat ⊕ Except MakerError (List SplitPlan) :=
  let shortfall := MakerError.insufficientLiquidity pools.plannableBalance forwardable
  match planFunding pools forwardable maxSplits state.swapFeerate state.maxInputBudget
      (some state.serviceFeeSats) [] [] state.protocol with
  | .error (.insufficientFund _ _) => .inr (.error shortfall)
  | .error other => .inr (.error (.wallet other))
  | .ok plan =>
    match netPolicyFees plan (plan.map (·.utxos.length)) state.maxInputBudget state.swapFeerate
        state.protocol with
    | .ok net => .inr (.ok net)
    | .error _ => if 1 < plan.length then .inl (plan.length - 1) else .inr (.error shortfall)

theorem planRound_lt {forwardable} (maxSplits fewer : Nat)
    (h : planRound pools state forwardable maxSplits = .inl fewer) : fewer < maxSplits := by
  unfold planRound at h
  split at h
  · cases h
  · cases h
  · rename_i plan hplan
    obtain ⟨-, hcount, -⟩ := planFunding_meets hplan
    split at h
    · cases h
    · split at h
      · cases h
        omega
      · cases h

def planRetries (pools : Pools) (state : ConnectionState P) (forwardable maxSplits : Nat) :
    Except MakerError (List SplitPlan) :=
  Rounds.complete (planRound pools state forwardable) id planRound_lt maxSplits

def planAdmission (pools : Pools) (state : ConnectionState P) :
    Except MakerError (List SplitPlan) := do
  let sweepFee ← okOr ((sweepFeePolicySats state.protocol state.swapFeerate).bind
    (checkedMul64 · state.incomingCount)) (.general "Sweep fee arithmetic overflow")
  let minKept ← okOr (swapCostFloor state.protocol state.swapFeerate state.incomingCount
    state.maxInputBudget) (.general "Swap floor cannot be priced")
  let kept ← okOr ((checkedSub state.swapAmount state.serviceFeeSats).filter
    fun kept => decide (minKept ≤ kept)) (.general "Swap amount below the minimum for its shape")
  planRetries pools state (kept - sweepFee) state.txCount

/-- A plan the loop returns: one the wallet planned, netted at its own input counts. -/
theorem planRetries_ok {forwardable net}
    (h : planRetries pools state forwardable maxSplits = .ok net) :
    ∃ fewer ≤ maxSplits, ∃ plan, planFunding pools forwardable fewer state.swapFeerate
        state.maxInputBudget (some state.serviceFeeSats) [] [] state.protocol = .ok plan ∧
      netPolicyFees plan (plan.map (·.utxos.length)) state.maxInputBudget state.swapFeerate
        state.protocol = .ok net := by
  have hends : ∃ fewer, fewer ≤ maxSplits ∧ planRound pools state forwardable fewer =
      .inr (planRetries pools state forwardable maxSplits) :=
    Rounds.exists_round_of_complete le_rfl fun s next hs hnext =>
      (planRound_lt s next hnext).le.trans hs
  obtain ⟨fewer, hle, hround⟩ := hends
  refine ⟨fewer, hle, ?_⟩
  rw [h, planRound] at hround
  split at hround
  · cases hround
  · cases hround
  · rename_i plan hplan
    split at hround
    · rename_i hnet
      cases hround
      exact ⟨plan, hplan, hnet⟩
    · split at hround <;> cases hround

/-! ## The worth of a plan -/

def forwardable (fee : (amount lockedBlocks : Nat) → Nat) (terms : NegotiatedTerms) :
    Option Nat := do
  let sweepFee ← (sweepFeePolicySats terms.protocol terms.swapFeerate).bind
    (checkedMul64 · terms.incomingCount)
  let kept ← checkedSub terms.swapAmount (fee terms.swapAmount terms.refundLocktimeOffset)
  checkedSub kept sweepFee

/-- The plan is worth what the terms leave to forward, and has splits. -/
structure Priced (fee : (amount lockedBlocks : Nat) → Nat) (a : Admission) : Prop where
  bound : a.terms.swapAmount < 2 ^ 64
  legacy : a.terms.protocol = .legacy → a.terms.refundLocktimeOffset = a.terms.timelock
  splits : a.plan ≠ []
  worth : ∃ gross, forwardable fee a.terms = some gross ∧ planGross a.terms a.plan 0 = some gross

theorem planGross_netted {terms net gross minSplit} (h : List.Forall₂
      (NettedAt (feeAtRateSats · terms.swapFeerate) minSplit terms.maxInputBudget)
      (plan.zip (plan.map (·.utxos.length))) net)
    (hbound : gross + (plan.map (·.value)).sum < 2 ^ 64) :
    planGross terms net gross = some (gross + (plan.map (·.value)).sum) := by
  induction plan generalizing net gross with
  | nil =>
    obtain rfl := List.forall₂_nil_left_iff.mp h
    rfl
  | cons split rest ih =>
    obtain ⟨first, nets, ⟨hutxos, ⟨fee, hfee, hvalue⟩, -⟩, hrest, rfl⟩ :=
      List.forall₂_cons_left_iff.mp h
    rw [List.map_cons, List.sum_cons] at hbound ⊢
    dsimp only at hutxos hfee hvalue
    have hadd : checkedAdd64 gross fee = some (gross + fee) := if_pos (by omega)
    have hadd' : checkedAdd64 (gross + fee) first.value = some (gross + fee + first.value) :=
      if_pos (by omega)
    simp only [planGross, fundingFeePolicySats, hutxos, hfee, hadd, hadd', bind_eq_bind, bind_some]
    rw [ih hrest (by omega), Option.some.injEq]
    omega

theorem planRetries_worth {amount} (hbound : amount < 2 ^ 64)
    (h : planRetries pools state amount maxSplits = .ok plan) :
    plan ≠ [] ∧ planGross state.terms plan 0 = some amount := by
  obtain ⟨_, -, raw, hraw, hnet⟩ := planRetries_ok h
  obtain ⟨hne, -, htotal⟩ := planFunding_meets hraw
  obtain ⟨-, _, -, hnetted⟩ := netPolicyFeesAt_ok hnet
  have hgross : planGross state.terms plan 0 = some (0 + (raw.map (·.value)).sum) :=
    planGross_netted hnetted (by omega)
  refine ⟨?_, by rw [hgross, htotal, Nat.zero_add]⟩
  rintro rfl
  have hlen := hnetted.length_eq
  rw [List.length_zip, List.length_map, Nat.min_self, List.length_nil,
    List.length_eq_zero_iff] at hlen
  exact hne hlen

/-- **The plan of an admission is worth what the terms leave to forward.** -/
theorem planAdmission_priced {start} (hbound : state.swapAmount < 2 ^ 64)
    (hlegacy : state.protocol = .legacy → state.refundLocktimeOffset = state.timelock)
    (hfee : state.serviceFeeSats = fee state.swapAmount state.refundLocktimeOffset)
    (h : planAdmission pools state = .ok plan) : Priced fee ⟨start, state.terms, plan⟩ := by
  simp only [planAdmission, bind_ok_iff, okOr_eq_ok, filter_eq_some_iff,
    decide_eq_true_eq] at h
  obtain ⟨sweepFee, hsweep, minKept, hmin, kept, ⟨hkept, hle⟩, hplan⟩ := h
  have hsum := checkedSub_eq_some.mp hkept
  obtain ⟨hne, hgross⟩ := planRetries_worth (by omega) hplan
  have hsweepKept : sweepFee ≤ kept := by
    obtain ⟨perContract, hper, hmul⟩ := bind_eq_some_iff.mp hsweep
    exact (sweeps_le_swapCostFloor hmin hper hmul).trans hle
  refine ⟨hbound, hlegacy, hne, kept - sweepFee, ?_, hgross⟩
  have hrest : checkedSub kept sweepFee = some (kept - sweepFee) := if_pos hsweepKept
  simp only [forwardable, ConnectionState.terms, hsweep, bind_eq_bind, bind_some]
  rw [← hfee, hkept, bind_some, hrest]

/-! ## Runs -/

def SwapDetails.locktime (d : SwapDetails) : ProtocolVersion → Nat
  | .legacy => d.timelock.toNat
  | .taproot => d.refundLocktimeOffset.toNat

theorem validateSwapParameters_locked {maxSwapAmount locked currentHeight d}
    (h : validateSwapParameters maxSwapAmount currentHeight d = .ok locked)
    (hp : d.protocol = some protocol) : locked = d.locktime protocol := by
  cases protocol with
  | taproot => exact (validateSwapParameters_taproot h hp).1
  | legacy =>
    simp only [validateSwapParameters, bind_ok_iff, ensure_eq_ok, okOr_eq_ok, hp,
      Option.some.injEq] at h
    obtain ⟨_, -, _, -, _, -, _, -, _, -, _, -, _, rfl, _, -, _, -, _, -, n, hn, _, -, hl⟩ := h
    cases hl
    simp only [lockedBlocks, bind_ok_iff] at hn
    obtain ⟨_, -, hn⟩ := hn
    cases hn
    rfl

/-- Every admission of the step is planned by `planAdmission`, on some pools and at the
maker's fee formula. -/
def Sessions.plansAdmissions (fee : (amount lockedBlocks : Nat) → Nat) (s : Sessions P) :
    SessionAction P → Prop
  | .swapDetails conn d env planned => env.calculateSwapFee = fee ∧
      ∀ state, s.conns.lookup conn = some ⟨state, none⟩ → ∀ protocol offset plan,
        d.protocol = some protocol →
        validateSwapParameters env.maxSwapAmount env.currentHeight d = .ok offset →
        planned = some plan → ∃ pools, planAdmission pools
          (state.withTerms { env with now := s.clock } d protocol offset) = .ok plan
  | _ => True

theorem priced_withTerms {pools : Pools} {state : ConnectionState P} {env : AdmissionEnv P}
    {d : SwapDetails} {protocol : ProtocolVersion} {offset start : Nat} {plan : List SplitPlan}
    (h : planAdmission pools (state.withTerms env d protocol offset) = .ok plan)
    (hprotocol : d.protocol = some protocol)
    (hvalid : validateSwapParameters env.maxSwapAmount env.currentHeight d = .ok offset) :
    Priced env.calculateSwapFee ⟨start, (state.withTerms env d protocol offset).terms, plan⟩ := by
  refine planAdmission_priced d.amount.toNat_lt (fun hlegacy => ?_) rfl h
  obtain rfl : protocol = .legacy := hlegacy
  exact validateSwapParameters_locked hvalid hprotocol

theorem priced_of_reachable {maker : Maker P} {s : Sessions P}
    (h : Reachable (Sessions.step maker) (Sessions.plansAdmissions fee) Sessions.init s) :
    Agrees (fun _ => Priced fee) (fun _ => False) [] s := by
  refine h.invariant agrees_init fun t a t' ht hok hstep => agrees_sessionStep ht ?_ hstep
  cases a with
  | swapDetails conn d env planned =>
    obtain ⟨rfl, hplanned⟩ := hok
    intro state hlookup protocol offset plan hprotocol hvalid hplan
    obtain ⟨pools, hpools⟩ := hplanned state hlookup protocol offset plan hprotocol hvalid hplan
    exact @priced_withTerms P pools state { env with now := t.clock } d protocol offset t.clock plan
      hpools hprotocol hvalid
  | _ => trivial

end OpenSwap
