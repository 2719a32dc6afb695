import OpenSwap.Maker.Forwarding

/-!
# The next hop of a route

The taker derives what it declares to the next maker from the plan shape the previous
one reports: `deriveNextHop` replays the maker's pricing from the declared amount.
-/

namespace OpenSwap

open Btc Checked Run Option

variable {P : Prims}

/-! ## The taker's side -/

structure MakerConnection where
  protocol : ProtocolVersion
  amount : Nat
  incomingCount : Nat
  negotiatedTimelock : Nat
  refundLocktimeOffset : Nat
  fundingSplits : List Nat
  maxInputBudget : Nat
  swapFeerate : Nat

def MakerConnection.negotiated (d : SwapDetails) (protocol : ProtocolVersion)
    (fundingSplits : List Nat) : MakerConnection where
  protocol := protocol
  amount := d.amount.toNat
  incomingCount := d.incomingCount.toNat
  negotiatedTimelock := d.timelock.toNat
  refundLocktimeOffset := d.refundLocktimeOffset.toNat
  fundingSplits := fundingSplits
  maxInputBudget := d.maxInputBudget.toNat
  swapFeerate := roundF64 d.feerate.toNat

def MakerConnection.locktime (m : MakerConnection) : Nat :=
  match m.protocol with
  | .legacy => m.negotiatedTimelock
  | .taproot => m.refundLocktimeOffset

def hopNetSats (swapFee : Nat → Nat) (perHopMiningFee grossSats : Nat) : Nat :=
  grossSats - wrapAdd64 (swapFee grossSats) perHopMiningFee

variable (fee : (amount lockedBlocks : Nat) → Nat)

def forwardableForHop (m : MakerConnection) : Option Nat := do
  let perContract ← sweepFeePolicySats m.protocol m.swapFeerate
  let sweepFee ← checkedMul64 perContract m.incomingCount
  some (hopNetSats (fee · m.locktime) sweepFee m.amount)

def deriveNextHop (i : Nat) (m : MakerConnection) : Except TakerError (Nat × Nat) := do
  let forwardable ← okOr (forwardableForHop fee m)
    (.general s!"Maker {i} has no negotiated shape to derive the next hop from")
  let fundingFees ← okOr (fundingFees m.maxInputBudget m.swapFeerate m.fundingSplits 0)
    (.general "Funding fee arithmetic overflow")
  let nextAmount ← okOr (checkedSub forwardable fundingFees)
    (.general s!"Maker {i}'s fees exceed the hop amount")
  .ok (nextAmount, m.fundingSplits.length)

/-! ## The maker's side -/

/-- `store_connection_state` at admission as a whole: a live swap is not planned again. -/
def admitSwap (pools : Pools) (swaps : Swaps P) (swapId : String) (attempt : ConnectionState P) :
    Except MakerError (Swaps P) :=
  if swapId ∈ swaps then storeAdmission swaps swapId attempt none
  else do
    let plan ← planAdmission pools attempt
    storeAdmission swaps swapId attempt (some plan)

/-- What `SwapDetails` asks of a maker with these live swaps and pools. -/
def admissionEnv (maker : Maker P) (env : AdmissionEnv P) (s : Sessions P) (pools : Pools) :
    AdmissionEnv P :=
  { env with
    calculateSwapFee := maker.calculateSwapFee
    now := s.clock
    store := fun id attempt => do
      let swaps ← admitSwap pools s.ongoingSwaps id attempt
      okOr (getConnectionState swaps id) (.general "Admission left no stored swap state") }

variable {state : ConnectionState P} {fee : (amount lockedBlocks : Nat) → Nat} {gross : Nat}
  {swaps : Swaps P} {e : SwapState P} {terms : NegotiatedTerms} {id : String}

theorem handleSwapDetails_stored {env state' d ack}
    (h : handleSwapDetails env state d = .ok (some ack, state')) :
    ∃ protocol offset stored, d.protocol = some protocol ∧
      validateSwapParameters env.maxSwapAmount env.currentHeight d = .ok offset ∧
      env.store d.id (state.withTerms env d protocol offset) = .ok stored ∧
      ack.2 = stored.fundingPlan.map (·.utxos.length) ∧
      state'.terms = (state.withTerms env d protocol offset).terms ∧
      state'.fundingPlan = stored.fundingPlan ∧ state'.swapStartTime = stored.swapStartTime := by
  cases (handleSwapDetails_answered h).2 with
  | accepted hprotocol hvalid hstored =>
    exact ⟨_, _, _, hprotocol, hvalid, hstored, rfl, rfl, rfl, rfl⟩

theorem admit_priced {env : AdmissionEnv P} {pools : Pools} {swaps swaps' : Swaps P}
    {state stored : ConnectionState P} {d : SwapDetails} {protocol : ProtocolVersion} {offset : Nat}
    (hpriced : ∀ id e, swaps.lookup id = some e → Priced env.calculateSwapFee e.admission)
    (hprotocol : d.protocol = some protocol)
    (hvalid : validateSwapParameters env.maxSwapAmount env.currentHeight d = .ok offset)
    (hadmitted : admitSwap pools swaps d.id (state.withTerms env d protocol offset) = .ok swaps')
    (hstored : getConnectionState swaps' d.id = some stored) :
    Priced env.calculateSwapFee ⟨stored.swapStartTime,
      (state.withTerms env d protocol offset).terms, stored.fundingPlan⟩ := by
  obtain ⟨e, he, rfl⟩ := map_eq_some_iff.mp hstored
  unfold admitSwap at hadmitted
  split at hadmitted
  · rename_i hlive
    obtain ⟨e₀, he₀⟩ := isSome_iff_exists.mp (AList.lookup_isSome.mpr hlive)
    simp only [storeAdmission, he₀, bind_ok_iff, ensure_eq_ok, Except.ok.injEq] at hadmitted
    obtain ⟨_, hterms, rfl⟩ := hadmitted
    obtain rfl : e₀ = e := Option.some.inj (he₀.symm.trans he)
    rw [← hterms]
    exact hpriced d.id e₀ he
  · rename_i hmissing
    simp only [bind_ok_iff, storeAdmission, AList.lookup_eq_none.mpr hmissing,
      Except.ok.injEq] at hadmitted
    obtain ⟨plan, hplan, rfl⟩ := hadmitted
    rw [AList.lookup_insert, Option.some.injEq] at he
    subst he
    exact priced_withTerms hplan hprotocol hvalid

/-! ## The two sides agree -/

theorem fundingFees_of_planGross {plan total worth} (h : planGross terms plan gross = some worth)
    (hle : total ≤ gross) :
    ∃ fees, fundingFees terms.maxInputBudget terms.swapFeerate (plan.map (·.utxos.length)) total =
        some (total + fees) ∧ gross + fees + (plan.map (·.value)).sum = worth := by
  induction plan generalizing total gross with
  | nil =>
    obtain rfl := Option.some.inj h
    exact ⟨0, rfl, rfl⟩
  | cons split rest ih =>
    simp only [planGross, bind_eq_bind, bind_eq_some_iff, checkedAdd64_eq_some] at h
    obtain ⟨fee, hfee, withFee, ⟨rfl, hlt⟩, withValue, ⟨rfl, hlt'⟩, h⟩ := h
    have hle' : total + fee ≤ gross + fee + split.value := by omega
    obtain ⟨fees, hfees, hsum⟩ := ih h hle'
    have hadd : checkedAdd64 total fee = some (total + fee) := if_pos (by omega)
    refine ⟨fee + fees, ?_, ?_⟩
    · simp only [List.map_cons, fundingFees, hfee, hadd, bind_eq_bind, bind_some]
      rw [hfees, Nat.add_assoc]
    · rw [List.map_cons, List.sum_cons]
      omega

theorem forwardable_eq_some (h : forwardable fee terms = some gross) :
    ∃ perContract sweepFee, sweepFeePolicySats terms.protocol terms.swapFeerate = some perContract ∧
      checkedMul64 perContract terms.incomingCount = some sweepFee ∧
      fee terms.swapAmount terms.refundLocktimeOffset + sweepFee + gross = terms.swapAmount := by
  simp only [forwardable, bind_eq_bind, bind_eq_some_iff, checkedSub_eq_some] at h
  obtain ⟨sweepFee, ⟨perContract, hper, hsweep⟩, kept, hkept, hgross⟩ := h
  exact ⟨perContract, sweepFee, hper, hsweep, by omega⟩

theorem deriveNextHop_priced {a i m} (h : Priced fee a) (hprotocol : m.protocol = a.terms.protocol)
    (hamount : m.amount = a.terms.swapAmount) (hcount : m.incomingCount = a.terms.incomingCount)
    (hlocktime : m.locktime = a.terms.refundLocktimeOffset)
    (hsplits : m.fundingSplits = a.plan.map (·.utxos.length))
    (hbudget : m.maxInputBudget = a.terms.maxInputBudget)
    (hrate : m.swapFeerate = a.terms.swapFeerate) :
    deriveNextHop fee i m = .ok ((a.plan.map (·.value)).sum, a.plan.length) := by
  obtain ⟨gross, hforwardable, hworth⟩ := h.worth
  obtain ⟨perContract, sweepFee, hper, hsweep, hsum⟩ := forwardable_eq_some hforwardable
  obtain ⟨fees, hfees, htotal⟩ := fundingFees_of_planGross hworth le_rfl
  have hbound := h.bound
  have hwrap : wrapAdd64 (fee a.terms.swapAmount a.terms.refundLocktimeOffset) sweepFee =
      fee a.terms.swapAmount a.terms.refundLocktimeOffset + sweepFee := Nat.mod_eq_of_lt (by omega)
  have hnet : forwardableForHop fee m = some gross := by
    simp only [forwardableForHop, hopNetSats, hprotocol, hrate, hcount, hamount, hlocktime, hper,
      hsweep, hwrap, bind_eq_bind, bind_some, Option.some.injEq]
    omega
  have hrest : checkedSub gross (0 + fees) = some (a.plan.map (·.value)).sum :=
    checkedSub_eq_some.mpr htotal
  simp only [deriveNextHop, hnet, hsplits, hbudget, hrate, hfees, hrest, okOr, bind, Except.bind,
    List.length_map]

theorem frozenFundingPlan_ok (he : swaps.lookup id = some e) (hsplits : e.fundingPlan ≠ [])
    (hworth : planGross e.negotiated e.fundingPlan 0 = some gross) :
    frozenFundingPlan swaps id gross = .ok e.fundingPlan := by
  simp [frozenFundingPlan, he, hsplits, hworth, okOr, ensure, bind, Except.bind, Option.filter]

theorem coins_declared {tweakablePrivkey : P.SecretKey} {swapFeerate contractFloor total : Nat}
    {swapId : String} {infos : List (FundingTxInfo P)} {coins : List (IncomingSwapCoin P)}
    {declared : Nat}
    (hcoins : collectM (receiverCoin tweakablePrivkey swapFeerate swapId) infos = .ok coins)
    (h : declaredIncoming contractFloor infos total = .ok declared) :
    total + (coins.map (·.fundingAmount)).sum = declared := by
  obtain ⟨outs, houts, -, hsum⟩ := declaredIncoming_ok h
  rw [← hsum, map_eq_of_forall₂ (collectM_eq_ok.mp hcoins) houts
    fun _ _ _ hcoin hout => (receiverCoin_output hcoin hout).2.2.1]

/-- A maker with the plan of the swap frozen takes it when the contracts arrive. -/
structure TakesFrozenPlan (maker : Maker P) (swaps : Swaps P) (id : String)
    (state : ConnectionState P) : Prop where
  legacy : state.protocol = .legacy → ∀ (pof : ProofOfFunding P) coins answers, pof.id = id →
    answers.calls = .ok () → checkProofTerms state pof = .ok () →
    collectM (receiverCoin maker.tweakablePrivkey state.swapFeerate id)
      pof.confirmedFundingTxes = .ok coins →
    legacyFundingPlan maker swaps state answers pof coins = .ok state.fundingPlan
  taproot : state.protocol = .taproot → ∀ (env : TaprootEnv P) (data : TaprootContractData P)
      checked funding, data.id = id → env.calculateSwapFee = maker.calculateSwapFee →
    checkTaprootContract env state data = .ok checked →
    prepareTaproot env state data checked = .ok funding →
    frozenFundingPlan swaps id funding.forwardable = .ok state.fundingPlan

theorem takesFrozenPlan {maker} (h : Priced maker.calculateSwapFee e.admission)
    (he : swaps.lookup id = some e) (hterms : state.terms = e.negotiated)
    (hplan : state.fundingPlan = e.fundingPlan) :
    TakesFrozenPlan maker swaps id state := by
  obtain ⟨gross, hforwardable, hworth⟩ := h.worth
  have hfrozen : frozenFundingPlan swaps id gross = .ok state.fundingPlan :=
    hplan ▸ frozenFundingPlan_ok he h.splits hworth
  obtain ⟨perContract, sweepFee, hper, hsweep, hsum⟩ := forwardable_eq_some hforwardable
  have hlegacy := h.legacy
  simp only [SwapState.admission, ← hterms, ConnectionState.terms] at hlegacy hper hsweep hsum
  constructor
  · intro hprotocol pof coins answers hid hcalls hproof hcoins
    simp only [checkProofTerms, bind_ok_iff, ensure_eq_ok, okOr_eq_ok] at hproof
    obtain ⟨_, -, _, -, _, hlock, _, hcount, _, hnext, floor, -, declared, hdeclared, hamount⟩ :=
      hproof
    have hcoinsum : (coins.map (·.fundingAmount)).sum = state.swapAmount := by
      rw [← hamount, ← coins_declared hcoins hdeclared, Nat.zero_add]
    rw [hlegacy hprotocol] at hsum
    rw [hprotocol] at hper
    have hforward : forwardableAmount
        (maker.calculateSwapFee state.swapAmount state.timelock) state.swapFeerate
        state.swapAmount state.incomingCount = .ok gross := by
      have hkept : checkedSub state.swapAmount
          (maker.calculateSwapFee state.swapAmount state.timelock) = some (sweepFee + gross) :=
        checkedSub_eq_some.mpr (by omega)
      have hrest : checkedSub (sweepFee + gross) sweepFee = some gross :=
        checkedSub_eq_some.mpr rfl
      simp only [forwardableAmount, hper, hsweep, hkept, hrest, bind_some, okOr, bind,
        Except.bind]
    simp only [legacyFundingPlan, hcalls, hcoinsum, hlock, hcount, hforward, hid, hfrozen, hnext,
      bind, Except.bind, ensure, if_true]
  · intro hprotocol env data checked funding hid hfee hchecked hfunding
    simp only [checkTaprootContract, bind_ok_iff, ensure_eq_ok, okOr_eq_ok] at hchecked
    obtain ⟨_, -, _, -, _, -, key, -, _, -, _, -, _, hcount, floor, -, _, -, total, -, _, hamount,
      _, -, heq⟩ := hchecked
    cases heq
    simp only [prepareTaproot, bind_ok_iff, ensure_eq_ok, okOr_eq_ok, bind_eq_some_iff,
      checkedSub_eq_some] at hfunding
    obtain ⟨incoming, -, _, -, sweeps, ⟨per, hper', hsweep'⟩, amount, ⟨kept, hkept, hrest⟩, hash, -,
      next, -, params, -, heq⟩ := hfunding
    cases heq
    rw [hprotocol] at hper
    rw [hper, Option.some.injEq] at hper'
    subst hper'
    rw [hcount, hsweep, Option.some.injEq] at hsweep'
    rw [hfee, hamount] at hkept
    have hgross : amount = gross := by omega
    rw [hgross]
    exact hfrozen

/-- **The next hop is the frozen plan.**  For every declaration a maker accepts, the taker derives
the amount and the number of contracts of the next hop exactly as the plan has them, and the maker
later finds the plan worth what it forwards. -/
theorem next_hop_is_frozen_plan {maker : Maker P} {env : AdmissionEnv P} {s : Sessions P}
    {pools : Pools} {state state' : ConnectionState P} {d : SwapDetails}
    {ack : P.PublicKey × List Nat}
    (hreach : Reachable (Sessions.step maker) (Sessions.plansAdmissions maker.calculateSwapFee)
      Sessions.init s)
    (haccept : handleSwapDetails (admissionEnv maker env s pools) state d =
      .ok (some ack, state')) :
    (∀ i, deriveNextHop maker.calculateSwapFee i
      (MakerConnection.negotiated d state'.protocol ack.2) =
        .ok ((state'.fundingPlan.map (·.value)).sum, state'.fundingPlan.length)) ∧
    ∀ (swaps : Swaps P) (later : ConnectionState P) e, swaps.lookup d.id = some e →
      e.negotiated = state'.terms → e.fundingPlan = state'.fundingPlan →
      later.terms = state'.terms → later.fundingPlan = state'.fundingPlan →
      TakesFrozenPlan maker swaps d.id later := by
  obtain ⟨protocol, offset, stored, hprotocol, hvalid, hstore, hack, hterms, hplan, hstart⟩ :=
    handleSwapDetails_stored haccept
  simp only [admissionEnv, bind_ok_iff, okOr_eq_ok] at hstore
  obtain ⟨swaps', hadmitted, hstored⟩ := hstore
  have hpriced : Priced maker.calculateSwapFee ⟨stored.swapStartTime,
      (state.withTerms (admissionEnv maker env s pools) d protocol offset).terms,
      stored.fundingPlan⟩ :=
    @admit_priced P (admissionEnv maker env s pools) pools s.ongoingSwaps swaps' state stored d
      protocol offset (priced_of_reachable hreach).entries hprotocol hvalid hadmitted hstored
  have hlocked := validateSwapParameters_locked hvalid hprotocol
  have hproto : state'.protocol = protocol := congrArg NegotiatedTerms.protocol hterms
  refine ⟨fun i => ?_, fun swaps later e he heterms heplan hlterms hlplan => ?_⟩
  · rw [hplan]
    refine deriveNextHop_priced hpriced hproto rfl rfl ?_ hack rfl rfl
    rw [hproto]
    cases protocol with
    | legacy => exact hlocked.symm
    | taproot => exact hlocked.symm
  · refine takesFrozenPlan ?_ he (hlterms.trans heterms.symm) (hlplan.trans heplan.symm)
    change Priced _ ⟨e.swapStartTime, e.negotiated, e.fundingPlan⟩
    rw [heterms, heplan, hterms, hplan]
    exact ⟨hpriced.bound, hpriced.legacy, hpriced.splits, hpriced.worth⟩

namespace SampleSessions

def pools : Pools := ⟨[(⟨List.replicate 32 0xbb, 1⟩, 200000)], []⟩

/-- The splits the maker reports and the values it has frozen, for the sample details. -/
def admitted (s : Sessions prims) (state : ConnectionState prims) : Option (List Nat × List Nat) :=
  match handleSwapDetails (admissionEnv maker admission s pools) state details with
  | .ok (some ack, state') => some (ack.2, state'.fundingPlan.map (·.value))
  | _ => none

end SampleSessions

open SampleSessions in
theorem admitted_eq_some {s state counts values} (h : admitted s state = some (counts, values)) :
    ∃ ack state', handleSwapDetails (admissionEnv maker admission s
        pools) state details = .ok (some ack, state') ∧
      ack.2 = counts ∧ state'.fundingPlan.map (·.value) = values := by
  unfold admitted at h
  split at h
  · rename_i ack state' hok
    cases h
    exact ⟨ack, state', hok, rfl, rfl⟩
  · cases h

open SampleSessions in
/-- A swap of 100 000 sats at 1 sat/vB: the next hop gets one contract of 98 685 sats. -/
theorem next_hop_is_frozen_plan_sample :
    ∃ s state ack state', Reachable (Sessions.step maker)
        (Sessions.plansAdmissions maker.calculateSwapFee) Sessions.init s ∧
      handleSwapDetails (admissionEnv maker admission s
        pools) state details = .ok (some ack, state') ∧
      ack.2 = [1] ∧ state'.fundingPlan.map (·.value) = [98685] ∧
      deriveNextHop maker.calculateSwapFee 0
        (MakerConnection.negotiated details state'.protocol ack.2) =
          .ok ((state'.fundingPlan.map (·.value)).sum, state'.fundingPlan.length) := by
  have hrun : (exec (Sessions.step maker)
      (fun _ a => SessionAction.spares [] a = true) Sessions.init
      [.connect 0, .greet 0, .greet 0]).any (fun s => (s.conns.lookup 0).any fun σ =>
        admitted s σ.state = some ([1], [98685])) = true := by decide +kernel
  obtain ⟨s, hreach, hs⟩ := exists_reachable_of_exec _ hrun
  simp only [any_eq_true, decide_eq_true_eq] at hs
  obtain ⟨σ, -, hadmitted⟩ := hs
  obtain ⟨ack, state', hok, hcounts, hvalues⟩ := admitted_eq_some hadmitted
  have hreach' : Reachable (Sessions.step maker)
      (Sessions.plansAdmissions maker.calculateSwapFee) Sessions.init s := by
    refine hreach.mono fun _ a ha => ?_
    cases a with
    | swapDetails conn d env planned => cases ha
    | _ => trivial
  exact ⟨s, σ.state, ack, state', hreach', hok, hcounts, hvalues,
    (next_hop_is_frozen_plan hreach' hok).1 0⟩

end OpenSwap
