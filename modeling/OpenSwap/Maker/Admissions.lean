import OpenSwap.Maker.Progress

/-!
# The terms and the plan of an admission

An admission fixes the terms of a swap and its funding plan, under the instant it
was made at.  Both travel with every copy a connection takes and with every store.
-/

namespace OpenSwap

open Btc Checked Run AList

variable {P : Prims}

/-! ## Admissions -/

structure Admission where
  start : Nat
  terms : NegotiatedTerms
  plan : List SplitPlan
deriving DecidableEq

def ConnectionState.admission (s : ConnectionState P) : Admission :=
  ⟨s.swapStartTime, s.terms, s.fundingPlan⟩

def SwapState.admission (e : SwapState P) : Admission :=
  ⟨e.swapStartTime, e.negotiated, e.fundingPlan⟩

/-- The connection is of the same swap and admission, and not back in negotiation. -/
structure SameSwap (state state' : ConnectionState P) : Prop where
  admission : state'.admission = state.admission
  swapId : state'.swapId = state.swapId
  late : state.phase.early = false → state'.phase.early = false

theorem SameSwap.refl (state : ConnectionState P) : SameSwap state state := ⟨rfl, rfl, id⟩

def SessionNext.Keeps (id : String) (state : ConnectionState P) : SessionNext P → Prop
  | .busy state' task => SameSwap state state' ∧ task.swapId = id
  | .idle state' => SameSwap state state'
  | .closed _ => True

/-- Each entry after a step is of the admission it was of before, or it is the entry of
the handler's swap and of the connection's admission. -/
structure Spreads (swaps : Swaps P) (id : String) (state : ConnectionState P) (swaps' : Swaps P)
    (next : SessionNext P) : Prop where
  entries : ∀ id' e', swaps'.lookup id' = some e' →
    (∃ e, swaps.lookup id' = some e ∧ e'.admission = e.admission) ∨
      id' = id ∧ e'.admission = state.admission
  next : next.Keeps id state

section Steps

variable {maker : Maker P} {swaps swaps' : Swaps P} {c : Common P} {state : ConnectionState P}
  {task : SessionTask P} {answers : SessionAnswers P} {id : String} {state' : ConnectionState P}
  {next : SessionNext P}

theorem spreads_same (h : next.Keeps id state) :
    Spreads swaps id state swaps next :=
  ⟨fun _ e' he' => .inl ⟨e', he', rfl⟩, h⟩

theorem spreads_store (hstate : SameSwap state state')
    (hstore : storeConnectionState swaps id state' = .ok swaps') (hnext : next.Keeps id state) :
    Spreads swaps id state swaps' next := by
  obtain ⟨stored, rfl, -⟩ := storeConnectionState_ok hstore
  exact ⟨forall_lookup_insert (.inr ⟨rfl, hstate.admission⟩) fun _ e' he' =>
    .inl ⟨e', he', rfl⟩, hnext⟩

theorem spreads_update {e e'} (he : swaps.lookup id = some e) (hsame : e'.admission = e.admission)
    (hnext : next.Keeps id state) :
    Spreads swaps id state (swaps.insert id e') next :=
  ⟨forall_lookup_insert (.inl ⟨e, he, hsame⟩) fun _ e₁ he₁ => .inl ⟨e₁, he₁, rfl⟩, hnext⟩

theorem spreads_claim {txids} (hnext : next.Keeps id state)
    (h : claimIncomingContractTxids swaps id txids = .ok swaps') :
    Spreads swaps id state swaps' next := by
  simp only [claimIncomingContractTxids, bind_ok_iff, ensure_eq_ok, okOr_eq_ok] at h
  obtain ⟨_, -, e, he, _, -, h⟩ := h
  cases h
  exact spreads_update he rfl hnext

theorem spreads_erase (hnext : next.Keeps id state) :
    Spreads swaps id state (swaps.erase id) next :=
  ⟨fun _ e' he' => .inl ⟨e', lookup_of_lookup_erase he', rfl⟩, hnext⟩

theorem Rewritten.sameSwap {ends} (h : Rewritten ends state state') (hends : ends.early = false) :
    SameSwap state state' := by
  refine ⟨?_, h.swapId, fun hlate => ?_⟩
  · rw [ConnectionState.admission, h.start, h.terms, h.plan]
    rfl
  · rcases h.phase with heq | heq
    · exact heq ▸ hlate
    · exact heq ▸ hends

theorem SessionTask.late_ends (task : SessionTask P) : task.ends.early = false := by
  fun_induction SessionTask.ends task with
  | case1 task => cases task <;> rfl
  | case2 step => cases step <;> rfl
  | case3 step => cases step <;> rfl
  | _ => first | rfl | assumption

theorem Advances.spreads (hadv : Advances maker c state answers task swaps' next) :
    Spreads c.shared.ongoingSwaps task.swapId state swaps' next := by
  have hrefl := SameSwap.refl state
  cases hadv with
  | closed => exact spreads_same trivial
  | leads h => exact spreads_same ⟨hrefl, h.swapId_eq⟩
  | claims h hclaim => exact spreads_claim ⟨hrefl, h.swapId_eq⟩ hclaim
  | stores hstate hstore hnext =>
    have hsame := hstate.sameSwap task.late_ends
    refine spreads_store hsame hstore ?_
    rcases hnext with rfl | ⟨_, rfl⟩
    · exact hsame
    · trivial
  | storesSigs hstore => exact spreads_store hrefl hstore ⟨hrefl, rfl⟩
  | storesFunding hstate hstore =>
    exact spreads_store (hstate.sameSwap rfl) hstore ⟨hstate.sameSwap rfl, rfl⟩
  | sigsFail hsigs => exact spreads_erase ⟨hrefl, rfl⟩
  | sigsHold hstate => exact spreads_same ⟨hstate.sameSwap rfl, rfl⟩
  | handsOver => exact spreads_same ⟨⟨rfl, rfl, fun _ => rfl⟩, rfl⟩
  | completes => exact spreads_erase ⟨hrefl, rfl⟩
  | sends hafter hstored htask =>
    refine spreads_update hstored rfl ⟨⟨rfl, rfl, fun h => h⟩, ?_⟩
    rcases htask with rfl | ⟨tx, -, rfl⟩
    · exact hafter.swapId_eq
    · exact hafter.swapId_eq
  | releases => exact spreads_same ⟨hrefl, rfl⟩

/-- **No step of a handler changes an admission.** -/
theorem SessionTask.advance_spreads :
    Spreads c.shared.ongoingSwaps task.swapId state
      (task.advance maker c state answers).1.shared.ongoingSwaps
      (task.advance maker c state answers).2 :=
  task.advance_advances.spreads

theorem restoreStateIfNeeded_same (h : restoreStateIfNeeded swaps state id = .ok state') :
    state' = state ∨ state'.swapId = some id ∧
      ∃ e, swaps.lookup id = some e ∧ state'.admission = e.admission := by
  rcases restoreStateIfNeeded_ok h with ⟨rfl, -⟩ | hget
  · exact .inl rfl
  · obtain ⟨e, he, rfl⟩ := Option.map_eq_some_iff.mp hget
    exact .inr ⟨rfl, e, he, rfl⟩

end Steps

/-! ## What holds of every admission -/

/-- The admission of a connection that names a swap has a property; past negotiation it
names one, and a handler works for the swap its connection names. -/
structure Session.Holds (Q : String → Admission → Prop) (σ : Session P) : Prop where
  admission : ∀ id, σ.state.swapId = some id → Q id σ.state.admission
  late : σ.state.phase.early = false → ∃ id, σ.state.swapId = some id
  task : ∀ task, σ.task = some task →
    σ.state.swapId = some task.swapId ∧ σ.state.phase.early = false

/-- The admissions of all entries have the property, and those of all connections but
the ones that are to read theirs back. -/
structure Agrees (Q : String → Admission → Prop) (reads : Session P → Prop) (reading : List Nat)
    (s : Sessions P) : Prop where
  entries : ∀ id e, s.ongoingSwaps.lookup id = some e → Q id e.admission
  conns : ∀ n σ, s.conns.lookup n = some σ → if n ∈ reading then reads σ else σ.Holds Q

section Machine

variable {maker : Maker P} {s s' : Sessions P} {swaps : Swaps P} {state : ConnectionState P}
  {Q : String → Admission → Prop} {reads : Session P → Prop} {reading : List Nat}
  {answers : SessionAnswers P} {msg : SwapMessage P} {state' : ConnectionState P} {conn : Nat}
  {σ : Session P} {task : SessionTask P}

theorem Session.Holds.of_early (hearly : state.phase.early) (hid : state.swapId = none) :
    Session.Holds Q ⟨state, none⟩ where
  admission id hid' := by rw [hid] at hid'; cases hid'
  late hlate := by rw [hearly] at hlate; cases hlate
  task _ ht := by cases ht

theorem Session.Holds.start {phases} (h : Session.Holds Q ⟨state, none⟩)
    (hphases : ∀ p ∈ phases, p.early = false) (hphase : state.expectPhase phases = .ok ())
    (hid : state.checkSwapId task.swapId = .ok ()) :
    Session.Holds Q ⟨state, some task⟩ := by
  rw [ConnectionState.expectPhase, ensure_eq_ok] at hphase
  rw [ConnectionState.checkSwapId, ensure_eq_ok] at hid
  have hlate := hphases _ hphase
  obtain ⟨id, hsome⟩ := h.late hlate
  obtain rfl := hid id hsome
  refine ⟨h.admission, h.late, fun task' ht => ?_⟩
  cases ht
  exact ⟨hsome, hlate⟩

theorem Session.Holds.withIncoming {incoming task} (h : Session.Holds Q ⟨state, task⟩) :
    Session.Holds Q ⟨{ state with incomingSwapcoins := incoming }, task⟩ :=
  ⟨h.admission, h.late, h.task⟩

theorem SessionNext.Keeps.holds {next : SessionNext P} (h : next.Keeps task.swapId state)
    (hσ : Session.Holds Q ⟨state, some task⟩) :
    next.All (Session.Holds Q) := by
  obtain ⟨hid, hlate⟩ := hσ.task task rfl
  have hsame : ∀ {state' : ConnectionState P} {t : Option (SessionTask P)}, SameSwap state state' →
      (∀ task', t = some task' → task'.swapId = task.swapId) → Session.Holds Q ⟨state', t⟩ := by
    intro state' t hst ht
    refine ⟨fun id' hid' => ?_, fun _ => ⟨_, hst.swapId.trans hid⟩, fun task' ht' => ?_⟩
    · rw [show (⟨state', t⟩ : Session P).state.admission = state.admission from hst.admission]
      exact hσ.admission id' (hst.swapId ▸ hid')
    · exact ⟨ht task' ht' ▸ hst.swapId.trans hid, hst.late hlate⟩
  cases next with
  | busy state' task' => exact hsame h.1 fun t ht => by cases ht; exact h.2
  | idle state' => exact hsame h fun t ht => by cases ht
  | closed error => trivial

theorem Starts.holds {msg next} (hstarts : Starts maker state msg next)
    (h : Session.Holds Q ⟨state, none⟩) : next.lift.All (Session.Holds Q) := by
  cases hstarts with
  | closes => trivial
  | request hphase hid => exact h.start (by decide) hphase hid
  | proof hphase hid => exact h.start (by decide) hphase hid
  | signatures hphase hid => exact h.start (by decide) hphase hid
  | handover hphase hid => exact Session.Holds.withIncoming (h.start (by decide) hphase hid)

theorem restore_holds {id} (hentries : ∀ id e, swaps.lookup id = some e → Q id e.admission)
    (h : Session.Holds Q ⟨state, none⟩)
    (hrestore : restoreStateIfNeeded swaps state id = .ok state') :
    Session.Holds Q ⟨state', none⟩ := by
  rcases restoreStateIfNeeded_same hrestore with rfl | ⟨hid, e, he, hadm⟩
  · exact h
  · refine ⟨fun id' hid' => ?_, fun _ => ⟨id, hid⟩, fun _ ht => by cases ht⟩
    obtain rfl : id = id' := Option.some.inj (hid.symm.trans hid')
    exact hadm.symm ▸ hentries id e he

theorem Dispatches.holds {next} (hdispatches : Dispatches maker swaps state answers msg next)
    (hentries : ∀ id e, swaps.lookup id = some e → Q id e.admission)
    (h : Session.Holds Q ⟨state, none⟩) : next.All (Session.Holds Q) := by
  cases hdispatches with
  | closes => trivial
  | legacy hrestored hstarts => exact hstarts.holds (restore_holds hentries h hrestored)
  | contractData hrestored hphase hid =>
    exact (restore_holds hentries h hrestored).start (by decide) hphase hid
  | handover hrestored hphase hid =>
    exact Session.Holds.withIncoming
      ((restore_holds hentries h hrestored).start (by decide) hphase hid)

/-! ## Steps of the server -/

section

variable (hs : Agrees Q reads reading s)

include hs

theorem Agrees.shrink
    (hswaps : ∀ id e, s'.ongoingSwaps.lookup id = some e → s.ongoingSwaps.lookup id = some e)
    (hconns : ∀ n σ, s'.conns.lookup n = some σ → s.conns.lookup n = some σ) :
    Agrees Q reads reading s' where
  entries id e he := hs.entries id e (hswaps id e he)
  conns n σ hn := hs.conns n σ (hconns n σ hn)

theorem Agrees.holds (hconn : conn ∉ reading) (hn : s.conns.lookup conn = some σ) : σ.Holds Q := by
  have h := hs.conns conn σ hn
  rwa [if_neg hconn] at h

theorem Agrees.withConn (hconn : conn ∉ reading) (hconns : s'.conns = s.conns.insert conn σ)
    (hentries : ∀ id e, s'.ongoingSwaps.lookup id = some e → Q id e.admission) (hσ : σ.Holds Q) :
    Agrees Q reads reading s' := by
  refine ⟨hentries, fun n τ hn => ?_⟩
  rw [hconns] at hn
  rcases lookup_insert_cases hn with ⟨rfl, rfl⟩ | ⟨-, hn⟩
  · rwa [if_neg hconn]
  · exact hs.conns n τ hn

theorem Agrees.settle {mark c next} (hconn : conn ∉ reading)
    (hentries : ∀ id e, c.shared.ongoingSwaps.lookup id = some e → Q id e.admission)
    (hnext : next.All (Session.Holds Q)) : Agrees Q reads reading (s.settle conn mark c next) := by
  cases next with
  | busy state task => exact hs.withConn hconn rfl hentries hnext
  | idle state => exact hs.withConn hconn rfl hentries hnext
  | closed error =>
    exact ⟨hentries, fun n σ hn => hs.conns n σ (lookup_of_lookup_erase hn)⟩

end

/-- The action is not one of a connection that is to read its admission back, and not
`SwapDetails`, which takes two steps. -/
def SessionAction.spares (reading : List Nat) : SessionAction P → Bool
  | .connect conn | .greet conn | .deliver conn _ _ | .run conn _ | .disconnect conn =>
    conn ∉ reading
  | .swapDetails _ _ _ _ => false
  | .drain _ _ | .drainRelease _ | .wallet _ _ | .restart _ => true

/-- **Between admissions every step keeps what holds of the admissions.** -/
theorem agrees_step {a : SessionAction P} (hs : Agrees Q reads reading s)
    (hspares : a.spares reading) (h : s.step maker a = some s') :
    Agrees Q reads reading s' := by
  cases stepped_of_step h with
  | connect =>
    exact hs.withConn (of_decide_eq_true hspares) rfl hs.entries (.of_early rfl rfl)
  | @greet _ state phase hconn hphase =>
    have hspared := of_decide_eq_true hspares
    have hearly : phase.early = true := by
      rcases hphase with ⟨-, rfl⟩ | ⟨-, rfl⟩ <;> rfl
    refine hs.withConn hspared rfl hs.entries
      ⟨(hs.holds hspared hconn).admission, fun hlate => ?_, fun _ ht => ?_⟩
    · rw [hearly] at hlate
      cases hlate
    · cases ht
  | refuse => exact hs.shrink (fun _ _ he => he) fun _ _ => lookup_of_lookup_erase
  | details => cases hspares
  | deliver hconn =>
    have hspared := of_decide_eq_true hspares
    exact hs.settle hspared hs.entries
      (dispatchMessage_dispatches.holds hs.entries (hs.holds hspared hconn))
  | @run _ answers state task hconn =>
    have hspared := of_decide_eq_true hspares
    have hσ := hs.holds hspared hconn
    have hspread : Spreads s.ongoingSwaps task.swapId state
        (task.advance maker s.common state answers).1.shared.ongoingSwaps
        (task.advance maker s.common state answers).2 := SessionTask.advance_spreads
    refine hs.settle hspared (fun id e' he' => ?_) (hspread.next.holds hσ)
    rcases hspread.entries id e' he' with ⟨e, he, heq⟩ | ⟨rfl, heq⟩
    · exact heq.symm ▸ hs.entries id e he
    · exact heq.symm ▸ hσ.admission _ (hσ.task task rfl).1
  | disconnect => exact hs.shrink (fun _ _ he => he) fun _ _ => lookup_of_lookup_erase
  | drain => exact hs.shrink (fun _ _ => lookup_of_lookup_drainEntries) fun _ _ hn => hn
  | @restart _ shared hswaps =>
    refine ⟨fun id e (he : shared.ongoingSwaps.lookup id = some e) => ?_, fun n σ hn => ?_⟩
    · rw [hswaps] at he
      cases he
    · cases hn
  | _ => exact hs.shrink (fun _ _ he => he) fun _ _ hn => hn

end Machine

/-! ## `SwapDetails` -/

section Details

variable {maker : Maker P} {state state' : ConnectionState P} {d : SwapDetails}
  {env : AdmissionEnv P} {clock : Nat} {swaps swaps' : Swaps P}
  {planned : Option (List SplitPlan)} {Q : String → Admission → Prop}
  {reads : Session P → Prop}

variable {sh : Shared P} {id : String}

/-- A connection that reads an entry of its own terms back takes its admission over. -/
theorem readDetails_admission {e} (hid : state.swapId = some id) (he : swaps.lookup id = some e)
    (hterms : e.negotiated = state.terms) :
    ∃ state', readDetails swaps state = .ok state' ∧ state'.swapId = some id ∧
      state'.admission = e.admission := by
  refine ⟨{ state with fundingPlan := e.fundingPlan, swapStartTime := e.swapStartTime },
    ?_, hid, ?_⟩
  · rw [readDetails, hid, Option.bind_some, getConnectionState, he]
    rfl
  · change (⟨e.swapStartTime, state.terms, e.fundingPlan⟩ : Admission) = _
    rw [← hterms]
    rfl

theorem Session.Holds.of_admission {a} (hid : state.swapId = some id) (hstate : state.admission = a)
    (hQ : Q id a) : Session.Holds Q ⟨state, none⟩ := by
  refine ⟨fun id' hid' => ?_, fun _ => ⟨id, hid⟩, fun _ ht => by cases ht⟩
  obtain rfl : id = id' := Option.some.inj (hid.symm.trans hid')
  exact hstate.symm ▸ hQ

theorem handleDetails_holds
    (hentries : ∀ id e, sh.ongoingSwaps.lookup id = some e → Q id e.admission)
    (hstate : Session.Holds Q ⟨state, none⟩)
    (hnew : ∀ protocol offset plan, d.protocol = some protocol →
      validateSwapParameters env.maxSwapAmount env.currentHeight d = .ok offset →
      planned = some plan → Q d.id
        ⟨clock, (state.withTerms { env with now := clock } d protocol offset).terms, plan⟩) :
    (∀ id e, (handleDetails ⟨sh, ∅, clock⟩ state d env planned).1.ongoingSwaps.lookup id = some e →
      Q id e.admission) ∧
    (handleDetails ⟨sh, ∅, clock⟩ state d env planned).2.lift.All (Session.Holds Q) := by
  unfold handleDetails
  cases hstore : storeDetails sh.ongoingSwaps clock state d env planned with
  | error e => exact ⟨hentries, trivial⟩
  | ok answer =>
    obtain ⟨stored, state'⟩ := answer
    cases (storeDetails_stored hstore).2 with
    | same => exact ⟨hentries, hstate⟩
    | reset => exact ⟨hentries, .of_early rfl rfl⟩
    | live he hterms =>
      obtain ⟨st, hread, hstid, hadm⟩ := readDetails_admission rfl he hterms
      dsimp only
      rw [hread]
      exact ⟨hentries, .of_admission hstid hadm (hentries _ _ he)⟩
    | @fresh protocol offset plan hprotocol hvalid hmissing hplan =>
      have hQ := hnew protocol offset plan hprotocol hvalid hplan
      let attempt := state.withTerms { env with now := clock } d protocol offset
      obtain ⟨st, hread, hstid, hadm⟩ := readDetails_admission (show attempt.swapId = _ from rfl)
        (lookup_insert sh.ongoingSwaps)
        (show (SwapState.default.write attempt plan).negotiated = _ from rfl)
      dsimp only
      rw [hread]
      exact ⟨forall_lookup_insert hQ hentries, .of_admission hstid hadm hQ⟩

def Sessions.admitsOnly (Q : String → Admission → Prop) (s : Sessions P) : SessionAction P → Prop
  | .swapDetails conn d env planned =>
    ∀ state, s.conns.lookup conn = some ⟨state, none⟩ → ∀ protocol offset plan,
      d.protocol = some protocol →
      validateSwapParameters env.maxSwapAmount env.currentHeight d = .ok offset →
      planned = some plan → Q d.id
        ⟨s.clock, (state.withTerms { env with now := s.clock } d protocol offset).terms, plan⟩
  | _ => True

/-- **What holds of every new admission holds of all of them**, in the live swaps and on
the connections. -/
theorem agrees_sessionStep {s s' a} (hs : Agrees Q reads [] s) (hok : s.admitsOnly Q a)
    (h : s.step maker a = some s') : Agrees Q reads [] s' := by
  have hspared := fun hspares => agrees_step hs hspares h
  cases stepped_of_step h with
  | details hconn =>
    obtain ⟨hentries, hnext⟩ := handleDetails_holds hs.entries
      (hs.holds List.not_mem_nil hconn) (hok _ hconn)
    exact (hs.settle (c := { s.common with shared := _ }) List.not_mem_nil hentries hnext).shrink
      (fun _ _ he => he) fun _ _ hn => hn
  | _ => exact hspared (by simp [SessionAction.spares])

theorem agrees_init {reading} : Agrees Q reads reading (Sessions.init : Sessions P) := by
  refine ⟨fun id e he => ?_, fun n σ hn => ?_⟩
  · cases he
  · cases hn

end Details

end OpenSwap
