import OpenSwap.Maker.Progress
import OpenSwap.Maker.RecordedSwaps

/-!
# A swap with a recorded broadcast is not given up

Once a funding transaction of a live swap is recorded as broadcast, the swap should leave
the map only through the drain, which hands it to recovery, and its reservation should
shrink only by what a recorded transaction spends.
-/

namespace OpenSwap

open Btc Checked Run AList

variable {P : Prims}

/-! ## The condition -/

/-- Steps are taken on current copies.  A handler that executes the funding plan, or has
signatures that fail, gets the funding mark only while no broadcast of its swap is recorded;
and the swap moves on, or is admitted anew, only while no other connection works on it.  The
drain saves what it releases, before a swap it dropped is admitted again. -/
def Sessions.keepsRecorded (maker : Maker P) (s : Sessions P) (a : SessionAction P) : Prop :=
  s.currentCopies maker a ∧
  match a with
  | .swapDetails _ d _ _ => d.id ∉ s.ongoingSwaps →
      ∀ other ∈ s.conns.entries, ∀ t ∈ other.2.task, t.swapId = d.id → t.waits = true
  | .run conn answers => ∀ σ ∈ s.conns.lookup conn, ∀ task ∈ σ.task,
      let result := task.advance maker s.common σ.state answers
      (task.waits = true → result.2.WorksUnrecorded s.ongoingSwaps) ∧
        s.undisturbed conn task result.1.shared.ongoingSwaps fun _ _ => true
  | .drainRelease outcome => outcome = .saved ∧
      ∀ drained ∈ s.draining, ∀ id ∈ drained.unfunded, id ∉ s.ongoingSwaps
  | _ => True

instance (maker : Maker P) (s : Sessions P) :
    (a : SessionAction P) → Decidable (s.keepsRecorded maker a)
  | .connect _ | .greet _ | .swapDetails .. | .deliver .. | .run .. | .disconnect _ | .drain ..
  | .drainRelease _ | .wallet .. | .restart _ => by
    unfold Sessions.keepsRecorded
    infer_instance

/-! ## The machine -/

section Machine

variable {maker : Maker P} {s s' : Sessions P} {swaps swaps' : Swaps P} {state : ConnectionState P}
  {conn : Nat} {id : String} {mark : Option String} {c : Common P} {e : SwapState P}
  {d : SwapDetails} {result : Shared P × Next P} {keys : List String} {task : SessionTask P}
  {next : SessionNext P}

theorem Fits.congr (h : Fits swaps state task)
    (hsame : ∀ e', swaps'.lookup task.swapId = some e' → ∃ e,
      swaps.lookup task.swapId = some e ∧ e'.fundingBroadcastTxids = e.fundingBroadcastTxids) :
    Fits swaps' state task where
  unrecorded hrec := (h.unrecorded hrec).of_lookup hsame
  completed := h.completed
  spent tx after htask := by
    subst htask
    obtain ⟨htxid, hrest⟩ := h.spent tx after rfl
    refine ⟨fun e' he' => ?_, hrest⟩
    obtain ⟨e, he, htxids⟩ := hsame e' he'
    exact htxids ▸ htxid e he

def Guarded (s : Sessions P) : Prop :=
  ∀ n state task, s.conns.lookup n = some ⟨state, some task⟩ → task.waits = false →
    Fits s.ongoingSwaps state task

theorem Guarded.shrink (hg : Guarded s)
    (hswaps : ∀ id e, s'.ongoingSwaps.lookup id = some e → s.ongoingSwaps.lookup id = some e)
    (hconns : ∀ n state task, s'.conns.lookup n = some ⟨state, some task⟩ →
      s.conns.lookup n = some ⟨state, some task⟩) : Guarded s' :=
  fun n state task hn hworks => (hg n state task (hconns n state task hn) hworks).congr
    fun e he => ⟨e, hswaps _ e he, rfl⟩

theorem Guarded.withIdle {clock} (hg : Guarded s) :
    Guarded { s with conns := s.conns.insert conn ⟨state, none⟩, clock := clock } := by
  refine hg.shrink (fun _ _ he => he) fun n st task hn => ?_
  rcases lookup_insert_cases hn with ⟨-, heq⟩ | ⟨-, hn⟩
  · cases heq
  · exact hn

theorem Guarded.settle (hothers : ∀ n state task, n ≠ conn →
      s.conns.lookup n = some ⟨state, some task⟩ → task.waits = false →
      Fits c.shared.ongoingSwaps state task)
    (hnext : NextFits c.shared.ongoingSwaps next) : Guarded (s.settle conn mark c next) := by
  intro n state task hn hworks
  rw [settle_ongoingSwaps]
  rcases lookup_settle hn with ⟨rfl, hsession⟩ | ⟨hne, hn⟩
  · cases next <;> cases hsession
    exact hnext hworks
  · exact hothers n state task hne hn hworks

theorem Admits.fits {s} (h : Admits s state d result) :
    NextFits swaps result.2.lift := by
  cases h <;> trivial

theorem Admits.lookup {s} (h : Admits s state d result)
    (he : result.1.ongoingSwaps.lookup id = some e) :
    s.shared.ongoingSwaps.lookup id = some e ∨ d.id ∉ s.shared.ongoingSwaps ∧ id = d.id := by
  cases h with
  | opens _ _ hnone =>
    rcases lookup_insert_cases he with ⟨rfl, -⟩ | ⟨-, he⟩
    · exact .inr ⟨lookup_eq_none.mp hnone, rfl⟩
    · exact .inl he
  | _ => exact .inl he

theorem guarded_step {a} (hs : Orderly s) (hg : Guarded s) (hok : s.keepsRecorded maker a)
    (h : s.step maker a = some s') : Guarded s' := by
  cases stepped_of_step h with
  | connect => exact hg.withIdle
  | greet => exact hg.withIdle
  | refuse => exact hg.shrink (fun _ _ he => he) fun _ _ _ => lookup_of_lookup_erase
  | @details conn d env planned state hconn =>
    have hadmits : Admits ⟨s.common.shared, ∅, s.clock⟩ state d
        (handleDetails ⟨s.common.shared, ∅, s.clock⟩ state d env planned) := handleDetails_admits
    refine Guarded.shrink (Guarded.settle (fun n st t _ hn hworks => ?_) hadmits.fits)
      (fun _ _ he => he) fun _ _ _ hn => hn
    refine (hg n st t hn hworks).congr fun e he => ⟨e, ?_, rfl⟩
    rcases hadmits.lookup he with hold | ⟨hnew, hid⟩
    · exact hold
    · have hwaits := hok.2 hnew ⟨n, _⟩ (lookup_eq_some.mp hn) t rfl hid
      rw [hworks] at hwaits
      cases hwaits
  | deliver hconn =>
    exact Guarded.settle (fun n st t _ => hg n st t) dispatchMessage_dispatches.fits
  | @run conn answers state task hconn =>
    have hbusy := hs.busy _ _ _ hconn
    obtain ⟨hmark, hundisturbed⟩ := hok.2 _ hconn _ rfl
    refine Guarded.settle (fun n st t hne hn hworks => ?_)
      (SessionTask.advance_fits hbusy (hg _ _ _ hconn) hmark)
    refine (hg n st t hn hworks).congr fun e' he' => ?_
    by_cases hid : t.swapId = task.swapId
    · obtain ⟨e, he, hsame⟩ := hs.unmoved hconn hundisturbed hne hn hid hworks (hid ▸ he') rfl
      exact ⟨e, hid ▸ he, hsame.txids⟩
    · have hstep := SessionTask.advance_ok hbusy (hs.entered _) (hok.1 _ hconn _ rfl).1
      exact ⟨e', hstep.others _ hid ▸ he', rfl⟩
  | disconnect => exact hg.shrink (fun _ _ he => he) fun _ _ _ => lookup_of_lookup_erase
  | drain => exact hg.shrink (fun _ _ => lookup_of_lookup_drainEntries) fun _ _ _ hn => hn
  | restart => exact fun n state task hn => by cases hn
  | _ => exact hg.shrink (fun _ _ he => he) fun _ _ _ hn => hn

/-- **The drain hands a swap with a recorded broadcast to recovery**, if it takes it. -/
theorem drainEntries_kept (idle late : String → Bool)
    (he : c.shared.ongoingSwaps.lookup id = some e) (hsent : e.fundingBroadcastTxids ≠ []) :
    (drainEntries idle late c).1.shared.ongoingSwaps.lookup id = some e ∨
      idleSwapData ⟨id, e⟩ ∈ (drainEntries idle late c).2.idle := by
  unfold drainEntries
  dsimp only
  generalize hunf : (c.shared.ongoingSwaps.entries.filter fun e => e.2.isUnfunded && idle e.1).map
    (·.1) = unfunded
  have hfunded : id ∉ unfunded := by
    intro hmem
    rw [← hunf, List.mem_map] at hmem
    obtain ⟨⟨id', e'⟩, hmem, rfl⟩ := hmem
    obtain ⟨hentry, hcond⟩ := List.mem_filter.mp hmem
    obtain rfl : e = e' := Option.some.inj (he.symm.trans (lookup_eq_some.mpr hentry))
    simp only [SwapState.isUnfunded, Bool.and_eq_true, List.isEmpty_iff] at hcond
    exact hsent hcond.1.2
  have hkept : (unfunded.foldl Common.removeEntry c).shared.ongoingSwaps.lookup id = some e := by
    rw [removeEntry_ongoingSwaps, lookup_foldl_erase_of_notMem hfunded, he]
  generalize unfunded.foldl Common.removeEntry c = kept at hkept ⊢
  generalize hstale : kept.shared.ongoingSwaps.entries.filter (fun e =>
    !e.2.outgoingSwapcoins.isEmpty && (late e.1 || idle e.1)) = stale
  by_cases hmem : id ∈ stale.map (·.1)
  · refine .inr (List.mem_map.mpr ?_)
    obtain ⟨⟨id', e'⟩, hentry, rfl⟩ := List.mem_map.mp hmem
    have hin := hentry
    rw [← hstale] at hin
    obtain rfl : e = e' := Option.some.inj
      (hkept.symm.trans (lookup_eq_some.mpr (List.mem_filter.mp hin).1))
    exact ⟨_, hentry, rfl⟩
  · refine .inl ?_
    rw [removeEntry_ongoingSwaps, lookup_foldl_erase_of_notMem hmem, hkept]

theorem removeEntry_swapLocks :
    (keys.foldl Common.removeEntry c).reservations.swapLocks = c.reservations.swapLocks := by
  induction keys generalizing c with
  | nil => rfl
  | cons key rest ih => exact ih

theorem locks_foldl_release {r} (h : id ∉ keys) :
    (keys.foldl Reservations.release r).locks id = r.locks id := by
  induction keys generalizing r with
  | nil => rfl
  | cons key rest ih =>
    rw [List.mem_cons, not_or] at h
    rw [List.foldl_cons, ih h.2, Reservations.locks, Reservations.release,
      lookup_erase_ne h.1]
    rfl

theorem settle_reservations :
    (s.settle conn mark c next).common.reservations = c.reservations := by
  cases next <;> rfl

theorem settle_draining :
    (s.settle conn mark c next).draining = s.draining := by
  cases next <;> rfl

/-- What a step may do to a live swap with the entry `e`. -/
structure Kept (s s' : Sessions P) (id : String) (e : SwapState P) : Prop where
  /-- it stays, or the drain takes it out to return it -/
  entry : id ∈ s'.ongoingSwaps ∨ s.draining = none ∧ ∃ drained, s'.draining = some drained ∧
    idleSwapData ⟨id, e⟩ ∈ drained.idle
  /-- what leaves its reservation was spent by a transaction recorded as broadcast -/
  locks : ∀ o ∈ s.common.reservations.locks id, o ∈ s'.common.reservations.locks id ∨
    ∃ tx, P.txid tx ∈ e.fundingBroadcastTxids ∧ o ∈ tx.input.map (·.previousOutput)
  /-- what the drain has taken out is returned for recovery -/
  drained : ∀ drained ∈ s.draining, s'.draining = some drained ∨
    s'.draining = none ∧ ∀ data ∈ drained.idle, data ∈ s'.recovering

theorem Kept.of_same (hentry : id ∈ s'.ongoingSwaps)
    (hres : s'.common.reservations = s.common.reservations) (hdrain : s'.draining = s.draining) :
    Kept s s' id e where
  entry := .inl hentry
  locks _ ho := .inl (hres ▸ ho)
  drained _ hd := .inl (hdrain.trans hd)

theorem Admits.mem {s} (h : Admits s state d result) (hlive : id ∈ s.shared.ongoingSwaps) :
    id ∈ result.1.ongoingSwaps := by
  cases h with
  | opens => exact (mem_insert _).mpr (.inr hlive)
  | _ => exact hlive

/-- A handler keeps the swap unless it may give it up, and no such handler runs. -/
theorem run_kept {answers} (hs : Orderly s) (hg : Guarded s)
    (hlookup : s.conns.lookup conn = some ⟨state, some task⟩)
    (hentry : s.ongoingSwaps.lookup id = some e) (hsent : e.fundingBroadcastTxids ≠ [])
    (hopen : state.swapId = some id → state.phase ≠ .completed)
    (hok : s.currentCopies maker (.run conn answers)) :
    Kept s (s.settle conn mark (task.advance maker s.common state answers).1
      (task.advance maker s.common state answers).2) id e := by
  have hlive : id ∈ s.ongoingSwaps := lookup_isSome.mp (by rw [hentry]; rfl)
  cases hworks : task.waits with
  | true =>
    obtain ⟨hswaps, hreservations⟩ := SessionTask.advance_waits hworks
    refine .of_same ?_ (settle_reservations.trans hreservations) settle_draining
    rwa [settle_ongoingSwaps, hswaps]
  | false =>
  have hbusy := hs.busy _ _ _ hlookup
  have hfits := hg _ _ _ hlookup hworks
  have hstep := SessionTask.advance_ok hbusy (hs.entered _) (hok _ hlookup _ rfl).1
  have hres : Reserves state task s.common.reservations
      (task.advance maker s.common state answers).1.reservations :=
    SessionTask.advance_frame.reserves
  constructor
  case entry =>
    rw [settle_ongoingSwaps]
    by_cases hid : id = task.swapId
    · subst hid
      refine .inl (SessionTask.mem_advance ?_ ?_ hlive)
      · exact Bool.eq_false_iff.mpr fun hrec => hsent (hfits.unrecorded hrec e hentry)
      · exact Bool.eq_false_iff.mpr fun hcomp => hopen hbusy.swapId (hfits.completed hcomp)
    · have hother : (task.advance maker s.common state answers).1.shared.ongoingSwaps.lookup id =
          s.ongoingSwaps.lookup id := hstep.others id hid
      exact .inl (lookup_isSome.mp (by rw [hother, hentry]; rfl))
  case locks =>
    rw [settle_reservations]
    intro o ho
    by_cases hid : id = task.swapId
    · subst hid
      exact hres.locks_own hfits hentry hsent (hopen hbusy.swapId) ho
    · exact .inl (by rwa [hres.locks_other hid])
  case drained => exact fun drained hd => .inl (settle_draining.trans hd)

theorem drain_kept {idle late : String → Bool} (hentry : s.ongoingSwaps.lookup id = some e)
    (hsent : e.fundingBroadcastTxids ≠ []) (hnone : s.draining = none) :
    Kept s { s with
      common := (drainEntries idle late s.common).1
      draining := some (drainEntries idle late s.common).2 } id e where
  entry := by
    rcases drainEntries_kept idle late hentry hsent with hkept | hdrained
    · exact .inl (lookup_isSome.mp (by rw [hkept]; rfl))
    · exact .inr ⟨hnone, _, rfl, hdrained⟩
  locks o ho := by
    refine .inl ?_
    rw [Reservations.locks] at ho ⊢
    dsimp only [drainEntries]
    rwa [removeEntry_swapLocks, removeEntry_swapLocks]
  drained drained hd := by
    rw [hnone] at hd
    cases hd

/-- **A swap with a recorded broadcast is not given up**: while no connection that holds it has
completed, no step but a restart and the drain takes it out of the live swaps, and its reservation
loses only inputs of recorded broadcasts. -/
theorem recorded_swap_kept {a : SessionAction P} {id : String} {e : SwapState P}
    (hreach : Reachable (Sessions.step maker) (Sessions.keepsRecorded maker) Sessions.init s)
    (hok : s.keepsRecorded maker a) (hstep : s.step maker a = some s')
    (hrestart : ∀ swapLocks, a ≠ .restart swapLocks)
    (hentry : s.ongoingSwaps.lookup id = some e) (hsent : e.fundingBroadcastTxids ≠ [])
    (hopen : ∀ n σ, s.conns.lookup n = some σ → σ.state.swapId = some id →
      σ.state.phase ≠ .completed) : Kept s s' id e := by
  obtain ⟨hs, hg⟩ : Orderly s ∧ Guarded s := by
    refine hreach.invariant (I := fun s => Orderly s ∧ Guarded s)
      ⟨orderly_init, fun n state task hn => by cases hn⟩ ?_
    rintro s₁ a s₂ ⟨hs₁, hg₁⟩ hok hstep
    exact ⟨(orderly_step hs₁ hok.1 hstep).1, guarded_step hs₁ hg₁ hok hstep⟩
  have hlive : id ∈ s.ongoingSwaps := lookup_isSome.mp (by rw [hentry]; rfl)
  cases stepped_of_step hstep with
  | details =>
    refine .of_same ?_ settle_reservations settle_draining
    rw [settle_ongoingSwaps]
    exact handleDetails_admits.mem hlive
  | deliver =>
    refine .of_same ?_ settle_reservations settle_draining
    rw [settle_ongoingSwaps]
    exact hlive
  | run hconn => exact run_kept hs hg hconn hentry hsent (hopen _ _ hconn) hok.1
  | drain hdraining => exact drain_kept hentry hsent hdraining
  | @drainRelease _ drained hdraining =>
    obtain ⟨-, rfl, hdropped⟩ := hok
    refine ⟨.inl hlive, fun o ho => .inl ?_, fun drained' hd => .inr ⟨rfl, fun data hdata => ?_⟩⟩
    · dsimp only [OpenSwap.drainRelease]
      rwa [locks_foldl_release fun hmem => hdropped drained hdraining id hmem hlive]
    · obtain rfl : drained = drained' := Option.some.inj (hdraining.symm.trans hd)
      exact List.mem_append_right _ hdata
  | restart => exact absurd rfl (hrestart _)
  | _ => exact .of_same hlive rfl rfl

end Machine

/-! ## A peer's message removes the swap -/

namespace SampleSessions

/-- The funding transaction goes out and is recorded; the wallet cannot save the release
of its inputs, and the connection closes. -/
def halfSent (conn : Nat) : List (SessionAction prims) :=
  (broadcast conn).take 6 ++ [.run conn (answers (.failed false))]

/-- A new connection sends signatures for the same swap, up to their verification. -/
def resign (conn : Nat) (incoming : Bytes) : List (SessionAction prims) :=
  [.connect conn, .greet conn,
    .deliver conn (.legacy (.respContractSigsForRecvrAndSender (signatures incoming)))
      (answers .saved)] ++ runs conn 2

/-- The live swap, if a broadcast of it is recorded and no connection has completed it. -/
def recorded (s : Sessions prims) : Option (SwapState prims) :=
  (s.ongoingSwaps.lookup swapId).filter fun e => !e.fundingBroadcastTxids.isEmpty &&
    s.conns.entries.all fun c => c.2.state.phase ≠ .completed

end SampleSessions

open SampleSessions in
theorem recorded_eq_some {s e} (h : recorded s = some e) :
    s.ongoingSwaps.lookup swapId = some e ∧ e.fundingBroadcastTxids ≠ [] ∧
      ∀ n σ, s.conns.lookup n = some σ → σ.state.phase ≠ .completed := by
  simp only [recorded, Option.filter_eq_some_iff, Bool.and_eq_true,
    Bool.not_eq_true', List.isEmpty_eq_false_iff, List.all_eq_true, decide_eq_true_eq] at h
  obtain ⟨he, hsent, hopen⟩ := h
  exact ⟨he, hsent, fun n σ hn => hopen ⟨n, σ⟩ (lookup_eq_some.mp hn)⟩

open SampleSessions in
/-- A peer that sends the same good signatures again finds the swap and keeps it. -/
theorem recorded_swap_kept_resigned :
    ∃ s s' e, Reachable (Sessions.step maker) (Sessions.keepsRecorded maker) Sessions.init s ∧
      s.step maker (.run 2 (answers .saved)) = some s' ∧
      s.ongoingSwaps.lookup swapId = some e ∧ e.fundingBroadcastTxids ≠ [] ∧
      Kept s s' swapId e := by
  have hrun : (exec (Sessions.step maker) (Sessions.keepsRecorded maker) Sessions.init
      (funded 1 ++ (halfSent 1 ++ resign 2 incomingSig))).any (fun s =>
        (recorded s).isSome && s.keepsRecorded maker (.run 2 (answers .saved)) &&
        (s.step maker (.run 2 (answers .saved))).isSome) = true := by
    decide +kernel
  obtain ⟨s, hreach, hs⟩ := exists_reachable_of_exec _ hrun
  simp only [Bool.and_eq_true, Option.isSome_iff_exists, decide_eq_true_eq] at hs
  obtain ⟨⟨⟨e, he⟩, hok⟩, s', hs'⟩ := hs
  obtain ⟨he, hsent, hopen⟩ := recorded_eq_some he
  exact ⟨s, s', e, hreach, hs', he, hsent,
    recorded_swap_kept (a := .run 2 (answers .saved)) hreach hok hs' nofun he
      hsent fun n σ hn _ => hopen n σ hn⟩

open SampleSessions in
/-- **Signatures that fail remove a swap whose funding is out.**  The entry with a recorded
broadcast is gone after the step, and nothing was handed to recovery. -/
theorem bad_signatures_drop_swap :
    ∃ s s' conn answers e, Reachable (Sessions.step maker) (fun _ _ => True) Sessions.init s ∧
      s.step maker (.run conn answers) = some s' ∧
      s.ongoingSwaps.lookup swapId = some e ∧ e.fundingBroadcastTxids ≠ [] ∧
      (∀ n σ, s.conns.lookup n = some σ → σ.state.phase ≠ .completed) ∧
      swapId ∉ s'.ongoingSwaps ∧ s'.draining.isNone = true ∧
      s'.recovering.isEmpty = true := by
  have hrun : (exec (Sessions.step maker) (fun _ _ => True) Sessions.init
      (funded 1 ++ (halfSent 1 ++ resign 2 []))).any
      (fun s => (recorded s).isSome && (s.step maker (.run 2 (answers .saved))).any fun s' =>
          swapId ∉ s'.ongoingSwaps && (s'.draining.isNone &&
            s'.recovering.isEmpty)) = true := by decide +kernel
  obtain ⟨s, hreach, hs⟩ := exists_reachable_of_exec _ hrun
  simp only [Bool.and_eq_true, Option.isSome_iff_exists, Option.any_eq_true,
    decide_eq_true_eq] at hs
  obtain ⟨⟨e, he⟩, s', hs', hgone, hnone, hempty⟩ := hs
  obtain ⟨he, hsent, hopen⟩ := recorded_eq_some he
  exact ⟨s, s', 2, _, e, hreach, hs', he, hsent, hopen, hgone, hnone, hempty⟩

end OpenSwap
