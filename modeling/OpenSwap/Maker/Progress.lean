import OpenSwap.Maker.RecordedSwaps
import OpenSwap.Maker.TaprootLocks
import OpenSwap.Taker.Verification

/-!
# A live swap only moves forward

Several connections may hold copies of one swap, and a store writes a whole copy back.
While every handler starts its work on a current copy, and the swap moves on only while no
other connection works on it, a swap loses neither a phase nor a recorded broadcast as long
as its entry stays.  A second connection with an older copy can undo both.

Two guards of the source take part: stores refuse the copy of another admission, and of the
handlers that ask for the funding mark of a swap one at a time works on it.
-/

namespace OpenSwap

open Btc Checked Run AList

variable {P : Prims}

/-! ## The machine -/

abbrev Sessions.ongoingSwaps (s : Sessions P) : Swaps P := s.common.shared.ongoingSwaps

/-- The later entry is of the same admission and shows the same progress. -/
structure SameProgress (e e' : SwapState P) : Prop where
  start : e'.swapStartTime = e.swapStartTime
  phase : e'.phase = e.phase
  txids : e'.fundingBroadcastTxids = e.fundingBroadcastTxids

instance (e e' : SwapState P) : Decidable (SameProgress e e') :=
  decidable_of_iff (e'.swapStartTime = e.swapStartTime ∧ e'.phase = e.phase ∧
      e'.fundingBroadcastTxids = e.fundingBroadcastTxids)
    ⟨fun h => ⟨h.1, h.2.1, h.2.2⟩, fun h => ⟨h.start, h.phase, h.txids⟩⟩

/-- The step of a connection leaves the progress of its swap as it is, or no other
connection works on that swap in an admission that `concerns` it.  That two of them hold
the funding mark of the swap need not be excluded. -/
def Sessions.undisturbed (s : Sessions P) (conn : Nat) (task : SessionTask P) (swaps' : Swaps P)
    (concerns : Nat → Nat → Bool) : Prop :=
  ∀ e' ∈ swaps'.lookup task.swapId,
    (∃ e ∈ s.ongoingSwaps.lookup task.swapId, SameProgress e e') ∨
    ∀ other ∈ s.conns.entries, other.1 ≠ conn → ∀ t ∈ other.2.task, t.swapId = task.swapId →
      concerns e'.swapStartTime other.2.state.swapStartTime = true →
        t.waits = true ∨ t.fundingGuard.isSome ∧ task.fundingGuard.isSome

instance (s : Sessions P) (conn : Nat) (task : SessionTask P) (swaps' : Swaps P)
    (concerns : Nat → Nat → Bool) : Decidable (s.undisturbed conn task swaps' concerns) := by
  unfold Sessions.undisturbed
  infer_instance

/-- A handler gets to work with a current copy of its swap, when its message arrives or, if
it needs the funding mark, when it gets that; and the swap moves on only while no other
connection works on this admission of it. -/
def Sessions.currentCopies (maker : Maker P) (s : Sessions P) : SessionAction P → Prop
  | .deliver conn msg answers => ∀ σ ∈ s.conns.lookup conn,
      (dispatchMessage maker s.ongoingSwaps σ.state answers msg).WorksCurrent s.ongoingSwaps
  | .run conn answers => ∀ σ ∈ s.conns.lookup conn, ∀ task ∈ σ.task,
      let result := task.advance maker s.common σ.state answers
      (task.waits = true → result.2.WorksCurrent s.ongoingSwaps) ∧
        s.undisturbed conn task result.1.shared.ongoingSwaps (· == ·)
  | _ => True

instance (maker : Maker P) (s : Sessions P) (a : SessionAction P) :
    Decidable (s.currentCopies maker a) := by
  cases a <;> unfold Sessions.currentCopies <;> infer_instance

/-- The connection is in the middle of a handler that has the funding mark of the swap. -/
def Sessions.Marked (s : Sessions P) (n : Nat) (id : String) : Prop :=
  ∃ state task, s.conns.lookup n = some ⟨state, some task⟩ ∧ task.fundingGuard = some id

/-- The connections are in order, and a funding mark is held by one of them at most. -/
structure Orderly (s : Sessions P) : Prop where
  entered : ∀ id e, s.ongoingSwaps.lookup id = some e → Entered s.clock e
  idle : ∀ n state, s.conns.lookup n = some ⟨state, none⟩ → Idle s.clock state
  busy : ∀ n state task, s.conns.lookup n = some ⟨state, some task⟩ →
    Busy s.clock s.ongoingSwaps state task
  marked : ∀ n id, s.Marked n id → id ∈ s.common.shared.fundingInProgress
  apart : ∀ n m id, s.Marked n id → s.Marked m id → n = m

section Machine

variable {maker : Maker P} {s s' : Sessions P} {swaps swaps' : Swaps P} {state : ConnectionState P}
  {conn clock : Nat} {id : String} {c : Common P} {mark : Option String} {next : SessionNext P}
  {task : SessionTask P} {state' : ConnectionState P}

theorem Busy.congr {clock'} (h : Busy clock swaps state task) (hclock : clock ≤ clock')
    (hcurrent : Current swaps task.swapId state → Current swaps' task.swapId state) :
    Busy clock' swaps' state task :=
  ⟨h.swapId, h.late, h.start.trans_le hclock, h.ends, fun hworks => hcurrent (h.current hworks)⟩

theorem Current.shrink (h : Current swaps id state)
    (hswaps : ∀ e, swaps'.lookup id = some e → swaps.lookup id = some e) :
    Current swaps' id state :=
  fun e he => h e (hswaps e he)

/-- What a step of `conn` may do to the funding marks. -/
structure KeepsMarks (s : Sessions P) (conn : Nat) (mark : Option String) (c : Common P)
    (next : SessionNext P) : Prop where
  subset : s.common.shared.fundingInProgress ⊆ c.shared.fundingInProgress
  mine : ∀ id, mark = some id → s.Marked conn id
  next : ∀ state task id, next = .busy state task → task.fundingGuard = some id →
    s.Marked conn id ∨
      id ∉ s.common.shared.fundingInProgress ∧ id ∈ c.shared.fundingInProgress

theorem marked_settle {n}
    (h : Sessions.Marked { s.settle conn mark c next with clock := clock } n id) :
    (n = conn ∧ ∃ state task, next = .busy state task ∧ task.fundingGuard = some id) ∨
      n ≠ conn ∧ s.Marked n id := by
  obtain ⟨state, task, hlookup, hguard⟩ := h
  rcases lookup_settle hlookup with ⟨rfl, hnext⟩ | ⟨hne, hlookup⟩
  · refine .inl ⟨rfl, state, task, ?_, hguard⟩
    cases next <;> cases hnext
    rfl
  · exact .inr ⟨hne, state, task, hlookup, hguard⟩

theorem mem_marks_settle {id} (hmarks : KeepsMarks s conn mark c next)
    (hmem : id ∈ c.shared.fundingInProgress) (hfree : mark ≠ some id) :
    id ∈ (s.settle conn mark c next).common.shared.fundingInProgress := by
  cases next with
  | busy state task => exact hmem
  | idle state => exact List.mem_filter.mpr ⟨hmem, decide_eq_true hfree.symm⟩
  | closed error => exact List.mem_filter.mpr ⟨hmem, decide_eq_true hfree.symm⟩

theorem settle_ongoingSwaps :
    (s.settle conn mark c next).ongoingSwaps = c.shared.ongoingSwaps := by
  cases next <;> rfl

/-- **A step of one connection keeps order**, if the copies of the connections that work on
its swap stay current. -/
theorem Orderly.settle (hs : Orderly s) (hclock : s.clock ≤ clock)
    (h : StepOk clock s.ongoingSwaps id c.shared.ongoingSwaps next)
    (hothers : ∀ n state task, n ≠ conn → s.conns.lookup n = some ⟨state, some task⟩ →
      task.waits = false → task.swapId = id → Current c.shared.ongoingSwaps id state)
    (hmarks : KeepsMarks s conn mark c next) :
    Orderly { s.settle conn mark c next with clock := clock } := by
  have hothers' : ∀ n state task, n ≠ conn → s.conns.lookup n = some ⟨state, some task⟩ →
      Busy clock c.shared.ongoingSwaps state task := by
    intro n state task hne hn
    have hbusy := hs.busy n state task hn
    refine ⟨hbusy.swapId, hbusy.late, hbusy.start.trans_le hclock, hbusy.ends, fun hworks => ?_⟩
    by_cases hid : task.swapId = id
    · exact hid ▸ hothers n state task hne hn hworks hid
    · exact (hbusy.current hworks).shrink fun e he => h.others _ hid ▸ he
  refine ⟨fun id' e he => ?_, fun n state hn => ?_, fun n state task hn => ?_,
    fun n id' hn => ?_, fun n m id' hn hm => ?_⟩
  · replace he : c.shared.ongoingSwaps.lookup id' = some e := settle_ongoingSwaps ▸ he
    by_cases hid : id' = id
    · exact h.entered e (hid ▸ he)
    · have hold := hs.entered id' e (h.others id' hid ▸ he)
      exact ⟨hold.late, hold.start.trans_le hclock⟩
  · rcases lookup_settle hn with ⟨rfl, hnext⟩ | ⟨-, hn⟩
    · cases next <;> cases hnext
      exact h.next
    · have hold := hs.idle n state hn
      exact ⟨hold.start.trans_le hclock, hold.late⟩
  · show Busy clock (s.settle conn mark c next).ongoingSwaps state task
    rw [settle_ongoingSwaps]
    rcases lookup_settle hn with ⟨rfl, hnext⟩ | ⟨hne, hn⟩
    · cases next <;> cases hnext
      exact h.next.2
    · exact hothers' n state task hne hn
  · rcases marked_settle hn with ⟨rfl, state, task, rfl, hguard⟩ | ⟨hne, hn⟩
    · rcases hmarks.next state task id' rfl hguard with hmine | ⟨-, hnew⟩
      · exact hmarks.subset (hs.marked _ id' hmine)
      · exact hnew
    · refine mem_marks_settle hmarks (hmarks.subset (hs.marked n id' hn)) fun hmark => ?_
      exact hne (hs.apart n conn id' hn (hmarks.mine id' hmark))
  · have hclash : ∀ k, k ≠ conn → s.Marked k id' → ∀ state task, next = .busy state task →
        task.fundingGuard ≠ some id' := by
      intro k hne hk state task hnext hguard
      rcases hmarks.next state task id' hnext hguard with hmine | ⟨hfree, -⟩
      · exact hne (hs.apart k conn id' hk hmine)
      · exact hfree (hs.marked k id' hk)
    rcases marked_settle hn with ⟨rfl, state, task, hnext, hguard⟩ | ⟨hne, hn₁⟩ <;>
      rcases marked_settle hm with ⟨rfl, state', task', hnext', hguard'⟩ | ⟨hne', hm₁⟩
    · rfl
    · exact absurd hguard (hclash m hne' hm₁ state task hnext)
    · exact absurd hguard' (hclash n hne hn₁ state' task' hnext')
    · exact hs.apart n m id' hn₁ hm₁

theorem Orderly.settleNow (hs : Orderly s)
    (h : StepOk s.clock s.ongoingSwaps id c.shared.ongoingSwaps next)
    (hothers : ∀ n state task, n ≠ conn → s.conns.lookup n = some ⟨state, some task⟩ →
      task.waits = false → task.swapId = id → Current c.shared.ongoingSwaps id state)
    (hmarks : KeepsMarks s conn mark c next) : Orderly (s.settle conn mark c next) := by
  have hsettled := hs.settle le_rfl h hothers hmarks
  cases next <;> exact hsettled

/-- A step that adds nothing keeps order. -/
theorem Orderly.shrink (hs : Orderly s) (hclock : s'.clock = s.clock)
    (hswaps : ∀ id e, s'.ongoingSwaps.lookup id = some e → s.ongoingSwaps.lookup id = some e)
    (hconns : ∀ n σ, s'.conns.lookup n = some σ → s.conns.lookup n = some σ)
    (hmarks : ∀ n id, s'.Marked n id → id ∈ s.common.shared.fundingInProgress →
      id ∈ s'.common.shared.fundingInProgress) : Orderly s' := by
  have hmarked : ∀ n id, s'.Marked n id → s.Marked n id := fun n id ⟨state, task, hn, hguard⟩ =>
    ⟨state, task, hconns n _ hn, hguard⟩
  exact {
    entered := fun id e he => hclock ▸ hs.entered id e (hswaps id e he)
    idle := fun n state hn => hclock ▸ hs.idle n state (hconns n _ hn)
    busy := fun n state task hn => (hs.busy n state task (hconns n _ hn)).congr hclock.ge
      fun hin => hin.shrink (hswaps _)
    marked := fun n id hn => hmarks n id hn (hs.marked n id (hmarked n id hn))
    apart := fun n m id hn hm => hs.apart n m id (hmarked n id hn) (hmarked m id hm) }

theorem Orderly.withIdle (hs : Orderly s) (hclock : s.clock ≤ clock) (hidle : Idle clock state) :
    Orderly { s with conns := s.conns.insert conn ⟨state, none⟩, clock := clock } := by
  have hold : ∀ {n st} {t : SessionTask P},
      (s.conns.insert conn ⟨state, none⟩).lookup n = some ⟨st, some t⟩ →
        s.conns.lookup n = some ⟨st, some t⟩ := by
    intro n st t hn
    rcases lookup_insert_cases hn with ⟨-, heq⟩ | ⟨-, hn⟩
    · cases heq
    · exact hn
  refine ⟨fun id e he => ?_, fun n st hn => ?_, fun n st t hn => ?_, ?_, ?_⟩
  · exact ⟨(hs.entered id e he).late, (hs.entered id e he).start.trans_le hclock⟩
  · rcases lookup_insert_cases hn with ⟨-, heq⟩ | ⟨-, hn⟩
    · cases heq
      exact hidle
    · exact ⟨(hs.idle n st hn).start.trans_le hclock, (hs.idle n st hn).late⟩
  · exact (hs.busy n st t (hold hn)).congr hclock fun hin => hin
  · rintro n id ⟨st, t, hn, hguard⟩
    exact hs.marked n id ⟨st, t, hold hn, hguard⟩
  · rintro n m id ⟨st, t, hn, hguard⟩ ⟨st', t', hm, hguard'⟩
    exact hs.apart n m id ⟨st, t, hold hn, hguard⟩ ⟨st', t', hold hm, hguard'⟩

theorem removeEntry_ongoingSwaps {keys : List String} :
    (keys.foldl Common.removeEntry c).shared.ongoingSwaps =
      keys.foldl (fun m k => m.erase k) c.shared.ongoingSwaps := by
  induction keys generalizing c with
  | nil => rfl
  | cons key rest ih => exact ih

theorem removeEntry_marks {keys : List String} :
    (keys.foldl Common.removeEntry c).shared.fundingInProgress = c.shared.fundingInProgress := by
  induction keys generalizing c with
  | nil => rfl
  | cons key rest ih => exact ih

theorem lookup_of_lookup_drainEntries {stale late : String → Bool} {e : SwapState P}
    (h : (drainEntries stale late c).1.shared.ongoingSwaps.lookup id = some e) :
    c.shared.ongoingSwaps.lookup id = some e := by
  rw [drainEntries, removeEntry_ongoingSwaps] at h
  have hkept := lookup_of_lookup_foldl_erase h
  rw [removeEntry_ongoingSwaps] at hkept
  exact lookup_of_lookup_foldl_erase hkept

theorem Dispatches.unmarked {answers msg} (h : Dispatches maker swaps state answers msg next)
    (hnext : next = .busy state' task) : task.fundingGuard = none := by
  cases h with
  | legacy _ hstarts => cases hstarts <;> cases hnext <;> rfl
  | _ => cases hnext <;> rfl

theorem Admits.current {s d result} (h : Admits s state d result) {st : ConnectionState P}
    (hstart : st.swapStartTime < s.clock) (hin : Current s.shared.ongoingSwaps d.id st) :
    Current result.1.ongoingSwaps d.id st := by
  cases h with
  | @opens env _ _ _ _ hnow =>
    refine .insert fun heq => ?_
    have : env.now = st.swapStartTime := heq
    omega
  | _ => exact hin

theorem Admits.keepsMarks {s : Sessions P} {d result}
    (h : Admits ⟨s.common.shared, ∅, s.clock⟩ state d result) :
    KeepsMarks s conn none { s.common with shared := result.1 } result.2.lift := by
  cases h <;> exact ⟨List.Subset.refl _, fun _ h => (by cases h), fun _ _ _ h => (by cases h)⟩

theorem Orderly.unmoved {e' : SwapState P} {t : SessionTask P} {n st}
    {concerns : Nat → Nat → Bool} (hs : Orderly s)
    (hconn : s.conns.lookup conn = some ⟨state, some task⟩)
    (h : s.undisturbed conn task swaps' concerns) (hne : n ≠ conn)
    (hn : s.conns.lookup n = some ⟨st, some t⟩) (hid : t.swapId = task.swapId)
    (hworks : t.waits = false) (he' : swaps'.lookup task.swapId = some e')
    (hconcerns : concerns e'.swapStartTime st.swapStartTime = true) :
    ∃ e, s.ongoingSwaps.lookup task.swapId = some e ∧ SameProgress e e' := by
  rcases h e' he' with hsame | halone
  · exact hsame
  · rcases halone ⟨n, _⟩ (lookup_eq_some.mp hn) hne t rfl hid hconcerns with hwaits | hboth
    · rw [hworks] at hwaits
      cases hwaits
    · -- the mark of a swap has one holder
      obtain ⟨id, hguard⟩ := Option.isSome_iff_exists.mp hboth.1
      obtain ⟨id', hguard'⟩ := Option.isSome_iff_exists.mp hboth.2
      have hsame : id = id' := by
        rw [← SessionTask.swapId_of_fundingGuard hguard, hid,
          SessionTask.swapId_of_fundingGuard hguard']
      subst hsame
      exact absurd (hs.apart n conn id ⟨st, t, hn, hguard⟩ ⟨state, task, hconn, hguard'⟩) hne

/-- **Every step on current copies keeps order**, and moves the entries that stay forward. -/
theorem orderly_step {a} (hs : Orderly s) (hok : s.currentCopies maker a)
    (h : s.step maker a = some s') :
    Orderly s' ∧ ∀ id e e', s.ongoingSwaps.lookup id = some e →
      s'.ongoingSwaps.lookup id = some e' → Forward e e' := by
  have hfewer : (∀ id e, s'.ongoingSwaps.lookup id = some e → s.ongoingSwaps.lookup id = some e) →
      ∀ id e e', s.ongoingSwaps.lookup id = some e →
        s'.ongoingSwaps.lookup id = some e' → Forward e e' := by
    intro hfew id e e' he he'
    obtain rfl : e = e' := Option.some.inj (he.symm.trans (hfew id e' he'))
    exact .refl e
  have hforward : ∀ {clock conn id mark c next},
      StepOk clock s.ongoingSwaps id c.shared.ongoingSwaps next →
      ∀ id e e', s.ongoingSwaps.lookup id = some e →
        (s.settle conn mark c next).ongoingSwaps.lookup id = some e' → Forward e e' := by
    intro clock conn id mark c next hstep id' e e' he he'
    rw [settle_ongoingSwaps] at he'
    by_cases hid : id' = id
    · subst hid
      exact hstep.forward e e' he he'
    · rw [hstep.others id' hid, he, Option.some.injEq] at he'
      exact he' ▸ .refl e
  have hstays : s'.clock = s.clock → s'.ongoingSwaps = s.ongoingSwaps →
      s'.common.shared.fundingInProgress = s.common.shared.fundingInProgress →
      (∀ n σ, s'.conns.lookup n = some σ → s.conns.lookup n = some σ) → Orderly s' ∧
      ∀ id e e', s.ongoingSwaps.lookup id = some e →
        s'.ongoingSwaps.lookup id = some e' → Forward e e' :=
    fun hclock heq hmarks hconns => ⟨hs.shrink hclock (fun _ _ he => heq ▸ he) hconns
      fun _ _ _ hmem => hmarks ▸ hmem, hfewer fun _ _ he => heq ▸ he⟩
  cases stepped_of_step h with
  | connect =>
    exact ⟨hs.withIdle (Nat.le_succ _) ⟨Nat.lt_succ_self _, fun hlate => by cases hlate⟩,
      hfewer fun _ _ he => he⟩
  | greet hconn hphase =>
    refine ⟨hs.withIdle le_rfl ⟨(hs.idle _ _ hconn).start, fun hlate => ?_⟩,
      hfewer fun _ _ he => he⟩
    rcases hphase with ⟨-, rfl⟩ | ⟨-, rfl⟩ <;> cases hlate
  | refuse => exact hstays rfl rfl rfl fun _ _ => lookup_of_lookup_erase
  | @details conn d env planned state hconn =>
    have hadmits : Admits ⟨s.common.shared, ∅, s.clock⟩ state d
        (handleDetails ⟨s.common.shared, ∅, s.clock⟩ state d env planned) := handleDetails_admits
    have hstep := hadmits.ok (fun id e he => (hs.entered id e he).later)
      ⟨Nat.lt_succ_of_lt (hs.idle _ _ hconn).start, (hs.idle _ _ hconn).late⟩
    refine ⟨hs.settle (Nat.le_succ _) hstep (fun n st t _ hn hworks hid => ?_) hadmits.keepsMarks,
      hforward hstep⟩
    have hbusy := hs.busy n st t hn
    exact hadmits.current hbusy.start (hid ▸ hbusy.current hworks)
  | deliver hconn =>
    have hstep := StepOk.same (hs.entered _) (dispatchMessage_dispatches.ok hs.entered
      (hs.idle _ _ hconn) (hok _ hconn))
    refine ⟨hs.settleNow hstep (fun n st t _ hn hworks hid => ?_) ⟨List.Subset.refl _,
      fun _ h => (by cases h), fun st t id hnext hguard => ?_⟩, hforward hstep⟩
    · exact hid ▸ (hs.busy n st t hn).current hworks
    · rw [dispatchMessage_dispatches.unmarked hnext] at hguard
      cases hguard
  | run hconn =>
    obtain ⟨hmark, hundisturbed⟩ := hok _ hconn _ rfl
    have hstep := SessionTask.advance_ok (hs.busy _ _ _ hconn) (hs.entered _) hmark
    refine ⟨hs.settleNow hstep (fun n st t hne hn hworks hid e' he' hstart => ?_)
      ⟨SessionTask.advance_frame.marks, fun id hid => ⟨_, _, hconn, hid⟩,
        fun st t id hnext hguard => ?_⟩, hforward hstep⟩
    · obtain ⟨e, he, hsame⟩ := hs.unmoved hconn hundisturbed hne hn hid hworks he'
        (beq_iff_eq.mpr hstart)
      have hin := (hs.busy n st t hn).current hworks e (hid ▸ he) (hsame.start.symm.trans hstart)
      exact ⟨hsame.txids.trans hin.txids, hsame.phase ▸ hin.phase⟩
    · exact (SessionTask.advance_marks hnext hguard).imp_left fun hmine => ⟨_, _, hconn, hmine⟩
  | disconnect => exact hstays rfl rfl rfl fun _ _ => lookup_of_lookup_erase
  | drain =>
    refine ⟨hs.shrink rfl (fun _ _ => lookup_of_lookup_drainEntries) (fun _ _ hn => hn)
      fun _ _ _ hmem => ?_, hfewer fun _ _ => lookup_of_lookup_drainEntries⟩
    dsimp only [drainEntries]
    rwa [removeEntry_marks, removeEntry_marks]
  | drainRelease => exact hstays rfl rfl rfl fun _ _ hn => hn
  | wallet => exact hstays rfl rfl rfl fun _ _ hn => hn
  | @restart _ shared hswaps =>
    have hnone : ∀ id e, shared.ongoingSwaps.lookup id = some e →
        s.ongoingSwaps.lookup id = some e := fun _ _ he => by rw [hswaps] at he; cases he
    refine ⟨hs.shrink rfl hnone (fun _ _ hn => by cases hn) ?_, hfewer hnone⟩
    rintro n id ⟨_, _, hn, -⟩
    cases hn

theorem orderly_init : Orderly (Sessions.init : Sessions P) where
  entered id e he := by cases he
  idle n state hn := by cases hn
  busy n state task hn := by cases hn
  marked n id hn := by
    obtain ⟨_, _, hn, -⟩ := hn
    cases hn
  apart n m id hn := by
    obtain ⟨_, _, hn, -⟩ := hn
    cases hn

/-- The step is taken on current copies, and leaves the swap in the map. -/
def Sessions.keepsEntry (maker : Maker P) (id : String) (s : Sessions P) (a : SessionAction P) :
    Prop :=
  s.currentCopies maker a ∧ ∀ s' ∈ s.step maker a, id ∈ s'.ongoingSwaps

instance (id : String) (s : Sessions P) (a : SessionAction P) :
    Decidable (s.keepsEntry maker id a) :=
  inferInstanceAs (Decidable (_ ∧ _))

/-- **A live swap only moves forward**, in every run on current copies: from any state of
such a run on, as long as the entry stays in the map its phase never moves back and no
recorded broadcast is lost. -/
theorem progress_kept {id : String} {e : SwapState P}
    (hreach : Reachable (Sessions.step maker) (Sessions.currentCopies maker) Sessions.init s)
    (hentry : s.ongoingSwaps.lookup id = some e)
    (hrun : Reachable (Sessions.step maker) (Sessions.keepsEntry maker id) s s') :
    ∃ e', s'.ongoingSwaps.lookup id = some e' ∧ e.phase.rank ≤ e'.phase.rank ∧
      ∀ txid ∈ e.fundingBroadcastTxids, txid ∈ e'.fundingBroadcastTxids := by
  have horderly : Orderly s :=
    hreach.invariant orderly_init fun _ _ _ hs hok hstep => (orderly_step hs hok hstep).1
  have hinv : Orderly s' ∧ ∃ e', s'.ongoingSwaps.lookup id = some e' ∧ Forward e e' := by
    refine hrun.invariant (I := fun s' => Orderly s' ∧
      ∃ e', s'.ongoingSwaps.lookup id = some e' ∧ Forward e e') ⟨horderly, e, hentry, .refl e⟩ ?_
    rintro s₁ a s₂ ⟨hs₁, e₁, he₁, hforward⟩ ⟨hok, hkept⟩ hstep
    obtain ⟨hs₂, hmoved⟩ := orderly_step hs₁ hok hstep
    obtain ⟨e₂, he₂⟩ := Option.isSome_iff_exists.mp (lookup_isSome.mpr (hkept s₂ hstep))
    exact ⟨hs₂, e₂, he₂, hforward.trans (hmoved id e₁ e₂ he₁ he₂)⟩
  obtain ⟨-, e', he', hforward⟩ := hinv
  exact ⟨e', he', hforward.phase, fun txid htxid => hforward.txids htxid⟩

end Machine

/-! ## Two connections on one swap

The hop of `SampleSwap` on the maker's connections, up to the broadcast of its one funding
transaction. -/

namespace SampleSessions

open SampleSwap

/-- The digest of the maker's incoming contract, and the signature of the taker's key `1`. -/
def incomingDigest : Bytes :=
  natBe 32 0x40c427eee63e1f87ce3a691852cc66e77904992ccc9d8a2cd2978ff3da12a0ad
def incomingSig : Bytes :=
  natBe 70 0x304402200e5f494d08ba91490af39cd8a6daad8be9db986bd6696298ded6f4db087c068002201bcfbc4310fe92ee9715a59e973ade0acf0e5b67a5d916b4b198df7323d23d18

/-- A second funding transaction over the same scripts, and its contract. -/
def secondTx : Transaction :=
  payment ⟨List.replicate 32 0xaa, 1⟩ ⟨100000, scriptHash multisigHash⟩
def secondTxid : Bytes :=
  natBe 32 0xb0a2d45d68f1cb23d33a3aad4abb881fe0b7a93d12adf695e4c8256455a8d5ea
def secondContractTx : Transaction :=
  mkContractTx ⟨secondTxid, 0⟩ 99850 (scriptHash contractHash)

def prims : Prims :=
  { takerTables with
    txid := (secondTx, secondTxid) :: (secondContractTx,
      natBe 32 0x9e8f1a81a948b681008e32361f49ca0b99469f5740d482d6a6d2bc740a6e8b55) ::
      takerTables.txid
    sighash := ((contractTx 1, 0, multisig, 100000, sighashAll), incomingDigest) ::
      takerTables.sighash
    signatures := ((0, incomingDigest), incomingSig) :: takerTables.signatures : Tables }.prims

def maker : Maker prims where
  tweakablePrivkey := (2 : Fin 15)
  calculateSwapFee _ _ := 1000

def swapId : String := "00000000000000aa"

def details : SwapDetails where
  id := swapId
  features := ["legacy"]
  amount := 100000
  txCount := 1
  incomingCount := 1
  maxInputBudget := 1
  feerate := 1
  timelock := 20
  refundLocktimeOffset := 0

def admission : AdmissionEnv prims where
  watchtowerAlive := true
  checkPins _ := .ok ()
  maxSwapAmount := 1000000
  currentHeight := .ok 900000
  now := 0
  calculateSwapFee _ _ := 1000
  store _ state := .ok state
  tweakablePoint := Prims.publicKey (P := prims) (2 : Fin 15)

def answers (outcome : SaveOutcome) : SessionAnswers prims where
  calls := .ok ()
  unspent := .ok true
  saved := outcome
  splits := [⟨nextFundingTx 1, 0, (12 : Fin 15), (13 : Fin 15)⟩]
  swept := true
  plannable _ := true
  replanned := none
  built := true
  taproot := SampleHop.serving (2 : Fin 15) 1000 ((12 : Fin 15), (13 : Fin 15))

def request : ReqContractSigsForSender prims where
  id := swapId
  txsInfo := [{
    multisigNonce := (1 : Fin 15)
    hashlockNonce := (3 : Fin 15)
    timelockPubkey := ⟨true, .mul 8⟩
    sendersContractTx := contractTx 1
    multisigRedeemscript := multisig
    fundingInputValue := 100000 }]
  hashvalue := hash
  locktime := 20

def proof : ProofOfFunding prims where
  id := swapId
  confirmedFundingTxes := [{
    fundingTx := fundingTx
    multisigRedeemscript := multisig
    multisigNonce := (1 : Fin 15)
    contractRedeemscript := contract
    hashlockNonce := (3 : Fin 15) }]
  nextOpenswapInfo := [⟨⟨true, .mul 10⟩, ⟨true, .mul 11⟩⟩]
  refundLocktime := 20

def signatures (incoming : Bytes) : RespContractSigsForRecvrAndSender where
  id := swapId
  receiversSigs := [⟨incoming, sighashAll⟩]
  sendersSigs := [⟨takerSig, sighashAll⟩]

def runs (conn n : Nat) : List (SessionAction prims) :=
  List.replicate n (.run conn (answers .saved))

/-- A connection negotiates the swap, has the sender contract signed and proves its
funding. -/
def funded (conn : Nat) : List (SessionAction prims) :=
  [.connect conn, .greet conn, .greet conn,
    .swapDetails conn details admission (some [⟨[⟨List.replicate 32 0xbb, 1⟩], nextValue 1⟩])] ++
  .deliver conn (.legacy (.reqContractSigsForSender request)) (answers .saved) :: runs conn 2 ++
  .deliver conn (.legacy (.proofOfFunding proof)) (answers .saved) :: runs conn 12

/-- A second connection has the same contract signed once more, up to its store. -/
def signAgain (conn : Nat) : List (SessionAction prims) :=
  [.connect conn, .greet conn,
    .deliver conn (.legacy (.reqContractSigsForSender request)) (answers .saved)] ++ runs conn 1

def broadcast (conn : Nat) : List (SessionAction prims) :=
  .deliver conn (.legacy (.respContractSigsForRecvrAndSender (signatures incomingSig)))
    (answers .saved) :: runs conn 8

end SampleSessions

open SampleSessions in
/-- A second connection has the contract signed again before the broadcast; the swap keeps the
broadcast it has recorded while it moves on. -/
theorem progress_kept_signed_again :
    ∃ s s' e e', Reachable (Sessions.step maker) (Sessions.currentCopies maker) Sessions.init s ∧
      s.ongoingSwaps.lookup swapId = some e ∧ e.fundingBroadcastTxids ≠ [] ∧
      e.phase = .awaitingSignaturesOrPreimage ∧
      Reachable (Sessions.step maker) (Sessions.keepsEntry maker swapId) s s' ∧
      s'.ongoingSwaps.lookup swapId = some e' ∧
      e.phase.rank ≤ e'.phase.rank ∧
      ∀ txid ∈ e.fundingBroadcastTxids, txid ∈ e'.fundingBroadcastTxids := by
  have hrun : (exec (Sessions.step maker) (Sessions.currentCopies maker) Sessions.init
      (funded 1 ++ (signAgain 2 ++ (runs 2 1 ++ (broadcast 1).take 6)))).any (fun s =>
        (s.ongoingSwaps.lookup swapId).any (fun e =>
          !e.fundingBroadcastTxids.isEmpty && e.phase = .awaitingSignaturesOrPreimage) &&
        (exec (Sessions.step maker) (Sessions.keepsEntry maker swapId) s
          (runs 1 3)).isSome) = true := by decide +kernel
  obtain ⟨s, hreach, hs⟩ := exists_reachable_of_exec _ hrun
  simp only [Bool.and_eq_true, Option.any_eq_true, Option.isSome_iff_exists, Bool.not_eq_true',
    List.isEmpty_eq_false_iff, decide_eq_true_eq] at hs
  obtain ⟨⟨e, he, htxids, hphase⟩, s', hs'⟩ := hs
  have hrest := Reachable.of_exec .init hs'
  obtain ⟨e', he', hkept⟩ := progress_kept hreach he hrest
  exact ⟨s, s', e, e', hreach, he, htxids, hphase, hrest, he', hkept⟩

open SampleSessions in
/-- **A stale copy undoes a swap's progress.**  A second connection took its copy before
the broadcast and stores it afterwards: the entry stays, its phase moves back and the
broadcast is gone. -/
theorem stale_store_moves_back :
    ∃ s s' a e e', Reachable (Sessions.step maker) (fun _ _ => True) Sessions.init s ∧
      s.step maker a = some s' ∧
      s.ongoingSwaps.lookup swapId = some e ∧
      s'.ongoingSwaps.lookup swapId = some e' ∧
      e'.phase.rank < e.phase.rank ∧
      ∃ txid ∈ e.fundingBroadcastTxids, txid ∉ e'.fundingBroadcastTxids := by
  have hrun : (exec (Sessions.step maker) (fun _ _ => True) Sessions.init
      (funded 1 ++ (signAgain 2 ++ broadcast 1))).any
      (fun s => (s.step maker (.run 2 (answers .saved))).any fun s' =>
        (s.ongoingSwaps.lookup swapId).any fun e =>
          (s'.ongoingSwaps.lookup swapId).any fun e' =>
            e'.phase.rank < e.phase.rank &&
              e.fundingBroadcastTxids.any (· ∉ e'.fundingBroadcastTxids)) = true := by
    decide +kernel
  obtain ⟨s, hreach, hs⟩ := exists_reachable_of_exec _ hrun
  simp only [Option.any_eq_true, Bool.and_eq_true, decide_eq_true_eq, List.any_eq_true] at hs
  obtain ⟨s', hs', e, he, e', he', hphase, htxid⟩ := hs
  exact ⟨s, s', _, e, e', hreach, hs', he, he', hphase, htxid⟩

end OpenSwap
