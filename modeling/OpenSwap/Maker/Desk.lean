import OpenSwap.Maker.Admissions

/-!
# Re-admissions under one swap id

`Desk` is the server with `SwapDetails` in its two critical sections, so that other
connections, drains and re-admissions may come between them.
-/

namespace OpenSwap

open Btc Checked Run AList

variable {P : Prims}

/-! ## The server -/

/-- The server, with the connections that have stored their admission and not read it
back yet. -/
structure Desk (P : Prims) where
  sessions : Sessions P
  reading : List Nat

def Desk.init : Desk P := ⟨Sessions.init, []⟩

def Desk.ongoingSwaps (s : Desk P) : Swaps P := s.sessions.ongoingSwaps

inductive DeskAction (P : Prims) where
  | storeDetails (conn : Nat) (details : SwapDetails) (env : AdmissionEnv P)
      (planned : Option (List SplitPlan))
  | readDetails (conn : Nat)
  | session (action : SessionAction P)

def Desk.step (maker : Maker P) (s : Desk P) : DeskAction P → Option (Desk P)
  | .storeDetails conn d env planned =>
    match s.sessions.conns.lookup conn with
    | some ⟨state, none⟩ =>
      if conn ∈ s.reading then none
      else
        let t := { s.sessions with clock := s.sessions.clock + 1 }
        match OpenSwap.storeDetails s.ongoingSwaps s.sessions.clock state d env planned with
        | .error _ => some { s with sessions := { t with conns := t.conns.erase conn } }
        | .ok (none, state) =>
          some { s with sessions := { t with conns := t.conns.insert conn ⟨state, none⟩ } }
        | .ok (some swaps, state) =>
          some {
            sessions := { t with
              common := t.common.withSwaps swaps
              conns := t.conns.insert conn ⟨state, none⟩ }
            reading := conn :: s.reading }
    | _ => none
  | .readDetails conn =>
    match s.sessions.conns.lookup conn with
    | some ⟨state, none⟩ =>
      if conn ∉ s.reading then none
      else
        let reading := s.reading.filter (· ≠ conn)
        match OpenSwap.readDetails s.ongoingSwaps state with
        | .error _ =>
          some ⟨{ s.sessions with conns := s.sessions.conns.erase conn }, reading⟩
        | .ok state =>
          some ⟨{ s.sessions with conns := s.sessions.conns.insert conn ⟨state, none⟩ }, reading⟩
    | _ => none
  | .session action =>
    if action.spares s.reading then
      (s.sessions.step maker action).map fun t => ⟨t, s.reading.filter (· ∈ t.conns)⟩
    else none

/-! ## One admission for each swap id -/

def Listed (table : String → Admission) (id : String) (a : Admission) : Prop := a = table id

/-- A connection that has stored its admission and not read it back: its terms are those
of the admission, its start and plan may still be its own. -/
structure Session.Reads (table : String → Admission) (σ : Session P) : Prop where
  task : σ.task = none
  terms : ∃ id, σ.state.swapId = some id ∧ σ.state.terms = (table id).terms

abbrev OneEach (table : String → Admission) (reading : List Nat) (s : Sessions P) : Prop :=
  Agrees (Listed table) (Session.Reads table) reading s

section Desk

variable {maker : Maker P} {s s' : Desk P} {state state' : ConnectionState P} {d : SwapDetails}
  {table : String → Admission}

def Sessions.onlyHolder (s : Sessions P) (conn : Nat) (id : String) : Prop :=
  ∀ e ∈ s.conns.entries, e.1 ≠ conn → e.2.state.swapId ≠ some id

instance (s : Sessions P) (conn : Nat) (id : String) : Decidable (s.onlyHolder conn id) :=
  inferInstanceAs (Decidable (∀ e ∈ s.conns.entries, e.1 ≠ conn → e.2.state.swapId ≠ some id))

theorem Sessions.onlyHolder_iff {s : Sessions P} {conn : Nat} {id : String} :
    s.onlyHolder conn id ↔
      ∀ n σ, s.conns.lookup n = some σ → n ≠ conn → σ.state.swapId ≠ some id :=
  ⟨fun h n _ hn => h ⟨n, _⟩ (lookup_eq_some.mp hn),
    fun h e he => h e.1 e.2 (lookup_eq_some.mpr he)⟩

/-- A swap id that is not live is admitted only while no other open connection names it. -/
def Desk.admitsAlone (s : Desk P) : DeskAction P → Prop
  | .storeDetails conn d _ _ => d.id ∉ s.ongoingSwaps → s.sessions.onlyHolder conn d.id
  | _ => True

instance (s : Desk P) (a : DeskAction P) : Decidable (s.admitsAlone a) := by
  cases a <;> unfold Desk.admitsAlone <;> infer_instance

variable {swaps : Swaps P} {σ : Session P} {adm : Admission} {id : String}

theorem Session.Reads.read (h : Session.Reads table ⟨state, none⟩)
    (hentries : ∀ id e, swaps.lookup id = some e → Listed table id e.admission)
    (hread : readDetails swaps state = .ok state') :
    Session.Holds (Listed table) ⟨state', none⟩ := by
  obtain ⟨id, hid, hterms⟩ := h.terms
  dsimp only at hid hterms
  simp only [readDetails, bind_ok_iff, okOr_eq_ok, hid, Option.bind_some] at hread
  obtain ⟨stored, hstored, heq⟩ := hread
  cases heq
  obtain ⟨e, he, rfl⟩ := Option.map_eq_some_iff.mp hstored
  refine ⟨fun id' hid' => ?_, fun _ => ⟨id, rfl⟩, fun _ ht => by cases ht⟩
  obtain rfl : id = id' := Option.some.inj hid'
  calc (⟨e.swapStartTime, state.terms, e.fundingPlan⟩ : Admission)
      = ⟨e.admission.start, (table id).terms, e.admission.plan⟩ := by rw [hterms]; rfl
    _ = table id := by rw [hentries id e he]

theorem Session.Holds.update (h : σ.Holds (Listed table)) (hid : σ.state.swapId ≠ some id) :
    σ.Holds (Listed (Function.update table id adm)) := by
  refine ⟨fun id' hid' => ?_, h.late, h.task⟩
  have hne : id' ≠ id := fun heq => hid (heq ▸ hid')
  rw [Listed, Function.update_of_ne hne]
  exact h.admission id' hid'

theorem Session.Reads.update (h : σ.Reads table) (hid : σ.state.swapId ≠ some id) :
    σ.Reads (Function.update table id adm) := by
  obtain ⟨id', hid', hterms⟩ := h.terms
  have hne : id' ≠ id := fun heq => hid (heq ▸ hid')
  refine ⟨h.task, id', hid', ?_⟩
  rw [Function.update_of_ne hne]
  exact hterms

theorem agrees_admitted {t reading clock conn env planned} (hs : OneEach table reading t)
    (halone : d.id ∉ t.ongoingSwaps → t.onlyHolder conn d.id)
    (h : storeDetails t.ongoingSwaps t.clock state d env planned = .ok (some swaps, state')) :
    ∃ table', (∀ id, id ∈ t.ongoingSwaps → table' id = table id) ∧
      OneEach table' (conn :: reading) { t with
        common := t.common.withSwaps swaps
        conns := t.conns.insert conn ⟨state', none⟩
        clock := clock } := by
  cases (storeDetails_stored h).2 with
  | live he hterms =>
    refine ⟨table, fun _ _ => rfl, hs.entries, fun n σ hn => ?_⟩
    rcases lookup_insert_cases hn with ⟨rfl, rfl⟩ | ⟨hne, hn⟩
    · rw [if_pos List.mem_cons_self]
      refine ⟨rfl, d.id, rfl, ?_⟩
      rw [← hs.entries d.id _ he]
      exact hterms.symm
    · simpa only [List.mem_cons, hne, false_or] using hs.conns n σ hn
  | @fresh protocol offset plan _ _ hmissing _ =>
    have hnew : d.id ∉ t.ongoingSwaps := lookup_eq_none.mp hmissing
    have hothers := Sessions.onlyHolder_iff.mp (halone hnew)
    refine ⟨Function.update table d.id ⟨t.clock,
        (state.withTerms { env with now := t.clock } d protocol offset).terms, plan⟩,
      fun id hlive => ?_, fun id e he => ?_, fun n σ hn => ?_⟩
    · have hne : id ≠ d.id := fun heq => hnew (heq ▸ hlive)
      exact Function.update_of_ne hne _ _
    · rcases lookup_insert_cases he with ⟨rfl, rfl⟩ | ⟨hne, he⟩
      · rw [Listed, Function.update_self]
        rfl
      · rw [Listed, Function.update_of_ne hne]
        exact hs.entries id e he
    · rcases lookup_insert_cases hn with ⟨rfl, rfl⟩ | ⟨hne, hn⟩
      · rw [if_pos List.mem_cons_self]
        refine ⟨rfl, d.id, rfl, ?_⟩
        rw [Function.update_self]
      · have hσ := hs.conns n σ hn
        simp only [List.mem_cons, hne, false_or]
        split at hσ
        · rename_i hread
          rw [if_pos hread]
          exact hσ.update (hothers n σ hn hne)
        · rename_i hread
          rw [if_neg hread]
          exact hσ.update (hothers n σ hn hne)

/-- **Every step keeps one admission for each swap id**, and the admission of a live
swap stays the same. -/
theorem agrees_deskStep {a} (hs : OneEach table s.reading s.sessions) (hok : s.admitsAlone a)
    (h : s.step maker a = some s') :
    ∃ table', (∀ id, id ∈ s.ongoingSwaps → table' id = table id) ∧
      OneEach table' s'.reading s'.sessions := by
  cases a with
  | storeDetails conn d env planned =>
    dsimp only [Desk.step] at h
    split at h
    · rename_i state hlookup
      split at h
      · cases h
      · rename_i hconn
        split at h
        · cases h
          exact ⟨table, fun _ _ => rfl,
            hs.shrink (fun _ _ he => he) fun _ _ => lookup_of_lookup_erase⟩
        · rename_i state' hrefused
          cases h
          refine ⟨table, fun _ _ => rfl, hs.withConn hconn rfl hs.entries ?_⟩
          cases (storeDetails_stored hrefused).2 with
          | same => exact hs.holds hconn hlookup
          | reset => exact .of_early rfl rfl
        · rename_i swaps state' haccepted
          cases h
          exact agrees_admitted hs hok haccepted
    · cases h
  | readDetails conn =>
    dsimp only [Desk.step] at h
    split at h
    · rename_i state hlookup
      split at h
      · cases h
      · rename_i hconn
        have hreads : Session.Reads table ⟨state, none⟩ := by
          have hσ := hs.conns conn _ hlookup
          rwa [if_pos (not_not.mp hconn)] at hσ
        -- the other connections read on, or hold on
        have hother : ∀ {n : Nat} {σ : Session P}, n ≠ conn → s.sessions.conns.lookup n = some σ →
            if n ∈ s.reading.filter (· ≠ conn) then σ.Reads table else σ.Holds (Listed table) := by
          intro n σ hne hn
          have hmem : n ∈ s.reading.filter (· ≠ conn) ↔ n ∈ s.reading := by
            simp [hne]
          simpa only [hmem] using hs.conns n σ hn
        refine ⟨table, fun _ _ => rfl, ?_⟩
        split at h
        · cases h
          refine ⟨hs.entries, fun n σ hn => ?_⟩
          by_cases hne : n = conn
          · subst hne
            rw [lookup_erase] at hn
            cases hn
          · exact hother hne (lookup_of_lookup_erase hn)
        · rename_i state' hread
          cases h
          refine ⟨hs.entries, fun n σ hn => ?_⟩
          rcases lookup_insert_cases hn with ⟨rfl, rfl⟩ | ⟨hne, hn⟩
          · rw [if_neg (by simp)]
            exact hreads.read hs.entries hread
          · exact hother hne hn
    · cases h
  | session action =>
    dsimp only [Desk.step] at h
    split at h
    · rename_i hspares
      obtain ⟨t, ht, rfl⟩ := Option.map_eq_some_iff.mp h
      have hagrees := agrees_step hs hspares ht
      refine ⟨table, fun _ _ => rfl, hagrees.entries, fun n σ hn => ?_⟩
      have hlive : n ∈ t.conns := lookup_isSome.mp (hn ▸ rfl)
      have hmem : n ∈ s.reading.filter (· ∈ t.conns) ↔ n ∈ s.reading := by
        simp [hlive]
      simpa only [hmem] using hagrees.conns n σ hn
    · cases h

/-- **An admission is kept**, in every run in which an id that is not live is admitted only while
no other open connection names it: whoever names or works for a live swap has the terms and the
plan of its entry, which stay the same. -/
theorem admission_kept {id : String} {e : SwapState P}
    (hreach : Reachable (Desk.step maker) Desk.admitsAlone Desk.init s)
    (he : s.ongoingSwaps.lookup id = some e) :
    (∀ n σ, s.sessions.conns.lookup n = some σ → n ∉ s.reading →
      (σ.state.swapId = some id ∨ ∃ task, σ.task = some task ∧ task.swapId = id) →
      σ.state.admission = e.admission) ∧
    ∀ s' e', Reachable (Desk.step maker)
        (fun t a => t.admitsAlone a ∧ id ∈ t.ongoingSwaps) s s' →
      s'.ongoingSwaps.lookup id = some e' → e'.admission = e.admission := by
  obtain ⟨table, hs⟩ : ∃ table, OneEach table s.reading s.sessions := by
    refine hreach.invariant (I := fun t => ∃ table, OneEach table t.reading t.sessions)
      ⟨fun _ => e.admission, agrees_init⟩ ?_
    rintro t a t' ⟨table, ht⟩ hok hstep
    obtain ⟨table', -, ht'⟩ := agrees_deskStep ht hok hstep
    exact ⟨table', ht'⟩
  have hentry := hs.entries id e he
  refine ⟨fun n σ hn hread hid => ?_, fun s' e' hrun he' => ?_⟩
  · have hσ := hs.holds hread hn
    have hnamed : σ.state.swapId = some id := by
      rcases hid with hid | ⟨task, htask, rfl⟩
      · exact hid
      · exact (hσ.task task htask).1
    exact (hσ.admission id hnamed).trans hentry.symm
  · -- along the run the table keeps the admission of the live swap
    have hkept : ∃ table', OneEach table' s'.reading s'.sessions ∧ table' id = table id := by
      refine hrun.invariant
        (I := fun t => ∃ table', OneEach table' t.reading t.sessions ∧ table' id = table id)
        ⟨table, hs, rfl⟩ ?_
      rintro t a t' ⟨table₁, ht, heq⟩ ⟨hok, hlive⟩ hstep
      obtain ⟨table₂, hsame, ht'⟩ := agrees_deskStep ht hok hstep
      exact ⟨table₂, ht', (hsame id hlive).trans heq⟩
    obtain ⟨table', hs', heq⟩ := hkept
    exact ((hs'.entries id e' he').trans heq).trans hentry.symm

end Desk

/-! ## A read-back of another admission -/

namespace SampleSessions

/-- A run of the server, with `SwapDetails` in its two steps. -/
def atDesk (actions : List (SessionAction prims)) : List (DeskAction prims) :=
  actions.flatMap fun
    | .swapDetails conn d env planned => [.storeDetails conn d env planned, .readDetails conn]
    | action => [.session action]

def greeted (conn : Nat) : List (DeskAction prims) :=
  atDesk [.connect conn, .greet conn, .greet conn]

def otherDetails : SwapDetails := { details with amount := 200000 }

def otherPlan : List SplitPlan := [⟨[⟨List.replicate 32 0xcc, 0⟩], 198000⟩]

/-- The swap of connection 1 is funded; connection 2 sends the same details again, and
their store finds the swap live.  Bad signatures on connection 1 remove the swap, and
connection 3 admits the id on other terms. -/
def readmitted : List (DeskAction prims) :=
  atDesk (funded 1) ++ greeted 2 ++ [.storeDetails 2 details admission none] ++
    atDesk (.deliver 1 (.legacy (.respContractSigsForRecvrAndSender (signatures [])))
      (answers .saved) :: runs 1 4) ++
    greeted 3 ++ [.storeDetails 3 otherDetails admission (some otherPlan), .readDetails 3]

end SampleSessions

open SampleSessions in
/-- Two connections of one funded swap hold its terms and its plan. -/
theorem admission_kept_resent :
    ∃ s e σ, Reachable (Desk.step maker) Desk.admitsAlone Desk.init s ∧
      s.ongoingSwaps.lookup swapId = some e ∧ s.sessions.conns.lookup 2 = some σ ∧
      2 ∉ s.reading ∧ σ.state.swapId = some swapId ∧
      σ.state.admission = e.admission := by
  have hrun : (exec (Desk.step maker) Desk.admitsAlone Desk.init (atDesk (funded 1) ++ greeted 2 ++
        [.storeDetails 2 details admission none, .readDetails 2])).any (fun s =>
        (s.ongoingSwaps.lookup swapId).isSome &&
        (s.sessions.conns.lookup 2).any (fun σ =>
          2 ∉ s.reading && σ.state.swapId = some swapId)) = true := by decide +kernel
  obtain ⟨s, hreach, hs⟩ := exists_reachable_of_exec _ hrun
  simp only [Bool.and_eq_true, Option.isSome_iff_exists, Option.any_eq_true,
    decide_eq_true_eq] at hs
  obtain ⟨⟨e, he⟩, σ, hσ, hread, hid⟩ := hs
  exact ⟨s, e, σ, hreach, he, hσ, hread, hid,
    (admission_kept hreach he).1 2 σ hσ hread (.inl hid)⟩

open SampleSessions in
/-- **A connection takes over another admission**, made between the store and the read-back of a
resent `SwapDetails`: it ends with the plan of the new one and the terms of the old one. -/
theorem read_back_of_readmitted :
    ∃ s e σ, Reachable (Desk.step maker) (fun _ _ => True) Desk.init s ∧
      s.ongoingSwaps.lookup swapId = some e ∧ s.sessions.conns.lookup 2 = some σ ∧
      2 ∉ s.reading ∧ σ.state.swapId = some swapId ∧
      σ.state.swapStartTime = e.swapStartTime ∧ σ.state.fundingPlan = e.fundingPlan ∧
      σ.state.terms ≠ e.negotiated := by
  have hrun : (exec (Desk.step maker) (fun _ _ => True) Desk.init
      (readmitted ++ [.readDetails 2])).any (fun s =>
        (s.ongoingSwaps.lookup swapId).any fun e =>
        (s.sessions.conns.lookup 2).any fun σ =>
          2 ∉ s.reading && (σ.state.swapId = some swapId &&
            (σ.state.swapStartTime = e.swapStartTime && (σ.state.fundingPlan = e.fundingPlan &&
              σ.state.terms ≠ e.negotiated)))) = true := by decide +kernel
  obtain ⟨s, hreach, hs⟩ := exists_reachable_of_exec _ hrun
  simp only [Bool.and_eq_true, Option.any_eq_true, decide_eq_true_eq] at hs
  obtain ⟨e, he, σ, hσ, hread, hid, hstart, hplan, hterms⟩ := hs
  exact ⟨s, e, σ, hreach, he, hσ, hread, hid, hstart, hplan, hterms⟩

end OpenSwap
