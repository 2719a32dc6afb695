import OpenSwap.Base.Maps
import OpenSwap.Base.Run
import OpenSwap.Btc.Tx

/-!
# The cursor of a relay

Relays announce bonds.  The watcher keeps a cursor for each relay, the date of the latest
announcement it is done with, and on a reconnect asks for the announcements from there on.
An announcement whose transaction the backend could not answer for, or has not seen
confirmed, leaves the cursor, so that it is delivered again.

`pending_delivered` has that while no later announcement of the relay comes in; one that
does takes the cursor past the announcement that failed (`pending_passed`).  No cursor is
moved beyond the clock.  `handled_skipped`: a transaction that is done with is not looked
at again soon.
-/

namespace OpenSwap

open Btc

def maxFutureSkewSecs : Nat := 300

def expirationSecs : Nat := 86400

def maxSeenTxids : Nat := 5000

/-- What `handle_relay_message` looks at in an event. -/
structure NostrEvent where
  isKind : Bool
  /-- past its expiration, or without one -/
  isExpired : Bool
  createdAt : Nat
  verifies : Bool
  /-- the transaction of an announcement that can be read -/
  txid : Option Bytes

/-- The backend's answers about a transaction, `none` where a call fails. -/
structure FidelityAnswers where
  rawTransaction : Option Transaction
  txBlockHeight : Option (Option Nat)
  txOut : Option (Option TxOut)

/-- The transactions that are done with, the oldest first, and those at work. -/
structure SeenTxids where
  seen : List Bytes
  inFlight : List Bytes

namespace SeenTxids

variable (s : SeenTxids) (txid : Bytes)

def claim : Option SeenTxids :=
  if txid ∈ s.seen ∨ txid ∈ s.inFlight then none
  else some { s with inFlight := txid :: s.inFlight }

def release : SeenTxids := { s with inFlight := s.inFlight.filter (· ≠ txid) }

def insert : SeenTxids :=
  if txid ∈ s.seen then s.release txid
  else
    let order := s.seen ++ [txid]
    { s.release txid with seen := if maxSeenTxids < order.length then order.drop 10 else order }

end SeenTxids

def cursorFor (createdAt now : Nat) : Option Nat :=
  if createdAt ≤ min (now + maxFutureSkewSecs) (2 ^ 64 - 1) then some (min createdAt now) else none

structure NostrState where
  nostrCursors : AList fun _ : String => Nat
  seenTxids : SeenTxids
  /-- relay, date and transaction of the announcements that failed for a transient reason,
  until the transaction is handled -/
  pending : List (String × Nat × Bytes)

namespace NostrState

def start : NostrState := ⟨∅, ⟨[], []⟩, []⟩

def saveNostrCursor (s : NostrState) (relay : String) (createdAt : Nat) : NostrState :=
  { s with nostrCursors :=
      s.nostrCursors.insert relay (max ((s.nostrCursors.lookup relay).getD 0) createdAt) }

/-- A transient failure leaves the transaction open for retry. -/
def fail (s : NostrState) (relay : String) (createdAt : Nat) (txid : Bytes) : NostrState :=
  { s with
    seenTxids := s.seenTxids.release txid
    pending := (relay, createdAt, txid) :: s.pending }

/-- With its state on chain known the transaction is not looked at again, be it a bond or
not. -/
def handled (s : NostrState) (txid : Bytes) : NostrState :=
  { s with
    seenTxids := s.seenTxids.insert txid
    pending := s.pending.filter (·.2.2 ≠ txid) }

/-- The branch of `handle_relay_message` for an event; `now` is the clock. -/
def handleEvent (s : NostrState) (relay : String) (event : NostrEvent) (now : Nat)
    (answers : FidelityAnswers) : NostrState :=
  if !event.isKind || event.isExpired then s
  else
    match cursorFor event.createdAt now with
    | none => s
    | some cursor =>
      if expirationSecs < now - event.createdAt || !event.verifies then s
      else
        match event.txid with
        | none => s
        | some txid =>
          match s.seenTxids.claim txid with
          | none => s.saveNostrCursor relay cursor
          | some claimed =>
            let s := { s with seenTxids := claimed }
            match answers.rawTransaction, answers.txBlockHeight, answers.txOut with
            | some _, some (some _), some _ => (s.handled txid).saveNostrCursor relay cursor
            | _, _, _ => s.fail relay event.createdAt txid

structure Delivery where
  relay : String
  event : NostrEvent
  now : Nat
  answers : FidelityAnswers

def step (s : NostrState) (d : Delivery) : Option NostrState :=
  some (s.handleEvent d.relay d.event d.now d.answers)

/-- A subscription to the relay asks for events of this date. -/
def Subscribed (s : NostrState) (relay : String) (createdAt : Nat) : Prop :=
  ∀ cursor ∈ s.nostrCursors.lookup relay, cursor ≤ createdAt

/-- The event is not dated before the cursor, nor after an announcement of its relay that is
to be tried again. -/
def InOrder (s : NostrState) (d : Delivery) : Prop :=
  s.Subscribed d.relay d.event.createdAt ∧
    ∀ p ∈ s.pending, p.1 = d.relay → d.event.createdAt ≤ p.2.1

variable {s : NostrState} {relay r : String} {createdAt cursor now : Nat}

theorem Subscribed.save (h : s.Subscribed r createdAt) (hle : r = relay → cursor ≤ createdAt) :
    (s.saveNostrCursor relay cursor).Subscribed r createdAt := by
  intro c hc
  rcases AList.lookup_insert_cases hc with ⟨rfl, rfl⟩ | ⟨-, hc⟩
  · apply max_le _ (hle rfl)
    cases hlookup : s.nostrCursors.lookup r with
    | none => simp
    | some old => exact h old hlookup
  · exact h c hc

theorem cursorFor_le (h : cursorFor createdAt now = some cursor) :
    cursor ≤ createdAt ∧ cursor ≤ now := by
  simp only [cursorFor, Option.ite_none_right_eq_some, Option.some.injEq] at h
  omega

/-- **What an event does**: nothing, a failure that waits, or a cursor that is saved and no
new announcement that waits. -/
theorem handleEvent_cases (s : NostrState) (d : Delivery) :
    s.handleEvent d.relay d.event d.now d.answers = s ∨
    (∃ seen txid, s.handleEvent d.relay d.event d.now d.answers =
      { s with seenTxids := seen, pending := (d.relay, d.event.createdAt, txid) :: s.pending }) ∨
    ∃ cursor seen pending, cursorFor d.event.createdAt d.now = some cursor ∧
      pending ⊆ s.pending ∧ s.handleEvent d.relay d.event d.now d.answers =
        saveNostrCursor ⟨s.nostrCursors, seen, pending⟩ d.relay cursor := by
  unfold handleEvent
  split
  · exact .inl rfl
  · split
    · exact .inl rfl
    · rename_i cursor hcursor
      split
      · exact .inl rfl
      · split
        · exact .inl rfl
        · split
          · exact .inr (.inr ⟨cursor, _, _, hcursor, List.Subset.refl _, rfl⟩)
          · dsimp only
            split
            · exact .inr (.inr ⟨cursor, _, _, hcursor, List.filter_sublist.subset, rfl⟩)
            · exact .inr (.inl ⟨_, _, rfl⟩)

theorem pending_step {d} (h : ∀ p ∈ s.pending, s.Subscribed p.1 p.2.1) (horder : s.InOrder d) :
    ∀ p ∈ (s.handleEvent d.relay d.event d.now d.answers).pending,
      (s.handleEvent d.relay d.event d.now d.answers).Subscribed p.1 p.2.1 := by
  rcases handleEvent_cases s d with heq | ⟨seen, txid, heq⟩ | ⟨cursor, seen, pending, hc, hsub, heq⟩
  · rwa [heq]
  · rw [heq]
    exact List.forall_mem_cons.mpr ⟨horder.1, h⟩
  · rw [heq]
    intro p hp
    apply Subscribed.save (h p (hsub hp))
    intro hrelay
    exact (cursorFor_le hc).1.trans (horder.2 p (hsub hp) hrelay)

/-- **An announcement that failed for a transient reason is delivered again** by the next
subscription, as long as its relay sends none of a later date; and no event moves a cursor
beyond the clock. -/
theorem pending_delivered (s : NostrState) :
    (Run.Reachable step InOrder start s → ∀ p ∈ s.pending, s.Subscribed p.1 p.2.1) ∧
    ∀ (d : Delivery) (relay : String) (cursor : Nat),
      (s.handleEvent d.relay d.event d.now d.answers).nostrCursors.lookup relay = some cursor →
      s.nostrCursors.lookup relay = some cursor ∨ cursor ≤ d.now := by
  constructor
  · intro hs
    refine hs.invariant (I := fun s => ∀ p ∈ s.pending, s.Subscribed p.1 p.2.1)
      (by simp [start]) ?_
    intro s d s' h horder hstep
    cases hstep
    exact pending_step h horder
  · intro d relay cursor hcursor
    rcases handleEvent_cases s d with heq | ⟨seen, txid, heq⟩ | ⟨saved, _, _, hsaved, -, heq⟩
    · exact .inl (heq ▸ hcursor)
    · rw [heq] at hcursor
      exact .inl hcursor
    · rw [heq] at hcursor
      rcases AList.lookup_insert_cases hcursor with ⟨rfl, rfl⟩ | ⟨-, hold⟩
      · have hle := (cursorFor_le hsaved).2
        cases hlookup : s.nostrCursors.lookup d.relay with
        | none =>
          right
          simpa [hlookup] using hle
        | some old =>
          simp only [Option.getD_some, Option.some.injEq]
          omega
      · exact .inl hold

/-- The announcement of a bond, and whether the backend answers. -/
def announcement (createdAt : Nat) (txid : Bytes) (answers : Bool) : Delivery where
  relay := "wss://relay"
  event := ⟨true, false, createdAt, true, some txid⟩
  now := 300
  answers := if answers then ⟨some ⟨2, 0, [], []⟩, some (some 100), some none⟩
    else ⟨none, none, none⟩

theorem failed_delivered :
    ∃ s, Run.Reachable step InOrder start s ∧ ∃ p ∈ s.pending, s.Subscribed p.1 p.2.1 := by
  have hs : Run.Reachable step InOrder start
      (start.handleEvent "wss://relay" ⟨true, false, 100, true, some [1]⟩ 300 ⟨none, none, none⟩) :=
    .step (a := announcement 100 [1] false) .init ⟨by simp [Subscribed, start], by simp [start]⟩ rfl
  exact ⟨_, hs, ("wss://relay", 100, [1]), by decide, (pending_delivered _).1 hs _ (by decide)⟩

/-- The first announcement fails while the backend is down, and is passed by the next. -/
theorem pending_passed :
    ∃ s, Run.Reachable step (fun _ _ => True) start s ∧
      ∃ p ∈ s.pending, ¬ s.Subscribed p.1 p.2.1 := by
  refine ⟨_, .step (a := announcement 200 [2] true)
    (.step (a := announcement 100 [1] false) .init trivial rfl) trivial rfl,
    ("wss://relay", 100, [1]), by decide, fun h => ?_⟩
  exact absurd (h 200 rfl) (by decide)

end NostrState

/-! ## Announcements of one transaction -/

namespace SeenTxids

variable {s : SeenTxids} {txid new : Bytes} {n : Nat}

/-- Between two events: the list is distinct and bounded, and nothing is at work. -/
structure Settled (s : SeenTxids) : Prop where
  nodup : s.seen.Nodup
  bound : s.seen.length ≤ maxSeenTxids
  idle : s.inFlight = []

/-- At most `n` transactions are newer. -/
def Recent (s : SeenTxids) (txid : Bytes) (n : Nat) : Prop :=
  ∃ older newer, s.seen = older ++ txid :: newer ∧ newer.length ≤ n

theorem Settled.insert (h : s.Settled) (hnew : new ∉ s.seen) : (s.insert new).Settled := by
  have hnodup : (s.seen ++ [new]).Nodup := by simpa using h.nodup.concat hnew
  have hbound := h.bound
  rw [SeenTxids.insert, if_neg hnew]
  refine ⟨?_, ?_, by simp [release, h.idle]⟩
  · dsimp only
    split
    · exact hnodup.sublist (List.drop_sublist _ _)
    · exact hnodup
  · dsimp only
    split
    · simp only [List.length_drop, List.length_append, List.length_singleton]
      omega
    · omega

/-- Ten are dropped only of a full list, and the oldest ones. -/
theorem Recent.insert (h : s.Recent txid n) (hn : n + 10 < maxSeenTxids) (hnew : new ∉ s.seen) :
    (s.insert new).Recent txid (n + 1) := by
  obtain ⟨older, newer, hseen, hnewer⟩ := h
  rw [SeenTxids.insert, if_neg hnew]
  dsimp only [Recent]
  split
  · rename_i hfull
    simp only [hseen, List.length_append, List.length_cons, List.length_nil] at hfull
    refine ⟨older.drop 10, newer ++ [new], ?_, by simpa using hnewer⟩
    rw [hseen, List.append_assoc, List.drop_append_of_le_length (by omega), List.cons_append]
  · exact ⟨older, newer ++ [new], by simp [hseen], by simpa using hnewer⟩

end SeenTxids

namespace NostrState

variable {s s' : NostrState} {txid : Bytes} {n : Nat}

theorem seenTxids_handleEvent (hs : s.seenTxids.inFlight = []) (d : Delivery) :
    (s.handleEvent d.relay d.event d.now d.answers).seenTxids = s.seenTxids ∨
    ∃ txid ∉ s.seenTxids.seen,
      (s.handleEvent d.relay d.event d.now d.answers).seenTxids = s.seenTxids.insert txid := by
  obtain ⟨_, ⟨seen, inFlight⟩, _⟩ := s
  obtain rfl : inFlight = [] := hs
  unfold handleEvent
  split
  · exact .inl rfl
  · split
    · exact .inl rfl
    · split
      · exact .inl rfl
      · split
        · exact .inl rfl
        · rename_i txid _
          split
          · exact .inl rfl
          · rename_i claimed hclaim
            simp only [SeenTxids.claim, Option.ite_none_left_eq_some, Option.some.injEq,
              not_or] at hclaim
            obtain ⟨⟨hnot, -⟩, rfl⟩ := hclaim
            dsimp only
            split
            · exact .inr ⟨txid, hnot, by
                simp [saveNostrCursor, handled, SeenTxids.insert, SeenTxids.release]⟩
            · left
              simp [fail, SeenTxids.release]

theorem settled_step {d} (h : s.seenTxids.Settled) (hstep : s.step d = some s') :
    s'.seenTxids.Settled := by
  cases hstep
  rcases seenTxids_handleEvent h.idle d with heq | ⟨txid, hnot, heq⟩
  · rwa [heq]
  · rw [heq]
    exact h.insert hnot

theorem recent_exec {ds : List Delivery} (hs : s.seenTxids.Settled)
    (h : s.seenTxids.Recent txid n) (hn : n + ds.length + 10 ≤ maxSeenTxids)
    (hexec : Run.exec step (fun _ _ => True) s ds = some s') :
    s'.seenTxids.Settled ∧ txid ∈ s'.seenTxids.seen := by
  induction ds generalizing s n with
  | nil =>
    cases hexec
    obtain ⟨older, newer, hseen, -⟩ := h
    exact ⟨hs, by simp [hseen]⟩
  | cons d ds ih =>
    simp only [List.length_cons] at hn
    have hnext := settled_step hs (d := d) rfl
    refine ih hnext (n := n + 1) ?_ (by omega) hexec
    rcases seenTxids_handleEvent hs.idle d with heq | ⟨new, hnot, heq⟩
    · rw [heq]
      obtain ⟨older, newer, hseen, hnewer⟩ := h
      exact ⟨older, newer, hseen, by omega⟩
    · rw [heq]
      exact h.insert (by omega) hnot

/-- **A transaction is looked at once.**  In every run the transactions done with are distinct
and at most 5000; and through the 4990 events after one was added, whatever they are, an
announcement of it asks nothing of the backend. -/
theorem handled_skipped (hrun : Run.Reachable step (fun _ _ => True) start s) :
    s.seenTxids.Settled ∧
    ∀ (older : List Bytes) (txid : Bytes) (ds : List Delivery) (s' : NostrState),
      s.seenTxids.seen = older ++ [txid] → ds.length + 10 ≤ maxSeenTxids →
      Run.exec step (fun _ _ => True) s ds = some s' →
      s'.seenTxids.Settled ∧ ∀ (d : Delivery) (answers : FidelityAnswers),
        d.event.txid = some txid →
        s'.handleEvent d.relay d.event d.now d.answers =
          s'.handleEvent d.relay d.event d.now answers := by
  have hs : s.seenTxids.Settled := by
    apply hrun.invariant (I := fun s => s.seenTxids.Settled)
    · exact ⟨List.nodup_nil, Nat.zero_le _, rfl⟩
    · intro _ _ _ h _ hstep
      exact settled_step h hstep
  refine ⟨hs, fun older txid ds s' hlast hds hexec => ?_⟩
  obtain ⟨hs', hmem⟩ := recent_exec (n := 0) hs ⟨older, [], hlast, le_rfl⟩ (by omega) hexec
  refine ⟨hs', fun d answers htxid => ?_⟩
  have hclaim : s'.seenTxids.claim txid = none := if_pos (.inl hmem)
  simp only [handleEvent, htxid, hclaim]

theorem handled_skipped_sample :
    ∃ s : NostrState, s.seenTxids.Settled ∧ ∀ answers,
      s.handleEvent "wss://relay" ⟨true, false, 250, true, some [1]⟩ 300 ⟨none, none, none⟩ =
        s.handleEvent "wss://relay" ⟨true, false, 250, true, some [1]⟩ 300 answers := by
  have hrun : Run.Reachable step (fun _ _ => True) start
      (start.handleEvent "wss://relay" ⟨true, false, 100, true, some [1]⟩ 300
        ⟨some ⟨2, 0, [], []⟩, some (some 100), some none⟩) :=
    .step (a := announcement 100 [1] true) .init trivial rfl
  have h := (handled_skipped hrun).2 [] [1] [announcement 200 [2] true] _ rfl (by decide) rfl
  exact ⟨_, h.1, fun answers => h.2 (announcement 250 [1] false) answers rfl⟩

end NostrState

end OpenSwap
