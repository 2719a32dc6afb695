import OpenSwap.Base.Run

/-!
# The limiter of incoming connections

The maker's listener takes a permit for every connection it hands to a handler.  Tokens
bound the rate of the permits, two counters those alive and those not yet established.  A
handler owns its permit, marks it when the peer names a swap (`handle_connection`,
`admit_heartbeat`), and drops it when it ends, by a panic too.

* `Limiter` — the counters, the permits alive, and the times of all admissions as a ghost.
* `limiter_sound` — the counters are exact and bounded, and any span of `t` seconds has at
  most `30 + 4 * t` admissions.
-/

namespace OpenSwap

open Run

def maxInboundConnections : Nat := 90
def maxPendingConnections : Nat := 30
def connectionBurst : ℚ := 30
def connectionsPerSecond : ℚ := 4

structure LimiterState where
  active : Nat
  pending : Nat
  tokens : ℚ
  lastRefill : ℚ

def LimiterState.refilled (s : LimiterState) (now : ℚ) : ℚ :=
  min (s.tokens + (now - s.lastRefill) * connectionsPerSecond) connectionBurst

/-- A token is used up even at capacity. -/
def LimiterState.tryAcquire (s : LimiterState) (now : ℚ) : LimiterState × Bool :=
  let tokens := s.refilled now
  if tokens < 1 then ({ s with tokens := tokens, lastRefill := now }, false)
  else
    let s := { s with tokens := tokens - 1, lastRefill := now }
    if maxInboundConnections ≤ s.active ∨ maxPendingConnections ≤ s.pending then (s, false)
    else ({ s with active := s.active + 1, pending := s.pending + 1 }, true)

/-- Where the owner of a permit is: `marking` is between its flag and the counter. -/
inductive Permit where
  | pending
  | marking
  | established
deriving DecidableEq

structure Limiter where
  state : LimiterState
  permits : List Permit
  /-- when a permit was handed out -/
  admitted : List ℚ

def Limiter.start (now : ℚ) : Limiter := ⟨⟨0, 0, connectionBurst, now⟩, [], []⟩

inductive LimiterAction where
  | accept (now : ℚ)
  | setFlag
  | markEstablished
  | drop (p : Permit)

/-- One critical section, or the flag before it; permits at one place are alike.  The clock is
read under the lock, and does not run backwards. -/
def Limiter.step (l : Limiter) : LimiterAction → Option Limiter
  | .accept now =>
    if now < l.state.lastRefill then none
    else match l.state.tryAcquire now with
      | (state, true) => some ⟨state, .pending :: l.permits, now :: l.admitted⟩
      | (state, false) => some { l with state := state }
  | .setFlag =>
    if .pending ∈ l.permits then some { l with permits := .marking :: l.permits.erase .pending }
    else none
  | .markEstablished =>
    if .marking ∈ l.permits then some { l with
      state := { l.state with pending := l.state.pending - 1 }
      permits := .established :: l.permits.erase .marking }
    else none
  | .drop p =>
    if p ∈ l.permits ∧ p ≠ .marking then some { l with
      state := { l.state with
        pending := if p = .pending then l.state.pending - 1 else l.state.pending
        active := l.state.active - 1 }
      permits := l.permits.erase p }
    else none

/-! ## The counters -/

def unestablished (permits : List Permit) : Nat := permits.countP (· ≠ .established)

/-- The admissions from `a` to `b`. -/
def Limiter.within (l : Limiter) (a b : ℚ) : Nat := l.admitted.countP fun t => a ≤ t ∧ t ≤ b

structure Limiter.Sound (l : Limiter) : Prop where
  active : l.state.active = l.permits.length
  pending : l.state.pending = unestablished l.permits
  activeMax : l.state.active ≤ maxInboundConnections
  pendingMax : l.state.pending ≤ maxPendingConnections
  tokens : 0 ≤ l.state.tokens
  past : ∀ t ∈ l.admitted, t ≤ l.state.lastRefill
  /-- the tokens left and the admissions since `a` come out of the burst and the refills -/
  paid : ∀ a ≤ l.state.lastRefill, (l.admitted.countP (a ≤ ·) : ℚ) + l.state.tokens ≤
    connectionBurst + connectionsPerSecond * (l.state.lastRefill - a)
  spans : ∀ a b, a ≤ b → (l.within a b : ℚ) ≤ connectionBurst + connectionsPerSecond * (b - a)

variable {l l' : Limiter} {permits : List Permit} {p : Permit} {now : ℚ}

theorem counts_erase (h : p ∈ permits) : permits.length = (permits.erase p).length + 1 ∧
    unestablished permits =
      unestablished (permits.erase p) + if p = .established then 0 else 1 := by
  have hperm := List.perm_cons_erase h
  refine ⟨hperm.length_eq, ?_⟩
  rw [unestablished, hperm.countP_eq, List.countP_cons]
  simp [unestablished]

namespace Limiter.Sound

theorem refilled (hs : l.Sound) (hnow : l.state.lastRefill ≤ now) : 0 ≤ l.state.refilled now ∧
    ∀ a ≤ now, (l.admitted.countP (a ≤ ·) : ℚ) + l.state.refilled now ≤
      connectionBurst + connectionsPerSecond * (now - a) := by
  have htokens := hs.tokens
  have hleft : l.state.refilled now ≤ _ := min_le_left _ _
  have hright : l.state.refilled now ≤ _ := min_le_right _ _
  unfold connectionsPerSecond connectionBurst at *
  refine ⟨le_min (by unfold connectionsPerSecond; linarith) (by decide), fun a ha => ?_⟩
  by_cases hold : a ≤ l.state.lastRefill
  · have hpaid := hs.paid a hold
    unfold connectionsPerSecond connectionBurst at hpaid
    linarith
  · -- nothing was admitted since
    have hnone : l.admitted.countP (a ≤ ·) = 0 := by
      rw [List.countP_eq_zero]
      intro t ht
      have := hs.past t ht
      simp only [decide_eq_true_eq]
      linarith
    rw [hnone]
    norm_num
    linarith

theorem refuse {tokens : ℚ} (hs : l.Sound) (hnow : l.state.lastRefill ≤ now) (h0 : 0 ≤ tokens)
    (hle : tokens ≤ l.state.refilled now) :
    Sound { l with state := { l.state with tokens := tokens, lastRefill := now } } :=
  { hs with
    tokens := h0
    past := fun t ht => (hs.past t ht).trans hnow
    paid := fun a ha => (add_le_add_right hle _).trans ((hs.refilled hnow).2 a ha) }

theorem grant (hs : l.Sound) (hnow : l.state.lastRefill ≤ now) (h1 : 1 ≤ l.state.refilled now)
    (hactive : l.state.active < maxInboundConnections)
    (hpending : l.state.pending < maxPendingConnections) :
    Sound ⟨⟨l.state.active + 1, l.state.pending + 1, l.state.refilled now - 1, now⟩,
      .pending :: l.permits, now :: l.admitted⟩ := by
  have hpaid := (hs.refilled hnow).2
  refine ⟨by simp [hs.active], by simp [hs.pending, unestablished], hactive, hpending,
    sub_nonneg.mpr h1, ?_, fun a ha => ?_, fun a b hab => ?_⟩
  · rintro t (_ | ⟨_, ht⟩)
    · exact le_rfl
    · exact (hs.past t ht).trans hnow
  · rw [List.countP_cons_of_pos (by simpa using ha)]
    have := hpaid a ha
    push_cast
    linarith
  · have hold := hs.spans a b hab
    unfold within at hold ⊢
    by_cases hin : a ≤ now ∧ now ≤ b
    · -- all of the span's admissions came out of the tokens since it began
      have hmono : l.admitted.countP (fun t => a ≤ t ∧ t ≤ b) ≤ l.admitted.countP (a ≤ ·) :=
        List.countP_mono_left fun t _ ht => by simp_all
      have hsince := hpaid a hin.1
      have hcast : (l.admitted.countP (fun t => a ≤ t ∧ t ≤ b) : ℚ) ≤ l.admitted.countP (a ≤ ·) :=
        Nat.cast_le.mpr hmono
      rw [List.countP_cons_of_pos (by simpa using hin)]
      unfold connectionsPerSecond at hsince ⊢
      push_cast
      linarith
    · rw [List.countP_cons_of_neg (by simpa using hin)]
      exact hold

theorem step {a : LimiterAction} (hs : l.Sound) (h : l.step a = some l') : l'.Sound := by
  have hactive := hs.active
  have hpending := hs.pending
  have hmax := hs.activeMax
  have hmax' := hs.pendingMax
  cases a with
  | accept now =>
    simp only [Limiter.step, LimiterState.tryAcquire] at h
    split_ifs at h with hback hfew hfull
    · cases h
      exact hs.refuse (not_lt.mp hback) (hs.refilled (not_lt.mp hback)).1 le_rfl
    · cases h
      exact hs.refuse (not_lt.mp hback) (sub_nonneg.mpr (not_lt.mp hfew))
        (sub_le_self _ zero_le_one)
    · cases h
      exact hs.grant (not_lt.mp hback) (not_lt.mp hfew) (by simp at hfull; omega)
        (by simp at hfull; omega)
  | setFlag =>
    simp only [Limiter.step, Option.ite_none_right_eq_some] at h
    obtain ⟨hmem, h⟩ := h
    cases h
    obtain ⟨hlength, hcount⟩ := counts_erase hmem
    refine { hs with active := ?_, pending := ?_ }
    · simp; omega
    · simp [unestablished] at hcount hpending ⊢; omega
  | markEstablished =>
    simp only [Limiter.step, Option.ite_none_right_eq_some] at h
    obtain ⟨hmem, h⟩ := h
    cases h
    obtain ⟨hlength, hcount⟩ := counts_erase hmem
    refine { hs with active := ?_, pending := ?_, pendingMax := ?_ }
    · simp; omega
    · simp [unestablished] at hcount hpending ⊢; omega
    · simp; omega
  | drop p =>
    simp only [Limiter.step, Option.ite_none_right_eq_some] at h
    obtain ⟨⟨hmem, hne⟩, h⟩ := h
    cases h
    obtain ⟨hlength, hcount⟩ := counts_erase hmem
    have hsplit : p = .pending ∨ p = .established := by cases p <;> simp at hne ⊢
    refine { hs with active := ?_, pending := ?_, activeMax := ?_, pendingMax := ?_ }
    · simp; omega
    · rcases hsplit with rfl | rfl <;> simp at hcount ⊢ <;> omega
    · simp; omega
    · rcases hsplit with rfl | rfl <;> simp <;> omega

end Limiter.Sound

/-- **The limiter.**  In every interleaving the counters are those of the permits alive, so
none falls below zero; they stay within their bounds; and any span of `t` seconds has at most
`30 + 4 * t` admissions. -/
theorem limiter_sound {start : ℚ} (h : Reachable Limiter.step (fun _ _ => True) (.start start) l) :
    l.state.active = l.permits.length ∧ l.state.pending = unestablished l.permits ∧
      (∀ p ∈ l.permits, 0 < l.state.active ∧ (p ≠ .established → 0 < l.state.pending)) ∧
      l.state.active ≤ 90 ∧ l.state.pending ≤ 30 ∧
      ∀ a t, 0 ≤ t → (l.within a (a + t) : ℚ) ≤ 30 + 4 * t := by
  have hs : l.Sound := by
    refine h.invariant ?_ fun _ _ _ hs _ hstep => hs.step hstep
    refine ⟨rfl, rfl, Nat.zero_le _, Nat.zero_le _, by simp [Limiter.start, connectionBurst],
      by simp [Limiter.start], ?_, ?_⟩
    · intro a ha
      simp [Limiter.start, connectionsPerSecond] at ha ⊢
      linarith
    · intro a b hab
      simp [Limiter.start, Limiter.within, connectionBurst, connectionsPerSecond]
      linarith
  refine ⟨hs.active, hs.pending, fun p hp => ?_, hs.activeMax, hs.pendingMax, fun a t ht => ?_⟩
  · obtain ⟨hlength, hcount⟩ := counts_erase hp
    rw [hs.active, hs.pending]
    exact ⟨by omega, fun hne => by rw [hcount, if_neg hne]; omega⟩
  · have hspan := hs.spans a (a + t) (by linarith)
    rwa [add_sub_cancel_left] at hspan

theorem limiter_sound_two_seconds : ∃ l, Reachable Limiter.step (fun _ _ => True) (.start 0) l ∧
    l.state.pending = 1 ∧ (l.within 0 (0 + 2) : ℚ) ≤ 30 + 4 * 2 := by
  obtain ⟨l, hl, hpending⟩ : ∃ l, Reachable Limiter.step (fun _ _ => True) (.start 0) l ∧
      decide (l.state.pending = 1) = true :=
    exists_reachable_of_exec [.accept 1, .accept 2, .setFlag, .markEstablished] (by decide +kernel)
  exact ⟨l, hl, of_decide_eq_true hpending, (limiter_sound hl).2.2.2.2.2 0 2 (by norm_num)⟩

end OpenSwap
