import Mathlib

/-!
# Loops that end by themselves

A loop is given by one round, which goes on from another state or ends with a result.  `run` cuts
the loop after a number of rounds and has no result if they are used up; where a measure falls in
every round that goes on, the rounds are never used up (`run_isSome`), and `complete` is the loop
as it is.  What it ends with is the result of a round at a state of any invariant.
-/

namespace Rounds

variable {σ ρ : Type}

/-- The result of the loop, or none if it is not there after so many rounds. -/
def run (round : σ → σ ⊕ ρ) : (rounds : Nat) → σ → Option ρ
  | 0, _ => none
  | rounds + 1, s =>
    match round s with
    | .inl next => run round rounds next
    | .inr result => some result

section Measure

variable {round : σ → σ ⊕ ρ} {measure : σ → Nat}
  (hfalls : ∀ s next, round s = .inl next → measure next < measure s)

include hfalls

theorem run_isSome {rounds s} (h : measure s < rounds) : (run round rounds s).isSome := by
  induction rounds generalizing s with
  | zero => omega
  | succ rounds ih =>
    rw [run]
    cases hround : round s with
    | inl next =>
      have := hfalls s next hround
      exact ih (by omega)
    | inr result => rfl

theorem run_eq_run {rounds more s} (h : measure s < rounds) (h' : measure s < more) :
    run round rounds s = run round more s := by
  induction rounds generalizing more s with
  | zero => omega
  | succ rounds ih =>
    obtain ⟨more, rfl⟩ : ∃ n, more = n + 1 := ⟨more - 1, by omega⟩
    rw [run, run]
    cases hround : round s with
    | inl next =>
      have := hfalls s next hround
      exact ih (by omega) (by omega)
    | inr result => rfl

end Measure

/-- The loop of rounds whose measure falls. -/
def complete (round : σ → σ ⊕ ρ) (measure : σ → Nat)
    (hfalls : ∀ s next, round s = .inl next → measure next < measure s) (s : σ) : ρ :=
  (run round (measure s + 1) s).get (run_isSome hfalls (Nat.lt_succ_self _))

variable {round : σ → σ ⊕ ρ} {measure : σ → Nat}
  {hfalls : ∀ s next, round s = .inl next → measure next < measure s} {s : σ}

/-- More rounds than the measure are enough, and give what the loop ends with. -/
theorem run_eq_complete {rounds} (h : measure s < rounds) :
    run round rounds s = some (complete round measure hfalls s) := by
  rw [complete, Option.some_get]
  exact run_eq_run hfalls h (Nat.lt_succ_self _)

theorem exists_round_of_run {rounds result} {I : σ → Prop} (hs : I s)
    (hstep : ∀ s next, I s → round s = .inl next → I next)
    (h : run round rounds s = some result) : ∃ last, I last ∧ round last = .inr result := by
  induction rounds generalizing s with
  | zero => cases h
  | succ rounds ih =>
    rw [run] at h
    cases hround : round s with
    | inl next =>
      rw [hround] at h
      exact ih (hstep s next hs hround) h
    | inr last =>
      rw [hround] at h
      cases h
      exact ⟨s, hs, hround⟩

/-- **The loop ends at a round** from a state of the invariant. -/
theorem exists_round_of_complete {I : σ → Prop} (hs : I s)
    (hstep : ∀ s next, I s → round s = .inl next → I next) :
    ∃ last, I last ∧ round last = .inr (complete round measure hfalls s) :=
  exists_round_of_run hs hstep (run_eq_complete (Nat.lt_succ_self _))

end Rounds
