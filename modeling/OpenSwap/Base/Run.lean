import Mathlib

/-!
# Runs of a transition system

A system takes steps under actions; a run may be restricted to steps that meet a
condition on the state and the action.  `Reachable.invariant` is the induction every
safety result uses, `Reachable.of_exec` turns a computed run into reachability.
-/

namespace Run

variable {σ α : Type}

/-- The states reached from `init` by steps that meet `ok`. -/
inductive Reachable (step : σ → α → Option σ) (ok : σ → α → Prop) (init : σ) : σ → Prop where
  | init : Reachable step ok init init
  | step {s s' a} :
      Reachable step ok init s → ok s a → step s a = some s' → Reachable step ok init s'

variable {step : σ → α → Option σ} {ok ok' : σ → α → Prop} {init : σ}

theorem Reachable.invariant {I : σ → Prop} (h0 : I init)
    (hstep : ∀ s a s', I s → ok s a → step s a = some s' → I s') {s}
    (h : Reachable step ok init s) :
    I s := by
  induction h with
  | init => exact h0
  | step _ hok hs ih => exact hstep _ _ _ ih hok hs

theorem Reachable.mono (himp : ∀ s a, ok s a → ok' s a) {s} (h : Reachable step ok init s) :
    Reachable step ok' init s := by
  induction h with
  | init => exact .init
  | step _ hok hs ih => exact .step ih (himp _ _ hok) hs

/-- Take the steps of a list of actions, all of which must meet the condition. -/
def exec (step : σ → α → Option σ) (ok : σ → α → Prop) [∀ s a, Decidable (ok s a)] :
    σ → List α → Option σ
  | s, [] => some s
  | s, a :: rest => if ok s a then (step s a).bind (exec step ok · rest) else none

theorem Reachable.of_exec [∀ s a, Decidable (ok s a)] {actions s s'} (hs : Reachable step ok init s)
    (h : exec step ok s actions = some s') :
    Reachable step ok init s' := by
  induction actions generalizing s with
  | nil =>
    simp only [exec, Option.some.injEq] at h
    exact h ▸ hs
  | cons a rest ih =>
    simp only [exec, Option.ite_none_right_eq_some, Option.bind_eq_some_iff] at h
    obtain ⟨hok, next, hnext, hrest⟩ := h
    exact ih (.step hs hok hnext) hrest

/-- A check on the last state of a computed run holds of a reachable state. -/
theorem exists_reachable_of_exec [∀ s a, Decidable (ok s a)] {p : σ → Bool} (actions : List α)
    (h : (exec step ok init actions).any p) : ∃ s, Reachable step ok init s ∧ p s = true := by
  obtain ⟨s, hs, hp⟩ := (Option.any_eq_true _ _).mp h
  exact ⟨s, .of_exec .init hs, hp⟩

end Run
