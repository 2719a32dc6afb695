import Mathlib

/-!
# Queues that are retried pass by pass

A pass tries the entries of a queue in order.  An entry that succeeds leaves the queue; the
first that fails ends the pass and goes to the end.  An entry that always succeeds moves up
by at least one place in every pass (`count_pass_le`), whatever the others do.
-/

namespace Retry

variable {σ α : Type}

/-- One pass, with the state that the attempts change. -/
def pass (attempt : σ → α → Bool × σ) : σ → List α → σ × List α
  | s, [] => (s, [])
  | s, x :: rest =>
    match attempt s x with
    | (true, s') => pass attempt s' rest
    | (false, s') => (s', rest ++ [x])

variable {attempt : σ → α → Bool × σ} {x : α}

theorem pass_invariant {I : σ → Prop} {s : σ} {queue : List α} (hs : I s)
    (hstep : ∀ s y, I s → I (attempt s y).2) : I (pass attempt s queue).1 := by
  induction queue generalizing s with
  | nil => exact hs
  | cons y rest ih =>
    have hnext := hstep s y hs
    rw [pass]
    split <;> rename_i heq <;> rw [heq] at hnext
    · exact ih hnext
    · exact hnext

variable [BEq α]

theorem count_drop_succ_le (queue : List α) (k : Nat) :
    (queue.drop (k + 1)).count x ≤ (queue.drop k).count x := by
  apply List.Sublist.count_le
  rw [← List.drop_drop]
  exact List.drop_sublist ..

theorem count_filter_le (keep : α → Bool) (queue : List α) (k : Nat) :
    ((queue.filter keep).drop k).count x ≤ (queue.drop k).count x := by
  induction queue generalizing k with
  | nil => simp
  | cons y rest ih =>
    cases k with
    | zero => simpa using List.filter_sublist.count_le x
    | succ k =>
      rw [List.drop_succ_cons, List.filter_cons]
      split
      · exact ih k
      · exact Nat.le_trans (ih (k + 1)) (count_drop_succ_le rest k)

variable [LawfulBEq α]

/-- Beyond position `k` there are at most the copies that were beyond position `k + 1`. -/
theorem count_pass_le (hx : ∀ s, (attempt s x).1) (s : σ) (queue : List α) (k : Nat) :
    ((pass attempt s queue).2.drop k).count x ≤ (queue.drop (k + 1)).count x := by
  induction queue generalizing s k with
  | nil => simp [pass]
  | cons y rest ih =>
    rw [List.drop_succ_cons, pass]
    split
    · exact Nat.le_trans (ih _ k) (count_drop_succ_le rest k)
    · rename_i s' hfailed
      have hne : y ≠ x := by
        rintro rfl
        simpa [hfailed] using hx s
      have hlast := (List.drop_sublist (k - rest.length) [y]).count_le x
      rw [List.count_singleton, if_neg (by simpa using hne)] at hlast
      rw [List.drop_append, List.count_append]
      omega

end Retry
