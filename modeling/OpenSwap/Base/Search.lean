import Mathlib

/-!
# Searching for a threshold

Two loops over the natural numbers: double a bound until a test passes, then halve the
interval below it.  Both end by themselves: the bound closes in on the limit, and the interval
shrinks.  Where the test passes from a threshold on, the doubling stops above it and the halving
ends at it (`doubleUntil_threshold`, `bisect_threshold`).
-/

namespace Search

/-- Double `hi` until the test passes; nothing beyond the limit is tested. -/
def doubleUntil (passes : Nat → Bool) (limit hi : Nat) (hpos : 0 < hi) : Option Nat :=
  if passes hi then some hi
  else if limit < 2 * hi then none
  else doubleUntil passes limit (2 * hi) (by omega)
termination_by limit - hi

/-- Halve the interval, keeping the half whose upper end passes. -/
def bisect (passes : Nat → Bool) (lo hi : Nat) : Nat :=
  if lo < hi then
    let mid := lo + (hi - lo) / 2
    if passes mid then bisect passes lo mid else bisect passes (mid + 1) hi
  else lo
termination_by hi - lo

/-- Up to the limit the test passes from the threshold on. -/
def Threshold (passes : Nat → Bool) (limit threshold : Nat) : Prop :=
  ∀ n ≤ limit, passes n = true ↔ threshold ≤ n

variable {passes : Nat → Bool} {limit hi lo threshold : Nat}

theorem doubleUntil_threshold (h : Threshold passes limit threshold)
    (hlimit : 2 * threshold ≤ limit) (hpos : 0 < hi) (hhi : hi ≤ limit) :
    ∃ found, doubleUntil passes limit hi hpos = some found ∧ threshold ≤ found ∧
      found ≤ limit := by
  -- along the loop: what has failed is below the threshold, so its double is within the limit
  fun_induction doubleUntil passes limit hi hpos with
  | case1 hi hpos hpass => exact ⟨hi, rfl, (h hi hhi).mp hpass, hhi⟩
  | case2 hi hpos hfail hover =>
    have : threshold ≤ hi := by omega
    exact absurd ((h hi hhi).mpr this) hfail
  | case3 hi hpos hfail hin ih => exact ih (by omega)

theorem bisect_threshold (h : Threshold passes limit threshold) (hlo : lo ≤ threshold)
    (hhi : threshold ≤ hi) (hlimit : hi ≤ limit) : bisect passes lo hi = threshold := by
  fun_induction bisect passes lo hi with
  | case1 lo hi hlt mid hpass ih =>
    have hmid : threshold ≤ mid := (h mid (by omega)).mp hpass
    exact ih hlo hmid (by omega)
  | case2 lo hi hlt mid hfail ih =>
    have hmid : ¬ threshold ≤ mid := fun hle => hfail ((h mid (by omega)).mpr hle)
    exact ih (by omega) hhi hlimit
  | case3 lo hi hge => omega

end Search
