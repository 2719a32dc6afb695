import Mathlib

/-!
# Decimal numbers

Characters are given by their codes.  `Decimal.parse` reads a number below a bound, and on
characters without a leading zero it is the inverse of `Decimal.text` (`parse_eq_some`).
-/

namespace Decimal

open List

def isDigit (c : Nat) : Bool := 48 ≤ c && c ≤ 57

/-- The number some digits denote. -/
def value (l : List Nat) : Nat := Nat.ofDigits 10 (l.map (· - 48)).reverse

def parse (bound : Nat) (l : List Nat) : Option Nat :=
  if l = [] ∨ ¬ l.all isDigit ∨ bound ≤ value l then none else some (value l)

/-- The digits of a number, without leading zeros. -/
def text (n : Nat) : List Nat :=
  if n = 0 then [48] else (Nat.digits 10 n).reverse.map (48 + ·)

variable {l : List Nat} {n bound : Nat}

theorem text_ne_nil : text n ≠ [] := by
  unfold text
  split <;> simp [Nat.digits_ne_nil_iff_ne_zero, *]

theorem isDigit_of_mem_text {c} (h : c ∈ text n) : isDigit c := by
  unfold text at h
  split at h
  · simp_all [isDigit]
  · obtain ⟨d, hd, rfl⟩ := mem_map.mp h
    have hlt := Nat.digits_lt_base (by norm_num) (mem_reverse.mp hd)
    simp only [isDigit, Bool.and_eq_true, decide_eq_true_eq]
    omega

theorem value_text : value (text n) = n := by
  unfold text value
  split
  · simp [*]
  · rw [map_map, ← map_reverse, reverse_reverse]
    simpa [Function.comp_def] using Nat.ofDigits_digits 10 n

theorem text_of_head (h : (text n).head? = some 48) : text n = [48] := by
  by_cases hn : n = 0
  · rw [hn]
    rfl
  · have hlast := Nat.getLast_digit_ne_zero 10 hn
    rw [text, if_neg hn, head?_map, head?_reverse,
      getLast?_eq_some_getLast (Nat.digits_ne_nil_iff_ne_zero.mpr hn)] at h
    simp only [Option.map_some, Option.some.injEq] at h
    omega

theorem length_text_le {k} (hk : 0 < k) (h : n < 10 ^ k) : (text n).length ≤ k := by
  unfold text
  split
  · exact hk
  · rw [length_map, length_reverse]
    exact (Nat.digits_length_le_iff (by norm_num) n).mpr h

/-- The value of digits determines them, unless they begin with a zero. -/
theorem text_value (hne : l ≠ []) (hdigits : l.all isDigit) (hzero : l.head? ≠ some 48) :
    text (value l) = l := by
  have hrange : ∀ c ∈ l, 48 ≤ c ∧ c ≤ 57 := by simpa [isDigit] using hdigits
  set ds := (l.map (· - 48)).reverse with hds
  have hnil : ds ≠ [] := by simpa [hds] using hne
  have hlast : ∀ h : ds ≠ [], ds.getLast h ≠ 0 := by
    intro h
    obtain ⟨c, tail, rfl⟩ := exists_cons_of_ne_nil hne
    have := hrange c mem_cons_self
    simp only [head?_cons, ne_eq, Option.some.injEq] at hzero
    simp only [hds, map_cons, reverse_cons, getLast_append_singleton]
    omega
  have hdigits : Nat.digits 10 (value l) = ds := by
    apply Nat.digits_ofDigits 10 (by norm_num) ds _ hlast
    intro d hd
    obtain ⟨c, hc, rfl⟩ := mem_map.mp (mem_reverse.mp hd)
    have := hrange c hc
    omega
  have hvalue : value l ≠ 0 := by
    intro h
    rw [h, Nat.digits_zero] at hdigits
    exact hnil hdigits.symm
  rw [text, if_neg hvalue, hdigits, hds, reverse_reverse, map_map]
  calc l.map ((48 + ·) ∘ (· - 48)) = l.map id := map_congr_left fun c hc => by
        simpa using Nat.add_sub_cancel' (hrange c hc).1
    _ = l := map_id l

/-- **What is read is the text of the number**, if a zero only stands alone. -/
theorem parse_eq_some (hzero : l.head? = some 48 → l = [48]) :
    parse bound l = some n ↔ n < bound ∧ l = text n := by
  simp only [parse, Option.ite_none_left_eq_some, not_or, not_not, not_le, Option.some.injEq]
  constructor
  · rintro ⟨⟨hne, hdigits, hlt⟩, rfl⟩
    refine ⟨hlt, ?_⟩
    by_cases h : l.head? = some 48
    · rw [hzero h]
      rfl
    · exact (text_value hne hdigits h).symm
  · rintro ⟨hlt, rfl⟩
    exact ⟨⟨text_ne_nil, all_eq_true.mpr fun c => isDigit_of_mem_text, by rwa [value_text]⟩,
      value_text⟩

end Decimal
