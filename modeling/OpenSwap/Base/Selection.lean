import Mathlib

/-!
# Choosing from a weighted list

Lists whose entries carry a weight: the weight of a choice, the heaviest choice
of a given size in a list sorted by falling weight, and the removal of chosen
positions.
-/

namespace Selection

open List

variable {α : Type}

def worth (w : α → Nat) (l : List α) : Nat := (l.map w).sum

/-- The weight at a position, nothing past the end. -/
def worthAt (w : α → Nat) (l : List α) (i : Nat) : Nat := (l[i]?.map w).getD 0

/-- No entry outweighs an earlier one. -/
def Descending (w : α → Nat) (l : List α) : Prop := l.Pairwise fun a b => w b ≤ w a

section worth

variable {w : α → Nat} {l s : List α} {a : α} {l' : List α} {n : Nat}

@[simp] theorem worth_nil : worth w [] = 0 := rfl

@[simp] theorem worth_cons : worth w (a :: l) = w a + worth w l := by
  simp [worth]

@[simp] theorem worth_append : worth w (l ++ l') = worth w l + worth w l' := by
  simp [worth]

theorem worth_perm (h : l.Perm l') : worth w l = worth w l' := (h.map w).sum_eq

theorem worth_le_of_sublist (h : s.Sublist l) : worth w s ≤ worth w l :=
  (h.map w).sum_le_sum fun _ _ => Nat.zero_le _

theorem worth_le_of_subperm (h : s.Subperm l) : worth w s ≤ worth w l := by
  obtain ⟨s', hs', hsub⟩ := h
  exact worth_perm hs' ▸ worth_le_of_sublist hsub

theorem worth_take_succ_le (h : Descending w (a :: l)) (n : Nat) :
    worth w (l.take (n + 1)) ≤ worth w ((a :: l).take (n + 1)) := by
  induction l generalizing a n with
  | nil => simp
  | cons b l ih =>
    have hba : w b ≤ w a := (pairwise_cons.mp h).1 b mem_cons_self
    have htail := (pairwise_cons.mp h).2
    cases n with
    | zero => simpa using hba
    | succ n =>
      have := ih htail n
      simp only [take_succ_cons, worth_cons] at this ⊢
      omega

theorem worth_take_add_one (h : n < l.length) :
    worth w (l.take (n + 1)) = worth w (l.take n) + w l[n] := by
  rw [take_add_one, getElem?_eq_getElem h, worth_append]
  rfl

theorem sum_worthAt_range (h : n ≤ l.length) :
    ((List.range n).map (worthAt w l)).sum = worth w (l.take n) := by
  induction n with
  | zero => rfl
  | succ n ih =>
    rw [worth_take_add_one h, range_succ, map_append, sum_append, ih (by omega)]
    simp [worthAt, getElem?_eq_getElem (Nat.lt_of_succ_le h)]

/-- In a list sorted by falling weight, the first `n` entries are the heaviest `n`. -/
theorem worth_le_take (h : Descending w l) (hs : s.Sublist l) :
    worth w s ≤ worth w (l.take s.length) := by
  induction hs with
  | slnil => simp
  | cons a hs ih =>
    rename_i s l
    have hle := ih (pairwise_cons.mp h).2
    cases s with
    | nil => simp
    | cons b s => exact hle.trans (worth_take_succ_le h _)
  | cons_cons a hs ih =>
    have hle := ih (pairwise_cons.mp h).2
    simpa using hle

theorem worth_le_take_of_subperm (h : Descending w l) (hs : s.Subperm l) :
    worth w s ≤ worth w (l.take s.length) := by
  obtain ⟨s', hs', hsub⟩ := hs
  rw [← worth_perm hs', ← hs'.length_eq]
  exact worth_le_take h hsub

theorem Descending.sublist (h : Descending w l) (hs : s.Sublist l) :
    Descending w s := List.Pairwise.sublist hs h

end worth

section sort

variable {w : α → Nat} {r : α → α → Prop} [DecidableRel r]

/-- Sorting by a relation that puts heavier entries first, whatever it does with ties. -/
theorem descending_insertionSort (hr : ∀ a b, r a b → w b ≤ w a) (hn : ∀ a b, ¬ r a b → w a ≤ w b)
    (l : List α) : Descending w (l.insertionSort r) := by
  have hinsert : ∀ a {l : List α}, Descending w l → Descending w (l.orderedInsert r a) := by
    intro a l h
    induction l with
    | nil => exact pairwise_singleton _ _
    | cons b l ih =>
      obtain ⟨hb, htail⟩ := pairwise_cons.mp h
      rw [orderedInsert_cons]
      split
      next hab =>
        refine pairwise_cons.mpr ⟨fun c hc => ?_, h⟩
        rcases mem_cons.mp hc with rfl | hc
        · exact hr _ _ hab
        · exact (hb c hc).trans (hr _ _ hab)
      next hab =>
        refine pairwise_cons.mpr ⟨fun c hc => ?_, ih htail⟩
        rcases mem_cons.mp ((perm_orderedInsert r a l).mem_iff.mp hc) with rfl | hc
        · exact hn _ _ hab
        · exact hb c hc
  induction l with
  | nil => exact List.Pairwise.nil
  | cons a l ih => exact hinsert a ih

theorem map_eq_insertionSort {l l'} (h : Descending w l) (hp : l.Perm l') :
    l.map w = (l'.map w).insertionSort (· ≥ ·) := by
  have hl : (l.map w).Pairwise (· ≥ ·) := pairwise_map.mpr h
  have hsorted := pairwise_insertionSort (· ≥ ·) (l'.map w)
  have hperm := (hp.map w).trans (perm_insertionSort (· ≥ ·) (l'.map w)).symm
  exact hperm.eq_of_pairwise (fun a b _ _ hab hba => Nat.le_antisymm hba hab) hl hsorted

end sort

section positions

variable {w : α → Nat}

/-- Take the entries at `positions` out of a list, in the order given. -/
def removeAt : List Nat → List α → List α × List α
  | [], l => ([], l)
  | i :: is, l =>
    match l[i]? with
    | none => removeAt is l
    | some a =>
      let (taken, rest) := removeAt is (l.eraseIdx i)
      (a :: taken, rest)

theorem removeAt_sublist (is : List Nat) (l : List α) : (removeAt is l).2.Sublist l := by
  fun_induction removeAt is l with
  | case1 l => exact .refl l
  | case2 i is l h ih => exact ih
  | case3 i is l a h taken rest hrest ih =>
    rw [hrest] at ih
    exact ih.trans (eraseIdx_sublist l i)

/-- What a removal of falling positions takes and leaves. -/
structure Removed (w : α → Nat) (is : List Nat) (l : List α) : Prop where
  perm : l.Perm ((removeAt is l).1 ++ (removeAt is l).2)
  rest : (removeAt is l).2.Sublist l
  length : (removeAt is l).1.length = is.length
  worth : worth w (removeAt is l).1 = (is.map (worthAt w l)).sum

variable {l : List α}

theorem worthAt_eraseIdx {i j} (h : j < i) :
    worthAt w (l.eraseIdx i) j = worthAt w l j := by
  simp [worthAt, getElem?_eraseIdx, h]

/-- Positions in falling order stay valid while the higher ones are removed. -/
theorem removeAt_removed {is} (hd : is.Pairwise (· > ·)) (hlt : ∀ i ∈ is, i < l.length) :
    Removed w is l := by
  induction is generalizing l with
  | nil => exact ⟨by simp [removeAt], removeAt_sublist _ _, rfl, rfl⟩
  | cons i is ih =>
    obtain ⟨hi, htail⟩ := pairwise_cons.mp hd
    have hil : i < l.length := hlt i mem_cons_self
    have hlen : (l.eraseIdx i).length = l.length - 1 := length_eraseIdx_of_lt hil
    have hlow : ∀ j ∈ is, j < (l.eraseIdx i).length := by
      intro j hj
      have := hi j hj
      omega
    have hrest := ih htail hlow
    have heq : removeAt (i :: is) l =
        (l[i] :: (removeAt is (l.eraseIdx i)).1, (removeAt is (l.eraseIdx i)).2) := by
      simp [removeAt, getElem?_eq_getElem hil]
    refine ⟨?_, removeAt_sublist _ _, ?_, ?_⟩
    · rw [heq]
      exact (getElem_cons_eraseIdx_perm hil).symm.trans (hrest.perm.cons _)
    · rw [heq]
      simp [hrest.length]
    · have hvals : is.map (worthAt w (l.eraseIdx i)) = is.map (worthAt w l) :=
        map_congr_left fun j hj => worthAt_eraseIdx (hi j hj)
      rw [heq, worth_cons, hrest.worth, hvals, map_cons, sum_cons]
      simp [worthAt, getElem?_eq_getElem hil]

end positions

theorem findSome_range_eq_some {β : Type} {f : Nat → Option β} {b r}
    (h : (List.range' 1 b).findSome? f = some r) :
    ∃ n, 1 ≤ n ∧ n ≤ b ∧ f n = some r ∧ ∀ m, 1 ≤ m → m < n → f m = none := by
  obtain ⟨before, n, after, hrange, hn, hbefore⟩ := findSome?_eq_some_iff.mp h
  have hmem : n ∈ List.range' 1 b := by simp [hrange]
  obtain ⟨hn1, hnb⟩ := mem_range'_1.mp hmem
  refine ⟨n, hn1, by omega, hn, fun m hm1 hmn => hbefore m ?_⟩
  have hsorted : (List.range' 1 b).Pairwise (· < ·) := pairwise_lt_range' 1
  have hm : m ∈ before ++ n :: after := hrange ▸ mem_range'_1.mpr ⟨hm1, by omega⟩
  rw [hrange] at hsorted
  rcases mem_append.mp hm with hm | hm
  · exact hm
  · rcases mem_cons.mp hm with rfl | hm
    · omega
    · have := (pairwise_cons.mp (pairwise_append.mp hsorted).2.1).1 m hm
      omega

end Selection
