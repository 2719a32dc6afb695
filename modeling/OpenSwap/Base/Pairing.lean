import Mathlib

/-!
# Pairing by rank

Two lists of the same length are paired so that the smallest goes with the smallest: one
list is sorted, and each key of the other takes the entry of its own rank.

* `pairByRank` — the pairing, with the ranks written into an array as a program does it.
* `pairByRank_perm` — up to order it is the sorted list against the sorted keys.
* `total_zip_le` — no pairing costs less, for a cost under which crossing two pairs never
  pays (`Exchanges`).
-/

namespace Pairing

open List

/-! ## The pairing -/

variable (keys : List Nat)

/-- Positions in the order of their keys, equal ones in the order they stand. -/
def orderOf : List Nat :=
  (List.range keys.length).insertionSort fun i j => keys.getD i 0 ≤ keys.getD j 0

/-- The rank of every position, written at its place. -/
def ranksOf : List Nat :=
  (orderOf keys).zipIdx.foldl (fun rank p => rank.set p.1 p.2) (List.replicate keys.length 0)

/-- Every key takes the entry of its own rank. -/
def pairByRank {α : Type} (sorted : List α) (default : α) (keys : List Nat) : List α :=
  (ranksOf keys).map fun r => sorted.getD r default

theorem orderOf_perm : (orderOf keys).Perm (List.range keys.length) :=
  perm_insertionSort _ _

theorem length_orderOf : (orderOf keys).length = keys.length := by
  rw [(orderOf_perm keys).length_eq, length_range]

theorem orderOf_sorted : ((orderOf keys).map fun i => keys.getD i 0).Pairwise (· ≤ ·) := by
  rw [pairwise_map]
  exact pairwise_insertionSort _ _

/-- Writing at distinct places: each place holds what was written there. -/
theorem getElem?_foldl_set {writes : List (Nat × Nat)} (hnodup : (writes.map Prod.fst).Nodup)
    {array : List Nat} {i r : Nat} (hwrite : (i, r) ∈ writes) (hi : i < array.length) :
    (writes.foldl (fun rank p => rank.set p.1 p.2) array)[i]? = some r := by
  induction writes generalizing array with
  | nil => cases hwrite
  | cons write rest ih =>
    obtain ⟨hfirst, hrest⟩ := nodup_cons.mp hnodup
    rw [foldl_cons]
    rcases mem_cons.mp hwrite with rfl | hlater
    · -- nothing after it writes there again
      have hkeep : ∀ (later : List (Nat × Nat)) (array : List Nat),
          i ∉ later.map Prod.fst →
          (later.foldl (fun rank p => rank.set p.1 p.2) array)[i]? = array[i]? := by
        intro later
        induction later with
        | nil => exact fun _ _ => rfl
        | cons write later ih =>
          intro array hnot
          rw [map_cons, mem_cons, not_or] at hnot
          rw [foldl_cons, ih _ hnot.2, getElem?_set_ne (Ne.symm hnot.1)]
      rw [hkeep rest _ hfirst]
      exact getElem?_set_self hi
    · exact ih hrest hlater (by rwa [length_set])

theorem length_ranksOf : (ranksOf keys).length = keys.length := by
  have hkeep : ∀ (writes : List (Nat × Nat)) (array : List Nat),
      (writes.foldl (fun rank p => rank.set p.1 p.2) array).length = array.length := by
    intro writes
    induction writes with
    | nil => exact fun _ => rfl
    | cons write rest ih => exact fun array => (ih _).trans length_set
  rw [ranksOf, hkeep, length_replicate]

theorem ranksOf_orderOf {keys : List Nat} {r i : Nat} (h : (orderOf keys)[r]? = some i) :
    (ranksOf keys)[i]? = some r := by
  have hnodup : ((orderOf keys).zipIdx.map Prod.fst).Nodup := by
    rw [zipIdx_map_fst]
    exact (orderOf_perm keys).nodup_iff.mpr nodup_range
  have hmem : i ∈ orderOf keys := mem_of_getElem? h
  have hlt : i < keys.length := mem_range.mp ((orderOf_perm keys).mem_iff.mp hmem)
  refine getElem?_foldl_set hnodup ?_ (by rwa [length_replicate])
  exact mk_mem_zipIdx_iff_getElem?.mpr h

section Pair

variable {α : Type} {sorted : List α} {default : α} {keys : List Nat}

@[simp] theorem length_pairByRank : (pairByRank sorted default keys).length = keys.length := by
  rw [pairByRank, length_map, length_ranksOf]

/-- Up to order, the pairing by rank is the sorted list against the sorted keys. -/
theorem pairByRank_perm (h : sorted.length = keys.length) :
    ((pairByRank sorted default keys).zip keys).Perm
      (sorted.zip ((orderOf keys).map fun i => keys.getD i 0)) := by
  have hrange : (pairByRank sorted default keys).zip keys = (List.range keys.length).map
      fun i => (sorted.getD ((ranksOf keys).getD i 0) default, keys.getD i 0) := by
    refine ext_getElem (by simp) fun i hi _ => ?_
    have hlt : i < keys.length := by simpa using hi
    have hlt' : i < (ranksOf keys).length := by rwa [length_ranksOf]
    simp [pairByRank, hlt, hlt']
  have horder : sorted.zip ((orderOf keys).map fun i => keys.getD i 0) = (orderOf keys).map
      fun i => (sorted.getD ((ranksOf keys).getD i 0) default, keys.getD i 0) := by
    refine ext_getElem (by simp [h, length_orderOf]) fun r hr _ => ?_
    have hlt : r < keys.length := by simpa [h, length_orderOf] using hr
    have hlt' : r < (orderOf keys).length := by rwa [length_orderOf]
    have hrank := ranksOf_orderOf (getElem?_eq_getElem hlt')
    simp [hrank, h, hlt]
  rw [hrange, horder]
  exact (orderOf_perm keys).symm.map _

theorem pairByRank_fst_perm (h : sorted.length = keys.length) :
    (pairByRank sorted default keys).Perm sorted := by
  have hperm := (@pairByRank_perm α sorted default keys h).map Prod.fst
  rwa [map_fst_zip (by simp), map_fst_zip (by simp [h, length_orderOf])] at hperm

end Pair

/-! ## What a pairing costs -/

section Cost

variable {α β : Type} {f : α → β → Nat}

def total (f : α → β → Nat) (pairs : List (α × β)) : Nat := (pairs.map fun p => f p.1 p.2).sum

variable {pairs : List (α × β)}

theorem total_perm {pairs'} (h : pairs.Perm pairs') :
    total f pairs = total f pairs' := (h.map _).sum_eq

@[simp] theorem total_cons {p} :
    total f (p :: pairs) = f p.1 p.2 + total f pairs := by
  simp [total]

variable [Preorder α] [Preorder β]

/-- Two pairs that cross cost no less than the two that do not. -/
def Exchanges (f : α → β → Nat) : Prop :=
  ∀ a a' b b', a ≤ a' → b ≤ b' → f a b + f a' b' ≤ f a' b + f a b'

/-- A pairing can be changed to pair two smallest entries, at no cost. -/
theorem exists_pair_first (hf : Exchanges f) {a b} (ha : a ∈ pairs.map Prod.fst)
    (hb : b ∈ pairs.map Prod.snd) (hle : ∀ p ∈ pairs, a ≤ p.1 ∧ b ≤ p.2) :
    ∃ rest : List (α × β), (pairs.map Prod.fst).Perm (a :: rest.map Prod.fst) ∧
      (pairs.map Prod.snd).Perm (b :: rest.map Prod.snd) ∧
      f a b + total f rest ≤ total f pairs := by
  obtain ⟨⟨x, b⟩, hx, rfl⟩ := mem_map.mp hb
  obtain ⟨before, after, rfl⟩ := append_of_mem hx
  have hperm : (before ++ (x, b) :: after).Perm ((x, b) :: (before ++ after)) := perm_middle
  have ha' : a ∈ x :: (before ++ after).map Prod.fst := (hperm.map Prod.fst).mem_iff.mp ha
  rcases mem_cons.mp ha' with rfl | hother
  · -- they are a pair already
    refine ⟨before ++ after, hperm.map Prod.fst, hperm.map Prod.snd, ?_⟩
    rw [total_perm hperm, total_cons]
  · obtain ⟨⟨a, y⟩, hy, rfl⟩ := mem_map.mp hother
    obtain ⟨before', after', heq⟩ := append_of_mem hy
    have hperm' : (before ++ (x, b) :: after).Perm ((x, b) :: (a, y) :: (before' ++ after')) :=
      hperm.trans (heq ▸ perm_middle.cons _)
    refine ⟨(x, y) :: (before' ++ after'), ?_, ?_, ?_⟩
    · exact (hperm'.map Prod.fst).trans (List.Perm.swap _ _ _)
    · exact hperm'.map Prod.snd
    · have hxle := (hle (x, b) (by simp)).1
      have hyle := (hle (a, y) (hperm'.mem_iff.mpr (by simp))).2
      have hcross := hf a x b y hxle hyle
      rw [total_perm hperm']
      simp only [total_cons]
      omega

/-- **No pairing costs less than the sorted one.** -/
theorem total_zip_le (hf : Exchanges f) {as bs} (has : as.Pairwise (· ≤ ·))
    (hbs : bs.Pairwise (· ≤ ·)) (hfst : (pairs.map Prod.fst).Perm as)
    (hsnd : (pairs.map Prod.snd).Perm bs) : total f (as.zip bs) ≤ total f pairs := by
  induction as generalizing bs pairs with
  | nil => simp [total]
  | cons a as ih =>
    cases bs with
    | nil => simp [total]
    | cons b bs =>
      obtain ⟨ha, has⟩ := pairwise_cons.mp has
      obtain ⟨hb, hbs⟩ := pairwise_cons.mp hbs
      have hle : ∀ p ∈ pairs, a ≤ p.1 ∧ b ≤ p.2 := by
        intro p hp
        constructor
        · rcases mem_cons.mp (hfst.mem_iff.mp (mem_map_of_mem hp)) with heq | hmem
          · exact heq.ge
          · exact ha _ hmem
        · rcases mem_cons.mp (hsnd.mem_iff.mp (mem_map_of_mem hp)) with heq | hmem
          · exact heq.ge
          · exact hb _ hmem
      obtain ⟨rest, hrest, hrest', hcost⟩ := exists_pair_first hf
        (hfst.mem_iff.mpr mem_cons_self) (hsnd.mem_iff.mpr mem_cons_self) hle
      have htail := ih has hbs (hrest.symm.trans hfst).cons_inv (hrest'.symm.trans hsnd).cons_inv
      rw [zip_cons_cons, total_cons]
      dsimp only
      omega

end Cost

end Pairing
