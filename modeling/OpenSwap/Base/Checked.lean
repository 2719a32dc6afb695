import Mathlib

/-!
# Checked computations

A small calculus for code that is a sequence of checks: `Except` with a guard
(`ensure`), a lookup (`okOr`) and two loops (`checkAll`, `collectM`).  Every
combinator has one lemma that says when it succeeds, so that the success of a
whole function unfolds to the conjunction of its checks.
-/

namespace Checked

open List

variable {ε α β : Type}

/-- Fail with `e` unless `p` holds. -/
def ensure (p : Prop) [Decidable p] (e : ε) : Except ε Unit := if p then .ok () else .error e

/-- Fail with `e` on a missing value. -/
def okOr (o : Option α) (e : ε) : Except ε α :=
  match o with
  | some a => .ok a
  | none => .error e

/-- Run a check on every element, in order, up to the first failure. -/
def checkAll (f : α → Except ε Unit) : List α → Except ε Unit
  | [] => .ok ()
  | a :: rest => do
    f a
    checkAll f rest

/-- Compute a value for every element, in order, up to the first failure. -/
def collectM (f : α → Except ε β) : List α → Except ε (List β)
  | [] => .ok []
  | a :: rest => do
    let b ← f a
    let bs ← collectM f rest
    .ok (b :: bs)

variable {x : Except ε α} {f : α → Except ε β} {e : ε} {xs : List α} {ys : List β}
  {R : α → β → Prop} {y : β} {p : Prop} {u : Unit} {o : Option α} {a : α} {e' : ε}

theorem bind_ok_iff {b} :
    (x >>= f) = .ok b ↔ ∃ a, x = .ok a ∧ f a = .ok b := by
  rcases x with e | a
  · exact ⟨nofun, nofun⟩
  · exact ⟨fun h => ⟨a, rfl, h⟩, fun ⟨_, ha, h⟩ => by cases ha; exact h⟩

/-- What goes on with `a` or not at all goes on with `a`. -/
theorem eq_of_none_or_some {b} (h : o = none ∨ o = some a) (hb : o = some b) : b = a := by
  rcases h with rfl | rfl
  · cases hb
  · exact (Option.some.inj hb).symm

theorem exists_ok_of_any {q : α → Prop} [DecidablePred q] (h : x.toOption.any (q ·)) :
    ∃ a, x = .ok a ∧ q a := by
  rcases x with e | a
  · cases h
  · exact ⟨a, rfl, of_decide_eq_true h⟩

@[simp] theorem ensure_eq_ok [Decidable p] :
    ensure p e = .ok u ↔ p := by
  unfold ensure
  split <;> simp_all

@[simp] theorem okOr_eq_ok : okOr o e = .ok a ↔ o = some a := by
  cases o <;> simp [okOr]

@[simp] theorem mapError_ok_iff {ε' : Type} {rename : ε → ε'} :
    x.mapError rename = .ok a ↔ x = .ok a := by
  rcases x with e | b
  · exact ⟨nofun, nofun⟩
  · simp [Except.mapError]

@[simp] theorem checkAll_eq_ok {f : α → Except ε Unit} :
    checkAll f xs = .ok u ↔ ∀ x ∈ xs, f x = .ok () := by
  induction xs with
  | nil => simp [checkAll]
  | cons a rest ih =>
    simp only [checkAll, bind_ok_iff, ih, forall_mem_cons]
    exact ⟨fun ⟨_, ha, hr⟩ => ⟨ha, hr⟩, fun ⟨ha, hr⟩ => ⟨(), ha, hr⟩⟩

theorem collectM_eq_ok :
    collectM f xs = .ok ys ↔ List.Forall₂ (fun x y => f x = .ok y) xs ys := by
  induction xs generalizing ys with
  | nil =>
    simp [collectM, eq_comm]
  | cons a rest ih =>
    simp only [collectM, bind_ok_iff, ih, forall₂_cons_left_iff]
    constructor
    · rintro ⟨b, hb, bs, hbs, h⟩
      cases h
      exact ⟨b, bs, hb, hbs, rfl⟩
    · rintro ⟨b, bs, hb, hbs, rfl⟩
      exact ⟨b, hb, bs, hbs, rfl⟩

theorem bind_error_iff :
    (x >>= f) = .error e ↔ x = .error e ∨ ∃ a, x = .ok a ∧ f a = .error e := by
  rcases x with e' | a
  · constructor
    · intro h
      cases h
      exact .inl rfl
    · rintro (h | ⟨a, h, -⟩)
      · cases h
        rfl
      · cases h
  · constructor
    · exact fun h => .inr ⟨a, rfl, h⟩
    · rintro (h | ⟨a, ha, h⟩)
      · cases h
      · cases ha
        exact h

theorem ensure_eq_error [Decidable p] :
    ensure p e = .error e' ↔ ¬ p ∧ e = e' := by
  unfold ensure
  split <;> simp_all

theorem okOr_eq_error :
    okOr o e = .error e' ↔ o = none ∧ e = e' := by
  cases o <;> simp [okOr]

theorem collectM_error (h : collectM f xs = .error e) : ∃ x ∈ xs, f x = .error e := by
  induction xs with
  | nil => cases h
  | cons a rest ih =>
    rw [collectM, bind_error_iff] at h
    rcases h with h | ⟨b, -, h⟩
    · exact ⟨a, mem_cons_self, h⟩
    · rcases bind_error_iff.mp h with h | ⟨_, -, h⟩
      · obtain ⟨x, hx, h⟩ := ih h
        exact ⟨x, mem_cons_of_mem _ hx, h⟩
      · cases h

theorem exists_of_forall₂ (h : List.Forall₂ R xs ys) (hy : y ∈ ys) : ∃ x ∈ xs, R x y := by
  induction h with
  | nil => cases hy
  | cons hxy _ ih =>
    rcases mem_cons.mp hy with rfl | hy
    · exact ⟨_, mem_cons_self .., hxy⟩
    · obtain ⟨x, hx, hR⟩ := ih hy
      exact ⟨x, mem_cons_of_mem _ hx, hR⟩

theorem map_eq_of_forall₂ {γ δ : Type} {S : α → γ → Prop} {f : β → δ} {g : γ → δ} {zs}
    (hR : List.Forall₂ R xs ys) (hS : List.Forall₂ S xs zs)
    (hfg : ∀ x y z, R x y → S x z → f y = g z) :
    ys.map f = zs.map g := by
  induction hR generalizing zs with
  | nil =>
    cases hS
    rfl
  | cons hxy _ ih =>
    obtain ⟨z, zs, hxz, hrest, rfl⟩ := forall₂_cons_left_iff.mp hS
    rw [map_cons, map_cons, hfg _ _ _ hxy hxz, ih hrest]

theorem exists_forall₂ (h : ∀ x ∈ xs, ∃ y, R x y) :
    ∃ ys, List.Forall₂ R xs ys := by
  induction xs with
  | nil => exact ⟨[], .nil⟩
  | cons x rest ih =>
    obtain ⟨y, hxy⟩ := h x mem_cons_self
    obtain ⟨ys, hys⟩ := ih fun x hx => h x (mem_cons_of_mem _ hx)
    exact ⟨y :: ys, .cons hxy hys⟩

theorem forall₂_range (xs : List α) :
    List.Forall₂ (fun i x => xs[i]? = some x) (List.range xs.length) xs := by
  rw [forall₂_iff_get]
  refine ⟨length_range, fun i _ hi => ?_⟩
  simp [getElem?_eq_getElem hi]

theorem collectM_mem (h : collectM f xs = .ok ys) (hy : y ∈ ys) : ∃ x ∈ xs, f x = .ok y :=
  exists_of_forall₂ (R := fun x y => f x = .ok y) (collectM_eq_ok.mp h) hy

theorem collectM_getElem? {i : Nat} (h : collectM f xs = .ok ys) (hy : ys[i]? = some y) :
    ∃ x, xs[i]? = some x ∧ f x = .ok y := by
  induction collectM_eq_ok.mp h generalizing i with
  | nil => cases hy
  | cons hxy _ ih =>
    cases i with
    | zero =>
      cases hy
      exact ⟨_, rfl, hxy⟩
    | succ i => exact ih (collectM_eq_ok.mpr ‹_›) hy

end Checked
