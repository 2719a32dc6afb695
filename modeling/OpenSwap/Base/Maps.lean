import Mathlib

/-!
# Finite maps

Operations on `AList` with values of one type: what they do to `lookup`.
-/

namespace AList

open List

variable {κ ν : Type} [DecidableEq κ]

/-- Change every value, each with its key in hand. -/
def mapValues (f : κ → ν → ν) (m : AList fun _ : κ => ν) : AList fun _ : κ => ν where
  entries := m.entries.map (.map id f)
  nodupKeys := m.nodupKeys.map₂ f

/-- Change the value under a key, if there is one. -/
def modifyAt (k : κ) (f : ν → ν) (m : AList fun _ : κ => ν) : AList fun _ : κ => ν :=
  m.mapValues fun k' v => if k' = k then f v else v

/-- Keep the entries that meet a condition. -/
def filterEntries (p : κ → ν → Bool) (m : AList fun _ : κ => ν) : AList fun _ : κ => ν where
  entries := m.entries.filter fun e => p e.1 e.2
  nodupKeys := m.nodupKeys.sublist filter_sublist

variable {m : AList fun _ : κ => ν} {k k' : κ} {v : ν} {f : κ → ν → ν} {keys : List κ}
  {bindings : List (κ × ν)}

theorem lookup_eq_some :
    m.lookup k = some v ↔ ⟨k, v⟩ ∈ m.entries := mem_lookup_iff

theorem lookup_mapValues_eq_some :
    (m.mapValues f).lookup k = some v ↔ ∃ v', m.lookup k = some v' ∧ v = f k v' := by
  rw [lookup_eq_some, mapValues, mem_map]
  constructor
  · rintro ⟨⟨k', v'⟩, hmem, heq⟩
    cases heq
    exact ⟨v', lookup_eq_some.mpr hmem, rfl⟩
  · rintro ⟨v', hv', rfl⟩
    exact ⟨⟨k, v'⟩, lookup_eq_some.mp hv', rfl⟩

theorem mapValues_eq_self (h : ∀ k v, m.lookup k = some v → f k v = v) :
    m.mapValues f = m := by
  refine AList.ext ?_
  conv_rhs => rw [← map_id m.entries]
  refine map_congr_left fun e he => ?_
  obtain ⟨k, v⟩ := e
  rw [Sigma.map, h k v (lookup_eq_some.mpr he)]
  rfl

theorem lookup_modifyAt_eq_some {f : ν → ν} :
    (m.modifyAt k f).lookup k' = some v ↔
      ∃ v', m.lookup k' = some v' ∧ v = if k' = k then f v' else v' :=
  lookup_mapValues_eq_some

theorem lookup_modifyAt {f : ν → ν} : (m.modifyAt k f).lookup k' =
    if k' = k then (m.lookup k').map f else m.lookup k' := by
  refine Option.ext fun v => ?_
  rw [lookup_modifyAt_eq_some]
  by_cases hk : k' = k
  · simp only [if_pos hk, Option.map_eq_some_iff, @eq_comm _ v]
  · simp only [if_neg hk, exists_eq_right']

theorem lookup_filterEntries_eq_some {p : κ → ν → Bool} :
    (m.filterEntries p).lookup k = some v ↔ m.lookup k = some v ∧ p k v = true := by
  rw [lookup_eq_some, filterEntries, mem_filter, ← lookup_eq_some]

theorem lookup_insert_cases {v'} (h : (m.insert k v).lookup k' = some v') :
    (k' = k ∧ v' = v) ∨ (k' ≠ k ∧ m.lookup k' = some v') := by
  by_cases hk : k' = k
  · subst hk
    rw [lookup_insert, Option.some.injEq] at h
    exact .inl ⟨rfl, h.symm⟩
  · rw [lookup_insert_ne hk] at h
    exact .inr ⟨hk, h⟩

theorem forall_lookup_insert {Q : κ → ν → Prop} (hv : Q k v)
    (h : ∀ k' v', m.lookup k' = some v' → Q k' v') (k' : κ) (v' : ν)
    (hlookup : (m.insert k v).lookup k' = some v') : Q k' v' := by
  rcases lookup_insert_cases hlookup with ⟨rfl, rfl⟩ | ⟨-, hold⟩
  · exact hv
  · exact h k' v' hold

omit [DecidableEq κ] in
@[simp] theorem keys_mapValues (f : κ → ν → ν) (m : AList fun _ : κ => ν) :
    (m.mapValues f).keys = m.keys := by
  simp [AList.keys, List.keys, mapValues, Sigma.map]

@[simp] theorem keys_modifyAt (k : κ) (f : ν → ν) (m : AList fun _ : κ => ν) :
    (m.modifyAt k f).keys = m.keys := keys_mapValues ..

theorem length_keys_insert_of_mem (h : k ∈ m) (v : ν) :
    (m.insert k v).keys.length = m.keys.length := by
  rw [keys_insert, length_cons, length_erase_of_mem (mem_keys.mp h)]
  have := length_pos_of_mem (mem_keys.mp h)
  omega

theorem length_keys_insert_le (m : AList fun _ : κ => ν) (k : κ) (v : ν) :
    (m.insert k v).keys.length ≤ m.keys.length + 1 := by
  rw [keys_insert, length_cons]
  exact Nat.succ_le_succ (length_erase_le ..)

theorem length_keys_erase_le (m : AList fun _ : κ => ν) (k : κ) :
    (m.erase k).keys.length ≤ m.keys.length := by
  rw [keys_erase]
  exact length_erase_le ..

theorem lookup_of_lookup_erase (h : (m.erase k).lookup k' = some v) : m.lookup k' = some v := by
  by_cases hk : k' = k
  · subst hk
    rw [lookup_erase] at h
    cases h
  · rwa [lookup_erase_ne hk] at h

theorem erase_of_lookup_eq_none (h : m.lookup k = none) : m.erase k = m :=
  AList.ext (kerase_of_notMem_keys (lookup_eq_none.mp h))

theorem entries_perm_cons_erase (h : m.lookup k = some v) :
    m.entries.Perm (⟨k, v⟩ :: (m.erase k).entries) := by
  have hfresh : k ∉ m.erase k := lookup_eq_none.mp (lookup_erase ..)
  rw [← entries_insert_of_notMem hfresh]
  refine lookup_ext m.nodupKeys (AList.nodupKeys _) fun k' v' => ?_
  show m.lookup k' = some v' ↔ ((m.erase k).insert k v).lookup k' = some v'
  by_cases hk : k' = k
  · rw [hk, h, lookup_insert]
  · rw [lookup_insert_ne hk, lookup_erase_ne hk]

theorem lookup_of_lookup_foldl_erase (h : (keys.foldl (fun m k => m.erase k) m).lookup k = some v) :
    m.lookup k = some v := by
  induction keys generalizing m with
  | nil => exact h
  | cons key rest ih => exact lookup_of_lookup_erase (ih h)

theorem lookup_foldl_erase_of_notMem (h : k ∉ keys) :
    (keys.foldl (fun m k => m.erase k) m).lookup k = m.lookup k := by
  induction keys generalizing m with
  | nil => rfl
  | cons key rest ih =>
    rw [mem_cons, not_or] at h
    rw [foldl_cons, ih h.2, lookup_erase_ne h.1]

theorem lookup_foldl_insert (hm : m.lookup k = some v) (hb : ∀ b ∈ bindings, b.1 = k → b.2 = v) :
    (bindings.foldl (fun m b => m.insert b.1 b.2) m).lookup k = some v := by
  induction bindings generalizing m with
  | nil => exact hm
  | cons b rest ih =>
    refine ih ?_ fun b' hb' => hb b' (mem_cons_of_mem _ hb')
    by_cases hk : k = b.1
    · subst hk
      rw [lookup_insert, hb b mem_cons_self rfl]
    · rwa [lookup_insert_ne hk]

theorem lookup_foldl_insert_cases
    (h : (bindings.foldl (fun m b => m.insert b.1 b.2) m).lookup k = some v) :
    (k, v) ∈ bindings ∨ m.lookup k = some v := by
  induction bindings generalizing m with
  | nil => exact .inr h
  | cons b rest ih =>
    rcases ih h with hmem | h
    · exact .inl (mem_cons_of_mem _ hmem)
    · rcases lookup_insert_cases h with ⟨rfl, rfl⟩ | ⟨-, h⟩
      · exact .inl mem_cons_self
      · exact .inr h

theorem entries_foldl_insert_perm (hnodup : (bindings.map Prod.fst).Nodup)
    (hfresh : ∀ b ∈ bindings, m.lookup b.1 = none) :
    (bindings.foldl (fun m b => m.insert b.1 b.2) m).entries.Perm
      (bindings.map (fun b => ⟨b.1, b.2⟩) ++ m.entries) := by
  induction bindings generalizing m with
  | nil => exact .refl _
  | cons b rest ih =>
    rw [map_cons, nodup_cons] at hnodup
    refine (ih hnodup.2 fun b' hb' => ?_).trans ?_
    · have hne : b'.1 ≠ b.1 := fun h => hnodup.1 (h ▸ mem_map_of_mem hb')
      rw [lookup_insert_ne hne]
      exact hfresh b' (mem_cons_of_mem _ hb')
    · rw [entries_insert_of_notMem (lookup_eq_none.mp (hfresh b mem_cons_self))]
      exact perm_middle

end AList
