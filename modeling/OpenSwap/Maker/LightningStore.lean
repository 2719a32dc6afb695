import OpenSwap.Maker.LightningSteps

/-!
# Taking Lightning swaps on

A request looks for its id and for room, talks to the Lightning node, and stores its swap;
nothing holds the look and the store together.  The store is an overwrite, and so is every
store of a copy a handler or the watchdog made earlier.
-/

namespace OpenSwap

open Btc Checked Option AList

section

variable {P : Prims} {maker : LnMaker P} {answers : LnAnswers P} {sh sh' : LnShared P}
  {t : LnTask P} {next : Option (LnTask P)}

/-! ## Requests under way -/

namespace LnTask

/-- The swap a request is about once it has found no swap of its id. -/
def admission : LnTask P → Option String
  | .checkCount req | .acceptTerms req => some req.swapId
  | .store id _ .accepted | .insert id _ .accepted => some id
  | _ => none

def counted : LnTask P → Bool
  | .acceptTerms _ | .store _ _ .accepted | .insert _ _ .accepted => true
  | _ => false

variable {id : String}

theorem admission_of_waits (h : t.waits) : t.admission = none := by
  unfold waits at h
  split at h <;> first | rfl | cases h

theorem counted_le_admission (t : LnTask P) (h : t.counted) : t.admission.isSome = true := by
  unfold counted at h
  split at h <;> first | rfl | cases h

theorem resume_admission {swap : LnMakerSwap P} {after : AfterStore}
    (h : (after.resume sh id swap).task = some t) : t.admission = none := by
  cases resumed h <;> rfl

theorem Stepped.admission_cases (h : Stepped maker sh answers t sh' next) {t' : LnTask P}
    (ht' : next = some t') (hid : t'.admission = some id) :
    t.admission = some id ∨ (∃ req, t = .checkExists req) ∧ id ∉ sh.lnSwaps := by
  cases h with
  | quiet mailboxes hq =>
    cases ht'
    cases hq with
    | stay h => exact .inl hid
    | checkCount hfree =>
      cases hid
      exact .inr ⟨⟨_, rfl⟩, hfree⟩
    | acceptTerms | accept => exact .inl hid
    | payout hp => rcases hp with ⟨_, -, rfl⟩ | ⟨-, rfl⟩ <;> cases hid
    | _ => cases hid
  | @store _ _ after _ hn =>
    obtain rfl := eq_of_none_or_some hn ht'
    cases after <;> exact .inl hid
  | insert => rw [resume_admission ht'] at hid; cases hid
  | paid hn | fundingSent hn => rcases hn with rfl | rfl <;> cases ht'; cases hid
  | _ => cases ht' <;> cases hid

end LnTask

/-! ## The condition -/

def LnShared.holdsKey (sh : LnShared P) (id : String) (key : P.SecretKey) : Bool :=
  (sh.lnSwaps.lookup id).any (·.privkey = key)

/-- A request looks for its id while no other is between its look and its store, and a handler or
the watchdog finds the swap it copied when it writes. -/
def LnServer.admitsAlone (w : LnServer P) : LnTask P → Bool
  | .checkExists _ => w.tasks.all (·.admission.isNone)
  | .store id swap after | .insert id swap after =>
    after = .accepted || w.shared.holdsKey id swap.privkey
  | .moveToPaid id swap _ => w.shared.holdsKey id swap.privkey
  | _ => true

/-- The condition on an action: the task it lets step admits alone. -/
def LnServer.stepsAlone (w : LnServer P) (a : LnAction P) : Prop :=
  (w.stepping a).all (w.admitsAlone ·.1) = true

instance (w : LnServer P) (a : LnAction P) : Decidable (w.stepsAlone a) :=
  inferInstanceAs (Decidable (_ = true))

variable {w w' : LnServer P} {a : LnAction P} {id : String}

theorem LnShared.mem_of_holdsKey {key} (h : sh.holdsKey id key) :
    ∃ swap, sh.lnSwaps.lookup id = some swap ∧ swap.privkey = key := by
  obtain ⟨swap, hswap, hkey⟩ := (any_eq_true _ _).mp h
  exact ⟨swap, hswap, of_decide_eq_true hkey⟩

/-! ## The invariant -/

structure Admitted (w : LnServer P) : Prop where
  free : ∀ t ∈ w.tasks, ∀ id, t.admission = some id → id ∉ w.shared.lnSwaps
  single : w.tasks.countP (·.admission.isSome) ≤ 1
  room : w.shared.lnSwaps.keys.length + w.tasks.countP (·.counted) ≤ maxConcurrentLnSwaps
  agree : ∀ id swap r, w.shared.lnSwaps.lookup id = some swap →
    w.shared.lnMakerSwaps.lookup id = some r → r.privkey = swap.privkey
  stored : ∀ id swap, .insert id swap .accepted ∈ w.tasks →
    ∀ r, w.shared.lnMakerSwaps.lookup id = some r → r.privkey = swap.privkey

section Steps

variable {w w' : LnServer P} {before after : List (LnTask P)} {id : String} {swap : LnMakerSwap P}
  {t' : LnTask P}

theorem mem_lnSwaps_iff :
    id ∈ sh.lnSwaps ↔ ∃ swap, sh.lnSwaps.lookup id = some swap := by
  rw [← lookup_isSome, isSome_iff_exists]

theorem LnTask.Stepped.mem_cases (h : LnTask.Stepped maker w.shared answers t sh' next)
    (halone : w.admitsAlone t) (hid : id ∈ sh'.lnSwaps) :
    id ∈ w.shared.lnSwaps ∨ ∃ swap, t = .insert id swap .accepted := by
  obtain ⟨swap, hswap⟩ := mem_lnSwaps_iff.mp hid
  rcases h.lookup_cases hswap with hold | ⟨after, rfl⟩ | ⟨_, _, -, hold, -⟩ | ⟨_, _, hold, -, -⟩
  · exact .inl (mem_lnSwaps_iff.mpr ⟨_, hold⟩)
  · rcases Bool.or_eq_true_iff.mp halone with hafter | hkey
    · rw [of_decide_eq_true hafter]
      exact .inr ⟨swap, rfl⟩
    · obtain ⟨s, hs, -⟩ := LnShared.mem_of_holdsKey hkey
      exact .inl (mem_lnSwaps_iff.mpr ⟨s, hs⟩)
  · exact .inl (mem_lnSwaps_iff.mpr ⟨_, hold⟩)
  · exact .inl (mem_lnSwaps_iff.mpr ⟨_, hold⟩)

theorem LnServer.writes_own (halone : w.admitsAlone t)
    (h : (∃ after, t = .store id swap after) ∨ (∃ after, t = .insert id swap after) ∨
      ∃ remaining, t = .moveToPaid id swap remaining) :
    t.admission = some id ∨
      ∃ s, w.shared.lnSwaps.lookup id = some s ∧ s.privkey = swap.privkey := by
  rcases h with ⟨after, rfl⟩ | ⟨after, rfl⟩ | ⟨remaining, rfl⟩
  · rcases Bool.or_eq_true_iff.mp halone with hafter | hkey
    · rw [of_decide_eq_true hafter]
      exact .inl rfl
    · exact .inr (LnShared.mem_of_holdsKey hkey)
  · rcases Bool.or_eq_true_iff.mp halone with hafter | hkey
    · rw [of_decide_eq_true hafter]
      exact .inl rfl
    · exact .inr (LnShared.mem_of_holdsKey hkey)
  · exact .inr (LnShared.mem_of_holdsKey halone)

theorem Admitted.not_both (hw : Admitted w) (htasks : w.tasks = before ++ t :: after) {t₁}
    (ht₁ : t₁ ∈ before ∨ t₁ ∈ after) (h₁ : t₁.admission.isSome) :
    t.admission = none := by
  simpa using not_of_countP_le_one hw.single htasks ht₁ h₁

theorem LnTask.Stepped.length_keys (h : LnTask.Stepped maker w.shared answers t sh' next)
    (halone : w.admitsAlone t) :
    sh'.lnSwaps.keys.length ≤ w.shared.lnSwaps.keys.length ∨
      (∃ id swap, t = .insert id swap .accepted) ∧
        sh'.lnSwaps.keys.length ≤ w.shared.lnSwaps.keys.length + 1 := by
  cases h with
  | @insert id swap after =>
    rcases Bool.or_eq_true_iff.mp halone with hafter | hkey
    · rw [of_decide_eq_true hafter]
      exact .inr ⟨⟨_, _, rfl⟩, length_keys_insert_le ..⟩
    · obtain ⟨s, hs, -⟩ := LnShared.mem_of_holdsKey hkey
      exact .inl (length_keys_insert_of_mem (mem_lnSwaps_iff.mpr ⟨s, hs⟩) _).le
  | remove => exact .inl (length_keys_erase_le ..)
  | moved hbefore hphase =>
    exact .inl (length_keys_insert_of_mem (mem_lnSwaps_iff.mpr ⟨_, hbefore⟩) _).le
  | forgotten phase =>
    unfold LnShared.removeLnSwapIfPhase
    split
    · exact .inl (length_keys_erase_le ..)
    · exact .inl le_rfl
  | filled hphase => exact .inl (by rw [keys_modifyAt])
  | expired h => split <;> exact .inl le_rfl
  | _ => exact .inl le_rfl

theorem LnTask.Stepped.counted_cases (h : LnTask.Stepped maker sh answers t sh' next)
    (ht' : next = some t') (hc : t'.counted) :
    t.counted ∨
      t.admission.isSome ∧ sh'.lnSwaps = sh.lnSwaps ∧
        sh.lnSwaps.keys.length < maxConcurrentLnSwaps := by
  cases h with
  | quiet mailboxes hq =>
    cases ht'
    cases hq with
    | stay h =>
      have := counted_le_admission _ hc
      rw [admission_of_waits h] at this
      cases this
    | acceptTerms hroom => exact .inr ⟨rfl, rfl, hroom⟩
    | accept => exact .inl rfl
    | payout hp => rcases hp with ⟨_, -, rfl⟩ | ⟨-, rfl⟩ <;> cases hc
    | _ => cases hc
  | @store _ _ after _ hn =>
    obtain rfl := eq_of_none_or_some hn ht'
    cases after <;> first | exact .inl rfl | cases hc
  | insert =>
    have := counted_le_admission _ hc
    rw [resume_admission ht'] at this
    cases this
  | paid hn | fundingSent hn => rcases hn with rfl | rfl <;> cases ht'; cases hc
  | _ => cases ht' <;> cases hc

theorem LnTask.Stepped.lookup_of_next_insert (h : LnTask.Stepped maker sh answers t sh' next)
    (hnext : next = some (.insert id swap .accepted)) :
    sh'.lnMakerSwaps.lookup id = some swap.toRecord := by
  cases h with
  | quiet mailboxes hq =>
    cases hnext
    cases hq with
    | stay h => cases h
  | store hn =>
    cases eq_of_none_or_some hn hnext
    exact lookup_insert _
  | insert =>
    have := resume_admission hnext
    cases this
  | paid hn | fundingSent hn => rcases hn with rfl | rfl <;> cases hnext
  | _ => cases hnext

theorem LnTask.Stepped.admission_of_insert {after' : AfterStore}
    (h : LnTask.Stepped maker sh answers (.insert id swap after') sh' next)
    (hnext : next = some t') :
    t'.admission = none := by
  cases h with
  | ended => cases hnext
  | quiet mailboxes hq =>
    cases hq with
    | stay h => cases h
    | sweep h => rcases h with h | h | h <;> cases h
    | payout h => rcases h with ⟨_, h, -⟩ | ⟨h, -⟩ <;> cases h
  | insert => exact LnTask.resume_admission hnext
  | forgotten | sweepSent => cases hnext
  | settled => cases hnext; rfl

end Steps

section Admission

variable {w w' : LnServer P} {before after : List (LnTask P)} (hw : Admitted w)
  (h : LnTask.Stepped maker w.shared answers t w'.shared next) (halone : w.admitsAlone t = true)
  (htasks : w.tasks = before ++ t :: after) (htasks' : w'.tasks = before ++ (next.toList ++ after))
  {id : String} {r : LnMakerSwapRecord P} {s swap : LnMakerSwap P}

include hw h halone htasks htasks' in
theorem Admitted.free_stepped {t₁} (ht₁ : t₁ ∈ w'.tasks) (hid : t₁.admission = some id) :
    id ∉ w'.shared.lnSwaps := by
  have hown := mem_tasks_self htasks
  intro hmem
  rcases h.mem_cases halone hmem with hold | ⟨swap, rfl⟩
  · rcases tasks_cases htasks' ht₁ with hother | hnext
    · exact hw.free t₁ (mem_tasks_of_others htasks hother) id hid hold
    · rcases h.admission_cases hnext hid with hadm | ⟨-, hfree⟩
      · exact hw.free t hown id hadm hold
      · exact hfree hold
  · rcases tasks_cases htasks' ht₁ with hother | hnext
    · have := hw.not_both htasks hother (by rw [hid]; rfl)
      cases this
    · rw [h.admission_of_insert hnext] at hid
      cases hid

include hw h halone htasks htasks' in
theorem Admitted.single_stepped : w'.tasks.countP (·.admission.isSome) ≤ 1 := by
  refine countP_le_one_of_stepped hw.single htasks htasks' fun t' hnext hsome => ?_
  obtain ⟨id, hadm⟩ := isSome_iff_exists.mp hsome
  rcases h.admission_cases hnext hadm with hold | ⟨⟨req, rfl⟩, -⟩
  · exact .inl (by rw [hold]; rfl)
  · exact .inr fun t₁ ht₁ => by simpa using List.all_eq_true.mp halone t₁ ht₁

include h halone in
theorem length_keys_stepped :
    w'.shared.lnSwaps.keys.length ≤ w.shared.lnSwaps.keys.length ∨
      t.counted ∧ (∀ t', next = some t' → t'.counted = false) ∧
        w'.shared.lnSwaps.keys.length ≤ w.shared.lnSwaps.keys.length + 1 := by
  rcases h.length_keys halone with hkeys | ⟨⟨id, swap, rfl⟩, hkeys⟩
  · exact .inl hkeys
  · refine .inr ⟨rfl, fun t' ht' => ?_, hkeys⟩
    by_contra hcounted
    have := LnTask.counted_le_admission t' (by simpa using hcounted)
    rw [h.admission_of_insert ht'] at this
    cases this

include hw h halone htasks htasks' in
theorem Admitted.room_stepped :
    w'.shared.lnSwaps.keys.length + w'.tasks.countP (·.counted) ≤ maxConcurrentLnSwaps := by
  have hroom := hw.room
  have hone := hw.single
  have hkeys := length_keys_stepped h halone
  rw [htasks, List.countP_append, List.countP_cons] at hroom hone
  rw [htasks', List.countP_append, List.countP_append]
  -- the other tasks count only if this one is no admission
  have hle : ∀ l : List (LnTask P), l.countP (·.counted) ≤ l.countP (·.admission.isSome) :=
    fun l => List.countP_mono_left fun t _ => LnTask.counted_le_admission t
  have hbefore := hle before
  have hafter := hle after
  cases next with
  | none =>
    rw [toList_none, List.countP_nil]
    rcases hkeys with hkeys | ⟨hcounted, -, hkeys⟩
    · omega
    · rw [if_pos hcounted] at hroom
      omega
  | some t' =>
    rw [toList_some, List.countP_singleton]
    cases hcounted' : t'.counted with
    | false =>
      simp only [Bool.false_eq_true, if_false]
      rcases hkeys with hkeys | ⟨hcounted, -, hkeys⟩
      · omega
      · rw [if_pos hcounted] at hroom
        omega
    | true =>
      simp only [if_true]
      rcases h.counted_cases rfl hcounted' with hcounted | ⟨hadm, heq, hfew⟩
      · rw [if_pos hcounted] at hroom
        rcases hkeys with hkeys | ⟨-, hnone, -⟩
        · omega
        · rw [hnone t' rfl] at hcounted'
          cases hcounted'
      · rw [if_pos hadm] at hone
        rw [heq]
        omega

include hw halone in
/-- Whoever writes a swap that is live writes its key. -/
theorem Admitted.key_of_write (hown : t ∈ w.tasks) (hs : w.shared.lnSwaps.lookup id = some s)
    (hwrite : (∃ after, t = .store id swap after) ∨ (∃ after, t = .insert id swap after) ∨
      ∃ remaining, t = .moveToPaid id swap remaining) : swap.privkey = s.privkey := by
  rcases LnServer.writes_own halone hwrite with hadm | ⟨s₀, hs₀, hkey⟩
  · exact absurd (mem_lnSwaps_iff.mpr ⟨s, hs⟩) (hw.free t hown id hadm)
  · rw [hs, Option.some.injEq] at hs₀
    rw [← hkey, hs₀]

include hw h halone htasks in
theorem Admitted.record_of_live (hs : w.shared.lnSwaps.lookup id = some s)
    (hr : w'.shared.lnMakerSwaps.lookup id = some r) :
    r.privkey = s.privkey := by
  have hown := mem_tasks_self htasks
  rcases h.record_cases hr with ⟨r₀, hr₀, hkey⟩ | ⟨swap, after', rfl, hkey⟩ |
    ⟨swap, remaining, rfl, hkey⟩
  · rw [hkey, hw.agree id s r₀ hs hr₀]
  · rw [hkey, hw.key_of_write halone hown hs (.inl ⟨_, rfl⟩)]
  · rw [hkey, hw.key_of_write halone hown hs (.inr (.inr ⟨_, rfl⟩))]

include hw h halone htasks in
theorem Admitted.agree_stepped (hswap : w'.shared.lnSwaps.lookup id = some swap)
    (hr : w'.shared.lnMakerSwaps.lookup id = some r) : r.privkey = swap.privkey := by
  have hown := mem_tasks_self htasks
  rcases h.lookup_cases hswap with hold | ⟨after', rfl⟩ | ⟨remaining, s, rfl, hold, -⟩ |
    ⟨s, _, hold, -, rfl⟩
  · exact hw.record_of_live h halone htasks hold hr
  · rcases LnServer.writes_own halone (.inr (.inl ⟨_, rfl⟩)) with hadm | ⟨s₀, hs₀, hkey⟩
    · -- the request's own record, stored a step before
      have hafter : after' = .accepted := by cases after' <;> first | rfl | cases hadm
      subst hafter
      rcases h.record_cases hr with ⟨r₀, hr₀, hkey⟩ | ⟨_, _, heq, -⟩ | ⟨_, _, heq, -⟩
      · rw [hkey, hw.stored id swap hown r₀ hr₀]
      · cases heq
      · cases heq
    · rw [hw.record_of_live h halone htasks hs₀ hr, hkey]
  · rcases LnServer.writes_own halone (.inr (.inr ⟨_, rfl⟩)) with hadm | ⟨s₀, hs₀, hkey⟩
    · cases hadm
    · rw [hw.record_of_live h halone htasks hs₀ hr, hkey]
  · show r.privkey = s.privkey
    exact hw.record_of_live h halone htasks hold hr

include hw h halone htasks htasks' in
theorem Admitted.stored_stepped (hmem : .insert id swap .accepted ∈ w'.tasks)
    (hr : w'.shared.lnMakerSwaps.lookup id = some r) : r.privkey = swap.privkey := by
  rcases tasks_cases htasks' hmem with hother | hnext
  · have hmem₀ := mem_tasks_of_others htasks hother
    have hfree := hw.free _ hmem₀ id rfl
    have hnot : ∀ s, ¬((∃ after, t = .store id s after) ∨ (∃ after, t = .insert id s after) ∨
        ∃ remaining, t = .moveToPaid id s remaining) := by
      intro s hwrite
      rcases LnServer.writes_own halone hwrite with hadm | ⟨s₀, hs₀, -⟩
      · rw [hw.not_both htasks hother rfl] at hadm
        cases hadm
      · exact hfree (mem_lnSwaps_iff.mpr ⟨s₀, hs₀⟩)
    rcases h.record_cases hr with ⟨r₀, hr₀, hkey⟩ | ⟨s, after', heq, -⟩ | ⟨s, remaining, heq, -⟩
    · rw [hkey, hw.stored id swap hmem₀ r₀ hr₀]
    · exact absurd (.inl ⟨_, heq⟩) (hnot s)
    · exact absurd (.inr (.inr ⟨_, heq⟩)) (hnot s)
  · rw [h.lookup_of_next_insert hnext, Option.some.injEq] at hr
    rw [← hr]
    rfl

include hw h halone htasks htasks' in
theorem Admitted.stepped : Admitted w' where
  free _ ht₁ _ hid := hw.free_stepped h halone htasks htasks' ht₁ hid
  single := hw.single_stepped h halone htasks htasks'
  room := hw.room_stepped h halone htasks htasks'
  agree _ _ _ hswap hr := hw.agree_stepped h halone htasks hswap hr
  stored _ _ hmem _ hr := hw.stored_stepped h halone htasks htasks' hmem hr

end Admission

theorem LnServer.Begins.admission (h : w.Begins t) : t.admission = none := by
  rcases h with ⟨msg, rfl⟩ | ⟨id, swap, -, htask⟩
  · cases msg <;> rfl
  · unfold watchdogTask at htask
    split at htask <;> cases htask <;> rfl

theorem Admitted.idles (hw : Admitted w) (h : w.Idles a w') : Admitted w' := by
  have hold : ∀ t ∈ w'.tasks, t.admission ≠ none → t ∈ w.tasks := fun t ht hadm =>
    (h.tasks t ht).resolve_right fun hbegins => hadm hbegins.admission
  constructor
  · intro t ht id hid
    rw [h.swaps]
    exact hw.free t (hold t ht (by rw [hid]; exact some_ne_none _)) id hid
  · rw [h.count _ fun t hbegins => by rw [hbegins.admission]; rfl]
    exact hw.single
  · rw [h.swaps, h.count _ fun t hbegins => ?_]
    · exact hw.room
    · by_contra hne
      have := t.counted_le_admission (by simpa using hne)
      rw [hbegins.admission] at this
      cases this
  · rw [h.swaps, h.records]
    exact hw.agree
  · intro id swap hmem
    rw [h.records]
    exact hw.stored id swap (hold _ hmem (some_ne_none _))

theorem Admitted.step (hw : Admitted w) (halone : w.stepsAlone a) (h : w.step maker a = some w') :
    Admitted w' := by
  rcases LnServer.step_cases h with hidles | ⟨t, _, _, _, _, hstepping, hstep, htasks, htasks', -⟩
  · exact hw.idles hidles
  · rw [LnServer.stepsAlone, hstepping, all_some] at halone
    exact hw.stepped hstep halone htasks htasks'

theorem Admitted.start (chain : Chain) : Admitted (LnServer.start chain : LnServer P) where
  free := by simp [LnServer.start, LnServer.tasks]
  single := by simp [LnServer.start, LnServer.tasks]
  room := by simp [LnServer.start, LnServer.tasks]
  agree := by simp [LnServer.start]
  stored := by simp [LnServer.start, LnServer.tasks]

/-- A step that admits alone never puts a swap of another key in a live swap's place. -/
theorem Admitted.key_kept (hw : Admitted w) (halone : w.stepsAlone a) (h : w.step maker a = some w')
    {s s'} (hs : w.shared.lnSwaps.lookup id = some s)
    (hs' : w'.shared.lnSwaps.lookup id = some s') :
    s'.privkey = s.privkey := by
  rcases LnServer.step_cases h with hidles | ⟨t, _, _, _, _, hstepping, hstep, htasks, -⟩
  · rw [hidles.swaps, hs, Option.some.injEq] at hs'
    rw [hs']
  · rw [LnServer.stepsAlone, hstepping, all_some] at halone
    have hown := mem_tasks_self htasks
    rcases hstep.lookup_cases hs' with hold | ⟨after', rfl⟩ | ⟨remaining, _, rfl, -, -⟩ |
      ⟨s₀, _, hold, -, rfl⟩
    · rw [hs, Option.some.injEq] at hold
      rw [hold]
    · exact hw.key_of_write halone hown hs (.inr (.inl ⟨_, rfl⟩))
    · exact hw.key_of_write halone hown hs (.inr (.inr ⟨_, rfl⟩))
    · rw [hs, Option.some.injEq] at hold
      rw [hold]

/-- **Requests admitted one at a time.**  In runs that meet `admitsAlone` a request that stores
finds its id free, no step puts another branch key in a live swap's place, the wallet's record has
its key, and there are never more than sixteen live swaps. -/
theorem live_swaps_admitted (maker : LnMaker P) (chain : Chain) {w : LnServer P}
    (hrun : Run.Reachable (LnServer.step · maker) LnServer.stepsAlone (.start chain) w) :
    w.shared.lnSwaps.keys.length ≤ maxConcurrentLnSwaps ∧
      (∀ t ∈ w.tasks, ∀ id swap, t = .store id swap .accepted ∨ t = .insert id swap .accepted →
        w.shared.lnSwaps.lookup id = none) ∧
      (∀ id s r, w.shared.lnSwaps.lookup id = some s →
        w.shared.lnMakerSwaps.lookup id = some r → r.privkey = s.privkey) ∧
      ∀ a w', w.stepsAlone a → w.step maker a = some w' → ∀ id s s',
        w.shared.lnSwaps.lookup id = some s → w'.shared.lnSwaps.lookup id = some s' →
          s'.privkey = s.privkey := by
  have hw : Admitted w := hrun.invariant (.start chain) fun _ _ _ hw halone h => hw.step halone h
  refine ⟨Nat.le_of_add_right_le hw.room, ?_, hw.agree, ?_⟩
  · intro t ht id swap hreq
    have hadm : t.admission = some id := by rcases hreq with rfl | rfl <;> rfl
    exact lookup_eq_none.mpr (hw.free t ht id hadm)
  · intro a w' halone h id s s' hs hs'
    exact hw.key_kept halone h hs hs'

end

/-! ## A run that overwrites -/

namespace SampleLn

def preimage : Bytes := List.replicate 32 0x42

def paymentHash : Bytes :=
  natBe 32 0x425ed4e4a36b30ea21b90e21c712c649e8214c29b7eaf68089d1039c6e55384c

def swapId : String := "425ed4e4a36b30ea21b90e21c712c649e8214c29b7eaf68089d1039c6e55384c"

def invoice : String :=
  "lnbcrt1m1pj48ugqpp5gf0dfe9rdvcw5gdepcsuwykxf85zznpfkl40dqyf6ypecmj48pxqsp5zyg3zyg3zyg3zyg3zyg3zyg3zyg3zyg3zyg3zyg3zyg3zyg3zygsdqvwdmkzupdd9hqcqzpgfqrsgqm5gmcev3zrlaren75vm93gstlw03xct6e467e9ktteucdj7hljnsdh9naqzz5tjjhc3yf97chfuwws3x62zhfh344yxyqwc0gtx24pgqwsygrn"

def ripemd160 : Bytes → Bytes :=
  digest 20 [(paymentHash, natBe 20 0x8739f40ec4dbf569dcb38134c6e7310908566981)]

def key (k : Fin 15) : Tables.empty.prims.PublicKey := ⟨true, TablePoint.mul k⟩

/-- The contract between two keys, with the lock of the sample swaps. -/
def htlc (hashlock timelock : Fin 15) : SwapHtlc :=
  .new ripemd160 (key hashlock) (key timelock) paymentHash 144

/-- The taker funds a swap-in accepted with the maker's first key. -/
def fundingTx : Transaction where
  version := 2
  lockTime := 0
  input := [⟨⟨List.replicate 32 0x0a, 0⟩, [], 0xfffffffd, []⟩]
  output := [⟨101000, encode [.push [], .push
    (natBe 32 0x7e90f5d946cce9e6039682438d657769903307a5d049bd8259cf3ae47fa46cfc)]⟩]

/-- The maker funds a swap-out accepted with its first key. -/
def outFundingTx : Transaction where
  version := 2
  lockTime := 0
  input := [⟨⟨List.replicate 32 0x0b, 0⟩, [], 0xfffffffd, []⟩]
  output := [⟨100000, encode [.push [], .push
    (natBe 32 0x4874e7144899a9d2f09b763541f12de1b9c5950679479ba4d3cf0b68b05789cc)]⟩]

def receiveScript : Bytes := encode [.push [], .push (List.replicate 20 0x77)]

/-- The maker's refund of that funding, unsigned. -/
def refundTx : Transaction where
  version := 2
  lockTime := 0
  input := [⟨⟨natBe 32 0xfab6c4e10c2571101e44d4af066213f514f2ce9ba897fce4fa5470cd174ba445, 0⟩,
    [], 144, []⟩]
  output := [⟨99700, receiveScript⟩]

def refundDigest : Bytes :=
  natBe 32 0x5a7e3d2da3e93701945153992879fcb35b5e1c54ff3693fd7a28b8e04e39981b

def refundSig : Bytes :=
  natBe 70 0x304402207d7c4c8d34345aa4a2f5cf4cef6d8cb72a69cf140cc9fafcd8d9f6a79e0603a6022058dad15b9bdd86fd7ef5e59e097d156a0aafd53ba81716a3680f241d10e7df0f

def tables : Tables where
  sha256 := [(preimage, paymentHash),
    ((htlc 0 4).redeemscript,
      natBe 32 0x7e90f5d946cce9e6039682438d657769903307a5d049bd8259cf3ae47fa46cfc),
    ((htlc 1 4).redeemscript,
      natBe 32 0xe104de3d5d6ba34fadfdc4c0af2c9e3699c7b88d7c65dfd1cd1c82c622f7c325),
    ((htlc 5 0).redeemscript,
      natBe 32 0x4874e7144899a9d2f09b763541f12de1b9c5950679479ba4d3cf0b68b05789cc)]
  hash160 := [(preimage, natBe 20 0x8739f40ec4dbf569dcb38134c6e7310908566981)]
  txid := [(fundingTx,
      natBe 32 0x0187ceacdaa9c4873094edf839e2277650e391a2bcbf1c8b91b8bf108c6833f2),
    (outFundingTx,
      natBe 32 0xfab6c4e10c2571101e44d4af066213f514f2ce9ba897fce4fa5470cd174ba445),
    (refundTx,
      natBe 32 0x95d0df47db7a5f03882cd46f6924972d30615a20db04bbc69db89d1e211be749)]
  aggregate := []
  taproot := []
  sighash := [((refundTx, 0, (htlc 5 0).redeemscript, 100000, sighashAll), refundDigest)]
  signatures := [((0, refundDigest), refundSig)]

def prims : Prims := tables.prims

def maker : LnMaker prims where
  requiredConfirms := 1
  checkFlowPins pins flow := if pins = [flow] then .ok () else .error "pins name another flow"
  ripemd160 := ripemd160
  parseInvoice s := if s = invoice then some ⟨paymentHash, some 100000000, 40⟩ else none

def request : LnSwapInRequest prims where
  swapId := swapId
  invoice := invoice
  paymentHash := paymentHash
  amount := 100000
  locktime := 144
  minConfirmations := 1
  takerTimelockPubkey := ⟨true, TablePoint.mul 4⟩
  features := ["ln-swap-in"]

/-- Everything succeeds. -/
def serving {P : Prims} (k : P.SecretKey) : LnAnswers P where
  node := true
  saved := true
  timeout := false
  offer := some ⟨true, true, fun _ => 1000, 10000, 1000000, 1000000⟩
  hasPaymentRecord := some false
  holdInvoice := some "lnbcrt1010u1"
  keypair := k
  screened := true
  registered := true
  lightning := true
  receiveScript := some receiveScript
  fundingTx := some outFundingTx
  heightRead := true
  broadcast := .sent
  transactionKnown := some true
  paymentOutcome := some .pending
  watch := some (.utxoSpent none)

def answers (k : Fin 15) : LnAnswers prims := serving k

def chain : Chain := ⟨List.replicate 101 [], []⟩

/-- Two connections request the same swap; both look before either stores. -/
def requestsTogether : List (LnAction prims) :=
  [.message (.request (.swapIn request)), .message (.request (.swapIn request)),
    .handler 0 (answers 0), .handler 1 (answers 1), .handler 0 (answers 0),
    .handler 1 (answers 1), .handler 0 (answers 0), .handler 1 (answers 1),
    .handler 0 (answers 0), .handler 0 (answers 0), .handler 0 (answers 1)]

/-- One connection requests the swap and another one asks again once it is stored. -/
def requestsInTurn : List (LnAction prims) :=
  .message (.request (.swapIn request)) :: List.replicate 5 (.handler 0 (answers 0)) ++
    [.message (.request (.swapIn request)), .handler 0 (answers 1)]

/-- A request is about to store its swap over one with another key. -/
def overwrites (w : LnServer prims) : Bool :=
  match w.handlers, w.shared.lnSwaps.lookup swapId with
  | .insert id swap .accepted :: _, some s => id = swapId ∧ swap.privkey ≠ s.privkey
  | _, _ => false

end SampleLn

open SampleLn in
theorem live_swaps_admitted_in_turn :
    ∃ w : LnServer prims,
      Run.Reachable (LnServer.step · maker) LnServer.stepsAlone (.start chain) w ∧
      w.shared.lnSwaps.keys = [swapId] ∧
      ∀ id s r, w.shared.lnSwaps.lookup id = some s →
        w.shared.lnMakerSwaps.lookup id = some r → r.privkey = s.privkey := by
  obtain ⟨w, hrun, hw⟩ : ∃ w, Run.Reachable (LnServer.step · maker) LnServer.stepsAlone
      (.start chain) w ∧ decide (w.shared.lnSwaps.keys = [swapId]) = true :=
    Run.exists_reachable_of_exec requestsInTurn (by decide +kernel)
  exact ⟨w, hrun, of_decide_eq_true hw, (live_swaps_admitted maker chain hrun).2.2.1⟩

open SampleLn in
/-- Two requests for one id that look before either stores: the second puts its key in
the place of the first. -/
theorem second_request_overwrites_key :
    ∃ (w w' : LnServer prims) (s swap : LnMakerSwap prims),
      Run.Reachable (LnServer.step · maker) (fun _ _ => True) (.start chain) w ∧
      w.stepping (.handler 0 (answers 1)) = some (.insert swapId swap .accepted, answers 1) ∧
      w.step maker (.handler 0 (answers 1)) = some w' ∧
      w.shared.lnSwaps.lookup swapId = some s ∧ w'.shared.lnSwaps.lookup swapId = some swap ∧
      swap.privkey ≠ s.privkey := by
  obtain ⟨w, hrun, hw⟩ : ∃ w, Run.Reachable (LnServer.step · maker) (fun _ _ => True)
      (.start chain) w ∧ overwrites w = true :=
    Run.exists_reachable_of_exec requestsTogether (by decide +kernel)
  unfold overwrites at hw
  split at hw
  · rename_i id swap rest s hhandlers hs
    obtain ⟨rfl, hkey⟩ := of_decide_eq_true hw
    have hfirst : w.handlers[0]? = some (.insert swapId swap .accepted) := by rw [hhandlers]; rfl
    refine ⟨w, _, s, swap, hrun, ?_, LnServer.step_handler hfirst, hs, lookup_insert _, hkey⟩
    rw [LnServer.stepping, hfirst]
    rfl
  · cases hw

end OpenSwap
