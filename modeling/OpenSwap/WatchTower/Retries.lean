import OpenSwap.WatchTower.CoreWatch

/-!
# The retry queues of the watcher

Watches whose record may be out of date wait for a re-check, scripts whose subscription
failed wait for another.  Every turn of the watcher's loop makes a pass over both queues; a
failure ends the pass.
-/

namespace OpenSwap

open Btc List

structure Watcher where
  registry : FileRegistry
  pendingReconcile : List OutPoint
  pendingSubscribes : List (OutPoint × Bytes)

inductive WatcherAction where
  | unsubscribed (o : OutPoint) (scriptPubkey : Bytes)
  /-- notifications were lost, or a transaction of the script could not be fetched -/
  | queueReconcile (o : OutPoint)
  /-- `check_blind_watch` has settled the watch -/
  | checked (o : OutPoint)
  | unwatch (o : OutPoint)
  | record (registry : FileRegistry)
  /-- `retry_pending_work`; subscriptions are answered by the number of the attempt -/
  | retry (recheck : Recheck) (subscribe : Nat → OutPoint × Bytes → Bool)

def queueReconcile (o : OutPoint) (pending : List OutPoint) : List OutPoint :=
  if o ∈ pending then pending else pending ++ [o]

namespace Watcher

def step (w : Watcher) : WatcherAction → Watcher
  | .unsubscribed o spk => ⟨w.registry.registerWatch o spk, queueReconcile o w.pendingReconcile,
      w.pendingSubscribes ++ [(o, spk)]⟩
  | .queueReconcile o => { w with pendingReconcile := queueReconcile o w.pendingReconcile }
  | .checked o => { w with pendingReconcile := w.pendingReconcile.filter (· ≠ o) }
  | .unwatch o => { w with
      registry := w.registry.removeWatch o
      pendingSubscribes := w.pendingSubscribes.filter (·.1 ≠ o) }
  | .record registry => { w with registry }
  | .retry recheck subscribe =>
    let done := Retry.pass (settles w.registry recheck) w.registry w.pendingReconcile
    ⟨done.1, done.2, (Retry.pass (fun n entry => (subscribe n entry, n + 1)) 0
      w.pendingSubscribes).2⟩

end Watcher

namespace WatcherAction

def isRetry : WatcherAction → Bool
  | .retry .. => true
  | _ => false

def Settles (o : OutPoint) : WatcherAction → Prop
  | .retry recheck _ => ∀ watch registry, (recheck o watch registry).1 = .ok true
  | _ => True

def Subscribes (entry : OutPoint × Bytes) : WatcherAction → Prop
  | .retry _ subscribe => ∀ n, subscribe n entry = true
  | _ => True

def pushes (entry : OutPoint × Bytes) : WatcherAction → Bool
  | .unsubscribed o spk => (o, spk) == entry
  | _ => false

end WatcherAction

section Steps

variable {w : Watcher} {a : WatcherAction} {o : OutPoint} {entry : OutPoint × Bytes} {k : Nat}

theorem drop_queueReconcile {pending o'} (ho : o ∈ pending) (h : (pending.drop k).count o = 0) :
    ((queueReconcile o' pending).drop k).count o = 0 := by
  unfold queueReconcile
  split
  · exact h
  · rename_i hnew
    have hne : o' ≠ o := fun heq => hnew (heq ▸ ho)
    have hlast := (drop_sublist (k - pending.length) [o']).count_le o
    simp_all [drop_append]

theorem settles_fst {watches recheck registry}
    (h : ∀ watch registry, (recheck o watch registry).1 = .ok true) :
    (settles watches recheck registry o).1 = true := by
  unfold settles
  split
  · rfl
  · rename_i watch _
    have := h watch registry
    split <;> simp_all

theorem Watcher.step_reconcile (hs : a.Settles o) (ho : o ∈ w.pendingReconcile)
    (h : (w.pendingReconcile.drop k).count o = 0) :
    ((w.step a).pendingReconcile.drop (k - a.isRetry.toNat)).count o = 0 := by
  cases a with
  | unsubscribed o' | queueReconcile o' => exact drop_queueReconcile ho h
  | checked o' => exact Nat.le_zero.mp (h ▸ Retry.count_filter_le _ w.pendingReconcile k)
  | unwatch o' | record registry => exact h
  | retry recheck subscribe =>
    cases k with
    | zero => exact absurd ho (count_eq_zero.mp h)
    | succ k => exact Nat.le_zero.mp (h ▸ Retry.count_pass_le (fun _ => settles_fst hs) _ _ k)

theorem Watcher.step_subscribes (hs : a.Subscribes entry) :
    ((w.step a).pendingSubscribes.drop (k - a.isRetry.toNat)).count entry ≤
      (w.pendingSubscribes.drop k).count entry + if a.pushes entry then 1 else 0 := by
  cases a with
  | unsubscribed o spk =>
    have hlast := (drop_sublist (k - w.pendingSubscribes.length) [(o, spk)]).count_le entry
    rw [count_singleton] at hlast
    simp only [step, drop_append, count_append]
    exact Nat.add_le_add_left hlast _
  | unwatch o' => exact Retry.count_filter_le _ w.pendingSubscribes k
  | queueReconcile o' | checked o' | record registry => exact Nat.le_refl _
  | retry recheck subscribe =>
    cases k with
    | zero =>
      exact Nat.le_trans (Retry.count_pass_le (fun n => hs n) _ _ 0) (Retry.count_drop_succ_le _ 0)
    | succ k => exact Retry.count_pass_le (fun n => hs n) _ _ k

end Steps

/-! ## Runs: the passes that are left bound the positions of the entry -/

section Runs

variable {actions : List WatcherAction} {o : OutPoint} {entry : OutPoint × Bytes} {k : Nat}

theorem passes_left {a} (hk : k ≤ (a :: actions).countP (·.isRetry)) :
    k - a.isRetry.toNat ≤ actions.countP (·.isRetry) := by
  rw [countP_cons] at hk
  cases h : a.isRetry <;> simp [h] at hk ⊢ <;> omega

theorem Watcher.run_reconcile (hs : ∀ a ∈ actions, a.Settles o) (w : Watcher)
    (hk : k ≤ actions.countP (·.isRetry)) (ho : (w.pendingReconcile.drop k).count o = 0) :
    ∃ earlier, earlier <+: actions ∧ o ∉ (earlier.foldl step w).pendingReconcile := by
  induction actions generalizing w k with
  | nil =>
    obtain rfl := Nat.le_zero.mp hk
    exact ⟨[], prefix_rfl, count_eq_zero.mp ho⟩
  | cons a rest ih =>
    rw [forall_mem_cons] at hs
    by_cases hmem : o ∈ w.pendingReconcile
    · obtain ⟨earlier, hpre, hout⟩ := ih hs.2 _ (passes_left hk) (step_reconcile hs.1 hmem ho)
      exact ⟨a :: earlier, by simpa using hpre, hout⟩
    · exact ⟨[], nil_prefix, hmem⟩

theorem Watcher.run_subscribes (hs : ∀ a ∈ actions, a.Subscribes entry) (w : Watcher)
    (hk : k ≤ actions.countP (·.isRetry)) :
    (actions.foldl step w).pendingSubscribes.count entry ≤
      (w.pendingSubscribes.drop k).count entry + actions.countP (·.pushes entry) := by
  induction actions generalizing w k with
  | nil =>
    obtain rfl := Nat.le_zero.mp hk
    simp
  | cons a rest ih =>
    rw [forall_mem_cons] at hs
    have hrest := ih hs.2 (w.step a) (passes_left hk)
    have hstep := step_subscribes (w := w) (k := k) hs.1
    rw [foldl_cons, countP_cons]
    omega

end Runs

/-- **No entry is held back.**  After more passes than its position, a watch whose re-checks
succeed has been out of the queue, and of a subscription that succeeds only copies pushed during
the run are left. -/
theorem retried_in_turn (w : Watcher) (actions : List WatcherAction) (i : Nat)
    (hi : i < actions.countP (·.isRetry)) :
    (∀ o, o ∉ w.pendingReconcile.drop (i + 1) → (∀ a ∈ actions, a.Settles o) →
      ∃ earlier, earlier <+: actions ∧ o ∉ (earlier.foldl Watcher.step w).pendingReconcile) ∧
    ∀ entry, entry ∉ w.pendingSubscribes.drop (i + 1) → (∀ a ∈ actions, a.Subscribes entry) →
      (actions.foldl Watcher.step w).pendingSubscribes.count entry ≤
        actions.countP (·.pushes entry) := by
  refine ⟨fun o ho hs => w.run_reconcile hs hi (count_eq_zero.mpr ho), fun entry hentry hs => ?_⟩
  have hrun := w.run_subscribes hs hi
  rwa [count_eq_zero.mpr hentry, Nat.zero_add] at hrun

/-- Two watches and two subscriptions; the first of each always fails. -/
theorem retried_behind_failing :
    let other : OutPoint := ⟨[1], 0⟩
    let own : OutPoint := ⟨[2], 0⟩
    let retry : WatcherAction := .retry (fun o _ registry => (.ok (o = own), registry))
      fun _ entry => entry.1 = own
    let w : Watcher := ⟨∅, [other, own], [(other, []), (own, [])]⟩
    (∃ earlier, earlier <+: [retry, retry] ∧
      own ∉ (earlier.foldl Watcher.step w).pendingReconcile) ∧
      ([retry, retry].foldl Watcher.step w).pendingSubscribes.count (own, []) ≤ 0 := by
  intro other own retry w
  obtain ⟨hreconcile, hsubscribe⟩ := retried_in_turn w [retry, retry] 1 (by decide)
  refine ⟨hreconcile own (by decide) ?_, hsubscribe (own, []) (by decide) ?_⟩ <;>
    simp [retry, WatcherAction.Settles, WatcherAction.Subscribes]

end OpenSwap
