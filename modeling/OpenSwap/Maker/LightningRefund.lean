import OpenSwap.Maker.LightningFailBack

/-!
# The watchdog and the refund of an unclaimed swap-out

A funded swap-out nobody claims is for the watchdog to refund once its lock has run out.
It asks the watcher first, and the watcher answers a watched outpoint that nothing spends
with a spend event that names no transaction; the event the watchdog takes for an unspent
output is one that no caller of the watcher gets.

* `LnTask.Stepped.refunds`: no step leads to a refund but from one.
* `LnServer.never_refunds`: no run broadcasts a refund.
-/

namespace OpenSwap

open Btc Checked

variable {P : Prims}

def LnTask.refunds : LnTask P → Bool
  | .sendRefund _ _ | .store _ _ .sendRefund | .insert _ _ .sendRefund => true
  | _ => false

def LnTask.finish (maker : LnMaker P) : LnShared P → LnTask P → List (LnAnswers P) → LnShared P
  | sh, _, [] => sh
  | sh, t, answers :: rest =>
    match t.advance maker sh answers with
    | (sh', .busy t') => t'.finish maker sh' rest
    | (sh', .ended _) => sh'

/-- A turn of the watchdog on a funded swap-out, with the watcher's replies taken from a
registry and from what the backend says of the watch. -/
def resolvePass (maker : LnMaker P) (sh : LnShared P) (registry : FileRegistry)
    (view : BackendView) (id : String) (swap : LnMakerSwap P) (answers : List (LnAnswers P)) :
    LnShared P :=
  (LnTask.resolveSwapOut id swap).finish maker sh <| answers.map fun a =>
    { a with watch := swap.funding.map fun f => answerWatchRequest view f.1 registry }

/-- A call of the backend, of the wallet or of the network succeeds. -/
def LnAnswers.work (answers : LnAnswers P) : Bool :=
  answers.node && answers.saved && answers.receiveScript.isSome && answers.broadcast = .sent

/-- The swap is stored as funded, its HTLC is watched and unspent, the tip has reached the
end of its lock, and everything the watchdog needs answers. -/
def RefundDue (sh : LnShared P) (registry : FileRegistry) (id : String) (swap : LnMakerSwap P)
    (answers : List (LnAnswers P)) : Prop :=
  sh.lnSwaps.lookup id = some swap ∧ swap.phase = .outFunded ∧
    swap.funding.any (fun f => f.1 ∈ registry ∧ (sh.chain.unspentOutput P f.1).isSome) = true ∧
    swap.fundingHeight.any (fun h => satAdd32 h swap.locktime ≤ sh.chain.height) = true ∧
    answers.all (·.work) = true ∧ 4 ≤ answers.length

instance (sh : LnShared P) (registry : FileRegistry) (id : String) (swap : LnMakerSwap P)
    (answers : List (LnAnswers P)) : Decidable (RefundDue sh registry id swap answers) :=
  inferInstanceAs (Decidable (_ ∧ _))

/-! ## No step leads to a refund -/

section

variable {maker : LnMaker P} {answers : LnAnswers P} {sh sh' : LnShared P} {t t' : LnTask P}
  {next : Option (LnTask P)}

theorem LnTask.Quiet.refunds (h : LnTask.Quiet maker sh answers t t')
    (ht' : t'.refunds) : t.refunds = true := by
  cases h with
  | stay => exact ht'
  | payout hfrom => rcases hfrom with ⟨_, -, rfl⟩ | ⟨-, rfl⟩ <;> cases ht'
  | _ => cases ht'

theorem LnTask.Stepped.refunds (h : LnTask.Stepped maker sh answers t sh' next)
    (hnext : next = some t') (ht' : t'.refunds) : t.refunds = true := by
  cases h with
  | quiet _ hquiet =>
    cases hnext
    exact hquiet.refunds ht'
  | @store id swap after next hn =>
    obtain rfl := eq_of_none_or_some hn hnext
    cases after <;> first | rfl | cases ht'
  | insert =>
    cases resumed hnext with
    | sendRefund => rfl
    | _ => cases ht'
  | paid hn | fundingSent hn =>
    obtain rfl := eq_of_none_or_some hn hnext
    cases ht'
  | ended | erase | forgotten | sweepSent => cases hnext
  | _ =>
    cases hnext
    cases ht'

theorem LnTask.Emits.refunds {id refund txid} (h : LnTask.Emits sh t (.refundSent id refund txid)) :
    t.refunds = true := by
  cases h
  rfl

/-- A task that is not on the way to a refund sends none, however long it runs. -/
theorem LnTask.finish_refundSent {answers} (ht : t.refunds = false) :
    ∃ new, (t.finish maker sh answers).history = new ++ sh.history ∧
      ∀ id refund txid, .refundSent id refund txid ∉ new := by
  induction answers generalizing sh t with
  | nil => exact ⟨[], rfl, fun _ _ _ => List.not_mem_nil⟩
  | cons a rest ih =>
    have hstep : LnTask.Stepped maker sh a t (t.advance maker sh a).1
      (t.advance maker sh a).2.task := t.advance_stepped
    obtain ⟨new, hnew, hsent⟩ : ∃ new, (t.advance maker sh a).1.history = new ++ sh.history ∧
        ∀ id refund txid, .refundSent id refund txid ∉ new := by
      rcases hstep.history_cases with hsame | ⟨e, hemits, hcons⟩
      · exact ⟨[], hsame, fun _ _ _ => List.not_mem_nil⟩
      · refine ⟨[e], hcons, fun id refund txid hmem => ?_⟩
        cases List.mem_singleton.mp hmem
        rw [hemits.refunds] at ht
        cases ht
    rw [finish]
    split
    · rename_i sh' t' hadvance
      rw [hadvance] at hstep hnew
      have ht' : t'.refunds = false := by
        by_contra hne
        rw [hstep.refunds rfl (by simpa using hne)] at ht
        cases ht
      obtain ⟨later, hlater, hnone⟩ : ∃ later, (t'.finish maker sh' rest).history =
          later ++ sh'.history ∧ ∀ id refund txid, .refundSent id refund txid ∉ later := ih ht'
      refine ⟨later ++ new, by rw [hlater, hnew, List.append_assoc], fun id refund txid hmem => ?_⟩
      rcases List.mem_append.mp hmem with hmem | hmem
      · exact hnone id refund txid hmem
      · exact hsent id refund txid hmem
    · rename_i sh' outcome hadvance
      rw [hadvance] at hnew
      exact ⟨new, hnew, hsent⟩

end

/-! ## Runs -/

structure NeverRefunds (w : LnServer P) : Prop where
  tasks : ∀ t ∈ w.tasks, t.refunds = false
  history : ∀ id refund txid, .refundSent id refund txid ∉ w.shared.history

variable {w : LnServer P}

theorem LnServer.Begins.refunds {t} (h : w.Begins t) :
    t.refunds = false := by
  rcases h with ⟨msg, rfl⟩ | ⟨id, swap, -, h⟩
  · cases msg <;> rfl
  · unfold watchdogTask at h
    split at h <;> cases h <;> rfl

theorem NeverRefunds.step {maker w' a} (hw : NeverRefunds w) (h : w.step maker a = some w') :
    NeverRefunds w' := by
  rcases LnServer.step_cases h with hidles | ⟨t, _, _, _, _, -, hstep, htasks, htasks', -⟩
  · exact ⟨fun t ht => (hidles.tasks t ht).elim (hw.tasks t) (·.refunds),
      hidles.history ▸ hw.history⟩
  · have hself := hw.tasks t (mem_tasks_self htasks)
    constructor
    · intro t₁ ht₁
      rcases tasks_cases htasks' ht₁ with hother | hnext
      · exact hw.tasks t₁ (mem_tasks_of_others htasks hother)
      · by_contra hne
        rw [hstep.refunds hnext (by simpa using hne)] at hself
        cases hself
    · intro id refund txid hmem
      rcases hstep.history_cases with hsame | ⟨e, hemits, hcons⟩
      · exact hw.history id refund txid (hsame ▸ hmem)
      · rw [hcons] at hmem
        rcases List.mem_cons.mp hmem with rfl | hmem
        · rw [hemits.refunds] at hself
          cases hself
        · exact hw.history id refund txid hmem

/-- **Refunds of unclaimed swap-outs.**  A turn of the watchdog on a funded swap-out, whatever
the watcher has on record and whatever the backend says, broadcasts no refund: it does what
is asked of it only where no refund is due. -/
theorem refund_sent_iff_not_due (maker : LnMaker P) (sh : LnShared P) (registry : FileRegistry)
    (view : BackendView) (id : String) (swap : LnMakerSwap P) (answers : List (LnAnswers P)) :
    (RefundDue sh registry id swap answers →
        ∃ new refund txid,
          (resolvePass maker sh registry view id swap answers).history = new ++ sh.history ∧
          .refundSent id refund txid ∈ new) ↔
      ¬ RefundDue sh registry id swap answers := by
  constructor
  · intro h hdue
    obtain ⟨new, refund, txid, hnew, hsent⟩ := h hdue
    obtain ⟨new', hnew', hnone⟩ : ∃ new',
        (resolvePass maker sh registry view id swap answers).history = new' ++ sh.history ∧
        ∀ id refund txid, .refundSent id refund txid ∉ new' := LnTask.finish_refundSent rfl
    rw [hnew'] at hnew
    rw [← List.append_cancel_right hnew] at hsent
    exact hnone id refund txid hsent
  · exact fun hnot hdue => absurd hdue hnot

/-! ## An unclaimed swap-out past its lock -/

namespace SampleLn

/-- The funding has confirmed and its lock has run out. -/
def chainUnclaimed : Chain :=
  ⟨List.replicate 101 [] ++ [[outFundingTx]] ++ List.replicate 144 [], []⟩

/-- The swap-out is funded, nobody claims it, and the watchdog turns to it. -/
def outUnclaimed : List (LnAction prims) :=
  outPaid ++ List.replicate 4 (.handler 0 (answers 0)) ++
    [.chain chainUnclaimed, .wait 301, .snapshot, .turn 0]

def watched : FileRegistry :=
  FileRegistry.registerWatch ⟨prims.txid outFundingTx, 0⟩ ((htlc 5 0).scriptPubkey prims) ∅

def coreView : BackendView where
  confirmsRecord := true
  blind := false
  checked := none

/-- The watchdog has turned to the swap, and its refund is due and can be built. -/
def unclaimed (w : LnServer prims) : Bool :=
  match w.watchdog with
  | some (.resolveSwapOut id swap) =>
    id = swapId ∧ swap.funding = some (⟨prims.txid outFundingTx, 0⟩, 100000) ∧
      RefundDue w.shared watched swapId swap (List.replicate 4 (answers 0)) ∧
      (swap.htlc.createTimelockSpend ⟨prims.txid outFundingTx, 0⟩ 100000 swap.privkey
        receiveScript).isOk ∧
      (resolvePass maker w.shared watched coreView swapId swap
        (List.replicate 4 (answers 0))).history = w.shared.history
  | _ => false

end SampleLn

open SampleLn in
/-- Nobody claims a funded swap-out.  Its lock has run out and the watcher, which has it on
watch and nothing on record, answers with a spend by no known transaction: the watchdog
leaves it for the next time. -/
theorem unclaimed_swap_not_refunded :
    ∃ (w : LnServer prims) (swap : LnMakerSwap prims) (outpoint : OutPoint) (value : Nat),
      Run.Reachable (LnServer.step · maker) (fun _ _ => True) (.start chain) w ∧
      w.watchdog = some (.resolveSwapOut swapId swap) ∧ swap.funding = some (outpoint, value) ∧
      RefundDue w.shared watched swapId swap (List.replicate 4 (answers 0)) ∧
      (swap.htlc.createTimelockSpend outpoint value swap.privkey receiveScript).isOk = true ∧
      answerWatchRequest coreView outpoint watched = .utxoSpent none ∧
      (resolvePass maker w.shared watched coreView swapId swap
        (List.replicate 4 (answers 0))).history = w.shared.history := by
  obtain ⟨w, hrun, hw⟩ : ∃ w, Run.Reachable (LnServer.step · maker) (fun _ _ => True)
      (.start chain) w ∧ unclaimed w = true :=
    Run.exists_reachable_of_exec outUnclaimed (by decide +kernel)
  unfold unclaimed at hw
  split at hw
  · rename_i id swap hwatchdog
    obtain ⟨rfl, hfunding, hdue, hbuilt, hhistory⟩ := of_decide_eq_true hw
    exact ⟨w, swap, _, _, hrun, hwatchdog, hfunding, hdue, hbuilt, by decide +kernel, hhistory⟩
  · cases hw

/-- **No run broadcasts a refund**, whatever the peers, the node, the chain and the watcher do:
a funded swap-out that nobody claims stays funded. -/
theorem LnServer.never_refunds (maker : LnMaker P) (chain : Chain)
    (hrun : Run.Reachable (LnServer.step · maker) (fun _ _ => True) (.start chain) w) :
    NeverRefunds w := by
  apply hrun.invariant
  · exact ⟨fun _ h => (nomatch h), fun _ _ _ h => (nomatch h)⟩
  · intro _ _ _ hw _ h
    exact hw.step h

open SampleLn in
theorem never_refunds_unclaimed :
    ∃ w : LnServer prims, unclaimed w = true ∧ NeverRefunds w := by
  obtain ⟨w, hrun, hw⟩ : ∃ w, Run.Reachable (LnServer.step · maker) (fun _ _ => True)
      (.start chain) w ∧ unclaimed w = true :=
    Run.exists_reachable_of_exec outUnclaimed (by decide +kernel)
  exact ⟨w, hw, LnServer.never_refunds maker chain hrun⟩

end OpenSwap
