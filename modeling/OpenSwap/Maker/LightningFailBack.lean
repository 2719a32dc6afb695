import OpenSwap.Maker.LightningCopies

/-!
# Failing a held payment back

A swap-out's handler waits for the payment, funds the contract and broadcasts; the
watchdog fails a payment back when it was not seen for an hour, or after the maker's
refund of the contract has confirmed.  Both act on copies.

* `LnServer.failsBackAlone` is the condition under which they do not cross.
-/

namespace OpenSwap

open Btc Checked List

section

variable {P : Prims} {maker : LnMaker P} {answers : LnAnswers P} {sh sh' : LnShared P}
  {t t' : LnTask P} {next : Option (LnTask P)} {history history' : List (LnEffect P)}

/-! ## The conditions -/

/-- The effect is the broadcast of a funding of the swap, with the contract at an outpoint. -/
def LnEffect.sends (id : String) (key : P.SecretKey) (outpoint : OutPoint) : LnEffect P → Bool
  | .fundingSent id' swap =>
    id' = id ∧ swap.privkey = key ∧ swap.funding.map (·.1) = some outpoint
  | _ => false

namespace LnServer

def keyUnused (w : LnServer P) (id : String) (key : P.SecretKey) : Bool :=
  (w.shared.lnSwaps.lookup id).all (·.privkey ≠ key) && w.tasks.all (!·.holds id key) &&
    w.queue.all (fun e => e.1 = id → e.2.privkey ≠ key) && w.shared.history.all (!·.about id key)

/-- What the maker may rely on: a new branch key is new, a funding that was relayed is not
reported unknown, and no block spends the output of a funding that was never sent. -/
def answersTruly (w : LnServer P) (t : LnTask P) (answers : LnAnswers P) : Bool :=
  match t with
  | .acceptTerms req => w.keyUnused req.swapId answers.keypair
  | .checkKnown _ _ true => answers.transactionKnown ≠ some false
  | .resolveSwapOut id swap => swap.funding.all fun f =>
      !w.shared.chain.confirmedSpend f.1 || w.shared.history.any (·.sends id swap.privkey f.1)
  | _ => true

/-- A handler reads a swap it is to fund while no other handler funds one of that id and
none is being forgotten; a payment is failed back only for the swap that is live, and for
want of payment only while that swap still awaits it and no handler funds it. -/
def failsBackAlone (w : LnServer P) : LnTask P → Bool
  | .paid id => w.tasks.all fun t => !t.fundsFor id && !t.forgets id
  | .expire id swap =>
    swap.direction = .swapIn ||
      !decide (swapOutPaymentDeadline < w.shared.clock - swap.updatedAt) ||
      ((w.shared.lnSwaps.lookup id).any (fun s => s.privkey = swap.privkey ∧
        s.phase = .outAccepted) && w.tasks.all (!·.fundsFor id))
  | .resolveSwapOut id swap =>
    (swap.refundTxid.bind (w.shared.chain.txBlockHeight P)).isNone ||
      w.shared.holdsKey id swap.privkey
  | _ => true

def truthful (w : LnServer P) (a : LnAction P) : Prop :=
  (w.stepping a).all (fun p => w.answersTruly p.1 p.2) = true

def failsBackGuarded (w : LnServer P) (a : LnAction P) : Prop :=
  w.truthful a ∧ (w.stepping a).all (w.failsBackAlone ·.1) = true

instance (w : LnServer P) (a : LnAction P) : Decidable (w.truthful a) :=
  inferInstanceAs (Decidable (_ = true))

instance (w : LnServer P) (a : LnAction P) : Decidable (w.failsBackGuarded a) :=
  inferInstanceAs (Decidable (_ ∧ _ = true))

end LnServer

/-! ## The invariant -/

def Sent (history : List (LnEffect P)) (id : String) (key : P.SecretKey) : Prop :=
  ∃ swap, .fundingSent id swap ∈ history ∧ swap.privkey = key

/-- No more than one task knows the key. -/
structure FreshKey (w : LnServer P) (id : String) (key : P.SecretKey) : Prop where
  live : ∀ swap, w.shared.lnSwaps.lookup id = some swap → swap.privkey ≠ key
  queue : ∀ swap, (id, swap) ∈ w.queue → swap.privkey ≠ key
  history : ∀ e ∈ w.shared.history, e.about id key = false
  tasks : w.tasks.countP (·.holds id key) ≤ 1

/-- The payment was failed back for want of it: nobody funds the swap, now or later. -/
structure Lapsed (w : LnServer P) (id : String) (key : P.SecretKey) : Prop where
  unsent : ¬Sent w.shared.history id key
  unfunded : ∀ t ∈ w.tasks, ∀ swap, t.funds = some (id, swap) → swap.privkey ≠ key
  forgotten : ∀ swap, w.shared.lnSwaps.lookup id = some swap → swap.privkey = key →
    swap.phase = .outAccepted → ∃ t ∈ w.tasks, t.forgets id

def RefundConfirmed (history : List (LnEffect P)) (id : String) (key : P.SecretKey)
    (chain : Chain) : Prop :=
  ∃ funded refund outpoint value txid, .fundingSent id funded ∈ history ∧ funded.privkey = key ∧
    funded.funding.map (·.1) = some outpoint ∧ .refundSent id refund txid ∈ history ∧
    refund.privkey = key ∧ refund.funding = some (outpoint, value) ∧ refund.RefundedBy txid ∧
    (chain.txBlockHeight P txid).isSome = true ∧ chain.confirmedSpend outpoint = true

structure FailBackOk (w : LnServer P) : Prop where
  copies : ∀ t ∈ w.tasks, t.CopyOk w.shared.history
  live : w.shared.LiveOk
  queue : ∀ id swap, (id, swap) ∈ w.queue → swap.RefundOk w.shared.history id
  single : ∀ id, w.tasks.countP (·.fundsFor id) ≤ 1
  fresh : ∀ id swap, .store id swap .accepted ∈ w.tasks ∨ .insert id swap .accepted ∈ w.tasks →
    FreshKey w id swap.privkey
  unawaited : ∀ id swap, Sent w.shared.history id swap.privkey →
    w.shared.lnSwaps.lookup id = some swap → swap.phase ≠ .outAccepted
  known : ∀ t ∈ w.tasks, ∀ id swap, t.funds = some (id, swap) →
    Sent w.shared.history id swap.privkey → t = .checkKnown id swap true
  sending : ∀ id swap tx, .sendFunding id swap tx ∈ w.tasks → ∀ s,
    w.shared.lnSwaps.lookup id = some s → s.privkey = swap.privkey → s.phase ≠ .outAccepted
  once : ∀ id s s', .fundingSent id s ∈ w.shared.history → .fundingSent id s' ∈ w.shared.history →
    s.privkey = s'.privkey → s = s'
  failed : ∀ id swap chain, .failedBack id swap chain ∈ w.shared.history →
    RefundConfirmed w.shared.history id swap.privkey chain ∨ Lapsed w id swap.privkey

/-! ### What a step can do -/

variable {id : String} {w : LnServer P} {w' : LnServer P} {a : LnAction P}

section

variable (h : LnTask.Stepped maker sh answers t sh' next)

include h

variable {swap : LnMakerSwap P}

theorem LnTask.Stepped.outAccepted_cases (ht : t.CopyOk sh.history)
    (hswap : sh'.lnSwaps.lookup id = some swap) (hphase : swap.phase = .outAccepted) :
    sh.lnSwaps.lookup id = some swap ∨ t = .insert id swap .accepted ∨
      t = .insert id swap .reverted := by
  have hawaits : swap.phase.awaits = true := by rw [hphase]; rfl
  rcases h.lookup_cases hswap with hold | ⟨after, rfl⟩ | ⟨remaining, _, rfl, -, -⟩ |
    ⟨before, height, -, hpaid, rfl⟩
  · exact .inl hold
  · rcases ht.2.1 hawaits with rfl | rfl
    · exact .inr (.inl rfl)
    · exact .inr (.inr rfl)
  · rw [ht.2] at hawaits
    cases hawaits
  · rw [show before.phase = .outAccepted from hphase] at hpaid
    cases hpaid

theorem LnTask.Stepped.sent_cases {key} (hsent : Sent sh'.history id key) :
    Sent sh.history id key ∨
      (∃ swap tx, t = .sendFunding id swap tx ∧ swap.privkey = key) ∧
        ∀ t', next = some t' → ∃ swap, t' = .checkKnown id swap true := by
  obtain ⟨swap, hmem, hkey⟩ := hsent
  cases h with
  | @fundingSent id₀ swap₀ tx _ hn =>
    rcases mem_cons.mp hmem with heq | hold
    · cases heq
      refine .inr ⟨⟨_, _, rfl, hkey⟩, fun t' ht' => ?_⟩
      obtain rfl := eq_of_none_or_some hn ht'
      exact ⟨_, rfl⟩
    · exact .inl ⟨swap, hold, hkey⟩
  | moved | paid | sweepSent | refundSent | settled | refunded =>
    rcases mem_cons.mp hmem with heq | hold
    · cases heq
    · exact .inl ⟨swap, hold, hkey⟩
  | forgotten phase =>
    unfold LnShared.removeLnSwapIfPhase at hmem
    split at hmem <;> exact .inl ⟨swap, hmem, hkey⟩
  | expired =>
    split at hmem
    · rcases mem_cons.mp hmem with heq | hold
      · cases heq
      · exact .inl ⟨swap, hold, hkey⟩
    · exact .inl ⟨swap, hmem, hkey⟩
  | _ => exact .inl ⟨swap, hmem, hkey⟩

theorem LnTask.Stepped.sendFunding_cases {tx} (hnext : next = some (.sendFunding id swap tx)) :
    t = .insert id swap (.sendFunding tx) ∧ sh'.lnSwaps.lookup id = some swap := by
  cases h with
  | quiet mailboxes hq =>
    cases hnext
    cases hq with
    | stay hw => cases hw
  | insert =>
    cases resumed hnext
    exact ⟨rfl, AList.lookup_insert _⟩
  | store hn | paid hn | fundingSent hn => rcases hn with rfl | rfl <;> cases hnext
  | _ => cases hnext

end

variable {swap : LnMakerSwap P}

theorem LnTask.Stepped.funds_of_relayed
    (h : LnTask.Stepped maker sh answers (.checkKnown id swap true) sh' next)
    (hknown : answers.transactionKnown ≠ some false) (hnext : next = some t') :
    t'.funds = none := by
  cases h with
  | quiet mailboxes hq =>
    cases hq with
    | stay hw => cases hw
    | sweep hfrom => rcases hfrom with h | h | h <;> cases h
    | payout hfrom => rcases hfrom with ⟨_, h, -⟩ | ⟨h, -⟩ <;> cases h
    | revert hunknown => exact absurd hunknown hknown
  | settled => cases hnext; rfl
  | ended | forgotten | sweepSent => cases hnext

section Steps

variable {w w' : LnServer P} {before after : List (LnTask P)} (hw : FailBackOk w)
  (h : LnTask.Stepped maker w.shared answers t w'.shared next)
  (htruly : w.answersTruly t answers = true) (halone : w.failsBackAlone t = true)
  (htasks : w.tasks = before ++ t :: after) (htasks' : w'.tasks = before ++ (next.toList ++ after))
  (hqueue : w'.queue = w.queue) {id : String} {nextTask : LnNext P} {swap s : LnMakerSwap P}
  {key : P.SecretKey} {chain : Chain}

include hw h htasks in
theorem FailBackOk.unawaited_stepped (hsent : Sent w'.shared.history id swap.privkey)
    (hswap : w'.shared.lnSwaps.lookup id = some swap) : swap.phase ≠ .outAccepted := by
  have hown := mem_tasks_self htasks
  intro hphase
  rcases h.outAccepted_cases (hw.copies t hown) hswap hphase with hold | rfl | rfl
  · rcases h.sent_cases hsent with hsent | ⟨⟨s, tx, rfl, hkey⟩, -⟩
    · exact hw.unawaited id swap hsent hold hphase
    · exact hw.sending id s tx hown swap hold hkey.symm hphase
  · rcases h.sent_cases hsent with ⟨s, hmem, hkey⟩ | ⟨⟨_, _, heq, -⟩, -⟩
    · have := (hw.fresh id swap (.inr hown)).history _ hmem
      simp [LnEffect.about, hkey] at this
    · cases heq
  · rcases h.sent_cases hsent with hsent | ⟨⟨_, _, heq, -⟩, -⟩
    · cases hw.known _ hown id swap rfl hsent
    · cases heq

include hw h htruly htasks htasks' in
theorem FailBackOk.known_stepped {t₁} (ht₁ : t₁ ∈ w'.tasks) (hfunds : t₁.funds = some (id, swap))
    (hsent : Sent w'.shared.history id swap.privkey) :
    t₁ = .checkKnown id swap true := by
  have hown := mem_tasks_self htasks
  rcases tasks_cases htasks' ht₁ with hother | hnext
  · rcases h.sent_cases hsent with hsent | ⟨⟨s, tx, rfl, -⟩, -⟩
    · exact hw.known t₁ (mem_tasks_of_others htasks hother) id swap hfunds hsent
    · have := not_of_countP_le_one (hw.single id) htasks hother
        (LnTask.fundsFor_iff.mpr ⟨swap, hfunds⟩)
      simp [LnTask.fundsFor, LnTask.funds] at this
  · rcases h.sent_cases hsent with hsent | ⟨-, hrelayed⟩
    · rcases h.funds_cases hnext hfunds with ⟨s, hs, hkey⟩ | ⟨-, -, hlive, hphase⟩
      · cases hw.known t hown id s hs (hkey ▸ hsent)
        rw [h.funds_of_relayed (of_decide_eq_true htruly) hnext] at hfunds
        cases hfunds
      · exact absurd hphase (hw.unawaited id swap hsent hlive)
    · obtain ⟨s, rfl⟩ := hrelayed t₁ hnext
      cases hfunds
      rfl

include hw h htasks htasks' in
theorem FailBackOk.sending_stepped {tx} (hmem : .sendFunding id swap tx ∈ w'.tasks)
    (hs : w'.shared.lnSwaps.lookup id = some s) (hkey : s.privkey = swap.privkey) :
    s.phase ≠ .outAccepted := by
  have hown := mem_tasks_self htasks
  intro hphase
  rcases tasks_cases htasks' hmem with hother | hnext
  · rcases h.outAccepted_cases (hw.copies t hown) hs hphase with hold | rfl | rfl
    · exact hw.sending id swap tx (mem_tasks_of_others htasks hother) s hold hkey hphase
    · have := not_of_countP_le_one (hw.fresh id s (.inr hown)).tasks htasks hother
        (LnTask.holds_iff.mpr ⟨swap, rfl, hkey.symm⟩)
      simp [LnTask.holds, LnTask.copy] at this
    · have := not_of_countP_le_one (hw.single id) htasks hother
      simp [LnTask.fundsFor, LnTask.funds] at this
  · obtain ⟨rfl, hlive⟩ := h.sendFunding_cases hnext
    rw [hlive, Option.some.injEq] at hs
    subst hs
    rcases (hw.copies _ hown).2.1 (by rw [hphase]; rfl) with heq | heq <;> cases heq

include hw h htasks in
theorem FailBackOk.once_stepped {s'} (hs : .fundingSent id s ∈ w'.shared.history)
    (hs' : .fundingSent id s' ∈ w'.shared.history) (hkey : s.privkey = s'.privkey) : s = s' := by
  have hown := mem_tasks_self htasks
  -- a handler about to send has not sent before
  have hfirst : ∀ swap tx, t = .sendFunding id swap tx →
      ¬Sent w.shared.history id swap.privkey := by
    rintro swap tx rfl hsent
    cases hw.known _ hown id swap rfl hsent
  rcases h.history_cases with hsame | ⟨e, hemits, hnew⟩
  · rw [hsame] at hs hs'
    exact hw.once id s s' hs hs' hkey
  · rw [hnew, mem_cons] at hs hs'
    rcases hs with rfl | hs
    · rcases hs' with heq | hs'
      · cases heq
        rfl
      · cases hemits
        exact absurd ⟨s', hs', hkey.symm⟩ (hfirst _ _ rfl)
    · rcases hs' with rfl | hs'
      · cases hemits
        exact absurd ⟨s, hs, hkey⟩ (hfirst _ _ rfl)
      · exact hw.once id s s' hs hs' hkey

include hw h halone htasks htasks' in
theorem FailBackOk.single_stepped (id : String) : w'.tasks.countP (·.fundsFor id) ≤ 1 := by
  refine countP_le_one_of_stepped (hw.single id) htasks htasks' fun t' hnext hfunds => ?_
  obtain ⟨swap, hswap⟩ := LnTask.fundsFor_iff.mp hfunds
  rcases h.funds_cases hnext hswap with ⟨s, hs, -⟩ | ⟨rfl, -⟩
  · exact .inl (LnTask.fundsFor_iff.mpr ⟨s, hs⟩)
  · refine .inr fun t₁ ht₁ => ?_
    have hnone := all_eq_true.mp halone t₁ ht₁
    simp only [Bool.and_eq_true, Bool.not_eq_true'] at hnone
    exact hnone.1

include h htasks htasks' hqueue in
theorem FreshKey.stepped (hfresh : FreshKey w id key) (hnot : t.holds id key = false)
    (hnew : ∀ req, t = .acceptTerms req → req.swapId = id → answers.keypair ≠ key) :
    FreshKey w' id key := by
  have hcopy : ∀ s, t.copy = some (id, s) → s.privkey ≠ key := by
    intro s hs hkey
    rw [LnTask.holds_iff.mpr ⟨s, hs, hkey⟩] at hnot
    cases hnot
  refine ⟨fun s hs hkey => ?_, by rw [hqueue]; exact hfresh.queue, fun e he => ?_, ?_⟩
  · rcases h.lookup_cases hs with hold | ⟨after', rfl⟩ | ⟨remaining, _, rfl, -, -⟩ |
      ⟨s₀, height, hold, -, rfl⟩
    · exact hfresh.live s hold hkey
    · exact hcopy s rfl hkey
    · exact hcopy s rfl hkey
    · exact hfresh.live s₀ hold hkey
  · rcases h.history_cases with hsame | ⟨e₀, hemits, hcons⟩
    · rw [hsame] at he
      exact hfresh.history e he
    · rw [hcons, mem_cons] at he
      rcases he with rfl | he
      · by_contra hne
        rw [hemits.holds (by simpa using hne)] at hnot
        cases hnot
      · exact hfresh.history e he
  · have hone := hfresh.tasks
    rw [htasks, countP_append, countP_cons, hnot] at hone
    rw [htasks', countP_append, countP_append]
    have hzero : next.toList.countP (·.holds id key) = 0 := by
      rw [countP_eq_zero]
      intro t' ht' hh
      rcases h.holds_cases (Option.mem_toList.mp ht') hh with
        hh | ⟨s, hs, hk⟩ | ⟨req, hreq, hid, hk⟩
      · rw [hnot] at hh
        cases hh
      · exact hfresh.live s hs hk
      · exact hnew req hreq hid hk
    omega

theorem LnServer.keyUnused_iff :
    w.keyUnused id key ↔
      (∀ s, w.shared.lnSwaps.lookup id = some s → s.privkey ≠ key) ∧
      (∀ t ∈ w.tasks, t.holds id key = false) ∧ (∀ s, (id, s) ∈ w.queue → s.privkey ≠ key) ∧
      ∀ e ∈ w.shared.history, e.about id key = false := by
  simp only [LnServer.keyUnused, Bool.and_eq_true, all_eq_true, Bool.not_eq_true',
    Option.all_eq_true, decide_eq_true_eq, and_assoc]
  refine and_congr_right' (and_congr_right' (and_congr_left' ⟨fun h s hs => h (id, s) hs rfl, ?_⟩))
  rintro h ⟨id', s⟩ hmem rfl
  exact h s hmem

include hw h htruly htasks htasks' hqueue in
theorem FailBackOk.fresh_stepped
    (hmem : .store id swap .accepted ∈ w'.tasks ∨ .insert id swap .accepted ∈ w'.tasks) :
    FreshKey w' id swap.privkey := by
  have hown := mem_tasks_self htasks
  obtain ⟨t₁, ht₁, hacc⟩ : ∃ t₁ ∈ w'.tasks,
      t₁ = .store id swap .accepted ∨ t₁ = .insert id swap .accepted := by
    rcases hmem with hmem | hmem
    · exact ⟨_, hmem, .inl rfl⟩
    · exact ⟨_, hmem, .inr rfl⟩
  have hholds : t₁.holds id swap.privkey = true :=
    LnTask.holds_iff.mpr ⟨swap, by rcases hacc with rfl | rfl <;> rfl, rfl⟩
  rcases tasks_cases htasks' ht₁ with hother | hnext
  · have hmem₁ := mem_tasks_of_others htasks hother
    have hfresh : FreshKey w id swap.privkey :=
      hw.fresh id swap (by rcases hacc with rfl | rfl; exacts [.inl hmem₁, .inr hmem₁])
    refine hfresh.stepped h htasks htasks' hqueue
      (not_of_countP_le_one hfresh.tasks htasks hother hholds) ?_
    rintro req rfl rfl hkey
    have hunused := (LnServer.keyUnused_iff.mp htruly).2.1 t₁ hmem₁
    rw [hkey, hholds] at hunused
    cases hunused
  · obtain ⟨hswaps, hhistory, hfrom⟩ := h.accepted_cases hnext hacc
    have hcount : w'.tasks.countP (·.holds id swap.privkey) =
        before.countP (·.holds id swap.privkey) + 1 + after.countP (·.holds id swap.privkey) := by
      rw [htasks', hnext, countP_append, countP_append, Option.toList_some,
        countP_singleton, if_pos hholds, Nat.add_assoc]
    rcases hfrom with ⟨req, rfl, rfl, hkey⟩ | rfl
    · obtain ⟨hlive, hnone, hqueued, hpast⟩ := LnServer.keyUnused_iff.mp htruly
      rw [hkey] at hlive hnone hqueued hpast
      refine ⟨by rw [hswaps]; exact hlive, by rw [hqueue]; exact hqueued,
        by rw [hhistory]; exact hpast, ?_⟩
      have hzero : w.tasks.countP (·.holds req.swapId swap.privkey) = 0 :=
        countP_eq_zero.mpr fun t₂ ht₂ => by rw [hnone t₂ ht₂]; decide
      rw [htasks, countP_append, countP_cons] at hzero
      omega
    · have hfresh := hw.fresh id swap (.inl hown)
      refine ⟨by rw [hswaps]; exact hfresh.live, by rw [hqueue]; exact hfresh.queue,
        by rw [hhistory]; exact hfresh.history, ?_⟩
      have hone := hfresh.tasks
      rw [htasks, countP_append, countP_cons,
        if_pos (LnTask.holds_iff.mpr ⟨swap, rfl, rfl⟩)] at hone
      omega

theorem LnTask.forgets_advance (hf : t.forgets id)
    (hadvance : t.advance maker sh answers = (sh', nextTask)) :
    (∃ t', nextTask.task = some t' ∧ t'.forgets id) ∨ sh'.lnSwaps.lookup id = none := by
  cases t with
  | unsubscribe id' paymentHash =>
    cases hadvance
    exact .inl ⟨_, rfl, hf⟩
  | remove id' =>
    cases hadvance
    cases of_decide_eq_true hf
    exact .inr (AList.lookup_erase id _)
  | _ => cases hf

include hw h halone htasks htasks' in
theorem Lapsed.stepped (hl : Lapsed w id key)
    (hadvance : t.advance maker w.shared answers = (w'.shared, nextTask))
    (hnextTask : nextTask.task = next) (hpast : ∃ e ∈ w.shared.history, e.about id key) :
    Lapsed w' id key where
  unsent hsent := by
    rcases h.sent_cases hsent with hsent | ⟨⟨s, tx, rfl, hkey⟩, -⟩
    · exact hl.unsent hsent
    · exact hl.unfunded _ (mem_tasks_self htasks) s rfl hkey
  unfunded t₁ ht₁ swap hfunds hkey := by
    rcases tasks_cases htasks' ht₁ with hother | hnext
    · exact hl.unfunded t₁ (mem_tasks_of_others htasks hother) swap hfunds hkey
    · rcases h.funds_cases hnext hfunds with ⟨s, hs, hk⟩ | ⟨rfl, -, hlive, hphase⟩
      · exact hl.unfunded t (mem_tasks_self htasks) s hs (hk.trans hkey)
      · obtain ⟨t₂, ht₂, hforgets⟩ := hl.forgotten swap hlive hkey hphase
        have := all_eq_true.mp halone t₂ ht₂
        rw [hforgets] at this
        simp at this
  forgotten swap hswap hkey hphase := by
    have hown := mem_tasks_self htasks
    rcases h.outAccepted_cases (hw.copies t hown) hswap hphase with hold | rfl | rfl
    · obtain ⟨t₁, ht₁, hforgets⟩ := hl.forgotten swap hold hkey hphase
      rw [htasks, mem_append, mem_cons] at ht₁
      rcases ht₁ with hmem | rfl | hmem
      · exact ⟨t₁, by simp [htasks', hmem], hforgets⟩
      · rcases LnTask.forgets_advance hforgets hadvance with ⟨t', ht', hforgets'⟩ | hgone
        · exact ⟨t', by simp [htasks', ← hnextTask, ht'], hforgets'⟩
        · rw [hgone] at hswap
          cases hswap
      · exact ⟨t₁, by simp [htasks', hmem], hforgets⟩
    · obtain ⟨e, he, habout⟩ := hpast
      have := (hw.fresh id swap (.inr hown)).history e he
      rw [hkey, habout] at this
      cases this
    · exact absurd hkey (hl.unfunded _ hown swap rfl)

theorem LnTask.Stepped.forgets_of_expired
    (h : LnTask.Stepped maker sh answers (.expire id swap) sh' next)
    (hnew : sh'.history = .failedBack id swap sh.chain :: sh.history) :
    ∃ t', next = some t' ∧ t'.forgets id = true := by
  cases h with
  | expired => exact ⟨_, rfl, decide_eq_true rfl⟩
  | ended | quiet => exact absurd hnew.symm (cons_ne_self _ _)
  | forgotten phase =>
    unfold LnShared.removeLnSwapIfPhase at hnew
    split at hnew <;> exact absurd hnew.symm (cons_ne_self _ _)
  | sweepSent | settled => cases (List.cons.inj hnew).1

theorem RefundConfirmed.mono (h : RefundConfirmed history id key chain)
    (hmono : ∀ e ∈ history, e ∈ history') :
    RefundConfirmed history' id key chain := by
  obtain ⟨funded, refund, outpoint, value, txid, hfunded, hkey, hout, hrefund, hrest⟩ := h
  exact ⟨funded, refund, outpoint, value, txid, hmono _ hfunded, hkey, hout, hmono _ hrefund, hrest⟩

include hw h halone htasks htasks' in
/-- A payment failed back for want of it leaves a lapsed swap. -/
theorem FailBackOk.lapsed_of_expired (ht : t = .expire id swap)
    (hdirection : swap.direction = .swapOut)
    (hlate : swapOutPaymentDeadline < w.shared.clock - swap.updatedAt)
    (hnew : w'.shared.history = .failedBack id swap w.shared.chain :: w.shared.history) :
    Lapsed w' id swap.privkey := by
  subst ht
  simp only [LnServer.failsBackAlone, hdirection, hlate, decide_true, Bool.not_true, Bool.or_false,
    reduceCtorEq, decide_false, Bool.false_or, Bool.and_eq_true] at halone
  obtain ⟨hlive, hunfunded⟩ := halone
  obtain ⟨s, hs, hin⟩ := (Option.any_eq_true _ _).mp hlive
  obtain ⟨hkey, hphase⟩ := of_decide_eq_true hin
  obtain ⟨t', hnext, hforgets⟩ := h.forgets_of_expired hnew
  refine ⟨fun hsent => ?_, fun t₁ ht₁ swap₁ hfunds _ => ?_, fun _ _ _ _ => ?_⟩
  · rcases h.sent_cases hsent with hsent | ⟨⟨_, _, heq, -⟩, -⟩
    · exact hw.unawaited id s (hkey ▸ hsent) hs hphase
    · cases heq
  · rcases tasks_cases htasks' ht₁ with hother | hnext
    · have := all_eq_true.mp hunfunded t₁ (mem_tasks_of_others htasks hother)
      rw [LnTask.fundsFor_iff.mpr ⟨swap₁, hfunds⟩] at this
      cases this
    · rcases h.funds_cases hnext hfunds with ⟨_, hs, -⟩ | ⟨heq, -⟩
      · cases hs
      · cases heq
  · exact ⟨t', by simp [htasks', hnext], hforgets⟩

include hw h htruly htasks in
theorem FailBackOk.refundConfirmed {outpoint value txid} (ht : t = .resolveSwapOut id swap)
    (hfunding : swap.funding = some (outpoint, value))
    (hspent : w.shared.chain.confirmedSpend outpoint) (htxid : swap.refundTxid = some txid)
    (hconfirmed : (w.shared.chain.txBlockHeight P txid).isSome) :
    RefundConfirmed w'.shared.history id swap.privkey w.shared.chain := by
  subst ht
  obtain ⟨refund, hrefund, hkey, hsame, hby⟩ :=
    (hw.copies _ (mem_tasks_self htasks)).1.sent txid htxid
  simp only [LnServer.answersTruly, hfunding, Option.all_some, hspent, Bool.not_true,
    Bool.false_or] at htruly
  obtain ⟨e, he, hsends⟩ := any_eq_true.mp htruly
  unfold LnEffect.sends at hsends
  split at hsends
  · obtain ⟨rfl, hfkey, hout⟩ := of_decide_eq_true hsends
    exact ⟨_, refund, outpoint, value, txid, h.history_mono _ he, hfkey, hout,
      h.history_mono _ hrefund, hkey, hsame.trans hfunding, hby, hconfirmed, hspent⟩
  · cases hsends

include hw h htruly halone htasks htasks' in
theorem FailBackOk.failed_stepped
    (hadvance : t.advance maker w.shared answers = (w'.shared, nextTask))
    (hnextTask : nextTask.task = next) (hmem : .failedBack id swap chain ∈ w'.shared.history) :
    RefundConfirmed w'.shared.history id swap.privkey chain ∨ Lapsed w' id swap.privkey := by
  have hold : .failedBack id swap chain ∈ w.shared.history →
      RefundConfirmed w'.shared.history id swap.privkey chain ∨ Lapsed w' id swap.privkey := by
    intro hmem
    rcases hw.failed id swap chain hmem with hrefund | hl
    · exact .inl (hrefund.mono h.history_mono)
    · exact .inr (hl.stepped hw h halone htasks htasks' hadvance hnextTask
        ⟨_, hmem, by simp [LnEffect.about]⟩)
  rcases h.history_cases with hsame | ⟨e, hemits, hnew⟩
  · rw [hsame] at hmem
    exact hold hmem
  · have hcons := hmem
    rw [hnew, mem_cons] at hcons
    rcases hcons with rfl | hpast
    · cases hemits with
      | expired hdirection hlate =>
        exact .inr (hw.lapsed_of_expired h halone htasks htasks' rfl hdirection hlate hnew)
      | refunded hfunding hspent htxid hconfirmed =>
        exact .inl (hw.refundConfirmed h htruly htasks rfl hfunding hspent htxid hconfirmed)
    · exact hold hpast

include hw h htruly halone htasks htasks' hqueue in
theorem FailBackOk.stepped (hadvance : t.advance maker w.shared answers = (w'.shared, nextTask))
    (hnextTask : nextTask.task = next) : FailBackOk w' where
  copies t₁ ht₁ := by
    rcases tasks_cases htasks' ht₁ with hother | hnext
    · exact (hw.copies t₁ (mem_tasks_of_others htasks hother)).mono h.history_mono
    · exact h.copyOk hw.live (hw.copies t (mem_tasks_self htasks)) hnext
  live := h.liveOk hw.live (hw.copies t (mem_tasks_self htasks))
  queue id swap hmem := (hw.queue id swap (hqueue ▸ hmem)).mono h.history_mono
  single := hw.single_stepped h halone htasks htasks'
  fresh _ _ hmem := hw.fresh_stepped h htruly htasks htasks' hqueue hmem
  unawaited _ _ hsent hswap := hw.unawaited_stepped h htasks hsent hswap
  known _ ht₁ _ _ hfunds hsent := hw.known_stepped h htruly htasks htasks' ht₁ hfunds hsent
  sending _ _ _ hmem _ hs hkey := hw.sending_stepped h htasks htasks' hmem hs hkey
  once _ _ _ hs hs' hkey := hw.once_stepped h htasks hs hs' hkey
  failed _ _ _ hmem :=
    hw.failed_stepped h htruly halone htasks htasks' hadvance hnextTask hmem

end Steps

def LnTask.begins : LnTask P → Bool
  | .checkExists _ | .funded _ | .paid _ | .claimed _ _ | .finishSwapIn _ _ | .finishSweep _ _
  | .expireSwapIn _ _ | .expire _ _ | .resolveSwapOut _ _ => true
  | _ => false

theorem LnTask.funds_of_begins (h : t.begins) : t.funds = none := by
  unfold LnTask.begins at h
  split at h <;> first | rfl | cases h

theorem LnServer.Begins.cases (h : w.Begins t)
    (hqueue : ∀ id swap, (id, swap) ∈ w.queue → swap.RefundOk w.shared.history id) :
    t.CopyOk w.shared.history ∧ t.begins ∧
      ∀ id swap, t.copy = some (id, swap) → (id, swap) ∈ w.queue := by
  rcases h with ⟨msg, rfl⟩ | ⟨id, swap, hmem, htask⟩
  · cases msg with
    | request | swapInFunded | swapOutPaid | swapOutClaimed =>
      exact ⟨trivial, rfl, fun _ _ hc => by cases hc⟩
  · have hcopy := hqueue id swap hmem
    have hheld : t.copy = some (id, swap) ∧ t.begins = true := by
      unfold watchdogTask at htask
      split at htask <;> cases htask <;> exact ⟨rfl, rfl⟩
    refine ⟨?_, hheld.2, fun id' swap' hc => ?_⟩
    · unfold watchdogTask at htask
      split at htask
      all_goals cases htask
      all_goals first
        | trivial
        | exact ⟨hcopy, by simp only [*, LnMakerPhase.awaits]⟩
    · rw [hheld.1] at hc
      cases hc
      exact hmem

theorem FailBackOk.idles (hw : FailBackOk w) (h : w.Idles a w') : FailBackOk w' := by
  have hfunds : ∀ t, w.Begins t → t.funds = none := fun t ht =>
    LnTask.funds_of_begins (ht.cases hw.queue).2.1
  have hold : ∀ t ∈ w'.tasks, t.begins = false → t ∈ w.tasks := by
    intro t ht hnot
    refine (h.tasks t ht).resolve_right fun hb => ?_
    rw [(hb.cases hw.queue).2.1] at hnot
    cases hnot
  have hfunded : ∀ t ∈ w'.tasks, ∀ id swap, t.funds = some (id, swap) → t ∈ w.tasks := by
    intro t ht id swap hf
    refine (h.tasks t ht).resolve_right fun hb => ?_
    rw [hfunds t hb] at hf
    cases hf
  constructor
  · intro t ht
    rw [h.history]
    exact (h.tasks t ht).elim (hw.copies t) fun hb => (hb.cases hw.queue).1
  · rw [LnShared.LiveOk, h.swaps, h.history]
    exact hw.live
  · intro id swap hmem
    rw [h.history]
    exact (h.queue id swap hmem).elim (hw.queue id swap) (hw.live id swap)
  · intro id
    rw [h.count _ fun t hb => by simp [LnTask.fundsFor, hfunds t hb]]
    exact hw.single id
  · intro id swap hmem
    have hfresh := hw.fresh id swap (hmem.imp (hold _ · rfl) (hold _ · rfl))
    refine ⟨by rw [h.swaps]; exact hfresh.live, fun s hs => ?_,
      by rw [h.history]; exact hfresh.history, ?_⟩
    · exact (h.queue id s hs).elim (hfresh.queue s) (hfresh.live s)
    · rw [h.count _ fun t hb => ?_]
      · exact hfresh.tasks
      · by_contra hne
        obtain ⟨s, hs, hkey⟩ := LnTask.holds_iff.mp (by simpa using hne)
        exact hfresh.queue s ((hb.cases hw.queue).2.2 id s hs) hkey
  · rw [h.swaps, h.history]
    exact hw.unawaited
  · intro t ht id swap hf
    rw [h.history]
    exact hw.known t (hfunded t ht id swap hf) id swap hf
  · intro id swap tx hmem
    rw [h.swaps]
    exact hw.sending id swap tx (hold _ hmem rfl)
  · rw [h.history]
    exact hw.once
  · intro id swap chain hmem
    rw [h.history] at hmem ⊢
    refine (hw.failed id swap chain hmem).imp_right fun hl =>
      ⟨by rw [h.history]; exact hl.unsent,
        fun t ht s hf => hl.unfunded t (hfunded t ht id s hf) s hf, fun s hs hkey hphase => ?_⟩
    rw [h.swaps] at hs
    obtain ⟨t, ht, hforgets⟩ := hl.forgotten s hs hkey hphase
    exact ⟨t, h.kept t ht, hforgets⟩

theorem FailBackOk.step (hw : FailBackOk w) (hok : w.failsBackGuarded a)
    (h : w.step maker a = some w') : FailBackOk w' := by
  rcases LnServer.step_cases h with hidles |
    ⟨t, answers, nextTask, before, after, hstepping, hstep, htasks, htasks', hqueue, hadvance⟩
  · exact hw.idles hidles
  · rw [LnServer.failsBackGuarded, LnServer.truthful, hstepping, Option.all_some,
      Option.all_some] at hok
    exact hw.stepped hstep hok.1 hok.2 htasks htasks' hqueue hadvance rfl

theorem FailBackOk.start (chain : Chain) : FailBackOk (LnServer.start chain : LnServer P) := by
  constructor <;> simp [LnServer.start, LnServer.tasks, LnShared.LiveOk]

theorem LnTask.Emits.holdsKey {chain} (h : LnTask.Emits w.shared t (.failedBack id swap chain))
    (halone : w.failsBackAlone t) :
    w.shared.holdsKey id swap.privkey = true := by
  cases h with
  | expired hdirection hlate =>
    simp only [LnServer.failsBackAlone, hdirection, hlate, decide_true, Bool.not_true,
      Bool.or_false, reduceCtorEq, decide_false, Bool.false_or, Bool.and_eq_true] at halone
    obtain ⟨s, hs, hin⟩ := (Option.any_eq_true _ _).mp halone.1
    rw [LnShared.holdsKey, hs, Option.any_some]
    exact decide_eq_true (of_decide_eq_true hin).1
  | refunded hfunding hspent htxid hconfirmed =>
    simp only [LnServer.failsBackAlone, htxid, Option.bind_some, Bool.or_eq_true,
      Option.isNone_iff_eq_none] at halone
    rcases halone with hnone | hkey
    · rw [hnone] at hconfirmed
      cases hconfirmed
    · exact hkey

/-- **Held payments of swap-outs.**  In runs that meet `failsBackAlone`, the payment of a swap
whose funding is broadcast, before or after, is failed back only once the maker's refund of that
funding has confirmed. -/
theorem failed_back_after_refund (maker : LnMaker P) (chain : Chain) {w : LnServer P}
    (hrun : Run.Reachable (LnServer.step · maker) LnServer.failsBackGuarded (.start chain) w) :
    (∀ id swap c funded, .failedBack id swap c ∈ w.shared.history →
      .fundingSent id funded ∈ w.shared.history → funded.privkey = swap.privkey →
        ∃ refund outpoint value destination tx, funded.funding.map (·.1) = some outpoint ∧
          refund.privkey = funded.privkey ∧
          refund.htlc.createTimelockSpend outpoint value refund.privkey destination = .ok tx ∧
          .refundSent id refund (P.txid tx) ∈ w.shared.history ∧
          (c.txBlockHeight P (P.txid tx)).isSome = true ∧ c.confirmedSpend outpoint = true) ∧
      ∀ a w', w.failsBackGuarded a → w.step maker a = some w' → ∀ id swap c,
        w'.shared.history = .failedBack id swap c :: w.shared.history →
          w.shared.holdsKey id swap.privkey = true := by
  have hw : FailBackOk w := hrun.invariant (.start chain) fun _ _ _ hw hok h => hw.step hok h
  constructor
  · intro id swap c funded hfailed hfunded hkey
    rcases hw.failed id swap c hfailed with hrefund | hl
    · obtain ⟨funded', refund, outpoint, value, txid, hfunded', hkey', hout, hsent, hrkey, hfunding,
        hby, hconfirmed, hspent⟩ := hrefund
      cases hw.once id funded funded' hfunded hfunded' (hkey.trans hkey'.symm)
      obtain ⟨outpoint', value', destination, tx, hsame, htx, rfl⟩ := hby
      rw [hfunding, Option.some.injEq, Prod.mk.injEq] at hsame
      obtain ⟨rfl, rfl⟩ := hsame
      exact ⟨refund, outpoint, value, destination, tx, hout, hrkey.trans hkey'.symm, htx, hsent,
        hconfirmed, hspent⟩
    · exact absurd ⟨funded, hfunded, hkey⟩ hl.unsent
  · intro a w' hok h id swap c hnew
    obtain ⟨t, answers, _, hstepping, -, hemits⟩ := LnServer.step_emits h hnew
    rw [LnServer.failsBackGuarded, hstepping, Option.all_some] at hok
    exact hemits.holdsKey hok.2

end

/-! ## A payment failed back, and the funding sent all the same -/

namespace SampleLn

def outRequest : LnSwapOutRequest prims where
  swapId := swapId
  paymentHash := paymentHash
  amount := 100000
  locktime := 144
  minConfirmations := 1
  takerHashlockPubkey := ⟨true, TablePoint.mul 5⟩
  features := ["ln-swap-out"]

/-- The swap-out is accepted and its payment held; the handler has seen it and is about
to fund. -/
def outPaid : List (LnAction prims) :=
  .message (.request (.swapOut outRequest)) :: List.replicate 5 (.handler 0 (answers 0)) ++
    [.message (.swapOutPaid swapId), .handler 0 (answers 0),
      .event paymentHash (.paymentClaimable (some 300)), .handler 0 (answers 0)]

/-- The swap-out is accepted and never paid: the watchdog turns to it after an hour. -/
def outUnpaid : List (LnAction prims) :=
  .message (.request (.swapOut outRequest)) :: List.replicate 5 (.handler 0 (answers 0)) ++
    [.wait 3601, .snapshot, .turn 0]

/-- The handler is held up for an hour: the watchdog fails the payment back and forgets
the swap, and then the handler funds it. -/
def outFundedLate : List (LnAction prims) :=
  outPaid ++ [.wait 3601, .snapshot, .turn 0] ++ List.replicate 4 (.watchdog (answers 0)) ++
    List.replicate 4 (.handler 0 (answers 0))

/-- The watchdog is about to fail the payment of the live swap back. -/
def expiring (w : LnServer prims) : Bool :=
  match w.watchdog, w.step maker (.watchdog (answers 0)) with
  | some (.expire id swap), some w' =>
    id = swapId ∧ w.failsBackGuarded (.watchdog (answers 0)) ∧
      w'.shared.history = .failedBack id swap w.shared.chain :: w.shared.history
  | _, _ => false

def fundedAfterFailBack (w : LnServer prims) : Bool :=
  match w.shared.history with
  | [.fundingSent id funded, .failedBack id' swap _] =>
    id = swapId ∧ id' = swapId ∧ funded.privkey = swap.privkey
  | _ => false

end SampleLn

open SampleLn in
theorem failed_back_live_swap_unpaid :
    ∃ (w w' : LnServer prims) (swap : LnMakerSwap prims),
      Run.Reachable (LnServer.step · maker) LnServer.failsBackGuarded (.start chain) w ∧
      w.failsBackGuarded (.watchdog (answers 0)) ∧
      w.step maker (.watchdog (answers 0)) = some w' ∧
      w'.shared.history = .failedBack swapId swap w.shared.chain :: w.shared.history ∧
      w.shared.holdsKey swapId swap.privkey = true := by
  obtain ⟨w, hrun, hw⟩ : ∃ w, Run.Reachable (LnServer.step · maker) LnServer.failsBackGuarded
      (.start chain) w ∧ expiring w = true :=
    Run.exists_reachable_of_exec outUnpaid (by decide +kernel)
  unfold expiring at hw
  split at hw
  · rename_i id swap w' _ hstep
    obtain ⟨rfl, hguarded, hhistory⟩ := of_decide_eq_true hw
    exact ⟨w, w', swap, hrun, hguarded, hstep, hhistory,
      (failed_back_after_refund maker chain hrun).2 _ _ hguarded hstep _ _ _ hhistory⟩
  · cases hw

open SampleLn in
/-- A handler held up before it funds: the payment is failed back, and the funding is
broadcast all the same, without a refund. -/
theorem funding_sent_after_fail_back :
    ∃ (w : LnServer prims) (swap funded : LnMakerSwap prims) (c : Chain),
      Run.Reachable (LnServer.step · maker) LnServer.truthful (.start chain) w ∧
      w.shared.history = [.fundingSent swapId funded, .failedBack swapId swap c] ∧
      funded.privkey = swap.privkey := by
  obtain ⟨w, hrun, hw⟩ : ∃ w, Run.Reachable (LnServer.step · maker) LnServer.truthful
      (.start chain) w ∧ fundedAfterFailBack w = true :=
    Run.exists_reachable_of_exec outFundedLate (by decide +kernel)
  unfold fundedAfterFailBack at hw
  split at hw
  · rename_i id funded id' swap c hhistory
    obtain ⟨rfl, rfl, hkey⟩ := of_decide_eq_true hw
    exact ⟨w, swap, funded, c, hrun, hhistory, hkey⟩
  · cases hw

end OpenSwap
