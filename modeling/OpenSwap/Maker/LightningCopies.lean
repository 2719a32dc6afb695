import OpenSwap.Maker.LightningStore

/-!
# Copies of Lightning swaps

Handlers and the watchdog work on copies of the live swaps.

* `LnTask.copy` is the copy a task holds, `LnTask.funds` the swap-out a handler is funding;
  `LnTask.Stepped.copy_cases` and `LnTask.Stepped.funds_cases` say where they come from.
-/

namespace OpenSwap

open Btc Checked

section

variable {P : Prims} {maker : LnMaker P} {answers : LnAnswers P} {sh sh' : LnShared P}
  {t t' : LnTask P} {next : Option (LnTask P)} {history history' : List (LnEffect P)}

/-! ## Copies and what they say of refunds -/

/-- The phases in which nothing of the swap is on the chain. -/
def LnMakerPhase.awaits : LnMakerPhase → Bool
  | .inAccepted | .outAccepted => true
  | _ => false

/-- A copy of a swap names no refund but one that was sent for its own funding, and none
while it awaits a funding. -/
structure LnMakerSwap.RefundOk (history : List (LnEffect P)) (id : String) (swap : LnMakerSwap P) :
    Prop where
  sent : ∀ txid, swap.refundTxid = some txid → ∃ refund, .refundSent id refund txid ∈ history ∧
    refund.privkey = swap.privkey ∧ refund.funding = swap.funding ∧ refund.RefundedBy txid
  awaits : swap.phase.awaits → swap.refundTxid = none

def LnTask.CopyOk (history : List (LnEffect P)) : LnTask P → Prop
  | .awaitConfirmation _ swap | .verifyFunding _ swap | .fundingHeight _ swap _
  | .awaitHeld _ swap | .fundHtlc _ swap _ | .sendFunding _ swap _ | .checkKnown _ swap _ =>
    swap.refundTxid = none
  | .store id swap after | .insert id swap after =>
    swap.RefundOk history id ∧
      (swap.phase.awaits = true → after = .accepted ∨ after = .reverted) ∧
      ∀ tx, after = .sendFunding tx → swap.refundTxid = none
  | .moveToPaid id swap _ | .payInvoice id swap _ | .awaitPreimage id swap
  | .sweepSwapIn id swap _ | .finishSwapIn id swap | .paymentOutcome id swap
  | .finishSweep id swap | .resolveSwapOut id swap | .sendRefund id swap =>
    swap.RefundOk history id ∧ swap.phase.awaits = false
  | _ => True

variable {id : String} {swap' : LnMakerSwap P} {swap : LnMakerSwap P}

theorem LnMakerSwap.RefundOk.of_none (h : swap.refundTxid = none) :
    swap.RefundOk history id where
  sent txid htxid := by rw [h] at htxid; cases htxid
  awaits _ := h

theorem LnMakerSwap.RefundOk.mono (h : swap.RefundOk history id)
    (hmono : ∀ e ∈ history, e ∈ history') :
    swap.RefundOk history' id where
  sent txid htxid := by
    obtain ⟨refund, hmem, hrefund⟩ := h.sent txid htxid
    exact ⟨refund, hmono _ hmem, hrefund⟩
  awaits := h.awaits

/-- Where key, funding and refund are those of a good copy, a phase that awaits nothing
makes the copy good again. -/
theorem LnMakerSwap.RefundOk.of_eq (h : swap.RefundOk history id)
    (hrefund : swap'.refundTxid = swap.refundTxid) (hkey : swap'.privkey = swap.privkey)
    (hfunding : swap'.funding = swap.funding)
    (hphase : swap'.phase = swap.phase ∨ swap'.phase.awaits = false) :
    swap'.RefundOk history id where
  sent txid htxid := by
    rw [hkey, hfunding]
    exact h.sent txid (hrefund ▸ htxid)
  awaits hawaits := by
    rcases hphase with hsame | hnot
    · rw [hrefund]
      exact h.awaits (hsame ▸ hawaits)
    · rw [hnot] at hawaits
      cases hawaits

theorem LnTask.CopyOk.mono (h : t.CopyOk history) (hmono : ∀ e ∈ history, e ∈ history') :
    t.CopyOk history' := by
  cases t with
  | store | insert => exact ⟨h.1.mono hmono, h.2⟩
  | moveToPaid | payInvoice | awaitPreimage | sweepSwapIn | finishSwapIn | paymentOutcome
  | finishSweep | resolveSwapOut | sendRefund => exact ⟨h.1.mono hmono, h.2⟩
  | _ => exact h

theorem acceptRequest_eq_ok {req} (h : acceptRequest maker sh answers req = .ok swap) :
    swap.privkey = answers.keypair ∧ swap.refundTxid = none := by
  cases req with
  | swapIn req =>
    simp only [acceptRequest, acceptSwapIn, bind_ok_iff] at h
    obtain ⟨_, -, _, -, _, -, _, -, _, -, h⟩ := h
    cases h
    exact ⟨rfl, rfl⟩
  | swapOut req =>
    simp only [acceptRequest, acceptSwapOut, bind_ok_iff] at h
    obtain ⟨_, -, _, -, h⟩ := h
    cases h
    exact ⟨rfl, rfl⟩

def LnShared.LiveOk (sh : LnShared P) : Prop :=
  ∀ id swap, sh.lnSwaps.lookup id = some swap → swap.RefundOk sh.history id

theorem LnTask.Quiet.copyOk (h : LnTask.Quiet maker sh answers t t') (hlive : sh.LiveOk)
    (ht : t.CopyOk sh.history) : t'.CopyOk sh.history := by
  cases h with
  | accept hok =>
    have hnone := (acceptRequest_eq_ok hok).2
    exact ⟨.of_none hnone, fun _ => .inl rfl, nofun⟩
  | awaitConfirmation hswap hphase =>
    exact (hlive _ _ hswap).awaits (by rw [hphase]; rfl)
  | awaitHeld hswap hphase => exact (hlive _ _ hswap).awaits (by rw [hphase]; rfl)
  | moveToPaid => exact ⟨.of_none ht, rfl⟩
  | sweep hfrom => rcases hfrom with rfl | rfl | rfl <;> exact ht
  | @payout _ id swap script after hfrom =>
    have hcopy : swap.RefundOk sh.history id ∧ swap.phase.awaits = false := by
      rcases hfrom with ⟨_, rfl, -⟩ | ⟨rfl, -⟩ <;> exact ht
    refine ⟨hcopy.1.of_eq rfl rfl rfl (.inl rfl), fun hawaits => ?_, fun tx hafter => ?_⟩
    · rw [show swap.phase.awaits = true from hawaits] at hcopy
      cases hcopy.2
    · rcases hfrom with ⟨_, -, rfl⟩ | ⟨-, rfl⟩ <;> cases hafter
  | swept => exact ⟨ht.1.of_eq rfl rfl rfl (.inr rfl), nofun, nofun⟩
  | fund => exact ⟨.of_none ht, nofun, fun _ _ => ht⟩
  | revert => exact ⟨.of_none ht, fun _ => .inr rfl, nofun⟩
  | _ => trivial

theorem AfterStore.Resumed.copyOk {after : AfterStore} (h : after.Resumed sh id swap t')
    (hcopy : swap.RefundOk history id)
    (hphase : swap.phase.awaits → after = .accepted ∨ after = .reverted)
    (hfund : ∀ tx, after = .sendFunding tx → swap.refundTxid = none) : t'.CopyOk history := by
  cases h with
  | sweep => exact ⟨hcopy.of_eq rfl rfl rfl (.inr rfl), nofun, nofun⟩
  | sendFunding => exact hfund _ rfl
  | sendRefund =>
    refine ⟨hcopy, ?_⟩
    by_contra hawaits
    rcases hphase (by simpa using hawaits) with h | h <;> cases h
  | _ => trivial

theorem LnTask.Stepped.copyOk (h : LnTask.Stepped maker sh answers t sh' next) (hlive : sh.LiveOk)
    (ht : t.CopyOk sh.history) (hnext : next = some t') : t'.CopyOk sh'.history := by
  cases h with
  | quiet mailboxes hq =>
    cases hnext
    exact hq.copyOk hlive ht
  | store hn =>
    obtain rfl := eq_of_none_or_some hn hnext
    exact ht
  | insert => exact (resumed hnext).copyOk ht.1 ht.2.1 ht.2.2
  | moved =>
    cases hnext
    exact ⟨ht.1.mono fun _ => List.mem_cons_of_mem _, ht.2⟩
  | paid hn =>
    obtain rfl := eq_of_none_or_some hn hnext
    exact ⟨ht.1.mono fun _ => List.mem_cons_of_mem _, ht.2⟩
  | fundingSent hn =>
    obtain rfl := eq_of_none_or_some hn hnext
    exact ht
  | @refundSent id swap txid hrefund =>
    cases hnext
    have hphase : ¬swap.phase.awaits = true := by rw [ht.2]; decide
    refine ⟨⟨fun txid' htxid => ?_, fun hawaits => absurd hawaits hphase⟩,
      fun hawaits => absurd hawaits hphase, nofun⟩
    cases htxid
    exact ⟨swap, List.mem_cons_self, rfl, rfl, hrefund⟩
  | ended | erase | forgotten | sweepSent => cases hnext
  | _ => cases hnext; trivial

theorem LnTask.Stepped.liveOk (h : LnTask.Stepped maker sh answers t sh' next) (hlive : sh.LiveOk)
    (ht : t.CopyOk sh.history) : sh'.LiveOk := by
  intro id swap hswap
  have hcopy : swap.RefundOk sh.history id := by
    rcases h.lookup_cases hswap with hold | ⟨after, rfl⟩ | ⟨remaining, _, rfl, -, -⟩ |
      ⟨before, height, hold, -, rfl⟩
    · exact hlive id swap hold
    · exact ht.1
    · exact ht.1
    · exact (hlive id before hold).of_eq rfl rfl rfl (.inl rfl)
  exact hcopy.mono h.history_mono

/-! ## Who works on a swap -/

namespace LnTask

def copy : LnTask P → Option (String × LnMakerSwap P)
  | .awaitConfirmation msg swap | .verifyFunding msg swap | .fundingHeight msg swap _ =>
    some (msg.swapId, swap)
  | .store id swap _ | .insert id swap _ | .moveToPaid id swap _ | .payInvoice id swap _
  | .awaitPreimage id swap | .sweepSwapIn id swap _ | .awaitHeld id swap | .fundHtlc id swap _
  | .sendFunding id swap _ | .checkKnown id swap _ | .settleClaim id swap _
  | .finishSwapIn id swap | .paymentOutcome id swap | .recoverFundingHeight id swap _
  | .dropUnsettled id swap _ _ | .finishSweep id swap | .resendSweep id swap
  | .expireSwapIn id swap | .expire id swap | .resolveSwapOut id swap | .sendRefund id swap =>
    some (id, swap)
  | _ => none

def holds (id : String) (key : P.SecretKey) (t : LnTask P) : Bool :=
  t.copy.any fun c => c.1 = id ∧ c.2.privkey = key

def funds : LnTask P → Option (String × LnMakerSwap P)
  | .awaitHeld id swap | .fundHtlc id swap _ | .sendFunding id swap _ | .checkKnown id swap _
  | .store id swap (.sendFunding _) | .insert id swap (.sendFunding _)
  | .store id swap .reverted | .insert id swap .reverted => some (id, swap)
  | _ => none

def fundsFor (id : String) (t : LnTask P) : Bool := t.funds.any (·.1 = id)

def forgets (id : String) : LnTask P → Bool
  | .unsubscribe id' _ | .remove id' => id' = id
  | _ => false

theorem holds_iff {key} :
    t.holds id key ↔ ∃ swap, t.copy = some (id, swap) ∧ swap.privkey = key := by
  simp [holds, Option.any_eq_true]

theorem fundsFor_iff :
    t.fundsFor id ↔ ∃ swap, t.funds = some (id, swap) := by
  simp [fundsFor, Option.any_eq_true]

end LnTask

def LnEffect.about (id : String) (key : P.SecretKey) : LnEffect P → Bool
  | .fundingSent id' swap | .failedBack id' swap _ => id' = id ∧ swap.privkey = key
  | _ => false

theorem LnTask.Emits.holds {e} (h : LnTask.Emits sh t e) {key} (he : e.about id key) :
    t.holds id key = true := by
  cases h with
  | fundingSent | expired | refunded => exact he
  | _ => cases he

/-! ### Where a copy comes from -/

theorem LnTask.Quiet.copy_cases (h : LnTask.Quiet maker sh answers t t')
    (hcopy : t'.copy = some (id, swap')) :
    (∃ swap, t.copy = some (id, swap) ∧ swap.privkey = swap'.privkey) ∨
      (∃ swap, sh.lnSwaps.lookup id = some swap ∧ swap.privkey = swap'.privkey) ∨
      ∃ req, t = .acceptTerms req ∧ req.swapId = id ∧ answers.keypair = swap'.privkey := by
  cases h with
  | stay => exact .inl ⟨swap', hcopy, rfl⟩
  | accept hok =>
    cases hcopy
    exact .inr (.inr ⟨_, rfl, rfl, (acceptRequest_eq_ok hok).1.symm⟩)
  | awaitConfirmation hswap | awaitHeld hswap | settleClaim hswap =>
    cases hcopy
    exact .inr (.inl ⟨_, hswap, rfl⟩)
  | sweep hfrom => cases hcopy; rcases hfrom with rfl | rfl | rfl <;> exact .inl ⟨_, rfl, rfl⟩
  | payout hfrom =>
    cases hcopy
    rcases hfrom with ⟨_, rfl, -⟩ | ⟨rfl, -⟩ <;> exact .inl ⟨_, rfl, rfl⟩
  | _ => cases hcopy <;> exact .inl ⟨_, rfl, rfl⟩

section

variable (h : LnTask.Stepped maker sh answers t sh' next)

include h

section

variable (hnext : next = some t')

include hnext

/-- A task goes on with its copy, or reads a live swap, or makes a swap with a new key. -/
theorem LnTask.Stepped.copy_cases (hcopy : t'.copy = some (id, swap')) :
    (∃ swap, t.copy = some (id, swap) ∧ swap.privkey = swap'.privkey) ∨
      (∃ swap, sh.lnSwaps.lookup id = some swap ∧ swap.privkey = swap'.privkey) ∨
      ∃ req, t = .acceptTerms req ∧ req.swapId = id ∧ answers.keypair = swap'.privkey := by
  cases h with
  | quiet mailboxes hq =>
    cases hnext
    exact hq.copy_cases hcopy
  | insert => cases resumed hnext <;> cases hcopy <;> exact .inl ⟨_, rfl, rfl⟩
  | store hn | paid hn | fundingSent hn =>
    obtain rfl := eq_of_none_or_some hn hnext
    cases hcopy
    exact .inl ⟨_, rfl, rfl⟩
  | _ => cases hnext <;> cases hcopy <;> exact .inl ⟨_, rfl, rfl⟩

theorem LnTask.Stepped.holds_cases {key} (hholds : t'.holds id key) :
    t.holds id key ∨
      (∃ swap, sh.lnSwaps.lookup id = some swap ∧ swap.privkey = key) ∨
      ∃ req, t = .acceptTerms req ∧ req.swapId = id ∧ answers.keypair = key := by
  obtain ⟨swap', hcopy, rfl⟩ := holds_iff.mp hholds
  rcases h.copy_cases hnext hcopy with ⟨swap, hold, hkey⟩ | hlive | hnew
  · exact .inl (holds_iff.mpr ⟨swap, hold, hkey⟩)
  · exact .inr (.inl hlive)
  · exact .inr (.inr hnew)

theorem LnTask.Stepped.funds_cases (hfunds : t'.funds = some (id, swap')) :
    (∃ swap, t.funds = some (id, swap) ∧ swap.privkey = swap'.privkey) ∨
      t = .paid id ∧ t' = .awaitHeld id swap' ∧ sh.lnSwaps.lookup id = some swap' ∧
        swap'.phase = .outAccepted := by
  cases h with
  | quiet mailboxes hq =>
    cases hnext
    cases hq with
    | stay => exact .inl ⟨swap', hfunds, rfl⟩
    | awaitHeld hswap hphase =>
      cases hfunds
      exact .inr ⟨rfl, rfl, hswap, hphase⟩
    | payout hfrom => rcases hfrom with ⟨_, -, rfl⟩ | ⟨-, rfl⟩ <;> cases hfunds
    | fundHtlc | fund | unsent | revert => cases hfunds; exact .inl ⟨_, rfl, rfl⟩
    | _ => cases hfunds
  | @store id₀ swap₀ after _ hn =>
    obtain rfl := eq_of_none_or_some hn hnext
    cases after <;> cases hfunds <;> exact .inl ⟨_, rfl, rfl⟩
  | insert => cases resumed hnext <;> cases hfunds; exact .inl ⟨_, rfl, rfl⟩
  | paid hn | fundingSent hn =>
    obtain rfl := eq_of_none_or_some hn hnext
    cases hfunds <;> exact .inl ⟨_, rfl, rfl⟩
  | _ => cases hnext <;> cases hfunds

theorem LnTask.Stepped.accepted_cases
    (ht' : t' = .store id swap .accepted ∨ t' = .insert id swap .accepted) :
    sh'.lnSwaps = sh.lnSwaps ∧ sh'.history = sh.history ∧
      ((∃ req, t = .acceptTerms req ∧ req.swapId = id ∧ answers.keypair = swap.privkey) ∨
        t = .store id swap .accepted) := by
  cases h with
  | quiet mailboxes hq =>
    cases hnext
    cases hq with
    | stay hw => rcases ht' with rfl | rfl <;> cases hw
    | accept hok =>
      rcases ht' with ht' | ht'
      · cases ht'
        exact ⟨rfl, rfl, .inl ⟨_, rfl, rfl, (acceptRequest_eq_ok hok).1.symm⟩⟩
      · cases ht'
    | payout hfrom =>
      rcases hfrom with ⟨_, -, rfl⟩ | ⟨-, rfl⟩ <;> rcases ht' with ht' | ht' <;> cases ht'
    | _ => rcases ht' with ht' | ht' <;> cases ht'
  | store hn =>
    obtain rfl := eq_of_none_or_some hn hnext
    rcases ht' with ht' | ht'
    · cases ht'
    · cases ht'
      exact ⟨rfl, rfl, .inr rfl⟩
  | insert =>
    have := resume_admission hnext
    rcases ht' with rfl | rfl <;> cases this
  | paid hn | fundingSent hn =>
    obtain rfl := eq_of_none_or_some hn hnext
    rcases ht' with ht' | ht' <;> cases ht'
  | _ => cases hnext <;> rcases ht' with ht' | ht' <;> cases ht'

end

end

end

end OpenSwap
