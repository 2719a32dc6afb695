import OpenSwap.Maker.Lightning

/-!
# The steps of the Lightning machine, case by case

* `LnTask.Quiet` lists the moves of a task that write nothing, `LnTask.Stepped` everything
  a step can write or do; `LnTask.advance_stepped` says that the lists are complete.
* `LnTask.Stepped.lookup_cases` and `LnTask.Stepped.record_cases` say where a live swap and
  its record come from.
* `LnServer.step_cases` does the same for the machine: one task steps, or nothing is written.
-/

namespace OpenSwap

open Btc Checked List AList

variable {P : Prims}

def LnTask.waits : LnTask P → Bool
  | .awaitConfirmation _ _ | .awaitPreimage _ _ | .awaitHeld _ _ | .finishSwapIn _ _ => true
  | _ => false

section Outcomes

variable (maker : LnMaker P) (sh : LnShared P) (answers : LnAnswers P)

inductive LnTask.Quiet : LnTask P → LnTask P → Prop where
  | stay {t} (h : t.waits) : Quiet t t
  | checkCount {req} (hfree : req.swapId ∉ sh.lnSwaps) : Quiet (.checkExists req) (.checkCount req)
  | acceptTerms {req} (hroom : sh.lnSwaps.keys.length < maxConcurrentLnSwaps) :
      Quiet (.checkCount req) (.acceptTerms req)
  | accept {req swap} (h : acceptRequest maker sh answers req = .ok swap) :
      Quiet (.acceptTerms req) (.store req.swapId swap .accepted)
  | remove {id paymentHash} : Quiet (.unsubscribe id paymentHash) (.remove id)
  | awaitConfirmation {msg swap} (h : sh.lnSwaps.lookup msg.swapId = some swap)
      (hphase : swap.phase = .inAccepted) : Quiet (.funded msg) (.awaitConfirmation msg swap)
  | verifyFunding {msg swap} : Quiet (.awaitConfirmation msg swap) (.verifyFunding msg swap)
  | refuse {msg swap reason} : Quiet (.verifyFunding msg swap) (.refuseSwapIn msg.swapId reason)
  | fundingHeight {msg swap remaining}
      (h : fundingVerdict maker sh.chain answers msg swap = .pass remaining) :
      Quiet (.verifyFunding msg swap) (.fundingHeight msg swap remaining)
  | moveToPaid {msg swap remaining height}
      (h : sh.chain.txBlockHeight P msg.outpoint.txid = some height) :
      Quiet (.fundingHeight msg swap remaining)
        (.moveToPaid msg.swapId
          { swap with
            funding := some (msg.outpoint, msg.value)
            fundingHeight := some height
            phase := .inPaid
            updatedAt := sh.clock } remaining)
  | sweep {t id swap preimage}
      (h : t = .awaitPreimage id swap ∨ t = .finishSwapIn id swap ∨ t = .paymentOutcome id swap) :
      Quiet t (.sweepSwapIn id swap preimage)
  | payout {t id swap script after}
      (h : (∃ preimage, t = .sweepSwapIn id swap preimage ∧ after = .sweep preimage) ∨
        t = .finishSweep id swap ∧ after = .resendSweep) :
      Quiet t (.store id { swap with payoutScript := some script } after)
  | swept {id swap preimage tx} : Quiet (.sweepSwapIn id swap preimage)
        (.store id { swap with preimage := some preimage, phase := .inSwept, updatedAt := sh.clock }
          (.sendSweep tx))
  | resendSweep {id swap} : Quiet (.finishSweep id swap) (.resendSweep id swap)
  | closeSweep {id swap} : Quiet (.finishSweep id swap) (.unsubscribe id swap.paymentHash)
  | awaitHeld {id swap} (h : sh.lnSwaps.lookup id = some swap)
      (hphase : swap.phase = .outAccepted) : Quiet (.paid id) (.awaitHeld id swap)
  | fundHtlc {id swap claimDeadline} : Quiet (.awaitHeld id swap) (.fundHtlc id swap claimDeadline)
  | fund {id swap claimDeadline funding height tx} : Quiet (.fundHtlc id swap claimDeadline)
        (.store id
          { swap with
            funding := some funding
            fundingHeight := height
            phase := .outFunded
            updatedAt := sh.clock }
          (.sendFunding tx))
  | unsent {id swap tx} : Quiet (.sendFunding id swap tx) (.checkKnown id swap false)
  | revert {id swap relayed} (h : answers.transactionKnown = some false) :
      Quiet (.checkKnown id swap relayed)
        (.store id (swap.revert sh.clock) .reverted)
  | settleClaim {id swap claimTxid} (h : sh.lnSwaps.lookup id = some swap)
      (hphase : swap.phase = .outFunded) :
      Quiet (.claimed id claimTxid) (.settleClaim id swap claimTxid)
  | paymentOutcome {id swap} : Quiet (.finishSwapIn id swap) (.paymentOutcome id swap)
  | dropUnsettled {id swap outcome fundedAt} :
      Quiet (.paymentOutcome id swap) (.dropUnsettled id swap outcome fundedAt)
  | recoverFundingHeight {id swap outcome} :
      Quiet (.paymentOutcome id swap) (.recoverFundingHeight id swap outcome)

inductive AfterStore.Resumed (id : String) (swap : LnMakerSwap P) :
    AfterStore → LnTask P → Prop where
  | sweep {preimage tx} : Resumed id swap (.sweep preimage) (.store id
        { swap with preimage := some preimage, phase := .inSwept, updatedAt := sh.clock }
        (.sendSweep tx))
  | sendSweep {tx} : Resumed id swap (.sendSweep tx) (.sendSweep id tx)
  | resendSweep : Resumed id swap .resendSweep (.resendSweep id swap)
  | sendFunding {tx} : Resumed id swap (.sendFunding tx) (.sendFunding id swap tx)
  | sendRefund : Resumed id swap .sendRefund (.sendRefund id swap)

def LnMakerSwap.RefundedBy (swap : LnMakerSwap P) (txid : Bytes) : Prop :=
  ∃ outpoint value destination tx, swap.funding = some (outpoint, value) ∧
    swap.htlc.createTimelockSpend outpoint value swap.privkey destination = .ok tx ∧
    P.txid tx = txid

/-- What a step does: where a swap or a record is written or dropped, and every visible effect. -/
inductive LnTask.Stepped : LnTask P → LnShared P → Option (LnTask P) → Prop where
  | ended (t : LnTask P) (mailboxes : AList fun _ : Bytes => List LnEvent) :
      Stepped t { sh with mailboxes } none
  | quiet {t t'} (mailboxes : AList fun _ : Bytes => List LnEvent)
      (h : LnTask.Quiet maker sh answers t t') : Stepped t { sh with mailboxes } (some t')
  | store {id swap after next} (h : next = none ∨ next = some (.insert id swap after)) :
      Stepped (.store id swap after)
        { sh with lnMakerSwaps := sh.lnMakerSwaps.insert id swap.toRecord } next
  | insert {id swap after} : Stepped (.insert id swap after)
        { sh with lnSwaps := sh.lnSwaps.insert id swap } (after.resume sh id swap).task
  | remove {id} : Stepped (.remove id) { sh with lnSwaps := sh.lnSwaps.erase id }
        (some (.erase id))
  | erase {id} : Stepped (.erase id)
        { sh with lnMakerSwaps := sh.lnMakerSwaps.erase id } none
  | moved {id before swap remaining} (h : sh.lnSwaps.lookup id = some before)
      (hphase : before.phase = .inAccepted)
      (hrecord : (sh.lnMakerSwaps.lookup id).any (·.phase = .inAccepted)) :
      Stepped (.moveToPaid id swap remaining)
        { sh with
          lnMakerSwaps := sh.lnMakerSwaps.insert id swap.toRecord
          lnSwaps := sh.lnSwaps.insert id swap
          history := .moved id before swap :: sh.history }
        (some (.payInvoice id swap remaining))
  | paid {id swap remaining next} (h : next = none ∨ next = some (.awaitPreimage id swap)) :
      Stepped (.payInvoice id swap remaining)
        (sh.record (.paid id swap (remaining - cltvSafetyMargin) sh.chain)) next
  | forgotten {t id} (phase : LnMakerPhase) : Stepped t (sh.removeLnSwapIfPhase id phase) none
  | filled {id swap outcome height} (h : (sh.lnSwaps.lookup id).any (·.phase = .inPaid)) :
      Stepped (.recoverFundingHeight id swap outcome)
        { sh with
          lnMakerSwaps := sh.lnMakerSwaps.modifyAt id ({ · with fundingHeight := some height })
          lnSwaps := sh.lnSwaps.modifyAt id ({ · with fundingHeight := some height }) }
        (some (.dropUnsettled id swap outcome height))
  | sweepSent {t id tx} : Stepped t (sh.record (.sweepSent id tx)) none
  | fundingSent {id swap tx next} (h : next = none ∨ next = some (.checkKnown id swap true)) :
      Stepped (.sendFunding id swap tx) (sh.record (.fundingSent id swap)) next
  | refundSent {id swap txid} (h : swap.RefundedBy txid) :
      Stepped (.sendRefund id swap) (sh.record (.refundSent id swap txid))
        (some (.store id { swap with refundTxid := some txid, updatedAt := sh.clock } .refunded))
  | settled {t id swap preimage} : Stepped t (sh.record (.settled id swap preimage))
        (some (.unsubscribe id swap.paymentHash))
  | expired {id swap} (h : swapOutPaymentDeadline < sh.clock - swap.updatedAt) :
      Stepped (.expire id swap)
        (if swap.direction = .swapOut then sh.record (.failedBack id swap sh.chain) else sh)
        (some (.unsubscribe id swap.paymentHash))
  | refunded {id swap outpoint value txid} (hfunding : swap.funding = some (outpoint, value))
      (hspent : sh.chain.confirmedSpend outpoint) (htxid : swap.refundTxid = some txid)
      (hconfirmed : (sh.chain.txBlockHeight P txid).isSome) :
      Stepped (.resolveSwapOut id swap)
        (sh.record (.failedBack id swap sh.chain)) (some (.unsubscribe id swap.paymentHash))

inductive LnTask.Emits : LnTask P → LnEffect P → Prop where
  | moved {id before swap remaining} (h : sh.lnSwaps.lookup id = some before)
      (hphase : before.phase = .inAccepted) :
      Emits (.moveToPaid id swap remaining) (.moved id before swap)
  | paid {id swap remaining} : Emits (.payInvoice id swap remaining)
        (.paid id swap (remaining - cltvSafetyMargin) sh.chain)
  | sweepSent {t id tx} : Emits t (.sweepSent id tx)
  | fundingSent {id swap tx} : Emits (.sendFunding id swap tx) (.fundingSent id swap)
  | refundSent {id swap txid} (h : swap.RefundedBy txid) :
      Emits (.sendRefund id swap) (.refundSent id swap txid)
  | settled {t id swap preimage} : Emits t (.settled id swap preimage)
  | expired {id swap} (hdirection : swap.direction = .swapOut)
      (h : swapOutPaymentDeadline < sh.clock - swap.updatedAt) :
      Emits (.expire id swap) (.failedBack id swap sh.chain)
  | refunded {id swap outpoint value txid} (hfunding : swap.funding = some (outpoint, value))
      (hspent : sh.chain.confirmedSpend outpoint) (htxid : swap.refundTxid = some txid)
      (hconfirmed : (sh.chain.txBlockHeight P txid).isSome) :
      Emits (.resolveSwapOut id swap) (.failedBack id swap sh.chain)

end Outcomes

namespace LnTask

variable {maker : LnMaker P} {answers : LnAnswers P} {sh sh' : LnShared P} {t : LnTask P}
  {id : String} {swap : LnMakerSwap P} {after : AfterStore} {next : Option (LnTask P)}

theorem Stepped.ended_same (t : LnTask P) : Stepped maker sh answers t sh none :=
  .ended t sh.mailboxes

theorem Stepped.quiet_same {t'} (h : LnTask.Quiet maker sh answers t t') :
    Stepped maker sh answers t sh (some t') :=
  .quiet sh.mailboxes h

theorem takeEvent_eq_some {paymentHash event} (h : sh.takeEvent paymentHash = some (event, sh')) :
    ∃ mailboxes, sh' = { sh with mailboxes } := by
  unfold LnShared.takeEvent at h
  split at h
  · cases h
    exact ⟨_, rfl⟩
  · cases h

theorem withPayout_cases {next : Bytes → LnNext P} :
    (∃ script, withPayout answers id swap after next = next script) ∨
      (∃ script, withPayout answers id swap after next =
        .busy (.store id { swap with payoutScript := some script } after)) ∨
      withPayout answers id swap after next = .ended (.error (.wallet .io)) := by
  unfold withPayout
  split
  · exact .inl ⟨_, rfl⟩
  · exact .inr (.inl ⟨_, rfl⟩)
  · exact .inr (.inr rfl)

theorem buildSweep_cases (sh : LnShared P) (id : String) (swap : LnMakerSwap P)
    (preimage destination : Bytes) :
    (buildSweep sh id swap preimage destination).task = none ∨
      ∃ tx, (buildSweep sh id swap preimage destination).task = some (.store id
        { swap with preimage := some preimage, phase := .inSwept, updatedAt := sh.clock }
        (.sendSweep tx)) := by
  unfold buildSweep
  split
  · exact .inl rfl
  · split
    · exact .inl rfl
    · exact .inr ⟨_, rfl⟩

theorem resumed (h : (after.resume sh id swap).task = some t) : after.Resumed sh id swap t := by
  cases after with
  | sweep preimage =>
    rcases buildSweep_cases sh id swap preimage (swap.payoutScript.getD []) with hs | ⟨tx, hs⟩
    · rw [AfterStore.resume, hs] at h
      cases h
    · rw [AfterStore.resume, hs] at h
      cases h
      exact .sweep
  | sendSweep tx => cases h; exact .sendSweep
  | resendSweep => cases h; exact .resendSweep
  | sendFunding tx => cases h; exact .sendFunding
  | sendRefund => cases h; exact .sendRefund
  | accepted | reverted | refunded => cases h

theorem settleSwapOutFromSpend_stepped {spendTx} :
    Stepped maker sh answers t (settleSwapOutFromSpend sh answers id swap spendTx).1
      (settleSwapOutFromSpend sh answers id swap spendTx).2.task := by
  unfold settleSwapOutFromSpend
  split
  · exact .ended_same t
  · split_ifs
    · exact .ended_same t
    · exact .ended_same t
    · exact .settled

theorem watchdogResolveSwapOut_stepped :
    Stepped maker sh answers (.resolveSwapOut id swap)
      (watchdogResolveSwapOut sh answers id swap).1
      (watchdogResolveSwapOut sh answers id swap).2.task := by
  unfold watchdogResolveSwapOut
  split
  · exact .ended_same _
  · exact .ended_same _
  · rename_i hfunding _
    split_ifs with _ _ hspent hconfirmed
    · exact settleSwapOutFromSpend_stepped
    · exact .ended_same _
    · exact .ended_same _
    · exact .ended_same _
    · rw [Option.isNone_iff_eq_none, ← ne_eq, Option.ne_none_iff_exists'] at hconfirmed
      obtain ⟨height, hheight⟩ := hconfirmed
      obtain ⟨txid, htxid, hin⟩ := Option.bind_eq_some_iff.mp hheight
      exact .refunded hfunding (by simpa using hspent) htxid (by rw [hin]; rfl)
  · exact .ended_same _
  · exact .ended_same _
  -- a caller of the watcher is never left with an error event
  · rename_i herror
    exact absurd herror (watchRequest_ne_error _)

theorem fundSwapOut_cases (sh : LnShared P) (answers : LnAnswers P) (id : String)
    (swap : LnMakerSwap P) (claimDeadline : Option Nat) :
    (fundSwapOut sh answers id swap claimDeadline).task = none ∨
      ∃ funding height tx, (fundSwapOut sh answers id swap claimDeadline).task = some (.store id
        { swap with
          funding := some funding
          fundingHeight := height
          phase := .outFunded
          updatedAt := sh.clock }
        (.sendFunding tx)) := by
  unfold fundSwapOut
  dsimp only
  split
  · exact .inl rfl
  · exact .inl rfl
  · split
    · exact .inl rfl
    · split
      · exact .inl rfl
      · split
        · exact .inl rfl
        · exact .inr ⟨_, _, _, rfl⟩

/-- **What a step does.** -/
theorem advance_stepped (t : LnTask P) :
    Stepped maker sh answers t (t.advance maker sh answers).1
      (t.advance maker sh answers).2.task := by
  cases t with
  | checkExists req =>
    simp only [advance]
    split
    · exact .ended_same _
    · split_ifs with hmem
      · exact .ended_same _
      · exact .quiet_same (.checkCount hmem)
  | checkCount req =>
    simp only [advance]
    split_ifs with hfull
    · exact .ended_same _
    · exact .quiet_same (.acceptTerms (Nat.lt_of_not_le hfull))
  | acceptTerms req =>
    simp only [advance]
    split
    · exact .ended_same _
    · exact .quiet _ (.accept ‹_›)
  | store id swap after =>
    simp only [advance]
    split_ifs
    · exact .store (.inr rfl)
    · exact .store (.inl rfl)
  | insert id swap after => exact .insert
  | unsubscribe id paymentHash => exact .quiet _ .remove
  | remove id => exact .remove
  | erase id => exact .erase
  | funded msg =>
    simp only [advance]
    split
    · exact .ended_same _
    · split_ifs with hphase
      · exact .quiet_same (.awaitConfirmation ‹_› hphase)
      · exact .ended_same _
  | awaitConfirmation msg swap =>
    simp only [advance]
    split_ifs
    · exact .ended_same _
    · exact .quiet_same .verifyFunding
    · exact .quiet_same (.stay rfl)
  | verifyFunding msg swap =>
    simp only [advance]
    split
    · exact .ended_same _
    · exact .ended_same _
    · exact .quiet_same .refuse
    · exact .quiet_same (.fundingHeight ‹_›)
  | fundingHeight msg swap remaining =>
    simp only [advance]
    split
    · exact .quiet_same (.moveToPaid ‹_›)
    · exact .ended_same _
    · exact .ended_same _
  | moveToPaid id swap remaining =>
    simp only [advance]
    split
    · rename_i before sh' hbefore hstore
      unfold LnShared.storeLnSwapIfPhase at hstore
      split_ifs at hstore with hphase hsaved
      · cases hstore
        simp only [LnShared.lnSwapInPhase, hbefore, Option.any_some, Bool.and_eq_true,
          decide_eq_true_eq] at hphase
        exact .moved hbefore hphase.1 hphase.2
      · cases hstore
    · exact .ended_same _
    · exact .ended_same _
  | payInvoice id swap remaining =>
    simp only [advance]
    split_ifs
    · exact .paid (.inr rfl)
    · exact .paid (.inl rfl)
    · exact .ended_same _
  | awaitPreimage id swap =>
    simp only [advance]
    split
    · obtain ⟨mailboxes, rfl⟩ := takeEvent_eq_some ‹_›
      split_ifs
      · exact .quiet _ (.sweep (.inl rfl))
      · exact .ended _ _
    · obtain ⟨mailboxes, rfl⟩ := takeEvent_eq_some ‹_›
      exact .ended _ _
    · obtain ⟨mailboxes, rfl⟩ := takeEvent_eq_some ‹_›
      exact .quiet _ (.stay rfl)
    · split_ifs
      · exact .ended_same _
      · exact .quiet_same (.stay rfl)
  | sweepSwapIn id swap preimage =>
    simp only [advance]
    rcases withPayout_cases with ⟨script, h⟩ | ⟨script, h⟩ | h
    · rw [h]
      rcases buildSweep_cases sh id swap preimage script with h | ⟨tx, h⟩
      · rw [h]
        exact .ended_same _
      · rw [h]
        exact .quiet_same .swept
    · rw [h]
      exact .quiet_same (.payout (.inl ⟨_, rfl, rfl⟩))
    · rw [h]
      exact .ended_same _
  | sendSweep id tx =>
    simp only [advance]
    split_ifs
    · exact .ended_same _
    · exact .sweepSent
  | refuseSwapIn id reason => exact .forgotten .inAccepted
  | paid id =>
    simp only [advance]
    split
    · exact .ended_same _
    · split_ifs with hphase
      · exact .quiet_same (.awaitHeld ‹_› hphase)
      · exact .ended_same _
      · exact .ended_same _
  | awaitHeld id swap =>
    simp only [advance]
    split
    · obtain ⟨mailboxes, rfl⟩ := takeEvent_eq_some ‹_›
      exact .quiet _ .fundHtlc
    · obtain ⟨mailboxes, rfl⟩ := takeEvent_eq_some ‹_›
      exact .quiet _ (.stay rfl)
    · split_ifs
      · exact .ended_same _
      · exact .quiet_same (.stay rfl)
  | fundHtlc id swap claimDeadline =>
    simp only [advance]
    rcases fundSwapOut_cases sh answers id swap claimDeadline with h | ⟨_, _, _, h⟩
    · rw [h]
      exact .ended_same _
    · rw [h]
      exact .quiet_same .fund
  | sendFunding id swap tx =>
    simp only [advance]
    split
    · exact .fundingSent (.inl rfl)
    · exact .fundingSent (.inr rfl)
    · exact .quiet_same .unsent
  | checkKnown id swap relayed =>
    simp only [advance]
    split_ifs with hknown
    · exact .ended_same _
    · exact .quiet_same (.revert (by cases h : answers.transactionKnown <;> simp_all))
  | claimed id claimTxid =>
    simp only [advance]
    split
    · exact .ended_same _
    · split_ifs with hphase
      · exact .quiet_same (.settleClaim ‹_› hphase)
      · exact .ended_same _
  | settleClaim id swap claimTxid =>
    simp only [advance]
    split
    · exact settleSwapOutFromSpend_stepped
    · exact .ended_same _
  | finishSwapIn id swap =>
    simp only [advance]
    split
    · obtain ⟨mailboxes, rfl⟩ := takeEvent_eq_some ‹_›
      split_ifs
      · exact .quiet _ (.sweep (.inr (.inl rfl)))
      · exact .quiet _ (.stay rfl)
    · obtain ⟨mailboxes, rfl⟩ := takeEvent_eq_some ‹_›
      exact .quiet _ (.stay rfl)
    · exact .quiet_same .paymentOutcome
  | paymentOutcome id swap =>
    simp only [advance]
    split
    · exact .ended_same _
    · split
      · exact .quiet_same (.sweep (.inr (.inr rfl)))
      · split
        · exact .quiet_same .dropUnsettled
        · exact .quiet_same .recoverFundingHeight
  | recoverFundingHeight id swap outcome =>
    simp only [advance]
    split
    · exact .ended_same _
    · split
      · split
        · rename_i sh' hfill
          unfold LnShared.fillLnFundingHeight at hfill
          split_ifs at hfill with hphase hsaved
          · cases hfill
            rw [Bool.and_eq_true] at hphase
            obtain ⟨s, hs, hin⟩ := (Option.any_eq_true _ _).mp hphase.1
            refine .filled ?_
            rw [hs]
            simpa using (of_decide_eq_true hin).1
          · cases hfill
        · exact .ended_same _
        · exact .ended_same _
      · exact .ended_same _
      · exact .ended_same _
  | dropUnsettled id swap outcome fundedAt =>
    simp only [advance]
    split_ifs
    · exact .forgotten .inPaid
    · exact .ended_same _
  | finishSweep id swap =>
    simp only [advance]
    split
    · exact .ended_same _
    · exact .ended_same _
    · split_ifs
      · exact .quiet_same .closeSweep
      · exact .ended_same _
      · rcases withPayout_cases with ⟨script, h⟩ | ⟨script, h⟩ | h
        · rw [h]
          exact .quiet_same .resendSweep
        · rw [h]
          exact .quiet_same (.payout (.inr ⟨rfl, rfl⟩))
        · rw [h]
          exact .ended_same _
  | resendSweep id swap =>
    simp only [advance]
    split
    · split
      · exact .ended_same _
      · split_ifs
        · exact .ended_same _
        · exact .sweepSent
    · exact .ended_same _
  | expireSwapIn id swap =>
    simp only [advance]
    split_ifs
    · exact .forgotten .inAccepted
    · exact .ended_same _
  | expire id swap =>
    simp only [advance]
    split
    · exact .expired ‹_›
    · exact .ended_same _
  | resolveSwapOut id swap => exact watchdogResolveSwapOut_stepped
  | sendRefund id swap =>
    simp only [advance]
    split
    · rename_i hfunding _
      split
      · exact .ended_same _
      · rename_i htx
        split_ifs
        · exact .refundSent ⟨_, _, _, _, hfunding, htx, rfl⟩
        · exact .ended_same _
    · exact .ended_same _

/-! ## What a step leaves alone -/

section

variable (h : Stepped maker sh answers t sh' next)

include h

theorem Stepped.chain_eq : sh'.chain = sh.chain := by
  cases h with
  | forgotten phase =>
    unfold LnShared.removeLnSwapIfPhase
    split <;> rfl
  | expired h => split <;> rfl
  | _ => rfl

theorem Stepped.history_cases :
    sh'.history = sh.history ∨ ∃ e, Emits sh t e ∧ sh'.history = e :: sh.history := by
  cases h with
  | moved hbefore hphase => exact .inr ⟨_, .moved hbefore hphase, rfl⟩
  | paid => exact .inr ⟨_, .paid, rfl⟩
  | sweepSent => exact .inr ⟨_, .sweepSent, rfl⟩
  | fundingSent => exact .inr ⟨_, .fundingSent, rfl⟩
  | refundSent h => exact .inr ⟨_, .refundSent h, rfl⟩
  | settled => exact .inr ⟨_, .settled, rfl⟩
  | refunded hfunding hspent htxid hconfirmed =>
    exact .inr ⟨_, .refunded hfunding hspent htxid hconfirmed, rfl⟩
  | forgotten phase =>
    refine .inl ?_
    unfold LnShared.removeLnSwapIfPhase
    split <;> rfl
  | expired hlate =>
    split
    · exact .inr ⟨_, .expired ‹_› hlate, rfl⟩
    · exact .inl rfl
  | _ => exact .inl rfl

theorem Stepped.history_mono : ∀ e ∈ sh.history, e ∈ sh'.history := by
  intro e he
  rcases h.history_cases with hsame | ⟨new, -, hnew⟩
  · rwa [hsame]
  · rw [hnew]
    exact mem_cons_of_mem _ he

theorem Stepped.lookup_cases (hswap : sh'.lnSwaps.lookup id = some swap) :
    sh.lnSwaps.lookup id = some swap ∨
      (∃ after, t = .insert id swap after) ∨
      (∃ remaining before, t = .moveToPaid id swap remaining ∧
        sh.lnSwaps.lookup id = some before ∧ before.phase = .inAccepted) ∨
      ∃ before height, sh.lnSwaps.lookup id = some before ∧ before.phase = .inPaid ∧
        swap = { before with fundingHeight := some height } := by
  cases h with
  | insert =>
    rcases lookup_insert_cases hswap with ⟨rfl, rfl⟩ | ⟨-, hold⟩
    · exact .inr (.inl ⟨_, rfl⟩)
    · exact .inl hold
  | remove => exact .inl (lookup_of_lookup_erase hswap)
  | moved hbefore hphase =>
    rcases lookup_insert_cases hswap with ⟨rfl, rfl⟩ | ⟨-, hold⟩
    · exact .inr (.inr (.inl ⟨_, _, rfl, hbefore, hphase⟩))
    · exact .inl hold
  | forgotten phase =>
    unfold LnShared.removeLnSwapIfPhase at hswap
    split at hswap
    · exact .inl (lookup_of_lookup_erase hswap)
    · exact .inl hswap
  | filled hphase =>
    obtain ⟨before, hbefore, rfl⟩ := lookup_modifyAt_eq_some.mp hswap
    split_ifs with hid
    · subst hid
      rw [hbefore, Option.any_some, decide_eq_true_eq] at hphase
      exact .inr (.inr (.inr ⟨before, _, hbefore, hphase, rfl⟩))
    · exact .inl hbefore
  | expired h =>
    refine .inl ?_
    split at hswap <;> exact hswap
  | _ => exact .inl hswap

theorem Stepped.record_cases {r} (hr : sh'.lnMakerSwaps.lookup id = some r) :
    (∃ before, sh.lnMakerSwaps.lookup id = some before ∧ r.privkey = before.privkey) ∨
      (∃ swap after, t = .store id swap after ∧ r.privkey = swap.privkey) ∨
      ∃ swap remaining, t = .moveToPaid id swap remaining ∧ r.privkey = swap.privkey := by
  cases h with
  | store =>
    rcases lookup_insert_cases hr with ⟨rfl, rfl⟩ | ⟨-, hold⟩
    · exact .inr (.inl ⟨_, _, rfl, rfl⟩)
    · exact .inl ⟨r, hold, rfl⟩
  | erase => exact .inl ⟨r, lookup_of_lookup_erase hr, rfl⟩
  | moved hbefore hphase =>
    rcases lookup_insert_cases hr with ⟨rfl, rfl⟩ | ⟨-, hold⟩
    · exact .inr (.inr ⟨_, _, rfl, rfl⟩)
    · exact .inl ⟨r, hold, rfl⟩
  | forgotten phase =>
    unfold LnShared.removeLnSwapIfPhase at hr
    split at hr
    · exact .inl ⟨r, lookup_of_lookup_erase hr, rfl⟩
    · exact .inl ⟨r, hr, rfl⟩
  | filled hphase =>
    obtain ⟨before, hbefore, rfl⟩ := lookup_modifyAt_eq_some.mp hr
    refine .inl ⟨before, hbefore, ?_⟩
    split <;> rfl
  | expired h =>
    refine .inl ⟨r, ?_, rfl⟩
    split at hr <;> exact hr
  | _ => exact .inl ⟨r, hr, rfl⟩

end

end LnTask

/-! ## Steps of the machine -/

namespace LnServer

variable {maker : LnMaker P} {w w' : LnServer P} {a : LnAction P}

def stepping (w : LnServer P) : LnAction P → Option (LnTask P × LnAnswers P)
  | .handler i answers => w.handlers[i]?.map (·, answers)
  | .watchdog answers => w.watchdog.map (·, answers)
  | _ => none

theorem step_handler {t i answers} (h : w.handlers[i]? = some t) :
    w.step maker (.handler i answers) = some { w with
      shared := (t.advance maker w.shared answers).1
      handlers := w.handlers.take i ++ (t.advance maker w.shared answers).2.task.toList ++
        w.handlers.drop (i + 1) } := by
  rw [step, h]
  rfl

/-- What an action does to the tasks at work: one of them steps, one begins, or the
world around them moves on. -/
inductive Moved (maker : LnMaker P) (w : LnServer P) (a : LnAction P) (w' : LnServer P) :
    Prop where
  | stepped {t answers next nextTask} (before after : List (LnTask P))
      (hstepping : w.stepping a = some (t, answers))
      (hstep : LnTask.Stepped maker w.shared answers t w'.shared next)
      (htasks : w.tasks = before ++ t :: after)
      (htasks' : w'.tasks = before ++ (next.toList ++ after)) (hqueue : w'.queue = w.queue)
      (hadvance : t.advance maker w.shared answers = (w'.shared, nextTask))
      (hnext : nextTask.task = next)
  | began {t} (before after : List (LnTask P)) (hshared : w'.shared = w.shared)
      (htasks : w.tasks = before ++ after) (htasks' : w'.tasks = before ++ t :: after)
      (hfrom : (∃ msg, a = .message msg ∧ t = msg.task) ∨
        ∃ id swap, (id, swap) ∈ w.queue ∧ watchdogTask id swap = some t)
      (hqueue : w'.queue ⊆ w.queue)
  | around (hswaps : w'.shared.lnSwaps = w.shared.lnSwaps)
      (hrecords : w'.shared.lnMakerSwaps = w.shared.lnMakerSwaps)
      (hhistory : w'.shared.history = w.shared.history)
      (hchain : a = .chain w'.shared.chain ∨ w'.shared.chain = w.shared.chain)
      (htasks : w'.tasks = w.tasks)
      (hqueue : w'.queue ⊆ w.queue ∨ w'.queue = w.idleSwaps)

theorem step_moved (h : w.step maker a = some w') : Moved maker w a w' := by
  cases a with
  | message msg =>
    cases h
    exact .began w.handlers w.watchdog.toList rfl rfl (by simp [tasks])
      (.inl ⟨msg, rfl, rfl⟩) (List.Subset.refl _)
  | handler i answers =>
    simp only [step, Option.bind_eq_bind, Option.bind_eq_some_iff] at h
    obtain ⟨t, ht, h⟩ := h
    cases h
    have hsplit : w.handlers = w.handlers.take i ++ t :: w.handlers.drop (i + 1) := by
      obtain ⟨hlt, rfl⟩ := List.getElem?_eq_some_iff.mp ht
      rw [List.getElem_cons_drop, List.take_append_drop]
    refine .stepped (w.handlers.take i) (w.handlers.drop (i + 1) ++ w.watchdog.toList)
      (by rw [stepping, ht]; rfl) t.advance_stepped ?_ (by simp [tasks]) rfl rfl rfl
    rw [← List.cons_append, ← List.append_assoc, ← hsplit]
    rfl
  | snapshot =>
    simp only [step] at h
    split_ifs at h
    cases h
    exact .around rfl rfl rfl (.inr rfl) rfl (.inr rfl)
  | turn i =>
    simp only [step, Option.ite_none_right_eq_some, Option.map_eq_some_iff] at h
    obtain ⟨hidle, ⟨id, swap⟩, hentry, rfl⟩ := h
    have hnone : w.watchdog = none := Option.isNone_iff_eq_none.mp hidle
    cases hwt : watchdogTask id swap with
    | none =>
      exact .around rfl rfl rfl (.inr rfl) (by simp [tasks, hnone])
        (.inl (List.eraseIdx_subset ..))
    | some t =>
      exact .began w.handlers [] rfl (by simp [tasks, hnone]) (by simp [tasks])
        (.inr ⟨id, swap, List.mem_of_getElem? hentry, hwt⟩) (List.eraseIdx_subset ..)
  | watchdog answers =>
    simp only [step, Option.bind_eq_bind, Option.bind_eq_some_iff] at h
    obtain ⟨t, ht, h⟩ := h
    cases h
    exact .stepped w.handlers [] (by rw [stepping, ht]; rfl) t.advance_stepped
      (by simp [tasks, ht]) (by simp [tasks]) rfl rfl rfl
  | event paymentHash event =>
    cases h
    exact .around rfl rfl rfl (.inr rfl) rfl (.inl (List.Subset.refl _))
  | chain chain =>
    cases h
    exact .around rfl rfl rfl (.inl rfl) rfl (.inl (List.Subset.refl _))
  | wait seconds =>
    cases h
    exact .around rfl rfl rfl (.inr rfl) rfl (.inl (List.Subset.refl _))

def Begins (w : LnServer P) (t : LnTask P) : Prop :=
  (∃ msg : LightningTakerMessage P, t = msg.task) ∨
    ∃ id swap, (id, swap) ∈ w.queue ∧ watchdogTask id swap = some t

/-- No task steps: nothing is written, and at most one task begins. -/
structure Idles (w : LnServer P) (a : LnAction P) (w' : LnServer P) : Prop where
  swaps : w'.shared.lnSwaps = w.shared.lnSwaps
  records : w'.shared.lnMakerSwaps = w.shared.lnMakerSwaps
  history : w'.shared.history = w.shared.history
  chain : a = .chain w'.shared.chain ∨ w'.shared.chain = w.shared.chain
  tasks : ∀ t ∈ w'.tasks, t ∈ w.tasks ∨ w.Begins t
  kept : ∀ t ∈ w.tasks, t ∈ w'.tasks
  count : ∀ p : LnTask P → Bool, (∀ t, w.Begins t → p t = false) →
    w'.tasks.countP p = w.tasks.countP p
  queue : ∀ id swap, (id, swap) ∈ w'.queue →
    (id, swap) ∈ w.queue ∨ w.shared.lnSwaps.lookup id = some swap

theorem lookup_of_idleSwaps {id swap} (h : (id, swap) ∈ w.idleSwaps) :
    w.shared.lnSwaps.lookup id = some swap := by
  simp only [idleSwaps, mem_map, mem_filter] at h
  obtain ⟨e, ⟨hmem, -⟩, heq⟩ := h
  cases heq
  exact mem_lookup_iff.mpr hmem

theorem step_cases (h : w.step maker a = some w') :
    w.Idles a w' ∨ ∃ t answers nextTask before after, w.stepping a = some (t, answers) ∧
      LnTask.Stepped maker w.shared answers t w'.shared nextTask.task ∧
      w.tasks = before ++ t :: after ∧ w'.tasks = before ++ (nextTask.task.toList ++ after) ∧
      w'.queue = w.queue ∧ t.advance maker w.shared answers = (w'.shared, nextTask) := by
  cases step_moved h with
  | stepped before after hstepping hstep htasks htasks' hqueue hadvance hnext =>
    subst hnext
    exact .inr ⟨_, _, _, before, after, hstepping, hstep, htasks, htasks', hqueue, hadvance⟩
  | @began t before after hshared htasks htasks' hfrom hqueue =>
    have hbegins : w.Begins t := hfrom.imp_left fun ⟨msg, _, ht⟩ => ⟨msg, ht⟩
    refine .inl ⟨by rw [hshared], by rw [hshared], by rw [hshared], .inr (by rw [hshared]),
      fun t₁ ht₁ => ?_, fun t₁ ht₁ => ?_, fun p hp => ?_, fun _ _ hmem => .inl (hqueue hmem)⟩
    · simp only [htasks', htasks, mem_append, mem_cons] at ht₁ ⊢
      rcases ht₁ with hmem | rfl | hmem
      · exact .inl (.inl hmem)
      · exact .inr hbegins
      · exact .inl (.inr hmem)
    · simp only [htasks', htasks, mem_append, mem_cons] at ht₁ ⊢
      exact ht₁.imp_right .inr
    · rw [htasks', htasks, countP_append, countP_cons, countP_append, hp t hbegins]
      rfl
  | around hswaps hrecords hhistory hchain htasks hqueue =>
    refine .inl ⟨hswaps, hrecords, hhistory, hchain, fun t ht => .inl (htasks ▸ ht),
      fun t ht => htasks ▸ ht, fun p _ => by rw [htasks], fun id swap hmem => ?_⟩
    rcases hqueue with hsub | heq
    · exact .inl (hsub hmem)
    · exact .inr (lookup_of_idleSwaps (heq ▸ hmem))

theorem step_emits (h : w.step maker a = some w') {e}
    (hnew : w'.shared.history = e :: w.shared.history) :
    ∃ t answers next, w.stepping a = some (t, answers) ∧
      LnTask.Stepped maker w.shared answers t w'.shared next ∧ LnTask.Emits w.shared t e := by
  rcases step_cases h with hidles | ⟨t, answers, _, _, _, hstepping, hstep, -⟩
  · rw [hidles.history] at hnew
    exact absurd hnew.symm (cons_ne_self _ _)
  · rcases hstep.history_cases with hsame | ⟨e', hemits, hcons⟩
    · rw [hsame] at hnew
      exact absurd hnew.symm (cons_ne_self _ _)
    · rw [hcons, List.cons.injEq] at hnew
      exact ⟨t, answers, _, hstepping, hstep, hnew.1 ▸ hemits⟩

end LnServer

/-! ## The tasks that did not step -/

variable {t t₁ : LnTask P} {p : LnTask P → Bool} {tasks before after : List (LnTask P)}
  {next : Option (LnTask P)}

theorem mem_tasks_of_others (htasks : tasks = before ++ t :: after)
    (ht₁ : t₁ ∈ before ∨ t₁ ∈ after) :
    t₁ ∈ tasks := by
  simp only [htasks, mem_append, mem_cons]
  tauto

theorem mem_tasks_self (htasks : tasks = before ++ t :: after) : t ∈ tasks := by
  simp [htasks]

/-- Of two tasks only one can have a property no two tasks have. -/
theorem not_of_countP_le_one (hone : tasks.countP p ≤ 1) (htasks : tasks = before ++ t :: after)
    (ht₁ : t₁ ∈ before ∨ t₁ ∈ after) (h₁ : p t₁) :
    p t = false := by
  by_contra hne
  rw [htasks, countP_append, countP_cons, if_pos (by simpa using hne)] at hone
  rcases ht₁ with hmem | hmem
  · have := countP_pos_iff.mpr ⟨t₁, hmem, h₁⟩
    omega
  · have := countP_pos_iff.mpr ⟨t₁, hmem, h₁⟩
    omega

theorem tasks_cases (htasks : tasks = before ++ (next.toList ++ after)) (ht₁ : t₁ ∈ tasks) :
    (t₁ ∈ before ∨ t₁ ∈ after) ∨ next = some t₁ := by
  simp only [htasks, mem_append, Option.mem_toList] at ht₁
  tauto

/-- A property of at most one task stays one if a new one has it only from the task that
stepped, or if none had it. -/
theorem countP_le_one_of_stepped {tasks'} (hone : tasks.countP p ≤ 1)
    (htasks : tasks = before ++ t :: after) (htasks' : tasks' = before ++ (next.toList ++ after))
    (hnext : ∀ t', next = some t' → p t' → p t ∨ ∀ t₁ ∈ tasks, p t₁ = false) :
    tasks'.countP p ≤ 1 := by
  have hcount : tasks.countP p = before.countP p + (after.countP p + if p t then 1 else 0) := by
    rw [htasks, countP_append, countP_cons]
  rw [htasks', countP_append, countP_append]
  cases next with
  | none =>
    rw [Option.toList_none, countP_nil]
    omega
  | some t' =>
    rw [Option.toList_some, countP_singleton]
    split_ifs with hp
    · rcases hnext t' rfl hp with hold | hnone
      · rw [if_pos hold] at hcount
        omega
      · have hzero : tasks.countP p = 0 := countP_eq_zero.mpr fun t₁ ht₁ => by
          rw [hnone t₁ ht₁]
          exact Bool.false_ne_true
        omega
    · omega

end OpenSwap
