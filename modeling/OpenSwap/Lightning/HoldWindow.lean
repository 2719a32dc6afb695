import OpenSwap.Maker.LightningPay
import OpenSwap.Taker.LightningRecords

/-!
# The two windows of a held Lightning payment

A swap-out is paid by a hold invoice.  Whoever pays bounds the blocks the payment may
take; the maker that holds it funds its contract only if the payment's claim deadline is
late enough for the contract's whole claim window.  Both bounds start at the height of
the payment.
-/

namespace OpenSwap

open Btc Checked

variable {P : Prims}

/-! ## The maker's test -/

/-- A held payment with this claim deadline is not refused for its deadline. -/
def PassesHoldWindow (sh : LnShared P) (answers : LnAnswers P) (id : String)
    (swap : LnMakerSwap P) (deadline : Nat) : Prop :=
  ∀ refused claimWindowEnds tip locktime, fundSwapOut sh answers id swap (some deadline) ≠
    .rejected (.claimDeadline refused claimWindowEnds tip locktime)

/-- The earliest claim deadline that covers a contract funded at the tip. -/
def holdWindowEnds (tip locktime : Nat) : Nat :=
  satAdd32 (satAdd32 (satAdd32 tip fundingConfBudget) locktime) settleMargin

variable {sh : LnShared P} {id : String} {swap : LnMakerSwap P}

theorem passesHoldWindow_iff {answers deadline} (hnode : answers.node) :
    PassesHoldWindow sh answers id swap deadline ↔
      holdWindowEnds sh.chain.height swap.locktime ≤ deadline := by
  unfold PassesHoldWindow holdWindowEnds fundSwapOut
  simp only [hnode]
  constructor
  · intro h
    by_contra hlate
    rw [if_pos (Nat.lt_of_not_le hlate)] at h
    exact h _ _ _ _ rfl
  · intro h refused claimWindowEnds tip locktime
    rw [if_neg (Nat.not_lt_of_le h)]
    split
    · exact nofun
    · split <;> exact nofun

/-- Some deadline within the budget of the payer passes the maker's test, the payment
being made at the maker's tip. -/
def DeadlineExists (sh : LnShared P) (answers : LnAnswers P) (id : String)
    (swap : LnMakerSwap P) (budget : Nat) : Prop :=
  ∃ deadline < 2 ^ 32, deadline ≤ sh.chain.height + budget ∧
    PassesHoldWindow sh answers id swap deadline

theorem deadlineExists_iff {answers budget} (hnode : answers.node) :
    DeadlineExists sh answers id swap budget ↔
      holdWindowEnds sh.chain.height swap.locktime ≤ sh.chain.height + budget := by
  have hlt : holdWindowEnds sh.chain.height swap.locktime < 2 ^ 32 :=
    Nat.lt_of_le_of_lt (Nat.min_le_right _ _) (by decide)
  constructor
  · rintro ⟨deadline, -, hbudget, hpasses⟩
    exact ((passesHoldWindow_iff hnode).mp hpasses).trans hbudget
  · exact fun h => ⟨_, hlt, h, (passesHoldWindow_iff hnode).mpr (Nat.le_refl _)⟩

/-! ## The payers' budgets -/

theorem LnTakerTask.pay_records {taker w answers} (hlightning : answers.lightning)
    (claim : ClaimTerms P) :
    ((LnTakerTask.pay claim).advance taker w answers).1 =
      w.record (.paid claim.key (claim.htlc.locktime - LnTaker.cltvSafetyMargin)) := by
  simp only [LnTakerTask.advance, hlightning, if_true]

theorem LnTask.payInvoice_records {maker answers} (hregistered : answers.registered)
    (id : String) (swap : LnMakerSwap P) (remaining : Nat) :
    ((LnTask.payInvoice id swap remaining).advance maker sh answers).1 =
      sh.record (.paid id swap (remaining - cltvSafetyMargin) sh.chain) := by
  simp only [LnTask.advance, hregistered, if_true]

/-- The first hop is locked for longer than the second, as far as sixteen bits go. -/
theorem requestFirst_locktimes {taker : LnTaker P} {answers : LnTakerAnswers P}
    {req : OutRequest P} {claim : ClaimTerms P} {first : InRequest P}
    (h : taker.requestFirst answers req = .ok (claim, first)) :
    first.locktime = LnTaker.satAdd16 claim.htlc.locktime LnTaker.routedHopTimelockMargin := by
  obtain ⟨-, accept, delta, hout⟩ := requestFirst_eq_ok h
  have hclaim : claim.htlc.locktime = req.locktime := by
    rw [(acceptOut_eq_ok hout).2]
    rfl
  rw [hclaim]
  simp only [LnTaker.requestFirst, bind_ok_iff] at h
  obtain ⟨_, -, _, -, _, -, _, -, _, -, _, -, _, -, _, -, h⟩ := h
  cases h
  rfl

theorem remaining_of_pass {maker chain answers funded remaining height}
    (h : fundingVerdict maker chain answers funded swap = .pass remaining)
    (hheight : chain.txBlockHeight P funded.outpoint.txid = some height)
    (hjust : chain.height + 1 - height = swap.minConfirmations) :
    remaining + swap.minConfirmations = swap.locktime + 1 := by
  obtain ⟨-, hmin, hremaining, -⟩ := fundingVerdict_pass h
  rw [hheight, Option.map_some, Option.getD_some] at hremaining
  have hle := Chain.txBlockHeight_le hheight
  simp only [minRemainingLocktime] at hmin
  omega

/-! ## When some deadline meets both -/

/-- A routed swap when its first maker is about to pay the second maker's invoice: the second
maker looks at the tip that gave the first contract its confirmations. -/
structure RoutedPayment (taker : LnTaker P) (maker₁ : LnMaker P) (sh₁ sh₂ : LnShared P)
    (swap₁ swap₂ : LnMakerSwap P) (claim : ClaimTerms P) (remaining : Nat) : Prop where
  requested : ∃ answers req first, taker.requestFirst answers req = .ok (claim, first) ∧
    swap₁.locktime = first.locktime
  funded : ∃ answers funded height,
    fundingVerdict maker₁ sh₁.chain answers funded swap₁ = .pass remaining ∧
    sh₁.chain.txBlockHeight P funded.outpoint.txid = some height ∧
    sh₁.chain.height + 1 - height = swap₁.minConfirmations
  locktime : swap₂.locktime = claim.htlc.locktime
  tip : sh₂.chain.height = sh₁.chain.height

/-- **When a claim deadline meets both windows**: never for the taker's own swap-out; for a routed
swap exactly if at most seven confirmations were asked for and the first lock fits its sixteen
bits, both save where 32 bits saturate. -/
theorem claimDeadline_exists_iff :
    (∀ (taker : LnTaker P) (w : LnTakerWallet P) (answers : LnTakerAnswers P)
      (claim : ClaimTerms P) (sh : LnShared P) (maker : LnAnswers P) (id : String)
      (swap : LnMakerSwap P), answers.lightning = true → maker.node = true →
      swap.locktime = claim.htlc.locktime →
      ∃ budget, ((LnTakerTask.pay claim).advance taker w answers).1 =
          w.record (.paid claim.key budget) ∧
        (DeadlineExists sh maker id swap budget ↔
          2 ^ 32 - 1 ≤ sh.chain.height + (claim.htlc.locktime - 12))) ∧
    (∀ (taker : LnTaker P) (maker₁ : LnMaker P) (sh₁ sh₂ : LnShared P)
      (swap₁ swap₂ : LnMakerSwap P) (claim : ClaimTerms P) (remaining : Nat)
      (answers₁ answers₂ : LnAnswers P) (id₁ id₂ : String),
      RoutedPayment taker maker₁ sh₁ sh₂ swap₁ swap₂ claim remaining →
      answers₁.registered = true → answers₂.node = true →
      ∃ budget, ((LnTask.payInvoice id₁ swap₁ remaining).advance maker₁ sh₁ answers₁).1 =
          sh₁.record (.paid id₁ swap₁ budget sh₁.chain) ∧
        (DeadlineExists sh₂ answers₂ id₂ swap₂ budget ↔
          (swap₁.minConfirmations ≤ 7 ∧
            claim.htlc.locktime + 41 + swap₁.minConfirmations ≤ 2 ^ 16 - 1) ∨
          2 ^ 32 - 1 ≤ sh₂.chain.height +
            (min (claim.htlc.locktime + 48) (2 ^ 16 - 1) - 11 - swap₁.minConfirmations))) := by
  constructor
  · intro taker w answers claim sh maker id swap hlightning hnode hlocktime
    refine ⟨_, LnTakerTask.pay_records hlightning claim, ?_⟩
    rw [deadlineExists_iff hnode, hlocktime]
    simp only [holdWindowEnds, satAdd32, fundingConfBudget, settleMargin, LnTaker.cltvSafetyMargin]
    omega
  · intro taker maker₁ sh₁ sh₂ swap₁ swap₂ claim remaining answers₁ answers₂ id₁ id₂ h hregistered
      hnode
    refine ⟨_, LnTask.payInvoice_records hregistered id₁ swap₁ remaining, ?_⟩
    obtain ⟨_, _, first, hfirst, hlocktime⟩ := h.requested
    rw [requestFirst_locktimes hfirst] at hlocktime
    obtain ⟨_, funded, height, hpass, hheight, hjust⟩ := h.funded
    have hremaining := remaining_of_pass hpass hheight hjust
    rw [deadlineExists_iff hnode, h.locktime]
    clear hpass hheight hjust hfirst h
    simp only [LnTaker.satAdd16, LnTaker.routedHopTimelockMargin] at *
    simp only [holdWindowEnds, satAdd32, fundingConfBudget, settleMargin, cltvSafetyMargin]
    omega

/-! ## A routed swap, and a swap-out with the default lock -/

namespace SampleHold

open SampleLnTaker (preimage paymentHash swapId invoice ripemd160)

/-- The first contract, between the first maker's second key and the taker's fourth. -/
def firstHtlc : SwapHtlc :=
  .new ripemd160 (⟨true, TablePoint.mul 1⟩ : Tables.empty.prims.PublicKey)
    (⟨true, TablePoint.mul 3⟩ : Tables.empty.prims.PublicKey) paymentHash 192

/-- The taker's funding of it: the invoice's amount with the first maker's fee. -/
def fundingTx : Transaction where
  version := 2
  lockTime := 0
  input := [⟨⟨List.replicate 32 0x0d, 0⟩, [], 0xfffffffd, []⟩]
  output := [⟨102000, encode [.push [], .push
    (natBe 32 0x35079bb61b537d66f5bc5deaadc83acee96d71b9e3277674c8678025be44dd12)]⟩]

def outpoint : OutPoint :=
  ⟨natBe 32 0xe2edeb569bc0d429b35b09017aca69a0b1e95d57d1594ecc2295910e2156f816, 0⟩

def tables : Tables :=
  { Tables.empty with
    sha256 := [(preimage, paymentHash),
      (firstHtlc.redeemscript,
        natBe 32 0x35079bb61b537d66f5bc5deaadc83acee96d71b9e3277674c8678025be44dd12)]
    txid := [(fundingTx, outpoint.txid)] }

def prims : Prims := tables.prims

/-- The one invoice there is to parse is the second maker's. -/
def parseInvoice (_ : String) : Option Invoice := some ⟨paymentHash, some 101000000, 40⟩

def taker : LnTaker prims := ⟨fun offer amount => offer.fee amount, ripemd160, parseInvoice⟩

def maker : LnMaker prims where
  requiredConfirms := 1
  checkFlowPins _ _ := .ok ()
  ripemd160 := ripemd160
  parseInvoice := parseInvoice

def offer : LightningOffer := ⟨true, true, fun _ => 1000, 10000, 1000000, 1000000⟩

/-- Everything succeeds; the reply is the second maker's acceptance. -/
def takerAnswers : LnTakerAnswers prims :=
  { SampleLnTaker.serving (3 : Fin 15) (4 : Fin 15)
      (some (.swapOutAccept ⟨swapId, invoice, 1000, ⟨true, TablePoint.mul 0⟩, 144, 1⟩)) with
    conn := some ⟨"first", offer⟩
    receiveScript := none }

def outRequest : OutRequest prims where
  key := swapId ++ "-out"
  swapId := swapId
  preimage := preimage
  privkey := (4 : Fin 15)
  locktime := 144
  expectedFee := 1000
  amount := 100000
  minConfirmations := 1
  address := "second"

def answers : LnAnswers prims :=
  { SampleLn.serving (1 : Fin 15) with
    holdInvoice := some invoice
    receiveScript := none
    fundingTx := none
    watch := none }

/-- The first contract is in the tip of a chain with a hundred blocks. -/
def chain : Chain := ⟨List.replicate 100 [] ++ [[fundingTx]], []⟩

def shared : LnShared prims := ⟨∅, ∅, ∅, chain, 0, []⟩

def inRequest : LnSwapInRequest prims where
  swapId := swapId
  invoice := invoice
  paymentHash := paymentHash
  amount := 101000
  locktime := 192
  minConfirmations := 1
  takerTimelockPubkey := ⟨true, TablePoint.mul 3⟩
  features := []

/-- The request of a swap-out with the default lock. -/
def secondRequest : LnSwapOutRequest prims where
  swapId := swapId
  paymentHash := paymentHash
  amount := 100000
  locktime := 144
  minConfirmations := 1
  takerHashlockPubkey := ⟨true, TablePoint.mul 4⟩
  features := []

def firstSwap : LnMakerSwap prims where
  direction := .swapIn
  phase := .inAccepted
  paymentHash := paymentHash
  amount := 101000
  fee := 1000
  locktime := 192
  minConfirmations := 1
  htlc := firstHtlc
  privkey := (1 : Fin 15)
  invoice := invoice
  preimage := none
  refundTxid := none
  acceptedHeight := some 100
  payoutScript := none
  funding := none
  fundingHeight := none
  updatedAt := 0

def secondSwap : LnMakerSwap prims :=
  { firstSwap with
    direction := .swapOut
    phase := .outAccepted
    amount := 100000
    locktime := 144
    htlc := .new ripemd160 (⟨true, TablePoint.mul 4⟩ : prims.PublicKey)
      (⟨true, TablePoint.mul 1⟩ : prims.PublicKey) paymentHash 144 }

/-- What remains of the first contract, if it is found good. -/
def remaining : Option Nat :=
  match fundingVerdict maker chain answers ⟨swapId, outpoint, 102000⟩ firstSwap with
  | .pass remaining => some remaining
  | _ => none

end SampleHold

set_option maxRecDepth 2000 in
open SampleHold in
/-- With one confirmation, the payment between the makers of a routed swap has a deadline. -/
theorem claimDeadline_exists_routed :
    acceptSwapIn maker shared answers inRequest = .ok firstSwap ∧
    acceptSwapOut maker shared answers secondRequest = .ok secondSwap ∧
    ∃ claim, RoutedPayment taker maker shared shared firstSwap secondSwap claim 192 ∧
      DeadlineExists shared answers SampleLnTaker.swapId secondSwap 180 := by
  refine ⟨rfl, rfl, ?_⟩
  have hrequest : (taker.requestFirst takerAnswers outRequest).toBool = true := by decide +kernel
  have hremaining : remaining = some 192 := by decide +kernel
  cases hfirst : taker.requestFirst takerAnswers outRequest with
  | error e =>
    rw [hfirst] at hrequest
    cases hrequest
  | ok terms =>
    obtain ⟨claim, first⟩ := terms
    obtain ⟨-, accept, delta, hout⟩ := requestFirst_eq_ok hfirst
    have hclaim : claim.htlc.locktime = 144 := by
      rw [(acceptOut_eq_ok hout).2]
      rfl
    have hlocktime : first.locktime = 192 := by
      rw [requestFirst_locktimes hfirst, hclaim]
      rfl
    have hpass : fundingVerdict maker chain answers ⟨SampleLnTaker.swapId, outpoint, 102000⟩
        firstSwap = .pass 192 := by
      unfold remaining at hremaining
      split at hremaining
      · rename_i h
        rw [h, Option.some.inj hremaining]
      · cases hremaining
    have hrouted : RoutedPayment taker maker shared shared firstSwap secondSwap claim 192 :=
      ⟨⟨takerAnswers, outRequest, first, hfirst, hlocktime.symm⟩,
        ⟨answers, _, 100, hpass, by decide +kernel, rfl⟩, hclaim.symm, rfl⟩
    obtain ⟨budget, hbudget, hiff⟩ := claimDeadline_exists_iff.2 _ _ _ _ _ _ _ _ answers answers
      SampleLnTaker.swapId SampleLnTaker.swapId hrouted rfl rfl
    have hpaid := hbudget.symm.trans (LnTask.payInvoice_records rfl _ _ _)
    have : budget = 180 := by
      have h := congrArg (fun sh => sh.history.head?) hpaid
      simpa [LnShared.record, cltvSafetyMargin] using h
    subst this
    refine ⟨claim, hrouted, hiff.mpr (.inl ?_)⟩
    rw [hclaim]
    decide

set_option maxRecDepth 2000 in
open SampleHold in
/-- A swap-out with the default lock of 144 blocks, which both sides accept, is refused for
every deadline the taker's payment can have. -/
theorem no_claimDeadline_for_default_lock :
    acceptSwapOut maker shared answers secondRequest = .ok secondSwap ∧
    ∃ claim accept delta,
      taker.acceptOut { outRequest with key := SampleLnTaker.swapId } none takerAnswers.reply =
        .ok (claim, accept, delta) ∧
      ∀ w : LnTakerWallet prims, ∃ budget,
        ((LnTakerTask.pay claim).advance taker w takerAnswers).1 =
          w.record (.paid claim.key budget) ∧
        ¬ DeadlineExists shared answers SampleLnTaker.swapId secondSwap budget := by
  refine ⟨rfl, ?_⟩
  have haccept : (taker.acceptOut { outRequest with key := SampleLnTaker.swapId } none
      takerAnswers.reply).toBool = true := by decide +kernel
  cases hout : taker.acceptOut { outRequest with key := SampleLnTaker.swapId } none
      takerAnswers.reply with
  | error e =>
    rw [hout] at haccept
    cases haccept
  | ok terms =>
    obtain ⟨claim, accept, delta⟩ := terms
    have hclaim : claim.htlc.locktime = 144 := by
      rw [(acceptOut_eq_ok hout).2]
      rfl
    refine ⟨claim, accept, delta, rfl, fun w => ⟨_, LnTakerTask.pay_records rfl claim, ?_⟩⟩
    rw [deadlineExists_iff rfl, hclaim]
    decide +kernel

end OpenSwap
