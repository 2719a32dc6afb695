import OpenSwap.Base.Run
import OpenSwap.Lightning.Messages
import OpenSwap.WatchTower.Registry

/-!
# The maker's Lightning swaps

A maker serves submarine swaps in both directions: one thread for every connection, and
one watchdog that settles, refunds or forgets what no connection finishes.  They share
the live swaps, the wallet's records of them and the mailboxes of Lightning events, each
under a lock of its own.  This is the machine whose steps are the critical sections of
the handlers and of the watchdog, in any order and with any delay between them.

* `LnTask` is what a thread does next, `LnTask.advance` the step it takes.
* `storeLnSwapIfPhase` and `removeLnSwapIfPhase` check and write under both locks;
  `store`/`insert` and `remove`/`erase` are the two halves of the plain operations, which
  take the locks one after the other.
* `LnServer.step` is the machine: messages, steps of a handler or of the watchdog, events
  of the Lightning node, new views of the chain, time.

What the backend says of transactions and heights is read off a view of the chain, so
it is truthful; whether a call fails, what the Lightning node answers and which keys and
transactions the wallet makes are answers of the environment.  Not modelled: restarts,
the reservation of wallet coins, what accepting replies carry, and the handshake that
precedes a message, which any peer can complete.
-/

namespace OpenSwap

open Btc Checked

/-! ## Constants -/

def cltvSafetyMargin : Nat := 12
def swapOutPaymentDeadline : Nat := 3600
def watchdogMinIdle : Nat := 300
def maxMinConfirmations : Nat := 12
def minRemainingLocktime : Nat := 24
def refundGraceBlocks : Nat := 12
def settleMargin : Nat := 6
def fundingConfBudget : Nat := 24
def maxConcurrentLnSwaps : Nat := 16

/-! ## Swaps and messages -/

inductive LnMakerPhase where
  | inAccepted
  | inPaid
  | inSwept
  | outAccepted
  | outFunded
deriving DecidableEq, Repr

structure LnMakerSwapRecord (P : Prims) where
  direction : LnDirection
  phase : LnMakerPhase
  paymentHash : Bytes
  amount : Nat
  fee : Nat
  locktime : Nat
  minConfirmations : Nat
  redeemscript : Bytes
  privkey : P.SecretKey
  invoice : String
  preimage : Option Bytes
  refundTxid : Option Bytes
  acceptedHeight : Option Nat
  payoutScript : Option Bytes
  fundingOutpoint : Option OutPoint
  fundingValue : Option Nat
  fundingHeight : Option Nat
deriving DecidableEq

structure LnMakerSwap (P : Prims) where
  direction : LnDirection
  phase : LnMakerPhase
  paymentHash : Bytes
  amount : Nat
  fee : Nat
  locktime : Nat
  minConfirmations : Nat
  htlc : SwapHtlc
  privkey : P.SecretKey
  invoice : String
  preimage : Option Bytes
  refundTxid : Option Bytes
  acceptedHeight : Option Nat
  payoutScript : Option Bytes
  funding : Option (OutPoint × Nat)
  fundingHeight : Option Nat
  updatedAt : Nat
deriving DecidableEq

variable {P : Prims}

def LnMakerSwap.toRecord (swap : LnMakerSwap P) : LnMakerSwapRecord P where
  direction := swap.direction
  phase := swap.phase
  paymentHash := swap.paymentHash
  amount := swap.amount
  fee := swap.fee
  locktime := swap.locktime
  minConfirmations := swap.minConfirmations
  redeemscript := swap.htlc.redeemscript
  privkey := swap.privkey
  invoice := swap.invoice
  preimage := swap.preimage
  refundTxid := swap.refundTxid
  acceptedHeight := swap.acceptedHeight
  payoutScript := swap.payoutScript
  fundingOutpoint := swap.funding.map (·.1)
  fundingValue := swap.funding.map (·.2)
  fundingHeight := swap.fundingHeight

inductive LnRequest (P : Prims) where
  | swapIn (req : LnSwapInRequest P)
  | swapOut (req : LnSwapOutRequest P)

def LnRequest.swapId : LnRequest P → String
  | .swapIn req => req.swapId
  | .swapOut req => req.swapId

def LnRequest.paymentHash : LnRequest P → Bytes
  | .swapIn req => req.paymentHash
  | .swapOut req => req.paymentHash

def LnRequest.features : LnRequest P → List String
  | .swapIn req => req.features
  | .swapOut req => req.features

def LnRequest.flow : LnRequest P → String
  | .swapIn _ => "ln-swap-in"
  | .swapOut _ => "ln-swap-out"

inductive LightningTakerMessage (P : Prims) where
  | request (req : LnRequest P)
  | swapInFunded (funded : LnHtlcFunded)
  | swapOutPaid (swapId : String)
  | swapOutClaimed (swapId : String) (claimTxid : Bytes)

inductive LnEvent where
  | paymentReceived
  | paymentClaimable (claimDeadline : Option Nat)
  | paymentSuccessful (preimage : Option Bytes)
  | paymentFailed
deriving DecidableEq, Repr

inductive PaymentOutcome where
  | settled (preimage : Bytes)
  | pending
  | failed
  | notFound
deriving DecidableEq, Repr

inductive LnRejection where
  | idMismatch
  | pins (reason : String)
  | swapExists
  | tooManySwaps
  | notOffered
  | notServing (direction : LnDirection)
  | amountOutside (amount minSize maxSize : Nat)
  | locktimeBelowReaction (locktime : Nat)
  | confirmationsOutside (minConfirmations required : Nat)
  | locktimeLeaves (locktime minConfirmations : Nat)
  | invoice (e : InvoiceError)
  | locktimeForInvoice (locktime cltvDelta : Nat)
  | paymentHashUsed
  | holdInvoiceFailed
  | unknownSwap
  | announcedValue
  | badFundingOutput (e : SwapError)
  | fundingRefused
  | fundingSpent
  | remainingLocktime (remaining locktime age : Nat)
  | remainingForInvoice (remaining age invoiceDelta : Nat)
  | paymentNotObserved
  | claimDeadline (deadline claimWindowEnds tip locktime : Nat)
  | noClaimDeadline
deriving DecidableEq, Repr

/-- How a handler ends: with an error, with a rejection, or having served the message. -/
abbrev LnOutcome := Except MakerError (Option LnRejection)

structure LnMaker (P : Prims) where
  requiredConfirms : Nat
  checkFlowPins : List String → String → Except String Unit
  ripemd160 : Bytes → Bytes
  parseInvoice : String → Option Invoice

structure LnAnswers (P : Prims) where
  node : Bool
  saved : Bool
  timeout : Bool
  offer : Option LightningOffer
  hasPaymentRecord : Option Bool
  holdInvoice : Option String
  keypair : P.SecretKey
  screened : Bool
  registered : Bool
  lightning : Bool
  receiveScript : Option Bytes
  fundingTx : Option Transaction
  heightRead : Bool
  broadcast : Broadcast
  transactionKnown : Option Bool
  paymentOutcome : Option PaymentOutcome
  watch : Option WatcherEvent

/-! ## What the threads share -/

/-- What the maker did that others can see, and the moves that led to it. -/
inductive LnEffect (P : Prims) where
  | moved (id : String) (before after : LnMakerSwap P)
  | paid (id : String) (swap : LnMakerSwap P) (cltvBound : Nat) (chain : Chain)
  | sweepSent (id : String) (tx : Transaction)
  | fundingSent (id : String) (swap : LnMakerSwap P)
  | refundSent (id : String) (swap : LnMakerSwap P) (txid : Bytes)
  | failedBack (id : String) (swap : LnMakerSwap P) (chain : Chain)
  | settled (id : String) (swap : LnMakerSwap P) (preimage : Bytes)
deriving DecidableEq

structure LnShared (P : Prims) where
  lnSwaps : AList fun _ : String => LnMakerSwap P
  lnMakerSwaps : AList fun _ : String => LnMakerSwapRecord P
  mailboxes : AList fun _ : Bytes => List LnEvent
  chain : Chain
  clock : Nat
  history : List (LnEffect P)

namespace LnShared

variable (sh : LnShared P)

def record (e : LnEffect P) : LnShared P := { sh with history := e :: sh.history }

def subscribe (paymentHash : Bytes) : LnShared P :=
  { sh with
    mailboxes := sh.mailboxes.insert paymentHash ((sh.mailboxes.lookup paymentHash).getD []) }

def unsubscribe (paymentHash : Bytes) : LnShared P :=
  { sh with mailboxes := sh.mailboxes.erase paymentHash }

def takeEvent (paymentHash : Bytes) : Option (LnEvent × LnShared P) :=
  match sh.mailboxes.lookup paymentHash with
  | some (event :: rest) =>
    some (event, { sh with mailboxes := sh.mailboxes.insert paymentHash rest })
  | _ => none

/-- File an event; one for an unknown payment is dropped. -/
def pump (paymentHash : Bytes) (event : LnEvent) : LnShared P :=
  { sh with mailboxes := sh.mailboxes.modifyAt paymentHash (· ++ [event]) }

def lnSwapInPhase (id : String) (phase : LnMakerPhase) : Bool :=
  (sh.lnSwaps.lookup id).any (·.phase = phase) &&
    (sh.lnMakerSwaps.lookup id).any (·.phase = phase)

/-- Replace a swap that is still in a phase; `none` if it is not.  A failed save leaves
the old record in place. -/
def storeLnSwapIfPhase (id : String) (phase : LnMakerPhase) (swap : LnMakerSwap P)
    (saved : Bool) : Option (Except MakerError (LnShared P)) :=
  if sh.lnSwapInPhase id phase then
    if saved then
      some (.ok { sh with
        lnMakerSwaps := sh.lnMakerSwaps.insert id swap.toRecord
        lnSwaps := sh.lnSwaps.insert id swap })
    else some (.error (.wallet .io))
  else none

/-- Forget a swap that is still in a phase, its mailbox with it. -/
def removeLnSwapIfPhase (id : String) (phase : LnMakerPhase) : LnShared P :=
  if sh.lnSwapInPhase id phase then
    { sh with
      lnSwaps := sh.lnSwaps.erase id
      lnMakerSwaps := sh.lnMakerSwaps.erase id
      mailboxes := match sh.lnSwaps.lookup id with
        | some swap => sh.mailboxes.erase swap.paymentHash
        | none => sh.mailboxes }
  else sh

/-- Complete the height of a swap stored without one; `none` if it has changed since. -/
def fillLnFundingHeight (id : String) (phase : LnMakerPhase) (outpoint : OutPoint) (height : Nat)
    (saved : Bool) : Option (Except MakerError (LnShared P)) :=
  if (sh.lnSwaps.lookup id).any (fun swap => swap.phase = phase ∧
        swap.funding.map (·.1) = some outpoint ∧ swap.fundingHeight = none) &&
      (sh.lnMakerSwaps.lookup id).any (fun r => r.phase = phase ∧
        r.fundingOutpoint = some outpoint ∧ r.fundingHeight = none) then
    if saved then
      some (.ok { sh with
        lnMakerSwaps := sh.lnMakerSwaps.modifyAt id ({ · with fundingHeight := some height })
        lnSwaps := sh.lnSwaps.modifyAt id ({ · with fundingHeight := some height }) })
    else some (.error (.wallet .io))
  else none

/-- Whether an output is unspent, the mempool included, and how many blocks it has aged;
an unconfirmed one has aged none. -/
def htlcUnspentAndAge (P : Prims) (chain : Chain) (o : OutPoint) : Bool × Nat :=
  ((chain.unspentOutput P o).isSome,
    ((chain.txBlockHeight P o.txid).map (chain.height - ·)).getD 0)

end LnShared

/-! ## Taking swaps on -/

variable (maker : LnMaker P)

def checkRequest (req : LnRequest P) : Except LnRejection Unit := do
  ensure (req.swapId = hexString req.paymentHash) .idMismatch
  (maker.checkFlowPins req.features req.flow).mapError .pins

def validateTerms (offer : Option LightningOffer) (direction : LnDirection)
    (amount locktime minConfirmations : Nat) : Except LnRejection Nat := do
  let offer ← okOr offer .notOffered
  let (served, maxSize) := offer.directionLimits direction
  ensure (served = true) (.notServing direction)
  ensure (offer.minSize ≤ amount ∧ amount ≤ maxSize) (.amountOutside amount offer.minSize maxSize)
  ensure (minContractReactionTime ≤ locktime) (.locktimeBelowReaction locktime)
  ensure (maker.requiredConfirms ≤ minConfirmations ∧ minConfirmations ≤ maxMinConfirmations)
    (.confirmationsOutside minConfirmations maker.requiredConfirms)
  ensure (minConfirmations + minRemainingLocktime ≤ locktime)
    (.locktimeLeaves locktime minConfirmations)
  .ok (offer.fee amount)

def lookupFailed : MakerError := .general "payment record lookup failed"

variable (sh : LnShared P) (answers : LnAnswers P)

/-- The swap a swap-in request is taken on as, or how the handler ends. -/
def acceptSwapIn (req : LnSwapInRequest P) : Except LnOutcome (LnMakerSwap P) := do
  let fee ← (validateTerms maker answers.offer .swapIn req.amount req.locktime
    req.minConfirmations).mapError (.ok ∘ some)
  let cltvDelta ← (verifyInvoice maker.parseInvoice req.invoice req.paymentHash
    (req.amount * 1000)).mapError (.ok ∘ some ∘ .invoice)
  ensure (satAdd64 cltvDelta cltvSafetyMargin ≤ req.locktime)
    (.ok (some (.locktimeForInvoice req.locktime cltvDelta)))
  let used ← okOr answers.hasPaymentRecord (.error lookupFailed)
  ensure (used = false) (.ok (some .paymentHashUsed))
  .ok {
    direction := .swapIn
    phase := .inAccepted
    paymentHash := req.paymentHash
    amount := req.amount
    fee
    locktime := req.locktime
    minConfirmations := req.minConfirmations
    htlc := .new maker.ripemd160 (Prims.publicKey answers.keypair) req.takerTimelockPubkey
      req.paymentHash req.locktime
    privkey := answers.keypair
    invoice := req.invoice
    preimage := none
    refundTxid := none
    acceptedHeight := if answers.node then some sh.chain.height else none
    payoutScript := none
    funding := none
    fundingHeight := none
    updatedAt := sh.clock }

/-- The swap a swap-out request is taken on as, or how the handler ends. -/
def acceptSwapOut (req : LnSwapOutRequest P) : Except LnOutcome (LnMakerSwap P) := do
  let fee ← (validateTerms maker answers.offer .swapOut req.amount req.locktime
    req.minConfirmations).mapError (.ok ∘ some)
  let invoice ← okOr answers.holdInvoice (.ok (some .holdInvoiceFailed))
  .ok {
    direction := .swapOut
    phase := .outAccepted
    paymentHash := req.paymentHash
    amount := req.amount
    fee
    locktime := req.locktime
    minConfirmations := req.minConfirmations
    htlc := .new maker.ripemd160 req.takerHashlockPubkey (Prims.publicKey answers.keypair)
      req.paymentHash req.locktime
    privkey := answers.keypair
    invoice
    preimage := none
    refundTxid := none
    acceptedHeight := if answers.node then some sh.chain.height else none
    payoutScript := none
    funding := none
    fundingHeight := none
    updatedAt := sh.clock }

def acceptRequest :
    LnRequest P → Except LnOutcome (LnMakerSwap P)
  | .swapIn req => acceptSwapIn maker sh answers req
  | .swapOut req => acceptSwapOut maker sh answers req

/-! ## Checks of a funding -/

inductive FundingVerdict where
  | failed (error : MakerError)
  | reject (reason : LnRejection)
  /-- decline, and forget the swap if it still awaits funding -/
  | refuse (reason : LnRejection)
  | pass (remaining : Nat)

/-- The final delta of the swap's invoice in 32 bits; an invoice that does not verify
counts as zero. -/
def invoiceDelta (swap : LnMakerSwap P) : Nat :=
  match verifyInvoice maker.parseInvoice swap.invoice swap.paymentHash (swap.amount * 1000) with
  | .ok delta => min delta (2 ^ 32 - 1)
  | .error _ => 0

/-- The checks of `handle_swap_in_funded` between its wait and its height lookup. -/
def fundingVerdict (chain : Chain) (answers : LnAnswers P) (funded : LnHtlcFunded)
    (swap : LnMakerSwap P) : FundingVerdict :=
  match chain.transaction P funded.outpoint.txid, answers.node with
  | some tx, true =>
    match tx.output[funded.outpoint.vout]? with
    | none => .failed (.general "funding vout out of range")
    | some output =>
      if funded.value ≠ output.value then .reject .announcedValue
      else match swap.htlc.validateFundingOutput P output (swap.amount + swap.fee) with
        | .error e => .reject (.badFundingOutput e)
        | .ok _ =>
          let (unspent, age) := LnShared.htlcUnspentAndAge P chain funded.outpoint
          let remaining := swap.locktime - age
          if answers.screened = false then .refuse .fundingRefused
          else if unspent = false then .refuse .fundingSpent
          else if remaining < minRemainingLocktime then
            .refuse (.remainingLocktime remaining swap.locktime age)
          else if remaining < satAdd32 (invoiceDelta maker swap) cltvSafetyMargin then
            .refuse (.remainingForInvoice remaining age (invoiceDelta maker swap))
          else .pass remaining
  | _, _ => .failed (.wallet .io)

/-! ## Tasks -/

inductive AfterStore where
  | accepted
  | sweep (preimage : Bytes)
  | sendSweep (tx : Transaction)
  /-- the payout is fixed: rebuild a sweep that is not confirmed -/
  | resendSweep
  | sendFunding (tx : Transaction)
  /-- the funding never reached the network, and the handler fails -/
  | reverted
  | sendRefund
  | refunded
deriving DecidableEq, Repr

inductive LnTask (P : Prims) where
  /-- the first half of `reject_if_swap_exists` -/
  | checkExists (req : LnRequest P)
  | checkCount (req : LnRequest P)
  | acceptTerms (req : LnRequest P)
  /-- `store_ln_swap`, the wallet's half -/
  | store (id : String) (swap : LnMakerSwap P) (after : AfterStore)
  /-- `store_ln_swap`, the half of the live swaps -/
  | insert (id : String) (swap : LnMakerSwap P) (after : AfterStore)
  | unsubscribe (id : String) (paymentHash : Bytes)
  /-- `remove_ln_swap`, the half of the live swaps -/
  | remove (id : String)
  /-- `remove_ln_swap`, the wallet's half -/
  | erase (id : String)
  | funded (msg : LnHtlcFunded)
  | awaitConfirmation (msg : LnHtlcFunded) (swap : LnMakerSwap P)
  | verifyFunding (msg : LnHtlcFunded) (swap : LnMakerSwap P)
  | fundingHeight (msg : LnHtlcFunded) (swap : LnMakerSwap P) (remaining : Nat)
  | moveToPaid (id : String) (swap : LnMakerSwap P) (remaining : Nat)
  | payInvoice (id : String) (swap : LnMakerSwap P) (remaining : Nat)
  | awaitPreimage (id : String) (swap : LnMakerSwap P)
  | sweepSwapIn (id : String) (swap : LnMakerSwap P) (preimage : Bytes)
  | sendSweep (id : String) (tx : Transaction)
  | refuseSwapIn (id : String) (reason : LnRejection)
  | paid (id : String)
  | awaitHeld (id : String) (swap : LnMakerSwap P)
  | fundHtlc (id : String) (swap : LnMakerSwap P) (claimDeadline : Option Nat)
  | sendFunding (id : String) (swap : LnMakerSwap P) (tx : Transaction)
  | checkKnown (id : String) (swap : LnMakerSwap P) (relayed : Bool)
  | claimed (id : String) (claimTxid : Bytes)
  | settleClaim (id : String) (swap : LnMakerSwap P) (claimTxid : Bytes)
  | finishSwapIn (id : String) (swap : LnMakerSwap P)
  | paymentOutcome (id : String) (swap : LnMakerSwap P)
  | recoverFundingHeight (id : String) (swap : LnMakerSwap P) (outcome : PaymentOutcome)
  | dropUnsettled (id : String) (swap : LnMakerSwap P) (outcome : PaymentOutcome)
      (fundedAt : Nat)
  | finishSweep (id : String) (swap : LnMakerSwap P)
  | resendSweep (id : String) (swap : LnMakerSwap P)
  | expireSwapIn (id : String) (swap : LnMakerSwap P)
  | expire (id : String) (swap : LnMakerSwap P)
  | resolveSwapOut (id : String) (swap : LnMakerSwap P)
  | sendRefund (id : String) (swap : LnMakerSwap P)

inductive LnNext (P : Prims) where
  | busy (task : LnTask P)
  | ended (outcome : LnOutcome)

def LnNext.rejected (reason : LnRejection) : LnNext P := .ended (.ok (some reason))

def LnNext.failed (message : String) : LnNext P := .ended (.error (.general message))

def LnNext.served : LnNext P := .ended (.ok none)

/-! ## The steps of a task -/

variable (id : String)

/-- Continue once the payout script is fixed; a fresh one is stored first. -/
def withPayout (swap : LnMakerSwap P) (after : AfterStore) (next : Bytes → LnNext P) : LnNext P :=
  match swap.payoutScript, answers.receiveScript with
  | some script, _ => next script
  | none, some script => .busy (.store id { swap with payoutScript := some script } after)
  | none, none => .ended (.error (.wallet .io))

/-- Build the sweep, and store the swept swap before the broadcast. -/
def buildSweep (swap : LnMakerSwap P) (preimage : Bytes) (destination : Bytes) : LnNext P :=
  match swap.funding with
  | none => .failed "swap-in sweep without funding"
  | some (outpoint, value) =>
    match swap.htlc.createHashlockSpend outpoint value swap.privkey preimage destination with
    | .error _ => .failed "claim build failed"
    | .ok tx => .busy (.store id
        { swap with preimage := some preimage, phase := .inSwept, updatedAt := sh.clock }
        (.sendSweep tx))

/-- Settle the held payment with the preimage a spend of the HTLC shows. -/
def settleSwapOutFromSpend (swap : LnMakerSwap P) (spendTx : Transaction) : LnShared P × LnNext P :=
  match swap.htlc.extractPreimage spendTx with
  | none => (sh, .failed "spend reveals no preimage")
  | some preimage =>
    if P.sha256 preimage ≠ swap.paymentHash then (sh, .failed "revealed preimage does not match")
    else if answers.lightning = false then (sh, .failed "claim held payment failed")
    else (sh.record (.settled id swap preimage), .busy (.unsubscribe id swap.paymentHash))

def AfterStore.resume (swap : LnMakerSwap P) :
    AfterStore → LnNext P
  | .accepted | .refunded => .served
  | .sweep preimage => buildSweep sh id swap preimage (swap.payoutScript.getD [])
  | .sendSweep tx => .busy (.sendSweep id tx)
  | .resendSweep => .busy (.resendSweep id swap)
  | .sendFunding tx => .busy (.sendFunding id swap tx)
  | .reverted => .failed "funding never reached the network"
  | .sendRefund => .busy (.sendRefund id swap)

def htlcVout (spk : Bytes) (tx : Transaction) : Option Nat :=
  tx.output.findIdx? (·.scriptPubkey = spk)

/-- The checks of `handle_swap_out_paid` on the held payment, and the funded swap. -/
def fundSwapOut (swap : LnMakerSwap P) (claimDeadline : Option Nat) : LnNext P :=
  let tip := sh.chain.height
  let claimWindowEnds := satAdd32 (satAdd32 tip fundingConfBudget) swap.locktime
  match answers.node, claimDeadline with
  | false, _ => .ended (.error (.wallet .io))
  | true, none => .rejected .noClaimDeadline
  | true, some deadline =>
    if deadline < satAdd32 claimWindowEnds settleMargin then
      .rejected (.claimDeadline deadline claimWindowEnds tip swap.locktime)
    else match answers.fundingTx with
      | none => .ended (.error (.wallet .io))
      | some tx =>
        match htlcVout (swap.htlc.scriptPubkey P) tx with
        | none => .failed "funding tx has no HTLC output"
        | some vout => .busy (.store id
            { swap with
              funding := some (⟨P.txid tx, vout⟩, (tx.output[vout]?.map (·.value)).getD 0)
              fundingHeight := if answers.heightRead then some tip else none
              phase := .outFunded
              updatedAt := sh.clock }
            (.sendFunding tx))

/-- A funded swap put back to where it awaits its payment. -/
def LnMakerSwap.revert (swap : LnMakerSwap P) (clock : Nat) : LnMakerSwap P :=
  { swap with funding := none, fundingHeight := none, phase := .outAccepted, updatedAt := clock }

/-- A swap-in whose funding never came within its budget of blocks. -/
def swapInExpired (swap : LnMakerSwap P) : Bool :=
  match swap.acceptedHeight, answers.node with
  | some accepted, true =>
    satAdd32 (satAdd32 accepted swap.minConfirmations) fundingConfBudget < sh.chain.height
  | _, _ => swapOutPaymentDeadline < sh.clock - swap.updatedAt

/-- What the watchdog does about a payment that has not settled once the taker's window
has closed: drop the swap if the payment failed or the taker's refund confirmed. -/
def mayDrop (swap : LnMakerSwap P) (outcome : PaymentOutcome) (fundedAt : Nat) : Bool :=
  satAdd32 (satAdd32 fundedAt swap.locktime) refundGraceBlocks < sh.chain.height &&
    match outcome with
    | .failed => true
    | .pending | .notFound => (swap.funding.map (·.1)).any sh.chain.confirmedSpend
    | .settled _ => false

def watchdogResolveSwapOut (swap : LnMakerSwap P) : LnShared P × LnNext P :=
  match swap.funding, watchRequest answers.watch with
  | none, _ => (sh, .failed "OutFunded without funding")
  | some _, none => (sh, .failed "watch request failed")
  | some (outpoint, _), some (.utxoSpent (some spendingTx)) =>
    if (swap.htlc.extractPreimage spendingTx).isSome then
      settleSwapOutFromSpend sh answers id swap spendingTx
    else if answers.node = false then (sh, .ended (.error (.wallet .io)))
    else if sh.chain.confirmedSpend outpoint = false then (sh, .served)
    -- another spend than the maker's refund can only be the taker's claim
    else if (swap.refundTxid.bind (sh.chain.txBlockHeight P)).isNone then (sh, .served)
    else (sh.record (.failedBack id swap sh.chain), .busy (.unsubscribe id swap.paymentHash))
  | some _, some (.utxoSpent none) | some _, some .noOutpoint => (sh, .served)
  -- the arm the source means for an unspent output
  | some _, some .error =>
    if answers.node = false then (sh, .ended (.error (.wallet .io)))
    else if swap.fundingHeight.any fun h => satAdd32 h swap.locktime ≤ sh.chain.height then
      (sh, withPayout answers id swap .sendRefund fun _ => .busy (.sendRefund id swap))
    else (sh, .served)

def LnTask.advance :
    LnTask P → LnShared P × LnNext P
  | .checkExists req =>
    match checkRequest maker req with
    | .error reason => (sh, .rejected reason)
    | .ok _ =>
      if req.swapId ∈ sh.lnSwaps then (sh, .rejected .swapExists) else (sh, .busy (.checkCount req))
  | .checkCount req =>
    if maxConcurrentLnSwaps ≤ sh.lnSwaps.keys.length then (sh, .rejected .tooManySwaps)
    else (sh, .busy (.acceptTerms req))
  | .acceptTerms req =>
    match acceptRequest maker sh answers req with
    | .error outcome => (sh, .ended outcome)
    | .ok swap => (sh.subscribe req.paymentHash, .busy (.store req.swapId swap .accepted))
  | .store id swap after =>
    ({ sh with lnMakerSwaps := sh.lnMakerSwaps.insert id swap.toRecord },
      if answers.saved then .busy (.insert id swap after) else .ended (.error (.wallet .io)))
  | .insert id swap after =>
    ({ sh with lnSwaps := sh.lnSwaps.insert id swap }, after.resume sh id swap)
  | .unsubscribe id paymentHash => (sh.unsubscribe paymentHash, .busy (.remove id))
  | .remove id => ({ sh with lnSwaps := sh.lnSwaps.erase id }, .busy (.erase id))
  | .erase id => ({ sh with lnMakerSwaps := sh.lnMakerSwaps.erase id }, .served)
  | .funded msg =>
    match sh.lnSwaps.lookup msg.swapId with
    | none => (sh, .rejected .unknownSwap)
    | some swap =>
      if swap.phase = .inAccepted then (sh, .busy (.awaitConfirmation msg swap))
      else (sh, .failed "swap-in not awaiting funding")
  | .awaitConfirmation msg swap =>
    if answers.timeout then (sh, .ended (.error (.wallet .io)))
    else if swap.minConfirmations ≤ ((sh.chain.txBlockHeight P msg.outpoint.txid).map
        (sh.chain.height + 1 - ·)).getD 0 then (sh, .busy (.verifyFunding msg swap))
    else (sh, .busy (.awaitConfirmation msg swap))
  | .verifyFunding msg swap =>
    match fundingVerdict maker sh.chain answers msg swap with
    | .failed error => (sh, .ended (.error error))
    | .reject reason => (sh, .rejected reason)
    | .refuse reason => (sh, .busy (.refuseSwapIn msg.swapId reason))
    | .pass remaining => (sh, .busy (.fundingHeight msg swap remaining))
  | .fundingHeight msg swap remaining =>
    match answers.node, sh.chain.txBlockHeight P msg.outpoint.txid with
    | true, some height => (sh, .busy (.moveToPaid msg.swapId
        { swap with
          funding := some (msg.outpoint, msg.value)
          fundingHeight := some height
          phase := .inPaid
          updatedAt := sh.clock } remaining))
    | true, none => (sh, .failed "swap-in funding has no confirmation height")
    | false, _ => (sh, .ended (.error (.wallet .io)))
  | .moveToPaid id swap remaining =>
    match sh.lnSwaps.lookup id, sh.storeLnSwapIfPhase id .inAccepted swap answers.saved with
    | some before, some (.ok sh') =>
      (sh'.record (.moved id before swap), .busy (.payInvoice id swap remaining))
    | _, some (.error error) => (sh, .ended (.error error))
    | _, _ => (sh, .failed "swap-in no longer awaiting funding")
  | .payInvoice id swap remaining =>
    if answers.registered then
      (sh.record (.paid id swap (remaining - cltvSafetyMargin) sh.chain),
        if answers.lightning then .busy (.awaitPreimage id swap) else .failed "pay_invoice failed")
    else (sh, .ended (.error (.wallet .io)))
  | .awaitPreimage id swap =>
    match sh.takeEvent swap.paymentHash with
    | some (.paymentSuccessful (some preimage), sh') =>
      (sh', if P.sha256 preimage = swap.paymentHash then .busy (.sweepSwapIn id swap preimage)
        else .failed "settlement preimage mismatch")
    | some (.paymentFailed, sh') => (sh', .failed "lightning payment failed")
    | some (_, sh') => (sh', .busy (.awaitPreimage id swap))
    | none => (sh, if answers.timeout then .failed "timed out waiting for settlement"
        else .busy (.awaitPreimage id swap))
  | .sweepSwapIn id swap preimage =>
    (sh, withPayout answers id swap (.sweep preimage) (buildSweep sh id swap preimage))
  | .sendSweep id tx =>
    if answers.broadcast = .lost then (sh, .ended (.error (.wallet .io)))
    else (sh.record (.sweepSent id tx), .served)
  | .refuseSwapIn id reason => (sh.removeLnSwapIfPhase id .inAccepted, .rejected reason)
  | .paid id =>
    match sh.lnSwaps.lookup id with
    | none => (sh, .rejected .unknownSwap)
    | some swap =>
      if swap.phase = .outAccepted then (sh, .busy (.awaitHeld id swap))
      else if swap.phase = .outFunded then (sh, .served)
      else (sh, .failed "swap-out not awaiting payment")
  | .awaitHeld id swap =>
    match sh.takeEvent swap.paymentHash with
    | some (.paymentClaimable claimDeadline, sh') => (sh', .busy (.fundHtlc id swap claimDeadline))
    | some (_, sh') => (sh', .busy (.awaitHeld id swap))
    | none => (sh, if answers.timeout then .rejected .paymentNotObserved
        else .busy (.awaitHeld id swap))
  | .fundHtlc id swap claimDeadline => (sh, fundSwapOut sh answers id swap claimDeadline)
  | .sendFunding id swap _ =>
    match answers.registered, answers.broadcast with
    | true, .sent => (sh.record (.fundingSent id swap), .served)
    | true, .relayed => (sh.record (.fundingSent id swap), .busy (.checkKnown id swap true))
    | _, _ => (sh, .busy (.checkKnown id swap false))
  | .checkKnown id swap _ =>
    -- a failed query counts as known
    (sh, if answers.transactionKnown.getD true then .failed "funding broadcast failed"
      else .busy (.store id (swap.revert sh.clock) .reverted))
  | .claimed id claimTxid =>
    match sh.lnSwaps.lookup id with
    | none => (sh, .rejected .unknownSwap)
    | some swap =>
      if swap.phase = .outFunded then (sh, .busy (.settleClaim id swap claimTxid))
      else (sh, .failed "swap-out not awaiting claim")
  | .settleClaim id swap claimTxid =>
    match answers.node, sh.chain.transaction P claimTxid with
    | true, some claimTx => settleSwapOutFromSpend sh answers id swap claimTx
    | _, _ => (sh, .ended (.error (.wallet .io)))
  | .finishSwapIn id swap =>
    match sh.takeEvent swap.paymentHash with
    | some (.paymentSuccessful (some preimage), sh') =>
      (sh', .busy (if P.sha256 preimage = swap.paymentHash then .sweepSwapIn id swap preimage
        else .finishSwapIn id swap))
    | some (_, sh') => (sh', .busy (.finishSwapIn id swap))
    | none => (sh, .busy (.paymentOutcome id swap))
  | .paymentOutcome id swap =>
    match answers.paymentOutcome with
    | none => (sh, .failed "payment lookup failed")
    | some outcome =>
      match (if let .settled preimage := outcome then
          if P.sha256 preimage = swap.paymentHash then some preimage else none else none) with
      | some preimage => (sh, .busy (.sweepSwapIn id swap preimage))
      | none => (sh, .busy (match swap.fundingHeight with
        | some height => .dropUnsettled id swap outcome height
        | none => .recoverFundingHeight id swap outcome))
  | .recoverFundingHeight id swap outcome =>
    match swap.funding with
    | none => (sh, .served)
    | some (outpoint, _) =>
      match answers.node, sh.chain.txBlockHeight P outpoint.txid with
      | true, some height =>
        match sh.fillLnFundingHeight id .inPaid outpoint height answers.saved with
        | some (.ok sh') => (sh', .busy (.dropUnsettled id swap outcome height))
        | some (.error error) => (sh, .ended (.error error))
        | none => (sh, .served)
      | true, none => (sh, .served)
      | false, _ => (sh, .ended (.error (.wallet .io)))
  | .dropUnsettled id swap outcome fundedAt =>
    if answers.node && mayDrop sh swap outcome fundedAt then
      (sh.removeLnSwapIfPhase id .inPaid, .served)
    else (sh, .served)
  | .finishSweep id swap =>
    match swap.funding, answers.node with
    | none, _ => (sh, .failed "swept swap without funding")
    | some _, false => (sh, .ended (.error (.wallet .io)))
    | some (outpoint, _), true =>
      if sh.chain.confirmedSpend outpoint then (sh, .busy (.unsubscribe id swap.paymentHash))
      else if swap.preimage = none then (sh, .failed "swept swap without a preimage")
      else (sh, withPayout answers id swap .resendSweep fun _ => .busy (.resendSweep id swap))
  | .resendSweep id swap =>
    match swap.funding, swap.preimage, swap.payoutScript with
    | some (outpoint, value), some preimage, some destination =>
      match swap.htlc.createHashlockSpend outpoint value swap.privkey preimage destination with
      | .error _ => (sh, .failed "claim rebuild failed")
      | .ok tx =>
        if answers.broadcast = .lost then (sh, .served)
        else (sh.record (.sweepSent id tx), .served)
    | _, _, _ => (sh, .failed "claim rebuild failed")
  | .expireSwapIn id swap =>
    if swapInExpired sh answers swap then (sh.removeLnSwapIfPhase id .inAccepted, .served)
    else (sh, .served)
  | .expire id swap =>
    if swapOutPaymentDeadline < sh.clock - swap.updatedAt then
      (if swap.direction = .swapOut then sh.record (.failedBack id swap sh.chain) else sh,
        .busy (.unsubscribe id swap.paymentHash))
    else (sh, .served)
  | .resolveSwapOut id swap => watchdogResolveSwapOut sh answers id swap
  | .sendRefund id swap =>
    match swap.funding, swap.payoutScript with
    | some (outpoint, value), some destination =>
      match swap.htlc.createTimelockSpend outpoint value swap.privkey destination with
      | .error _ => (sh, .failed "refund build failed")
      | .ok tx =>
        if answers.broadcast = .sent then
          (sh.record (.refundSent id swap (P.txid tx)),
            .busy (.store id
              { swap with refundTxid := some (P.txid tx), updatedAt := sh.clock } .refunded))
        else (sh, .served)
    | _, _ => (sh, .failed "refund build failed")

/-! ## The machine -/

def LightningTakerMessage.task : LightningTakerMessage P → LnTask P
  | .request req => .checkExists req
  | .swapInFunded funded => .funded funded
  | .swapOutPaid id => .paid id
  | .swapOutClaimed id claimTxid => .claimed id claimTxid

def watchdogTask (swap : LnMakerSwap P) : Option (LnTask P) :=
  match swap.direction, swap.phase with
  | .swapIn, .inPaid => some (.finishSwapIn id swap)
  | .swapIn, .inSwept => some (.finishSweep id swap)
  | .swapIn, .inAccepted => some (.expireSwapIn id swap)
  | _, .inAccepted | _, .outAccepted => some (.expire id swap)
  | .swapOut, .outFunded => some (.resolveSwapOut id swap)
  | _, _ => none

/-- The maker's Lightning side: what is shared, the connection handlers at work, and the
watchdog with the rest of its snapshot. -/
structure LnServer (P : Prims) where
  shared : LnShared P
  handlers : List (LnTask P)
  watchdog : Option (LnTask P)
  queue : List (String × LnMakerSwap P)

inductive LnAction (P : Prims) where
  | message (msg : LightningTakerMessage P)
  | handler (i : Nat) (answers : LnAnswers P)
  | snapshot
  | turn (i : Nat)
  | watchdog (answers : LnAnswers P)
  | event (paymentHash : Bytes) (event : LnEvent)
  | chain (chain : Chain)
  | wait (seconds : Nat)

def LnNext.task : LnNext P → Option (LnTask P)
  | .busy task => some task
  | .ended _ => none

namespace LnServer

variable (w : LnServer P)

def tasks : List (LnTask P) := w.handlers ++ w.watchdog.toList

def idleSwaps : List (String × LnMakerSwap P) :=
  (w.shared.lnSwaps.entries.filter fun e => watchdogMinIdle < w.shared.clock - e.2.updatedAt).map
    fun e => (e.1, e.2)

def step (maker : LnMaker P) : LnAction P → Option (LnServer P)
  | .message msg => some { w with handlers := w.handlers ++ [msg.task] }
  | .handler i answers => do
    let task ← w.handlers[i]?
    let (shared, next) := task.advance maker w.shared answers
    some { w with
      shared
      handlers := w.handlers.take i ++ next.task.toList ++ w.handlers.drop (i + 1) }
  | .snapshot =>
    if w.watchdog.isNone ∧ w.queue = [] then some { w with queue := w.idleSwaps } else none
  | .turn i =>
    if w.watchdog.isNone then
      w.queue[i]?.map fun entry =>
        { w with watchdog := watchdogTask entry.1 entry.2, queue := w.queue.eraseIdx i }
    else none
  | .watchdog answers => do
    let task ← w.watchdog
    let (shared, next) := task.advance maker w.shared answers
    some { w with shared, watchdog := next.task }
  | .event paymentHash event => some { w with shared := w.shared.pump paymentHash event }
  | .chain chain => some { w with shared := { w.shared with chain } }
  | .wait seconds => some { w with shared := { w.shared with clock := w.shared.clock + seconds } }

def start (chain : Chain) : LnServer P where
  shared := ⟨∅, ∅, ∅, chain, 0, []⟩
  handlers := []
  watchdog := none
  queue := []

end LnServer

end OpenSwap
