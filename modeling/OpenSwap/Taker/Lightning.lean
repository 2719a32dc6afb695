import OpenSwap.Base.Maps
import OpenSwap.Base.Run
import OpenSwap.Lightning.Messages

/-!
# The taker's Lightning swaps

A taker swaps in, swaps out, or routes a swap through two makers; whatever goes wrong on
the way, a later recovery spends what the pending records of the wallet still reach.  One
call is at work at a time.  It can fail at any of its steps, and the process can stop
between any two, after which the wallet is read from disk again.

* `LnTakerTask` is what a call does next, `LnTakerTask.advance` the step it takes.
* `LnTakerWallet` holds the pending records in memory and on disk.
* `LnClient.step` is the machine: calls, their steps, saves by other parts of the wallet,
  new views of the chain, restarts.

Makers, the Lightning node, the wallet's own transactions and failures are answers of the
environment; what is said of transactions and heights is read off a view of the chain.
Not modelled: the choice of a maker and the handshake, messages that carry news to a maker
and change nothing here, and what a call returns on success.
-/

namespace OpenSwap

open Btc Checked

variable {P : Prims}

/-! ## Terms and errors -/

/-- Parameters of a swap; those of a routed swap are the same but for the makers. -/
structure LnSwapParams where
  amount : Nat
  locktime : Option Nat
  minConfirmations : Nat
deriving DecidableEq, Repr

inductive LnTakerError where
  | noBackend
  | noMaker
  | notServing
  | amountOutside (amount minSize maxSize : Nat)
  | tooLarge (amount : Nat)
  | holdInvoice
  | invoice (e : InvoiceError)
  | cltvDelta (delta : Nat)
  | noDefaultLocktime (delta : Nat)
  | locktimeTooShort (locktime delta : Nat)
  | send
  | read
  | unexpectedMessage
  | differentTerms
  | feeAboveAdvertised (quoted advertised : Nat)
  | feeAboveCeiling (quoted ceiling : Nat)
  | overflow (amount fee : Nat)
  | sameMaker
  | wallet
  | noFundingTx
  | noHtlcOutput
  | earlyReject
  | lightning
  | timedOut
  | differentSwap
  | voutOutOfRange
  | announcedValue
  | badFundingOutput (e : SwapError)
  | fundingRefused
  | spendBuild (e : SwapError)
  | noPreimage
deriving DecidableEq, Repr

structure LnTaker (P : Prims) where
  advertisedFee : LightningOffer → Nat → Nat
  ripemd160 : Bytes → Bytes
  parseInvoice : String → Option Invoice

structure LnMakerConn where
  address : String
  lnOffer : LightningOffer

/-- The taker's record of a swap, with the only copy of its branch key. -/
structure LnPendingSwap (P : Prims) where
  isSwapIn : Bool
  preimage : Option Bytes
  redeemscript : Bytes
  locktime : Nat
  /-- the timelock branch's key in a swap-in, the hashlock branch's otherwise -/
  privkey : P.SecretKey
  outpoint : Option OutPoint
  value : Option Nat
deriving DecidableEq

def LnPendingSwap.htlc (record : LnPendingSwap P) : SwapHtlc :=
  ⟨record.redeemscript, record.locktime⟩

structure LnTakerAnswers (P : Prims) where
  backend : Bool
  conn : Option LnMakerConn
  preimage : Bytes
  timelockKey : P.SecretKey
  hashlockKey : P.SecretKey
  holdInvoice : Option String
  sent : Bool
  /-- the maker's next message; a failed read and a rejection are none -/
  reply : Option (LightningMakerMessage P)
  saved : Bool
  node : Bool
  timeout : Bool
  fundingTx : Option Transaction
  broadcast : Broadcast
  earlyReject : Bool
  lightning : Bool
  claimable : Bool
  screened : Bool
  receiveScript : Option Bytes

namespace LnTaker

def cltvSafetyMargin : Nat := 12
def defaultLocktimeHeadroom : Nat := 48
def defaultSwapOutLocktime : Nat := 144
def routedHopTimelockMargin : Nat := 48
def maxFeePercent : Nat := 5

/-- `u16::saturating_add` -/
def satAdd16 (a b : Nat) : Nat := min (a + b) (2 ^ 16 - 1)

/-- `u16::checked_add` -/
def checkedAdd16 (a b : Nat) : Option Nat := if a + b < 2 ^ 16 then some (a + b) else none

def checkOffer (offer : LightningOffer) (direction : LnDirection) (amount : Nat) :
    Except LnTakerError Unit := do
  let (served, maxSize) := offer.directionLimits direction
  ensure (served = true) .notServing
  ensure (offer.minSize ≤ amount ∧ amount ≤ maxSize) (.amountOutside amount offer.minSize maxSize)

def maxAcceptableFee (amount : Nat) : Nat := min (amount * maxFeePercent) (2 ^ 64 - 1) / 100

def checkFee (quoted advertised amount : Nat) : Except LnTakerError Unit := do
  ensure (quoted ≤ advertised) (.feeAboveAdvertised quoted advertised)
  ensure (quoted ≤ maxAcceptableFee amount) (.feeAboveCeiling quoted (maxAcceptableFee amount))

def msat (amount : Nat) : Except LnTakerError Nat :=
  okOr (checkedMul64 amount 1000) (.tooLarge amount)

def totalWithFee (amount fee : Nat) : Except LnTakerError Nat :=
  okOr (checkedAdd64 amount fee) (.overflow amount fee)

/-- A final delta no locktime could cover is refused, not truncated. -/
def cltvDeltaBlocks (delta : Nat) : Except LnTakerError Nat := do
  ensure (delta < 2 ^ 16) (.cltvDelta delta)
  .ok delta

/-- The lock of a swap-in: as asked for, or the invoice's final delta with some headroom. -/
def swapInLocktime (asked : Option Nat) (cltvDelta : Nat) : Except LnTakerError Nat :=
  match asked with
  | some locktime => .ok locktime
  | none => okOr (checkedAdd16 cltvDelta defaultLocktimeHeadroom) (.noDefaultLocktime cltvDelta)

end LnTaker

/-! ## Local variables of a call -/

structure InRequest (P : Prims) where
  key : String
  swapId : String
  preimage : Bytes
  privkey : P.SecretKey
  locktime : Nat
  expectedFee : Nat
  amount : Nat
  minConfirmations : Nat

structure OutRequest (P : Prims) where
  key : String
  swapId : String
  preimage : Bytes
  privkey : P.SecretKey
  locktime : Nat
  expectedFee : Nat
  amount : Nat
  minConfirmations : Nat
  address : String

structure FundTerms (P : Prims) where
  key : String
  preimage : Bytes
  htlc : SwapHtlc
  privkey : P.SecretKey
  amount : Nat
  fee : Nat
  minConfirmations : Nat

structure ClaimTerms (P : Prims) where
  key : String
  swapId : String
  preimage : Bytes
  htlc : SwapHtlc
  privkey : P.SecretKey
  amount : Nat
  minConfirmations : Nat
  firstHop : Option String

def FundTerms.record (terms : FundTerms P) : LnPendingSwap P where
  isSwapIn := true
  preimage := some terms.preimage
  redeemscript := terms.htlc.redeemscript
  locktime := terms.htlc.locktime
  privkey := terms.privkey
  outpoint := none
  value := none

def ClaimTerms.record (terms : ClaimTerms P) : LnPendingSwap P where
  isSwapIn := false
  preimage := some terms.preimage
  redeemscript := terms.htlc.redeemscript
  locktime := terms.htlc.locktime
  privkey := terms.privkey
  outpoint := none
  value := none

/-! ## Requests and replies -/

namespace LnTaker

variable (taker : LnTaker P)

/-- `lightning_swap_in` up to its request. -/
def requestIn (answers : LnTakerAnswers P) (params : LnSwapParams) :
    Except LnTakerError (InRequest P) := do
  ensure (answers.backend = true) .noBackend
  let conn ← okOr answers.conn .noMaker
  checkOffer conn.lnOffer .swapIn params.amount
  let paymentHash := P.sha256 answers.preimage
  let amountMsat ← msat params.amount
  let invoice ← okOr answers.holdInvoice .holdInvoice
  let delta ← (verifyInvoice taker.parseInvoice invoice paymentHash amountMsat).mapError .invoice
  let cltvDelta ← cltvDeltaBlocks delta
  let locktime ← swapInLocktime params.locktime cltvDelta
  ensure (satAdd16 cltvDelta cltvSafetyMargin ≤ locktime) (.locktimeTooShort locktime cltvDelta)
  ensure (answers.sent = true) .send
  .ok {
    key := hexString paymentHash
    swapId := hexString paymentHash
    preimage := answers.preimage
    privkey := answers.timelockKey
    locktime
    expectedFee := taker.advertisedFee conn.lnOffer params.amount
    amount := params.amount
    minConfirmations := params.minConfirmations }

def acceptIn (req : InRequest P) (reply : Option (LightningMakerMessage P)) :
    Except LnTakerError (FundTerms P) := do
  match ← okOr reply .read with
  | .swapInAccept accept =>
    ensure (accept.swapId = req.swapId ∧ accept.locktime = req.locktime ∧
      accept.minConfirmations = req.minConfirmations) .differentTerms
    checkFee accept.fee req.expectedFee req.amount
    .ok {
      key := req.key
      preimage := req.preimage
      htlc := .new taker.ripemd160 accept.makerHashlockPubkey (Prims.publicKey req.privkey)
        (P.sha256 req.preimage) req.locktime
      privkey := req.privkey
      amount := req.amount
      fee := accept.fee
      minConfirmations := req.minConfirmations }
  | _ => .error .unexpectedMessage

def requestOut (answers : LnTakerAnswers P) (params : LnSwapParams) (key : String → String) :
    Except LnTakerError (OutRequest P) := do
  let conn ← okOr answers.conn .noMaker
  checkOffer conn.lnOffer .swapOut params.amount
  let swapId := hexString (P.sha256 answers.preimage)
  ensure (answers.sent = true) .send
  .ok {
    key := key swapId
    swapId
    preimage := answers.preimage
    privkey := answers.hashlockKey
    locktime := params.locktime.getD defaultSwapOutLocktime
    expectedFee := taker.advertisedFee conn.lnOffer params.amount
    amount := params.amount
    minConfirmations := params.minConfirmations
    address := conn.address }

/-- The accepted terms of a swap-out, its verified invoice and the invoice's final delta. -/
def acceptOut (req : OutRequest P) (firstHop : Option String)
    (reply : Option (LightningMakerMessage P)) :
    Except LnTakerError (ClaimTerms P × LnSwapOutAccept P × Nat) := do
  match ← okOr reply .read with
  | .swapOutAccept accept =>
    ensure (accept.swapId = req.swapId ∧ accept.locktime = req.locktime ∧
      accept.minConfirmations = req.minConfirmations) .differentTerms
    checkFee accept.fee req.expectedFee req.amount
    let total ← totalWithFee req.amount accept.fee
    let totalMsat ← msat total
    let delta ← (verifyInvoice taker.parseInvoice accept.invoice (P.sha256 req.preimage)
      totalMsat).mapError .invoice
    .ok ({
      key := req.key
      swapId := req.swapId
      preimage := req.preimage
      htlc := .new taker.ripemd160 (Prims.publicKey req.privkey) accept.makerTimelockPubkey
        (P.sha256 req.preimage) req.locktime
      privkey := req.privkey
      amount := req.amount
      minConfirmations := req.minConfirmations
      firstHop }, accept, delta)
  | _ => .error .unexpectedMessage

/-- The second maker's terms of a routed swap, and the request to the first maker. -/
def requestFirst (answers : LnTakerAnswers P) (req : OutRequest P) :
    Except LnTakerError (ClaimTerms P × InRequest P) := do
  let inKey := req.swapId ++ "-in"
  let (claim, accept, delta) ← taker.acceptOut req (some inKey) answers.reply
  let middleAmount ← totalWithFee req.amount accept.fee
  let cltvDelta ← cltvDeltaBlocks delta
  let inLocktime := satAdd16 req.locktime routedHopTimelockMargin
  ensure (satAdd16 cltvDelta cltvSafetyMargin ≤ inLocktime) (.locktimeTooShort inLocktime cltvDelta)
  let conn ← okOr answers.conn .noMaker
  ensure (conn.address ≠ req.address) .sameMaker
  checkOffer conn.lnOffer .swapIn middleAmount
  ensure (answers.sent = true) .send
  .ok (claim, {
    key := inKey
    swapId := req.swapId
    preimage := req.preimage
    privkey := answers.timelockKey
    locktime := inLocktime
    expectedFee := taker.advertisedFee conn.lnOffer middleAmount
    amount := middleAmount
    minConfirmations := req.minConfirmations })

end LnTaker

/-! ## The wallet -/

inductive LnTakerEffect (P : Prims) where
  /-- the request for a swap-out went out, at a height -/
  | requested (key : String) (height : Nat)
  | paid (key : String) (cltvBound : Nat)
  | fundingSent (key : String) (outpoint : OutPoint)
  | paymentClaimed (key : String)
  | claimSent (key : String) (htlc : SwapHtlc) (outpoint : OutPoint) (chain : Chain)
  | refundSent (key : String) (outpoint : OutPoint)
  | removed (key : String) (record : LnPendingSwap P) (chain : Chain)
deriving DecidableEq

structure LnTakerWallet (P : Prims) where
  lnPendingSwaps : AList fun _ : String => LnPendingSwap P
  disk : AList fun _ : String => LnPendingSwap P
  chain : Chain
  history : List (LnTakerEffect P)

namespace LnTakerWallet

variable (w : LnTakerWallet P)

def record (e : LnTakerEffect P) : LnTakerWallet P := { w with history := e :: w.history }

def saveToDisk (saved : Bool) : LnTakerWallet P :=
  if saved then { w with disk := w.lnPendingSwaps } else w

def savePendingSwap (key : String) (record : LnPendingSwap P) (saved : Bool) : LnTakerWallet P :=
  saveToDisk { w with lnPendingSwaps := w.lnPendingSwaps.insert key record } saved

def recordOutpoint (key : String) (outpoint : OutPoint) (value : Nat) (saved : Bool) :
    LnTakerWallet P :=
  saveToDisk
    { w with lnPendingSwaps := w.lnPendingSwaps.modifyAt key fun record =>
        { record with outpoint := some outpoint, value := some value } } saved

def removePendingSwap (key : String) (saved : Bool) : LnTakerWallet P :=
  match w.lnPendingSwaps.lookup key with
  | some record =>
    saveToDisk
      { w with
        lnPendingSwaps := w.lnPendingSwaps.erase key
        history := .removed key record w.chain :: w.history } saved
  | none => w.saveToDisk saved

def confirmations (txid : Bytes) : Nat :=
  ((w.chain.txBlockHeight P txid).map (w.chain.height + 1 - ·)).getD 0

end LnTakerWallet

/-! ## Steps -/

inductive LnTakerTask (P : Prims) where
  | swapIn (params : LnSwapParams)
  | acceptIn (req : InRequest P)
  | saveIn (terms : FundTerms P)
  | swapOut (params : LnSwapParams)
  | acceptOut (req : OutRequest P)
  | saveOut (claim : ClaimTerms P) (invoice : String)
  | pay (claim : ClaimTerms P)
  | routed (params : LnSwapParams)
  | acceptSecond (req : OutRequest P)
  | acceptFirst (claim : ClaimTerms P) (req : InRequest P)
  | saveFirst (terms : FundTerms P) (claim : ClaimTerms P)
  | saveSecond (terms : FundTerms P) (claim : ClaimTerms P)
  /-- `fund_htlc_output` up to its save, for a swap-in or for the first hop of a routed
  swap -/
  | fund (terms : FundTerms P) (claim : Option (ClaimTerms P))
  | sendFunding (terms : FundTerms P) (claim : Option (ClaimTerms P)) (outpoint : OutPoint)
  | confirmOwn (terms : FundTerms P) (claim : Option (ClaimTerms P)) (outpoint : OutPoint)
  | announce (terms : FundTerms P) (claim : Option (ClaimTerms P))
  | awaitPayment (terms : FundTerms P)
  | closeIn (key : String)
  | readFunded (claim : ClaimTerms P)
  | confirmFunding (claim : ClaimTerms P) (funded : LnHtlcFunded)
  | verifyFunding (claim : ClaimTerms P) (funded : LnHtlcFunded)
  | recordFunding (claim : ClaimTerms P) (outpoint : OutPoint) (value : Nat)
  | sendClaim (claim : ClaimTerms P) (outpoint : OutPoint) (value : Nat)
  | close (claim : ClaimTerms P) (claimTx : Transaction)
  | closeFirst (key : String)
  | recover (records : List (String × LnPendingSwap P))
  | settle (key : String) (outpoint : OutPoint) (rest : List (String × LnPendingSwap P))

inductive LnTakerNext (P : Prims) where
  | busy (task : LnTakerTask P)
  | ended (outcome : Except LnTakerError Unit)

def LnTakerNext.task : LnTakerNext P → Option (LnTakerTask P)
  | .busy task => some task
  | .ended _ => none

def LnTakerNext.of {α : Type} (r : Except LnTakerError α) (next : α → LnTakerTask P) :
    LnTakerNext P :=
  match r with
  | .ok a => .busy (next a)
  | .error e => .ended (.error e)

def LnTakerNext.ifSaved (saved : Bool) (task : LnTakerTask P) : LnTakerNext P :=
  if saved then .busy task else .ended (.error .wallet)

def checkFunding (w : LnTakerWallet P) (answers : LnTakerAnswers P) (claim : ClaimTerms P)
    (funded : LnHtlcFunded) : Except LnTakerError Nat := do
  ensure (answers.node = true) .wallet
  let tx ← okOr (w.chain.transaction P funded.outpoint.txid) .wallet
  let output ← okOr tx.output[funded.outpoint.vout]? .voutOutOfRange
  ensure (funded.value = output.value) .announcedValue
  (claim.htlc.validateFundingOutput P output claim.amount).mapError .badFundingOutput
  ensure (answers.screened = true) .fundingRefused
  .ok output.value

/-- The transaction `execute_funding_plan` made, with the place of the contract in it. -/
def htlcFunding (answers : LnTakerAnswers P) (terms : FundTerms P) :
    Except LnTakerError (OutPoint × Nat) := do
  let _ ← LnTaker.totalWithFee terms.amount terms.fee
  let tx ← okOr answers.fundingTx .noFundingTx
  let vout ← okOr (tx.output.findIdx? (·.scriptPubkey = terms.htlc.scriptPubkey P)) .noHtlcOutput
  .ok (⟨P.txid tx, vout⟩, (tx.output[vout]?.map (·.value)).getD 0)

def recoverySpend (record : LnPendingSwap P) (outpoint : OutPoint) (value : Nat)
    (destination : Bytes) : Except LnTakerError Transaction :=
  if record.isSwapIn then
    (record.htlc.createTimelockSpend outpoint value record.privkey destination).mapError .spendBuild
  else do
    let preimage ← okOr record.preimage .noPreimage
    (record.htlc.createHashlockSpend outpoint value record.privkey preimage destination).mapError
      .spendBuild

def recoverNext (w : LnTakerWallet P) (answers : LnTakerAnswers P) (key : String)
    (record : LnPendingSwap P) (rest : List (String × LnPendingSwap P)) :
    LnTakerWallet P × LnTakerNext P :=
  match record.outpoint, record.value with
  | some outpoint, some value =>
    match (okOr answers.receiveScript LnTakerError.wallet).bind
        (recoverySpend record outpoint value) with
    | .error e => (w, .ended (.error e))
    | .ok _ =>
      if answers.broadcast = .lost then (w, .busy (.settle key outpoint rest))
      else if record.isSwapIn then
        (w.record (.refundSent key outpoint), .busy (.settle key outpoint rest))
      else
        (w.record (.claimSent key record.htlc outpoint w.chain), .busy (.settle key outpoint rest))
  | _, _ => (w.removePendingSwap key answers.saved, .ifSaved answers.saved (.recover rest))

def LnTakerTask.advance (taker : LnTaker P) (w : LnTakerWallet P) (answers : LnTakerAnswers P) :
    LnTakerTask P → LnTakerWallet P × LnTakerNext P
  | .swapIn params => (w, .of (taker.requestIn answers params) .acceptIn)
  | .acceptIn req => (w, .of (taker.acceptIn req answers.reply) .saveIn)
  | .saveIn terms =>
    (w.savePendingSwap terms.key terms.record answers.saved,
      .ifSaved answers.saved (.fund terms none))
  | .swapOut params =>
    if answers.backend = false then (w, .ended (.error .noBackend))
    else match taker.requestOut answers params id with
      | .ok req => (w.record (.requested req.key w.chain.height), .busy (.acceptOut req))
      | .error e => (w, .ended (.error e))
  | .acceptOut req =>
    (w, .of (taker.acceptOut req none answers.reply) fun r => .saveOut r.1 r.2.1.invoice)
  | .saveOut claim _ =>
    (w.savePendingSwap claim.key claim.record answers.saved, .ifSaved answers.saved (.pay claim))
  | .pay claim =>
    if answers.lightning then
      (w.record (.paid claim.key (claim.htlc.locktime - LnTaker.cltvSafetyMargin)),
        .busy (.readFunded claim))
    else (w, .ended (.error .lightning))
  | .routed params =>
    match taker.requestOut answers params (· ++ "-out") with
    | .ok req => (w.record (.requested req.key w.chain.height), .busy (.acceptSecond req))
    | .error e => (w, .ended (.error e))
  | .acceptSecond req =>
    (w, .of (taker.requestFirst answers req) fun r => .acceptFirst r.1 r.2)
  | .acceptFirst claim req =>
    (w, .of (taker.acceptIn req answers.reply) fun terms => .saveFirst terms claim)
  | .saveFirst terms claim =>
    (w.savePendingSwap terms.key terms.record answers.saved,
      .ifSaved answers.saved (.saveSecond terms claim))
  | .saveSecond terms claim =>
    (w.savePendingSwap claim.key claim.record answers.saved,
      .ifSaved answers.saved (.fund terms (some claim)))
  | .fund terms claim =>
    match htlcFunding answers terms with
    | .ok (outpoint, value) =>
      (w.recordOutpoint terms.key outpoint value answers.saved,
        .ifSaved answers.saved (.sendFunding terms claim outpoint))
    | .error e => (w, .ended (.error e))
  | .sendFunding terms claim outpoint =>
    match answers.broadcast with
    | .sent =>
      (w.record (.fundingSent terms.key outpoint), .busy (.confirmOwn terms claim outpoint))
    | .relayed => (w.record (.fundingSent terms.key outpoint), .ended (.error .wallet))
    | .lost => (w, .ended (.error .wallet))
  | .confirmOwn terms claim outpoint =>
    if answers.timeout then (w, .ended (.error .wallet))
    else if terms.minConfirmations ≤ w.confirmations outpoint.txid then
      (w, .busy (.announce terms claim))
    else (w, .busy (.confirmOwn terms claim outpoint))
  | .announce terms claim =>
    if answers.sent = false then (w, .ended (.error .send))
    else match claim with
      | none => (w, .busy (.awaitPayment terms))
      | some claim =>
        if answers.earlyReject then (w, .ended (.error .earlyReject))
        else (w, .busy (.readFunded claim))
  | .awaitPayment terms =>
    if answers.claimable then
      if answers.lightning then (w.record (.paymentClaimed terms.key), .busy (.closeIn terms.key))
      else (w, .ended (.error .lightning))
    else (w, if answers.timeout then .ended (.error .timedOut) else .busy (.awaitPayment terms))
  | .closeIn key => (w.removePendingSwap key answers.saved,
      .ended (if answers.saved then .ok () else .error .wallet))
  | .readFunded claim =>
    (w, .of (do
      ensure (answers.sent = true) .send
      match ← okOr answers.reply .read with
      | .swapOutFunded funded =>
        ensure (funded.swapId = claim.swapId) .differentSwap
        .ok funded
      | _ => .error .unexpectedMessage) (.confirmFunding claim))
  | .confirmFunding claim funded =>
    if answers.timeout then (w, .ended (.error .wallet))
    else if claim.minConfirmations ≤ w.confirmations funded.outpoint.txid then
      (w, .busy (.verifyFunding claim funded))
    else (w, .busy (.confirmFunding claim funded))
  | .verifyFunding claim funded =>
    (w, .of (checkFunding w answers claim funded) (.recordFunding claim funded.outpoint))
  | .recordFunding claim outpoint value =>
    (w.recordOutpoint claim.key outpoint value answers.saved,
      .ifSaved answers.saved (.sendClaim claim outpoint value))
  | .sendClaim claim outpoint value =>
    match (okOr answers.receiveScript LnTakerError.wallet).bind fun destination =>
        (claim.htlc.createHashlockSpend outpoint value claim.privkey claim.preimage
          destination).mapError LnTakerError.spendBuild with
    | .error e => (w, .ended (.error e))
    | .ok claimTx =>
      match answers.broadcast with
      | .sent => (w.record (.claimSent claim.key claim.htlc outpoint w.chain),
          .busy (.close claim claimTx))
      | .relayed => (w.record (.claimSent claim.key claim.htlc outpoint w.chain),
          .ended (.error .wallet))
      | .lost => (w, .ended (.error .wallet))
  -- the maker's last message and the settlement were waited for, whatever came of it
  | .close claim _ =>
    (w.removePendingSwap claim.key answers.saved,
      if answers.saved then
        match claim.firstHop with
        | some key => .busy (.closeFirst key)
        | none => .ended (.ok ())
      else .ended (.error .wallet))
  | .closeFirst key => (w.removePendingSwap key answers.saved,
      .ended (if answers.saved then .ok () else .error .wallet))
  | .recover [] => (w, .ended (.ok ()))
  | .recover ((key, record) :: rest) => recoverNext w answers key record rest
  | .settle key outpoint rest =>
    -- a failed query says nothing
    if answers.node && w.chain.confirmedSpend outpoint then
      (w.removePendingSwap key answers.saved, .ifSaved answers.saved (.recover rest))
    else (w, .busy (.recover rest))

/-! ## The machine -/

inductive LnCall where
  | swapIn (params : LnSwapParams)
  | swapOut (params : LnSwapParams)
  | routed (params : LnSwapParams)
  | recover
deriving DecidableEq, Repr

structure LnClient (P : Prims) where
  wallet : LnTakerWallet P
  task : Option (LnTakerTask P)

inductive LnClientAction (P : Prims) where
  | call (call : LnCall)
  | advance (answers : LnTakerAnswers P)
  | save
  | chain (chain : Chain)
  | restart

namespace LnClient

variable (w : LnClient P)

def begin : LnCall → LnTakerTask P
  | .swapIn params => .swapIn params
  | .swapOut params => .swapOut params
  | .routed params => .routed params
  | .recover => .recover (w.wallet.lnPendingSwaps.entries.map fun e => (e.1, e.2))

def step (taker : LnTaker P) : LnClientAction P → Option (LnClient P)
  | .call call => if w.task.isNone then some { w with task := some (w.begin call) } else none
  | .advance answers => do
    let task ← w.task
    let (wallet, next) := task.advance taker w.wallet answers
    some { wallet, task := next.task }
  | .save => some { w with wallet := w.wallet.saveToDisk true }
  | .chain chain => some { w with wallet := { w.wallet with chain } }
  | .restart =>
    some { wallet := { w.wallet with lnPendingSwaps := w.wallet.disk }, task := none }

def start (chain : Chain) : LnClient P where
  wallet := ⟨∅, ∅, chain, []⟩
  task := none

end LnClient

end OpenSwap
