import OpenSwap.Base.Maps
import OpenSwap.Maker.Legacy

/-!
# The maker server under Legacy messages

Several connections share the live swaps, the set of swaps inside a funding step and
the wallet.  A handler is a sequence of critical sections; the server is the machine
whose steps are single critical sections of any of its connections, in any order, with
the background tasks in between: the idle drain, the end of a sweep, the cleanup of a
swap's coins, and restarts, which keep what was saved to disk.

* What the chain, the disk and the peers of a step answer is part of the action.
* The machine keeps a history: contracts signed, and proofs that have led to outgoing
  coins.

Not modelled: the response messages; the wallet's input reservations, which decide
whether a funding plan can be executed (the outcome of that is an answer); timers and
heights (the drain may drop any live swap); the Taproot handlers.
-/

namespace OpenSwap

open Btc Checked

/-! ## Shared state -/

/-- The terms fixed by the taker's `SwapDetails`, compared as one value. -/
structure NegotiatedTerms where
  swapAmount : Nat
  txCount : Nat
  incomingCount : Nat
  maxInputBudget : Nat
  timelock : Nat
  protocol : ProtocolVersion
  refundLocktimeOffset : Nat
  swapFeerate : Nat
deriving DecidableEq, Repr

section State

variable (P : Prims)

structure SwapState where
  negotiated : NegotiatedTerms
  phase : SwapPhase
  incomingSwapcoins : List (IncomingSwapCoin P)
  outgoingSwapcoins : List (OutgoingSwapCoin P)
  /-- contract txids claimed before the coins exist -/
  claimedIncomingTxids : List Bytes
  pendingFundingTxes : List Transaction
  fundingBroadcastTxids : List Bytes
  serviceFeeSats : Nat
  fundingPlan : List SplitPlan
  swapStartTime : Nat

abbrev Swaps := AList fun _ : String => SwapState P

/-- What the wallet file holds of swaps: coins by contract txid, and the contract
script each funding prevout was signed for. -/
structure WalletStore where
  incomingSwapcoins : AList fun _ : Bytes => IncomingSwapCoin P
  outgoingSwapcoins : AList fun _ : Bytes => OutgoingSwapCoin P
  prevoutToContractMap : AList fun _ : OutPoint => Bytes

/-- A proof of funding has led to outgoing coins: the swap, its admission, and one
of the incoming coins. -/
structure BuiltCoin where
  swapId : String
  swapStartTime : Nat
  coin : IncomingSwapCoin P

structure Shared where
  ongoingSwaps : Swaps P
  fundingInProgress : List String
  wallet : WalletStore P
  disk : WalletStore P
  signed : List Transaction
  /-- history since the last restart: the incoming coins outgoing coins were built for -/
  built : List (BuiltCoin P)
  /-- history: the funding transactions of the proofs that were accepted -/
  fundingTxs : List Transaction

end State

variable {P : Prims}

def WalletStore.empty : WalletStore P := ⟨∅, ∅, ∅⟩

def Shared.empty : Shared P := ⟨∅, [], .empty, .empty, [], [], []⟩

def ConnectionState.terms (s : ConnectionState P) : NegotiatedTerms where
  swapAmount := s.swapAmount
  txCount := s.txCount
  incomingCount := s.incomingCount
  maxInputBudget := s.maxInputBudget
  timelock := s.timelock
  protocol := s.protocol
  refundLocktimeOffset := s.refundLocktimeOffset
  swapFeerate := s.swapFeerate

/-! ## Wallet -/

def Shared.save (sh : Shared P) (outcome : SaveOutcome) : Shared P :=
  if outcome.written then { sh with disk := sh.wallet } else sh

variable (w : WalletStore P)

/-- Bind prevouts to contracts.  All bindings are compared with the map as it was;
then they are added one after the other, a later one over an earlier one. -/
def WalletStore.cachePrevoutToContract (bindings : List (OutPoint × Bytes)) :
    Except WalletError (WalletStore P) := do
  checkAll (fun (b : OutPoint × Bytes) =>
    ensure (∀ cached ∈ w.prevoutToContractMap.lookup b.1, cached = b.2)
      (WalletError.general "Refusing to rebind funding prevout to a different contract")) bindings
  .ok { w with
    prevoutToContractMap := bindings.foldl (fun m b => m.insert b.1 b.2) w.prevoutToContractMap }

def WalletStore.addIncomingSwapcoin (coin : IncomingSwapCoin P) : WalletStore P :=
  { w with incomingSwapcoins := w.incomingSwapcoins.insert coin.contractTxid coin }

/-- The two flags only ever go up. -/
def WalletStore.addOutgoingSwapcoin (coin : OutgoingSwapCoin P) : WalletStore P :=
  let key := P.txid coin.contractTx
  let stored := w.outgoingSwapcoins.lookup key
  { w with
    outgoingSwapcoins := w.outgoingSwapcoins.insert key { coin with
      committed := coin.committed || stored.any (·.committed)
      incomingClaimed := coin.incomingClaimed || stored.any (·.incomingClaimed) } }

/-- The store with a funding batch added; a failed save leaves none of it in memory. -/
def WalletStore.addFundingBatch (incoming : List (IncomingSwapCoin P))
    (outgoing : List (OutgoingSwapCoin P)) : WalletStore P :=
  outgoing.foldl .addOutgoingSwapcoin (incoming.foldl .addIncomingSwapcoin w)

def WalletStore.incomingKeysForSwap (swapId : String) : List Bytes :=
  (w.incomingSwapcoins.entries.filter (·.2.swapId = some swapId)).map (·.1)

def WalletStore.outgoingKeysForSwap (swapId : String) : List Bytes :=
  (w.outgoingSwapcoins.entries.filter (·.2.swapId = some swapId)).map (·.1)

def WalletStore.removeSwapCoins (swapId : String) (removeIncoming removeOutgoing : Bool) :
    WalletStore P :=
  { w with
    incomingSwapcoins :=
      if removeIncoming then (w.incomingKeysForSwap swapId).foldl (fun m k => m.erase k)
        w.incomingSwapcoins else w.incomingSwapcoins
    outgoingSwapcoins :=
      if removeOutgoing then (w.outgoingKeysForSwap swapId).foldl (fun m k => m.erase k)
        w.outgoingSwapcoins else w.outgoingSwapcoins }

/-- The wallet's half of `contract_txid_seen`: a stored coin of another swap. -/
def WalletStore.contractTxidSeen (txid : Bytes) (exceptSwapId : String) : Bool :=
  match w.incomingSwapcoins.lookup txid with
  | some coin => coin.swapId ≠ some exceptSwapId
  | none =>
    if txid ∈ w.outgoingKeysForSwap exceptSwapId then false
    else w.outgoingSwapcoins.entries.any fun e => P.txid e.2.contractTx = txid

/-! ## Live swaps -/

/-- A swap other than `exceptSwapId` holds one of the txids. -/
def liveSwapHolds (swaps : Swaps P) (exceptSwapId : String) (txids : List Bytes) : Bool :=
  swaps.entries.any fun e => e.1 ≠ exceptSwapId &&
    (e.2.claimedIncomingTxids.any (· ∈ txids) ||
      e.2.incomingSwapcoins.any (fun c => P.txid c.contractTx ∈ txids) ||
      e.2.outgoingSwapcoins.any (fun c => P.txid c.contractTx ∈ txids))

def claimIncomingContractTxids (swaps : Swaps P) (swapId : String) (txids : List Bytes) :
    Except MakerError (Swaps P) := do
  ensure (liveSwapHolds swaps swapId txids = false) (.general "Contract txid already in use")
  let state ← okOr (swaps.lookup swapId) (.general "No stored state for this swap")
  ensure (state.claimedIncomingTxids = [] ∨ state.claimedIncomingTxids = txids)
    (.general "Contract txids differ from the claim")
  .ok (swaps.insert swapId { state with claimedIncomingTxids := txids })

def SwapState.write (stored : SwapState P) (state : ConnectionState P)
    (plan : List SplitPlan) : SwapState P :=
  { stored with
    negotiated := state.terms
    phase := state.phase
    incomingSwapcoins := state.incomingSwapcoins
    outgoingSwapcoins := state.outgoingSwapcoins
    pendingFundingTxes := state.pendingFundingTxes
    fundingBroadcastTxids := state.fundingBroadcastTxids
    serviceFeeSats := state.serviceFeeSats
    fundingPlan := plan
    swapStartTime := state.swapStartTime }

def SwapState.default : SwapState P where
  negotiated := ⟨0, 0, 0, 0, 0, .legacy, 0, 0⟩
  phase := .awaitingHello
  incomingSwapcoins := []
  outgoingSwapcoins := []
  claimedIncomingTxids := []
  pendingFundingTxes := []
  fundingBroadcastTxids := []
  serviceFeeSats := 0
  fundingPlan := []
  swapStartTime := 0

def planExpired : MakerError :=
  .general "Swap plan expired; the taker must send new SwapDetails"

/-- `store_connection_state` outside admission: only the admission a connection holds
may write, except that a completed swap may be put back. -/
def storeConnectionState (swaps : Swaps P) (swapId : String) (state : ConnectionState P) :
    Except MakerError (Swaps P) :=
  match swaps.lookup swapId with
  | some stored => do
    ensure (stored.swapStartTime = state.swapStartTime) planExpired
    .ok (swaps.insert swapId (stored.write state state.fundingPlan))
  | none => do
    ensure (state.phase = .completed) planExpired
    .ok (swaps.insert swapId (SwapState.default.write state state.fundingPlan))

/-- `store_connection_state` at admission, under the lock: `planned` is what the
planning before the lock came back with, nothing for a swap that was live then. -/
def storeAdmission (swaps : Swaps P) (swapId : String) (state : ConnectionState P)
    (planned : Option (List SplitPlan)) : Except MakerError (Swaps P) :=
  match swaps.lookup swapId, planned with
  | some stored, _ => do
    ensure (stored.negotiated = state.terms) .swapParamMismatch
    .ok swaps
  | none, none => .error (.general "Swap expired while admitting; resend SwapDetails")
  | none, some plan => .ok (swaps.insert swapId (SwapState.default.write state plan))

def getConnectionState (swaps : Swaps P) (swapId : String) : Option (ConnectionState P) :=
  (swaps.lookup swapId).map fun s =>
    { protocol := s.negotiated.protocol
      phase := s.phase
      swapId := some swapId
      swapAmount := s.negotiated.swapAmount
      txCount := s.negotiated.txCount
      incomingCount := s.negotiated.incomingCount
      maxInputBudget := s.negotiated.maxInputBudget
      timelock := s.negotiated.timelock
      refundLocktimeOffset := s.negotiated.refundLocktimeOffset
      incomingSwapcoins := s.incomingSwapcoins
      outgoingSwapcoins := s.outgoingSwapcoins
      pendingFundingTxes := s.pendingFundingTxes
      swapFeerate := s.negotiated.swapFeerate
      serviceFeeSats := s.serviceFeeSats
      fundingBroadcastTxids := s.fundingBroadcastTxids
      fundingPlan := s.fundingPlan
      swapStartTime := s.swapStartTime }

/-- `handle_swap_details` up to the store of the admission: the live swaps after an
accepted admission, and the connection, with its own start and its own plan. -/
def storeDetails (swaps : Swaps P) (clock : Nat) (state : ConnectionState P) (d : SwapDetails)
    (env : AdmissionEnv P) (planned : Option (List SplitPlan)) :
    Except MakerError (Option (Swaps P) × ConnectionState P) := do
  match ← screenDetails env state d with
  | none => .ok (none, state)
  | some (protocol, offset) =>
    let attempt := state.withTerms { env with now := clock } d protocol offset
    match storeAdmission swaps d.id attempt planned with
    | .error _ => .ok (none, attempt.reset)
    | .ok swaps => .ok (some swaps, attempt)

/-- The rest of `handle_swap_details`: the plan and the start of the swap that is then
stored under the id. -/
def readDetails (swaps : Swaps P) (state : ConnectionState P) :
    Except MakerError (ConnectionState P) := do
  let stored ← okOr (state.swapId.bind (getConnectionState swaps))
    (.general "Admission left no stored swap state")
  .ok { state with
    fundingPlan := stored.fundingPlan
    swapStartTime := stored.swapStartTime }

def restoreStateIfNeeded (swaps : Swaps P) (state : ConnectionState P) (swapId : String) :
    Except MakerError (ConnectionState P) :=
  if state.swapAmount = 0 ∨ state.outgoingSwapcoins.isEmpty then
    match getConnectionState swaps swapId with
    | none => .ok state
    | some stored => do
      ensure (¬ (state.swapId = some swapId ∧ state.swapStartTime ≠ stored.swapStartTime))
        planExpired
      .ok stored
  else .ok state

/-- The plan frozen at admission, if the requested amount is its total with the
policy fee of every split. -/
def planGross (terms : NegotiatedTerms) : List SplitPlan → Nat → Option Nat
  | [], gross => some gross
  | split :: rest, gross => do
    let policyFee ← fundingFeePolicySats split.utxos.length terms.maxInputBudget terms.swapFeerate
    let gross ← checkedAdd64 gross policyFee
    let gross ← checkedAdd64 gross split.value
    planGross terms rest gross

def frozenFundingPlan (swaps : Swaps P) (swapId : String) (amount : Nat) :
    Except MakerError (List SplitPlan) := do
  let state ← okOr ((swaps.lookup swapId).filter fun s => !s.fundingPlan.isEmpty)
    (.general "No frozen funding plan for this swap")
  let gross ← okOr (planGross state.negotiated state.fundingPlan 0)
    (.general "Funding plan total overflow")
  ensure (gross = amount) (.general "Requested amount does not match the frozen funding plan")
  .ok state.fundingPlan

/-! ## Connections and their handlers -/

section Handlers

variable (P : Prims)

inductive Task where
  | cacheContracts (req : ReqContractSigsForSender P)
  | storeSigned (req : ReqContractSigsForSender P)
  /-- ask the live swaps, then the wallet, about the contract of the next entry -/
  | seenLive (pof : ProofOfFunding P) (todo : List (FundingTxInfo P))
      (built : List (IncomingSwapCoin P))
  | seenWallet (pof : ProofOfFunding P) (todo : List (FundingTxInfo P))
      (built : List (IncomingSwapCoin P)) (coin : IncomingSwapCoin P)
  | beginFunding (pof : ProofOfFunding P) (coins : List (IncomingSwapCoin P))
  | claim (pof : ProofOfFunding P) (coins : List (IncomingSwapCoin P))
  | confirm (pof : ProofOfFunding P) (coins : List (IncomingSwapCoin P))
  | verifyEntry (pof : ProofOfFunding P) (coins : List (IncomingSwapCoin P))
      (todo : List (FundingTxInfo P)) (hashvalue : Option Bytes)
  | initializeSwap (pof : ProofOfFunding P) (coins : List (IncomingSwapCoin P)) (hashvalue : Bytes)
  | storeFunded (pof : ProofOfFunding P) (coins : List (IncomingSwapCoin P))
      (outgoing : List (OutgoingSwapCoin P)) (fundingTxes : List Transaction)
  | respBegin (resp : RespContractSigsForRecvrAndSender)
  | respStore (resp : RespContractSigsForRecvrAndSender)
  | respVerify (resp : RespContractSigsForRecvrAndSender)
  | respSave (resp : RespContractSigsForRecvrAndSender)
  | respSend (resp : RespContractSigsForRecvrAndSender) (todo : List Transaction)
  | respFinish (resp : RespContractSigsForRecvrAndSender)
  | handoverSave (id : String) (todo : List (IncomingSwapCoin P))
  | complete (id : String)
  | settle (id : String)

/-- A message of the Legacy protocol.  The request for receiver signatures is left
out: its handler reads the connection's own coins and writes nothing. -/
inductive LegacyMessage where
  | reqContractSigsForSender (req : ReqContractSigsForSender P)
  | proofOfFunding (pof : ProofOfFunding P)
  | respContractSigsForRecvrAndSender (resp : RespContractSigsForRecvrAndSender)
  | privateKeyHandover (handover : PrivateKeyHandover P)

structure Answers where
  /-- every query and call of the step whose result is only success or failure -/
  calls : Except MakerError Unit
  unspent : Except MakerError Bool
  saved : SaveOutcome
  splits : List (FundedSplit P)
  swept : Bool

inductive Next where
  | busy (state : ConnectionState P) (task : Task P)
  | idle (state : ConnectionState P)
  | closed (error : Option MakerError)

structure Conn where
  state : ConnectionState P
  task : Option (Task P)

structure Maker where
  tweakablePrivkey : P.SecretKey
  calculateSwapFee : (amount lockedBlocks : Nat) → Nat

end Handlers

def LegacyMessage.swapId : LegacyMessage P → String
  | .reqContractSigsForSender req => req.id
  | .proofOfFunding pof => pof.id
  | .respContractSigsForRecvrAndSender resp => resp.id
  | .privateKeyHandover handover => handover.id

def Task.swapId : Task P → String
  | .cacheContracts req | .storeSigned req => req.id
  | .seenLive pof _ _ | .seenWallet pof _ _ _ | .beginFunding pof _ | .claim pof _
  | .confirm pof _ | .verifyEntry pof _ _ _ | .initializeSwap pof _ _
  | .storeFunded pof _ _ _ => pof.id
  | .respBegin resp | .respStore resp | .respVerify resp | .respSave resp | .respSend resp _
  | .respFinish resp => resp.id
  | .handoverSave id _ | .complete id | .settle id => id

def Task.fundingGuard : Task P → Option String
  | .claim pof _ | .confirm pof _ | .verifyEntry pof _ _ _ | .initializeSwap pof _ _
  | .storeFunded pof _ _ _ => some pof.id
  | .respStore resp | .respVerify resp | .respSave resp | .respSend resp _
  | .respFinish resp => some resp.id
  | _ => none

/-- Continue with the value of a check, or close the connection with its error. -/
def orClose {α : Type} (x : Except MakerError α) (next : α → Next P) : Next P :=
  match x with
  | .ok a => next a
  | .error e => .closed (some e)

def orCloseWith {α : Type} (sh : Shared P) (x : Except MakerError α)
    (next : α → Shared P × Next P) : Shared P × Next P :=
  match x with
  | .ok a => next a
  | .error e => (sh, .closed (some e))

/-! ### Dispatch -/

variable (maker : Maker P)

def startHandler (state : ConnectionState P) (answers : Answers P) :
    LegacyMessage P → Next P
  | .reqContractSigsForSender req => orClose (do
      answers.calls
      state.expectPhase [.awaitingContractData, .awaitingSignaturesOrPreimage]
      state.checkSwapId req.id
      ensure (req.locktime.toNat = state.timelock)
        (.general "Sender contract locktime does not match the negotiated timelock")
      verifyReqContractSigsForSender req.txsInfo (Prims.publicKey maker.tweakablePrivkey)
        req.hashvalue req.locktime.toNat)
      fun _ => .busy state (.cacheContracts req)
  | .proofOfFunding pof => orClose (do
      answers.calls
      checkProofTerms state pof)
      fun _ => .busy state (.seenLive pof pof.confirmedFundingTxes [])
  | .respContractSigsForRecvrAndSender resp => orClose (do
      state.expectPhase [.awaitingSignaturesOrPreimage]
      state.checkSwapId resp.id
      ensure (resp.receiversSigs.length = state.incomingSwapcoins.length)
        (.general "Invalid number of receiver signatures")
      ensure (resp.sendersSigs.length = state.outgoingSwapcoins.length)
        (.general "Invalid number of sender signatures"))
      fun _ => .busy state (.respBegin resp)
  | .privateKeyHandover handover => orClose (do
      state.expectPhase [.awaitingPrivateKeyHandover]
      state.checkSwapId handover.id
      ensure (state.outgoingSwapcoins ≠ []) (.general "No outgoing swapcoin found")
      verifyLegacyPrivkeyHandover handover.privkeys state.incomingSwapcoins
      answers.calls)
      fun _ =>
        let incoming := attach .withOtherPrivkey handover.privkeys state.incomingSwapcoins
        .busy { state with incomingSwapcoins := incoming } (.handoverSave handover.id incoming)

/-- Every connection opens with Hello; a message restores the stored swap. -/
def restoreFor (swaps : Swaps P) (state : ConnectionState P) (swapId : String)
    (protocol : ProtocolVersion) : Except MakerError (ConnectionState P) := do
  ensure (state.phase ≠ .awaitingHello) (.general "First message was not Hello")
  let state ← restoreStateIfNeeded swaps state swapId
  ensure (state.protocol = protocol) (.general "Unexpected message for the negotiated protocol")
  .ok state

def dispatch (swaps : Swaps P) (state : ConnectionState P) (msg : LegacyMessage P)
    (answers : Answers P) : Next P :=
  orClose (restoreFor swaps state msg.swapId .legacy) fun state =>
    startHandler maker state answers msg

/-! ### The steps of the handlers -/

variable (sh : Shared P) (state : ConnectionState P) (answers : Answers P)

/-- Bind the prevouts of the request, save, and sign.  A failed save leaves the
bindings in memory. -/
def stepCacheContracts (req : ReqContractSigsForSender P) : Shared P × Next P :=
  orCloseWith sh ((sh.wallet.cachePrevoutToContract (requestBindings req.txsInfo)).mapError
    .wallet) fun wallet =>
    let sh := { sh with wallet := wallet }.save answers.saved
    if answers.saved = .saved then
      ({ sh with signed := sh.signed ++ req.txsInfo.map (·.sendersContractTx) },
        orClose (collectM (signSenderContractTx maker.tweakablePrivkey) req.txsInfo)
          fun _ => .busy state (.storeSigned req))
    else (sh, .closed (some (.wallet .io)))

def stepStore (swapId : String) (state : ConnectionState P) (next : Next P) : Shared P × Next P :=
  orCloseWith sh (storeConnectionState sh.ongoingSwaps swapId state) fun swaps =>
    ({ sh with ongoingSwaps := swaps }, next)

variable (pof : ProofOfFunding P)

def stepSeenLive (built : List (IncomingSwapCoin P)) :
    List (FundingTxInfo P) → Next P
  | [] => .busy state (.beginFunding pof built)
  | info :: rest => orClose (do
      let coin ← receiverCoin maker.tweakablePrivkey state.swapFeerate pof.id info
      ensure (liveSwapHolds sh.ongoingSwaps pof.id [coin.contractTxid] = false)
        (.general "Legacy contract txid already in use")
      .ok coin)
      fun coin => .busy state (.seenWallet pof rest built coin)

def stepSeenWallet (todo : List (FundingTxInfo P)) (built : List (IncomingSwapCoin P))
    (coin : IncomingSwapCoin P) : Next P :=
  orClose (ensure (sh.wallet.contractTxidSeen coin.contractTxid pof.id = false)
    (.general "Legacy contract txid already in use"))
    fun _ => .busy state (.seenLive pof todo (built ++ [coin]))

def stepBeginFunding (swapId : String) (next : Next P) : Shared P × Next P :=
  orCloseWith sh (ensure (swapId ∉ sh.fundingInProgress)
    (.general "Funding for this swap is already in progress")) fun _ =>
    ({ sh with fundingInProgress := swapId :: sh.fundingInProgress }, next)

variable (coins : List (IncomingSwapCoin P))

def stepClaim : Shared P × Next P :=
  orCloseWith sh (claimIncomingContractTxids sh.ongoingSwaps pof.id
    (coins.map IncomingSwapCoin.contractTxid)) fun swaps =>
    ({ sh with ongoingSwaps := swaps }, .busy state (.confirm pof coins))

def stepConfirm : Next P :=
  orClose (do
    ensure (pof.confirmedFundingTxes ≠ []) (.general "No funding txs provided by Taker")
    checkFundingShape pof.refundLocktime.toNat pof.confirmedFundingTxes []
    answers.calls)
    fun _ => .busy state (.verifyEntry pof coins pof.confirmedFundingTxes none)

def stepVerifyEntry (hashvalue : Option Bytes) :
    List (FundingTxInfo P) → Next P
  | [] => orClose (okOr hashvalue (.general "No hashvalue found in contracts"))
      fun hashvalue => .busy state (.initializeSwap pof coins hashvalue)
  | info :: rest => orClose (verifyFundingEntry (Prims.publicKey maker.tweakablePrivkey)
      (fun prevout => sh.wallet.prevoutToContractMap.lookup prevout) pof.refundLocktime.toNat
      answers.unspent hashvalue info)
      fun thisHashvalue => .busy state (.verifyEntry pof coins rest (some thisHashvalue))

/-- The frozen plan of a swap, once it is seen to forward what the funding leaves. -/
def legacyFundingPlan (swaps : Swaps P) (state : ConnectionState P) (answers : Answers P)
    (pof : ProofOfFunding P) (coins : List (IncomingSwapCoin P)) :
    Except MakerError (List SplitPlan) := do
  answers.calls
  let incomingAmount := (coins.map (·.fundingAmount)).sum
  let swapFee := maker.calculateSwapFee incomingAmount pof.refundLocktime.toNat
  let forwardable ← forwardableAmount swapFee state.swapFeerate incomingAmount
    pof.confirmedFundingTxes.length
  let plan ← frozenFundingPlan swaps pof.id forwardable
  ensure (pof.nextOpenswapInfo.length = plan.length)
    (.general "Next-hop key count does not match the frozen funding plan")
  .ok plan

def legacyOutgoing (state : ConnectionState P) (answers : Answers P) (pof : ProofOfFunding P)
    (hashvalue : Bytes) : Except MakerError (List (OutgoingSwapCoin P)) :=
  collectM (fun p => outgoingLegacyCoin pof.id hashvalue pof.refundLocktime.toNat
    state.swapFeerate p.1 p.2) (answers.splits.zip pof.nextOpenswapInfo)

def initializeSwap (swaps : Swaps P) (state : ConnectionState P) (answers : Answers P)
    (pof : ProofOfFunding P) (coins : List (IncomingSwapCoin P)) (hashvalue : Bytes) :
    Except MakerError (List (OutgoingSwapCoin P)) := do
  let _ ← legacyFundingPlan maker swaps state answers pof coins
  legacyOutgoing state answers pof hashvalue

def stepInitializeSwap (hashvalue : Bytes) : Shared P × Next P :=
  orCloseWith sh (initializeSwap maker sh.ongoingSwaps state answers pof coins hashvalue)
    fun outgoing =>
      ({ sh with
          built := sh.built ++ coins.map (⟨pof.id, state.swapStartTime, ·⟩)
          fundingTxs := sh.fundingTxs ++ pof.confirmedFundingTxes.map (·.fundingTx) },
        .busy state (.storeFunded pof coins outgoing (answers.splits.map (·.fundingTx))))

def ConnectionState.withFunding (s : ConnectionState P) (coins : List (IncomingSwapCoin P))
    (outgoing : List (OutgoingSwapCoin P)) (fundingTxes : List Transaction) :
    ConnectionState P :=
  { s with
    incomingSwapcoins := coins
    outgoingSwapcoins := outgoing
    pendingFundingTxes := fundingTxes
    phase := .awaitingSignaturesOrPreimage }

variable (resp : RespContractSigsForRecvrAndSender)

def stepRespVerify : Shared P × Next P :=
  match verifyContractSigs resp.receiversSigs resp.sendersSigs state.incomingSwapcoins
      state.outgoingSwapcoins with
  | .error e => ({ sh with ongoingSwaps := sh.ongoingSwaps.erase resp.id }, .closed (some e))
  | .ok _ => (sh, .busy { state with
      incomingSwapcoins := attach .withContractSig resp.receiversSigs state.incomingSwapcoins
      outgoingSwapcoins := attach .withContractSig resp.sendersSigs state.outgoingSwapcoins }
      (.respSave resp))

def stepRespSave : Shared P × Next P :=
  orCloseWith sh answers.calls fun _ =>
    let batch := sh.wallet.addFundingBatch state.incomingSwapcoins state.outgoingSwapcoins
    if answers.saved = .saved then
      ({ sh with wallet := batch, disk := batch },
        .busy state (.respSend resp state.pendingFundingTxes))
    else
      ({ sh with disk := if answers.saved.written then batch else sh.disk },
        .closed (some (.wallet .io)))

def commitFundedBy (coins : List (OutgoingSwapCoin P)) (txid : Bytes) :
    List (OutgoingSwapCoin P) :=
  coins.map fun c =>
    if (c.contractTx.input.head?.map (·.previousOutput.txid)) = some txid then
      { c with committed := true } else c

/-- One funding transaction was sent: commit its coins in the wallet, then record the
txid with the live swap. -/
def stepRespSend :
    List Transaction → Shared P × Next P
  | [] => (sh, .busy state (.respFinish resp))
  | tx :: rest => orCloseWith sh answers.calls fun _ =>
      let txid := P.txid tx
      let outgoing := commitFundedBy state.outgoingSwapcoins txid
      let committed := outgoing.filter fun c =>
        c.contractTx.input.head?.map (·.previousOutput.txid) = some txid
      let sh := { sh with wallet := committed.foldl .addOutgoingSwapcoin sh.wallet }.save
        answers.saved
      let state := { state with
        outgoingSwapcoins := outgoing
        fundingBroadcastTxids :=
          if txid ∈ state.fundingBroadcastTxids then state.fundingBroadcastTxids
          else state.fundingBroadcastTxids ++ [txid] }
      if answers.saved = .saved then
        orCloseWith sh (okOr (sh.ongoingSwaps.lookup resp.id)
          (.general "No stored state for this swap")) fun stored =>
          ({ sh with ongoingSwaps := sh.ongoingSwaps.insert resp.id { stored with
              fundingBroadcastTxids :=
                if txid ∈ stored.fundingBroadcastTxids then stored.fundingBroadcastTxids
                else stored.fundingBroadcastTxids ++ [txid] } },
            .busy state (.respSend resp rest))
      else (sh, .closed (some (.wallet .io)))

def stepHandoverSave (id : String) :
    List (IncomingSwapCoin P) → Shared P × Next P
  | [] => (sh, .busy { state with phase := .completed } (.complete id))
  | coin :: rest =>
    let sh := { sh with wallet := sh.wallet.addIncomingSwapcoin coin }.save answers.saved
    if answers.saved = .saved then (sh, .busy state (.handoverSave id rest))
    else (sh, .closed (some (.wallet .io)))

/-- A completed swap can be finalized: its incoming coins are swept and the wallet
holds as many outgoing coins as the connection. -/
def finalizable (id : String) : Bool :=
  answers.swept && (sh.wallet.outgoingKeysForSwap id).length == state.outgoingSwapcoins.length

/-- A completed swap is settled, or put back for recovery when it cannot be finalized
or the cleanup is not saved.  The connection closes either way. -/
def stepSettle (id : String) : Shared P × Next P :=
  if finalizable sh state answers id then
    let settled := sh.wallet.removeSwapCoins id false true
    if answers.saved = .saved then ({ sh with wallet := settled, disk := settled }, .closed none)
    else stepStore { sh with disk := if answers.saved.written then settled else sh.disk } id state
      (.closed (some (.wallet .io)))
  else stepStore sh id state (.closed none)

def advance :
    Task P → Shared P × Next P
  | .cacheContracts req => stepCacheContracts maker sh state answers req
  | .storeSigned req => stepStore sh req.id state (.idle state)
  | .seenLive pof todo built => (sh, stepSeenLive maker sh state pof built todo)
  | .seenWallet pof todo built coin => (sh, stepSeenWallet sh state pof todo built coin)
  | .beginFunding pof coins => stepBeginFunding sh pof.id (.busy state (.claim pof coins))
  | .claim pof coins => stepClaim sh state pof coins
  | .confirm pof coins => (sh, stepConfirm state answers pof coins)
  | .verifyEntry pof coins todo hashvalue =>
    (sh, stepVerifyEntry maker sh state answers pof coins hashvalue todo)
  | .initializeSwap pof coins hashvalue =>
    stepInitializeSwap maker sh state answers pof coins hashvalue
  | .storeFunded pof coins outgoing fundingTxes =>
    let state := state.withFunding coins outgoing fundingTxes
    stepStore sh pof.id state (.idle state)
  | .respBegin resp => stepBeginFunding sh resp.id (.busy state (.respStore resp))
  | .respStore resp => stepStore sh resp.id state (.busy state (.respVerify resp))
  | .respVerify resp => stepRespVerify sh state resp
  | .respSave resp => stepRespSave sh state answers resp
  | .respSend resp todo => stepRespSend sh state answers resp todo
  | .respFinish resp =>
    let state := { state with pendingFundingTxes := [], phase := .awaitingPrivateKeyHandover }
    stepStore sh resp.id state (.idle state)
  | .handoverSave id todo => stepHandoverSave sh state answers id todo
  | .complete id =>
    ({ sh with ongoingSwaps := sh.ongoingSwaps.erase id }, .busy state (.settle id))
  | .settle id => stepSettle sh state answers id

/-! ## The machine -/

structure Server (P : Prims) where
  shared : Shared P
  conns : AList fun _ : Nat => Conn P
  /-- the next instant; every connection and every admission gets its own -/
  clock : Nat

def Server.init : Server P := ⟨.empty, ∅, 0⟩

inductive Action (P : Prims) where
  | connect (conn : Nat)
  | greet (conn : Nat)
  | swapDetails (conn : Nat) (details : SwapDetails) (env : AdmissionEnv P)
      (planned : Option (List SplitPlan))
  | deliver (conn : Nat) (msg : LegacyMessage P) (answers : Answers P)
  | run (conn : Nat) (answers : Answers P)
  | disconnect (conn : Nat)
  | drain (swapId : String)
  | finishSweep (contractTxid : Bytes) (outcome : SaveOutcome)
  | removeCoins (swapId : String) (incoming outgoing : Bool) (outcome : SaveOutcome)
  | save (outcome : SaveOutcome)
  | restart

/-- Put a connection where a step has left it; a handler that ends gives its mark back. -/
def Server.settleConn (s : Server P) (conn : Nat) (task : Option (Task P)) (sh : Shared P) :
    Next P → Server P
  | .busy state next => { s with shared := sh, conns := s.conns.insert conn ⟨state, some next⟩ }
  | .idle state =>
    { s with
      shared := { sh with
        fundingInProgress := sh.fundingInProgress.filter (some · ≠ task.bind Task.fundingGuard) }
      conns := s.conns.insert conn ⟨state, none⟩ }
  | .closed _ =>
    { s with
      shared := { sh with
        fundingInProgress := sh.fundingInProgress.filter (some · ≠ task.bind Task.fundingGuard) }
      conns := s.conns.erase conn }

/-- Handle `SwapDetails`: the admission into the live swaps is stored and read back. -/
def handleDetails (s : Server P) (state : ConnectionState P) (d : SwapDetails)
    (env : AdmissionEnv P) (planned : Option (List SplitPlan)) : Shared P × Next P :=
  match storeDetails s.shared.ongoingSwaps s.clock state d env planned with
  | .error e => (s.shared, .closed (some e))
  | .ok (none, state) => (s.shared, .idle state)
  | .ok (some swaps, state) => orCloseWith s.shared (readDetails swaps state)
      fun state => ({ s.shared with ongoingSwaps := swaps }, .idle state)

def Server.step (s : Server P) : Action P → Option (Server P)
  | .connect conn =>
    match s.conns.lookup conn with
    | none => some { s with
        conns := s.conns.insert conn ⟨.new .legacy s.clock, none⟩
        clock := s.clock + 1 }
    | some _ => none
  | .greet conn =>
    match s.conns.lookup conn with
    | some ⟨state, none⟩ =>
      match state.phase with
      | .awaitingHello =>
        let state := { state with phase := .awaitingOfferRequest }
        some { s with conns := s.conns.insert conn ⟨state, none⟩ }
      | .awaitingOfferRequest =>
        let state := { state with phase := .awaitingSwapDetails }
        some { s with conns := s.conns.insert conn ⟨state, none⟩ }
      | _ => some { s with conns := s.conns.erase conn }
    | _ => none
  | .swapDetails conn d env planned =>
    match s.conns.lookup conn with
    | some ⟨state, none⟩ =>
      let (sh, next) := handleDetails s state d env planned
      some { s.settleConn conn none sh next with clock := s.clock + 1 }
    | _ => none
  | .deliver conn msg answers =>
    match s.conns.lookup conn with
    | some ⟨state, none⟩ =>
      some (s.settleConn conn none s.shared
        (dispatch maker s.shared.ongoingSwaps state msg answers))
    | _ => none
  | .run conn answers =>
    match s.conns.lookup conn with
    | some ⟨state, some task⟩ =>
      let (sh, next) := advance maker s.shared state answers task
      some (s.settleConn conn (some task) sh next)
    | _ => none
  | .disconnect conn =>
    match s.conns.lookup conn with
    | some ⟨_, none⟩ => some { s with conns := s.conns.erase conn }
    | _ => none
  | .drain swapId =>
    some { s with shared := { s.shared with
      ongoingSwaps := s.shared.ongoingSwaps.erase swapId } }
  | .finishSweep contractTxid outcome =>
    some { s with shared := { s.shared with wallet := { s.shared.wallet with
      incomingSwapcoins := s.shared.wallet.incomingSwapcoins.erase contractTxid } }.save outcome }
  | .removeCoins swapId incoming outgoing outcome =>
    let removed := s.shared.wallet.removeSwapCoins swapId incoming outgoing
    if outcome = .saved then
      some { s with shared := { s.shared with wallet := removed, disk := removed } }
    else
      some { s with shared := { s.shared with
        disk := if outcome.written then removed else s.shared.disk } }
  | .save outcome => some { s with shared := s.shared.save outcome }
  | .restart =>
    some { s with
      shared := { s.shared with
        ongoingSwaps := ∅
        fundingInProgress := []
        wallet := s.shared.disk
        built := [] }
      conns := ∅ }

end OpenSwap
