import OpenSwap.Maker.Server
import OpenSwap.Maker.Taproot

/-!
# The maker's connections under both protocols

Every connection holds its own copy of the swap it works on and writes it back whole
into the live swaps.  This is the machine whose steps are the critical sections of the
handlers of both protocols on any number of connections, in any order, with the idle
drain in between.  The Legacy handlers are those of `advance`; here they also claim and
release the inputs the wallet reserves for a swap.

* `claimPlan`, `recordClaim` and `buildPlan` execute the frozen funding plan of a swap.
* `Sessions.step` is the machine; it keeps a history of the swaps handed to recovery.

Not modelled: the response messages and the replay of a completed handover's response;
timers and heights (which swaps are idle or late is an answer); what a recovery does.
What the Taproot handler reads of live swaps and wallet while it builds its incoming
coins is an answer as well.
-/

namespace OpenSwap

open Btc Checked

/-! ## Reservations -/

/-- The inputs the wallet holds back for each swap, and the plans they were claimed for;
a plan is a part of the live swap's entry and goes with it. -/
structure Reservations where
  swapLocks : AList fun _ : String => List OutPoint
  claimedPlans : AList fun _ : String => List SplitPlan

namespace Reservations

variable (r : Reservations)

def locks (swapId : String) : List OutPoint :=
  (r.swapLocks.lookup swapId).getD []

def planInputs (plan : List SplitPlan) : List OutPoint := plan.flatMap (·.utxos)

def reserve (swapId : String) (outpoints : List OutPoint) : Reservations :=
  { r with swapLocks := r.swapLocks.insert swapId (r.locks swapId ++ outpoints) }

def release (swapId : String) : Reservations :=
  { r with swapLocks := r.swapLocks.erase swapId }

def releaseInputs (swapId : String) (inputs : List OutPoint) : Reservations :=
  { r with
    swapLocks := r.swapLocks.insert swapId ((r.locks swapId).filter (· ∉ inputs)) }

end Reservations

variable {P : Prims}

/-! ## The Taproot handler in parts -/

variable (env : TaprootEnv P) (state : ConnectionState P) (data : TaprootContractData P)

def verifyTaprootPrivkeyHandover (privkeys : List P.SecretKey)
    (incoming : List (IncomingSwapCoin P)) : Except MakerError Unit := do
  ensure (privkeys.length = incoming.length)
    (.general "Taproot privkey count doesn't match incoming swapcoin count")
  checkAll (fun (p : P.SecretKey × IncomingSwapCoin P) => do
    let expectedPubkey ← okOr p.2.otherPubkey
      (.general "Missing other_pubkey on incoming swapcoin during Taproot handover verification")
    ensure (Prims.publicKey p.1 = expectedPubkey)
      (MakerError.general "Taproot privkey derives pubkey that doesn't match expected other_pubkey"))
    (privkeys.zip incoming)

/-! ## Tasks -/

section Tasks

variable (P : Prims)

inductive FundingStep where
  | legacy (pof : ProofOfFunding P) (coins : List (IncomingSwapCoin P)) (hashvalue : Bytes)
  | taproot (data : TaprootContractData P) (funding : TaprootFunding P)

inductive AfterRelease where
  | close (error : MakerError)
  /-- the plan could not be built: its claim is forgotten, then the handler fails -/
  | clearClaim (error : MakerError)
  | settle

inductive SessionTask where
  | legacy (task : Task P)
  | taprootBegin (data : TaprootContractData P) (checked : P.SecretKey × Nat)
  | taprootClaim (data : TaprootContractData P) (checked : P.SecretKey × Nat)
  | taprootWait (data : TaprootContractData P) (checked : P.SecretKey × Nat)
  | taprootFund (data : TaprootContractData P) (funding : TaprootFunding P)
  | recordClaim (step : FundingStep P) (plan : List SplitPlan)
  | buildPlan (step : FundingStep P)
  | clearClaim (id : String) (error : MakerError)
  | releaseAll (id : String) (after : AfterRelease)
  | taprootStore (data : TaprootContractData P) (incoming : List (IncomingSwapCoin P))
      (outgoing : List (OutgoingSwapCoin P))
  | taprootSave (data : TaprootContractData P)
  | taprootSend (data : TaprootContractData P) (index : Nat) (todo : List (OutgoingSwapCoin P))
  | releaseSpent (tx : Transaction) (after : SessionTask)
  | taprootFinish (data : TaprootContractData P)

inductive SwapMessage where
  | legacy (msg : LegacyMessage P)
  | taprootContractData (data : TaprootContractData P)
  | taprootPrivateKeyHandover (handover : PrivateKeyHandover P)

/-- The answers of a step, with those for plans, reservations and Taproot. -/
structure SessionAnswers extends Answers P where
  plannable : List OutPoint → Bool
  replanned : Option (List SplitPlan)
  built : Bool
  taproot : TaprootEnv P

inductive SessionNext where
  | busy (state : ConnectionState P) (task : SessionTask P)
  | idle (state : ConnectionState P)
  | closed (error : Option MakerError)

structure Session where
  state : ConnectionState P
  task : Option (SessionTask P)

structure IdleSwapData where
  swapId : String
  protocol : ProtocolVersion
  incomingSwapcoins : List (IncomingSwapCoin P)
  outgoingSwapcoins : List (OutgoingSwapCoin P)
  fundingBroadcastTxids : List Bytes

structure Common where
  shared : Shared P
  reservations : Reservations

end Tasks

def FundingStep.swapId : FundingStep P → String
  | .legacy pof _ _ => pof.id
  | .taproot data _ => data.id

def SwapMessage.swapId : SwapMessage P → String
  | .legacy msg => msg.swapId
  | .taprootContractData data => data.id
  | .taprootPrivateKeyHandover handover => handover.id

def SessionTask.swapId : SessionTask P → String
  | .legacy task => task.swapId
  | .recordClaim step _ | .buildPlan step => step.swapId
  | .clearClaim id _ | .releaseAll id _ => id
  | .releaseSpent _ after => after.swapId
  | .taprootBegin data _ | .taprootClaim data _ | .taprootWait data _ | .taprootFund data _
  | .taprootStore data _ _ | .taprootSave data | .taprootSend data _ _
  | .taprootFinish data => data.id

def SessionTask.fundingGuard : SessionTask P → Option String
  | .legacy task => task.fundingGuard
  | .taprootBegin _ _ | .releaseAll _ .settle => none
  | task => some task.swapId

def Next.lift : Next P → SessionNext P
  | .busy state task => .busy state (.legacy task)
  | .idle state => .idle state
  | .closed error => .closed error

/-- Continue with the value of a check, or close the connection with its error. -/
def orEnd {α : Type} (c : Common P) (x : Except MakerError α)
    (next : α → Common P × SessionNext P) : Common P × SessionNext P :=
  match x with
  | .ok a => next a
  | .error e => (c, .closed (some e))

def Common.withSwaps (c : Common P) (swaps : Swaps P) : Common P :=
  { c with shared := { c.shared with ongoingSwaps := swaps } }

/-! ## The funding plan -/

variable (maker : Maker P) (swaps : Swaps P)

variable (c : Common P)

/-- Claim the inputs of the plan, or stand by the claim made before: once a swap has
claimed coins, every later pass uses exactly that claim. -/
def claimPlan (state : ConnectionState P) (answers : SessionAnswers P) (step : FundingStep P)
    (plan : List SplitPlan) : Common P × SessionNext P :=
  let r := c.reservations
  match (r.claimedPlans.lookup step.swapId).filter (!·.isEmpty) with
  | some claimed => orEnd c
      (ensure (∀ input ∈ Reservations.planInputs claimed, input ∈ r.locks step.swapId)
        (.general "Funding was already built; refusing to fund from other coins"))
      fun _ => (c, .busy state (.buildPlan step))
  | none =>
    let selected := if answers.plannable (Reservations.planInputs plan) then some plan
      else answers.replanned.filter fun replanned =>
        answers.plannable (Reservations.planInputs replanned)
    orEnd c (okOr selected (.general "Re-planned funding inputs are not free")) fun plan =>
      if answers.saved = .saved then
        ({ c with reservations := r.reserve step.swapId (Reservations.planInputs plan) },
          .busy state (.recordClaim step plan))
      else ({ c with reservations := r.release step.swapId }, .closed (some (.wallet .io)))

/-- A claim of a swap that was drained meanwhile is given back. -/
def recordClaim (state : ConnectionState P) (step : FundingStep P) (plan : List SplitPlan) :
    Common P × SessionNext P :=
  if step.swapId ∈ c.shared.ongoingSwaps then
    ({ c with reservations := { c.reservations with
        claimedPlans := c.reservations.claimedPlans.insert step.swapId plan } },
      .busy state (.buildPlan step))
  else (c, .busy state (.releaseAll step.swapId (.close planExpired)))

def buildPlan (state : ConnectionState P) (answers : SessionAnswers P) (step : FundingStep P) :
    Common P × SessionNext P :=
  if answers.built = false then
    (c, .busy state (.releaseAll step.swapId (.clearClaim (.wallet .rpc))))
  else match step with
  | .legacy pof coins hashvalue => orEnd c (legacyOutgoing state answers.toAnswers pof hashvalue)
      fun outgoing =>
        ({ c with shared := { c.shared with
            built := c.shared.built ++ coins.map (⟨pof.id, state.swapStartTime, ·⟩)
            fundingTxs := c.shared.fundingTxs ++ pof.confirmedFundingTxes.map (·.fundingTx) } },
          .busy state (.legacy (.storeFunded pof coins outgoing
            (answers.splits.map (·.fundingTx)))))
  | .taproot data funding =>
      orEnd c (taprootOutgoing answers.taproot state data funding) fun outgoing =>
        (c, .busy state (.taprootStore data funding.incoming outgoing))

/-- Drop a swap's whole reservation.  Only a completed swap minds a failed save: the
other handlers fail in any case. -/
def releaseAll (state : ConnectionState P) (outcome : SaveOutcome) (id : String)
    (after : AfterRelease) : Common P × SessionNext P :=
  ({ c with reservations := c.reservations.release id },
    match after with
    | .close error => .closed (some error)
    | .clearClaim error => .busy state (.clearClaim id error)
    | .settle => if outcome = .saved then .busy state (.legacy (.settle id))
        else .closed (some (.wallet .io)))

/-! ## Broadcasts -/

def addTxid (txids : List Bytes) (txid : Bytes) : List Bytes :=
  if txid ∈ txids then txids else txids ++ [txid]

def SwapState.fundingTx (stored : SwapState P) (txid : Bytes) : Option Transaction :=
  match stored.negotiated.protocol with
  | .legacy => stored.pendingFundingTxes.find? fun tx => P.txid tx = txid
  | .taproot => (stored.outgoingSwapcoins.map (·.contractTx)).find? fun tx => P.txid tx = txid

/-- Record a broadcast with the live swap of the handler; one entry for each txid, not
for each send. -/
def recordFundingBroadcast (txid : Bytes) (state : ConnectionState P) (after : SessionTask P) :
    Common P × SessionNext P :=
  orEnd c (okOr (c.shared.ongoingSwaps.lookup after.swapId)
    (.general "No stored state for this swap")) fun stored =>
      (c.withSwaps (c.shared.ongoingSwaps.insert after.swapId { stored with
          fundingBroadcastTxids := addTxid stored.fundingBroadcastTxids txid }),
        match stored.fundingTx txid with
        | none => .busy state after
        | some tx => .busy state (.releaseSpent tx after))

/-- Release the inputs of a recorded transaction; what was freed is saved. -/
def releaseSpent (state : ConnectionState P) (outcome : SaveOutcome) (tx : Transaction)
    (after : SessionTask P) : Common P × SessionNext P :=
  let inputs := tx.input.map (·.previousOutput)
  ({ c with reservations := c.reservations.releaseInputs after.swapId inputs },
    if outcome = .saved ∨ ∀ input ∈ inputs, input ∉ c.reservations.locks after.swapId then
      .busy state after
    else .closed (some (.wallet .io)))

def committedBy (outgoing : List (OutgoingSwapCoin P)) (txid : Bytes) :
    List (OutgoingSwapCoin P) :=
  (commitFundedBy outgoing txid).filter fun coin =>
    coin.contractTx.input.head?.map (·.previousOutput.txid) = some txid

/-- One funding transaction was sent: save the coins it pays for as committed, and
record it. -/
def sent (state : ConnectionState P) (answers : SessionAnswers P) (txid : Bytes)
    (outgoing committed : List (OutgoingSwapCoin P)) (after : SessionTask P) :
    Common P × SessionNext P :=
  orEnd c answers.calls fun _ =>
    let shared := { c.shared with
      wallet := committed.foldl .addOutgoingSwapcoin c.shared.wallet }
    let c := { c with shared := shared.save answers.saved }
    let state := { state with
      outgoingSwapcoins := outgoing
      fundingBroadcastTxids := addTxid state.fundingBroadcastTxids txid }
    if answers.saved = .saved then recordFundingBroadcast c txid state after
    else (c, .closed (some (.wallet .io)))

def sendLegacy (state : ConnectionState P) (answers : SessionAnswers P)
    (resp : RespContractSigsForRecvrAndSender) : List Transaction → Common P × SessionNext P
  | [] => (c, .busy state (.legacy (.respFinish resp)))
  | tx :: rest => sent c state answers (P.txid tx)
      (commitFundedBy state.outgoingSwapcoins (P.txid tx))
      (committedBy state.outgoingSwapcoins (P.txid tx)) (.legacy (.respSend resp rest))

/-- In Taproot a coin's contract is its funding transaction. -/
def sendTaproot (state : ConnectionState P) (answers : SessionAnswers P)
    (data : TaprootContractData P) (index : Nat) :
    List (OutgoingSwapCoin P) → Common P × SessionNext P
  | [] => (c, .busy state (.taprootFinish data))
  | coin :: rest =>
    let outgoing := state.outgoingSwapcoins.modify index ({ · with committed := true })
    sent c state answers (P.txid coin.contractTx) outgoing outgoing[index]?.toList
      (.taprootSend data (index + 1) rest)

/-! ## Steps -/

def storeState (swapId : String) (state : ConnectionState P) (next : SessionNext P) :
    Common P × SessionNext P :=
  orEnd c (storeConnectionState c.shared.ongoingSwaps swapId state) fun swaps =>
    (c.withSwaps swaps, next)

/-- The first half of `remove_swap_state`: the entry goes, with the plan it claimed. -/
def Common.removeEntry (swapId : String) : Common P where
  shared := { c.shared with ongoingSwaps := c.shared.ongoingSwaps.erase swapId }
  reservations := { c.reservations with
    claimedPlans := c.reservations.claimedPlans.erase swapId }

/-- The steps of the Legacy handlers that touch reservations; the others are `advance`. -/
def advanceLegacy (state : ConnectionState P) (answers : SessionAnswers P) :
    Task P → Common P × SessionNext P
  | .initializeSwap pof coins hashvalue => orEnd c
      (legacyFundingPlan maker c.shared.ongoingSwaps state answers.toAnswers pof coins)
      fun plan => claimPlan c state answers (.legacy pof coins hashvalue) plan
  | .respVerify resp =>
    match verifyContractSigs resp.receiversSigs resp.sendersSigs state.incomingSwapcoins
        state.outgoingSwapcoins with
    | .error e => (c.removeEntry resp.id, .busy state (.releaseAll resp.id (.close e)))
    | .ok _ =>
      let (shared, next) := stepRespVerify c.shared state resp
      ({ c with shared := shared }, next.lift)
  | .respSend resp todo => sendLegacy c state answers resp todo
  | .complete id => (c.removeEntry id, .busy state (.releaseAll id .settle))
  | task =>
    let (shared, next) := advance maker c.shared state answers.toAnswers task
    ({ c with shared := shared }, next.lift)

def SessionTask.advance (state : ConnectionState P) (answers : SessionAnswers P) :
    SessionTask P → Common P × SessionNext P
  | .legacy task => advanceLegacy maker c state answers task
  | .taprootBegin data checked => orEnd c (ensure (data.id ∉ c.shared.fundingInProgress)
      (.general "Funding for this swap is already in progress")) fun _ =>
      ({ c with shared := { c.shared with
          fundingInProgress := data.id :: c.shared.fundingInProgress } },
        .busy state (.taprootClaim data checked))
  | .taprootClaim data checked =>
    orEnd c (claimIncomingContractTxids c.shared.ongoingSwaps data.id (data.contractTxs.map P.txid))
      fun swaps => (c.withSwaps swaps, .busy state (.taprootWait data checked))
  | .taprootWait data checked => orEnd c (do
      answers.calls
      prepareTaproot answers.taproot state data checked)
      fun funding => (c, .busy state (.taprootFund data funding))
  | .taprootFund data funding =>
    orEnd c (frozenFundingPlan c.shared.ongoingSwaps data.id funding.forwardable) fun plan =>
      claimPlan c state answers (.taproot data funding) plan
  | .recordClaim step plan => OpenSwap.recordClaim c state step plan
  | .buildPlan step => OpenSwap.buildPlan c state answers step
  | .clearClaim id error =>
    ({ c with reservations := { c.reservations with
        claimedPlans := c.reservations.claimedPlans.erase id } }, .closed (some error))
  | .releaseAll id after => OpenSwap.releaseAll c state answers.saved id after
  | .taprootStore data incoming outgoing =>
    let state := { state with incomingSwapcoins := incoming, outgoingSwapcoins := outgoing }
    storeState c data.id state (.busy state (.taprootSave data))
  | .taprootSave data => orEnd c answers.calls fun _ =>
      let batch := c.shared.wallet.addFundingBatch state.incomingSwapcoins state.outgoingSwapcoins
      if answers.saved = .saved then
        ({ c with shared := { c.shared with wallet := batch, disk := batch } },
          .busy state (.taprootSend data 0 state.outgoingSwapcoins))
      else
        ({ c with shared := { c.shared with
            disk := if answers.saved.written then batch else c.shared.disk } },
          .closed (some (.wallet .io)))
  | .taprootSend data index todo => sendTaproot c state answers data index todo
  | .releaseSpent tx after => OpenSwap.releaseSpent c state answers.saved tx after
  | .taprootFinish data =>
    let state := { state with phase := .awaitingPrivateKeyHandover }
    storeState c data.id state (.idle state)

def startTaproot (answers : SessionAnswers P) :
    SwapMessage P → Except MakerError (ConnectionState P × SessionTask P)
  | .taprootContractData data => do
    let checked ← checkTaprootContract answers.taproot state data
    .ok (state, .taprootBegin data checked)
  | .taprootPrivateKeyHandover handover => do
    state.expectPhase [.awaitingPrivateKeyHandover]
    state.checkSwapId handover.id
    verifyTaprootPrivkeyHandover handover.privkeys state.incomingSwapcoins
    ensure (state.outgoingSwapcoins ≠ []) (.general "No outgoing swapcoin found")
    ensure (∀ o ∈ state.outgoingSwapcoins, o.myPrivkey ≠ none)
      (.general "No private key in outgoing swapcoin")
    let incoming := attach .withOtherPrivkey handover.privkeys state.incomingSwapcoins
    -- from here on the handovers of the two protocols are the same
    .ok ({ state with incomingSwapcoins := incoming }, .legacy (.handoverSave handover.id incoming))
  | .legacy _ => .error (.general "Unexpected message for the negotiated protocol")

def dispatchMessage (state : ConnectionState P) (answers : SessionAnswers P) :
    SwapMessage P → SessionNext P
  | .legacy msg => (dispatch maker swaps state msg answers.toAnswers).lift
  | msg =>
    match (do startTaproot (← restoreFor swaps state msg.swapId .taproot) answers msg) with
    | .error e => .closed (some e)
    | .ok (state, task) => .busy state task

/-! ## The idle drain -/

def SwapState.isUnfunded (s : SwapState P) : Bool :=
  s.phase = .awaitingContractData && s.incomingSwapcoins.isEmpty && s.outgoingSwapcoins.isEmpty &&
    s.pendingFundingTxes.isEmpty && s.fundingBroadcastTxids.isEmpty

def idleSwapData (e : (_ : String) × SwapState P) : IdleSwapData P where
  swapId := e.1
  protocol := e.2.negotiated.protocol
  incomingSwapcoins := e.2.incomingSwapcoins
  outgoingSwapcoins := e.2.outgoingSwapcoins
  fundingBroadcastTxids := e.2.fundingBroadcastTxids

/-- What the drain has taken out of the live swaps: swaps without funding, whose
reservations are released next, and swaps to recover. -/
structure Drained (P : Prims) where
  unfunded : List String
  idle : List (IdleSwapData P)

/-- The drain under the swaps lock: idle swaps without funding, then swaps with coins that
are idle or past their refund deadline. -/
def drainEntries (idle late : String → Bool) (c : Common P) : Common P × Drained P :=
  let unfunded := (c.shared.ongoingSwaps.entries.filter fun e => e.2.isUnfunded && idle e.1).map
    (·.1)
  let kept := unfunded.foldl Common.removeEntry c
  let stale := kept.shared.ongoingSwaps.entries.filter fun e =>
    !e.2.outgoingSwapcoins.isEmpty && (late e.1 || idle e.1)
  ((stale.map (·.1)).foldl Common.removeEntry kept, ⟨unfunded, stale.map idleSwapData⟩)

/-- The drain under the wallet lock.  A failed save makes it return an error, and what it
has drained with it. -/
def drainRelease (outcome : SaveOutcome) (r : Reservations) (d : Drained P) :
    Reservations × List (IdleSwapData P) :=
  (d.unfunded.foldl Reservations.release r,
    if outcome = .saved ∨ ∀ id ∈ d.unfunded, id ∉ r.swapLocks then d.idle else [])

/-! ## The machine -/

structure Sessions (P : Prims) where
  common : Common P
  conns : AList fun _ : Nat => Session P
  /-- the next instant; every connection and every admission gets its own -/
  clock : Nat
  draining : Option (Drained P)
  /-- history: what the drain has returned for recovery since the last restart -/
  recovering : List (IdleSwapData P)

def Sessions.init : Sessions P := ⟨⟨.empty, ⟨∅, ∅⟩⟩, ∅, 0, none, []⟩

inductive SessionAction (P : Prims) where
  | connect (conn : Nat)
  | greet (conn : Nat)
  | swapDetails (conn : Nat) (details : SwapDetails) (env : AdmissionEnv P)
      (planned : Option (List SplitPlan))
  | deliver (conn : Nat) (msg : SwapMessage P) (answers : SessionAnswers P)
  | run (conn : Nat) (answers : SessionAnswers P)
  | disconnect (conn : Nat)
  | drain (idle late : String → Bool)
  | drainRelease (outcome : SaveOutcome)
  | wallet (wallet disk : WalletStore P)
  | restart (swapLocks : AList fun _ : String => List OutPoint)

/-- Put a connection where a step has left it; a handler that ends gives its mark back. -/
def Sessions.settle (s : Sessions P) (conn : Nat) (mark : Option String) (c : Common P) :
    SessionNext P → Sessions P
  | .busy state next => { s with common := c, conns := s.conns.insert conn ⟨state, some next⟩ }
  | .idle state =>
    { s with
      common := { c with shared := { c.shared with
        fundingInProgress := c.shared.fundingInProgress.filter (some · ≠ mark) } }
      conns := s.conns.insert conn ⟨state, none⟩ }
  | .closed _ =>
    { s with
      common := { c with shared := { c.shared with
        fundingInProgress := c.shared.fundingInProgress.filter (some · ≠ mark) } }
      conns := s.conns.erase conn }

def Sessions.step (s : Sessions P) : SessionAction P → Option (Sessions P)
  | .connect conn =>
    match s.conns.lookup conn with
    | none => some { s with
        conns := s.conns.insert conn ⟨.new .legacy s.clock, none⟩
        clock := s.clock + 1 }
    | some _ => none
  | .greet conn =>
    match s.conns.lookup conn with
    | some ⟨state, none⟩ =>
      match state.phase with
      | .awaitingHello =>
        let state := { state with phase := .awaitingOfferRequest }
        some { s with conns := s.conns.insert conn ⟨state, none⟩ }
      | .awaitingOfferRequest =>
        let state := { state with phase := .awaitingSwapDetails }
        some { s with conns := s.conns.insert conn ⟨state, none⟩ }
      | _ => some { s with conns := s.conns.erase conn }
    | _ => none
  | .swapDetails conn d env planned =>
    match s.conns.lookup conn with
    | some ⟨state, none⟩ =>
      let (shared, next) := handleDetails ⟨s.common.shared, ∅, s.clock⟩ state d env planned
      some { s.settle conn none { s.common with shared := shared } next.lift with
        clock := s.clock + 1 }
    | _ => none
  | .deliver conn msg answers =>
    match s.conns.lookup conn with
    | some ⟨state, none⟩ =>
      some (s.settle conn none s.common
        (dispatchMessage maker s.common.shared.ongoingSwaps state answers msg))
    | _ => none
  | .run conn answers =>
    match s.conns.lookup conn with
    | some ⟨state, some task⟩ =>
      let (c, next) := task.advance maker s.common state answers
      some (s.settle conn task.fundingGuard c next)
    | _ => none
  | .disconnect conn =>
    match s.conns.lookup conn with
    | some ⟨_, none⟩ => some { s with conns := s.conns.erase conn }
    | _ => none
  | .drain idle late =>
    match s.draining with
    | none =>
      let (c, drained) := drainEntries idle late s.common
      some { s with common := c, draining := some drained }
    | some _ => none
  | .drainRelease outcome =>
    match s.draining with
    | none => none
    | some drained =>
      let (r, idle) := OpenSwap.drainRelease outcome s.common.reservations drained
      some { s with
        common := { s.common with reservations := r }
        draining := none
        recovering := s.recovering ++ idle }
  | .wallet wallet disk =>
    some { s with common := { s.common with
      shared := { s.common.shared with wallet := wallet, disk := disk } } }
  | .restart swapLocks =>
    some { s with
      common :=
        { shared := { s.common.shared with
            ongoingSwaps := ∅
            fundingInProgress := []
            wallet := s.common.shared.disk
            built := [] }
          reservations := ⟨swapLocks, ∅⟩ }
      conns := ∅
      draining := none
      recovering := [] }

end OpenSwap
