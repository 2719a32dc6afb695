import OpenSwap.Protocol.Contract

/-!
# Admission of a swap by the maker

The state a connection carries and the handling of `SwapDetails`: parameter
validation, then the admission proper.  Admission itself (liquidity planning, the
cap on concurrent swaps) is an input of the handler here, the function `store`.

* `validateSwapParameters_taproot` is what validation guarantees of Taproot terms.
-/

namespace OpenSwap

open Btc Checked

/-! ## Connection state -/

inductive SwapPhase where
  | awaitingHello
  | awaitingOfferRequest
  | awaitingSwapDetails
  | awaitingContractData
  | awaitingSignaturesOrPreimage
  | awaitingPrivateKeyHandover
  | completed
deriving DecidableEq, Repr

structure ConnectionState (P : Prims) where
  protocol : ProtocolVersion
  phase : SwapPhase
  swapId : Option String
  swapAmount : Nat
  txCount : Nat
  incomingCount : Nat
  maxInputBudget : Nat
  timelock : Nat
  refundLocktimeOffset : Nat
  incomingSwapcoins : List (IncomingSwapCoin P)
  outgoingSwapcoins : List (OutgoingSwapCoin P)
  pendingFundingTxes : List Transaction
  /-- the negotiated rate, as the double that holds it -/
  swapFeerate : Nat
  serviceFeeSats : Nat
  fundingBroadcastTxids : List Bytes
  /-- the plan frozen at admission; empty before -/
  fundingPlan : List SplitPlan
  swapStartTime : Nat

variable {P : Prims} (s : ConnectionState P)

def ConnectionState.new (protocol : ProtocolVersion) (now : Nat) : ConnectionState P where
  protocol := protocol
  phase := .awaitingHello
  swapId := none
  swapAmount := 0
  txCount := 0
  incomingCount := 0
  maxInputBudget := 0
  timelock := 0
  refundLocktimeOffset := 0
  incomingSwapcoins := []
  outgoingSwapcoins := []
  pendingFundingTxes := []
  swapFeerate := 0
  serviceFeeSats := 0
  fundingBroadcastTxids := []
  fundingPlan := []
  swapStartTime := now

def ConnectionState.expectPhase (expected : List SwapPhase) : Except MakerError Unit :=
  ensure (s.phase ∈ expected) (.general "Unexpected message in phase")

def ConnectionState.checkSwapId (msgSwapId : String) : Except MakerError Unit :=
  ensure (∀ expected ∈ s.swapId, expected = msgSwapId) (.general "Swap ID mismatch")

def isValidSwapId (id : String) : Bool :=
  id.length == 16 && id.toList.all fun c =>
    ('0' ≤ c && c ≤ '9') || ('a' ≤ c && c ≤ 'f') || ('A' ≤ c && c ≤ 'F')

def offsetMeetsReactionTime (refundLocktimeOffset : Nat) : Prop :=
  minContractReactionTime ≤ refundLocktimeOffset

instance (n : Nat) : Decidable (offsetMeetsReactionTime n) :=
  inferInstanceAs (Decidable (minContractReactionTime ≤ n))

/-! ## Parameter validation -/

/-- The lock must leave time to sweep: the sender's refund, one step after our
timelock, is still a reaction time away. -/
def leavesSweepMargin (timelock currentHeight : Nat) : Prop :=
  satAdd32 currentHeight minContractReactionTime ≤ satAdd32 timelock refundLocktimeStep

instance (t h : Nat) : Decidable (leavesSweepMargin t h) :=
  inferInstanceAs (Decidable (satAdd32 h minContractReactionTime ≤ satAdd32 t refundLocktimeStep))

def lockedBlocks (currentHeight : Except MakerError Nat) (d : SwapDetails) :
    ProtocolVersion → Except MakerError Nat
  | .legacy => do
    ensure (minContractReactionTime ≤ d.timelock.toNat)
      (.general "Legacy timelock is below minimum reaction time")
    .ok d.timelock.toNat
  | .taproot => do
    let height ← currentHeight
    ensure (leavesSweepMargin d.timelock.toNat height)
      (.general "Taproot timelock leaves too little contract reaction time")
    ensure (offsetMeetsReactionTime d.refundLocktimeOffset.toNat)
      (.general "Taproot refund locktime offset is below minimum reaction time")
    .ok d.refundLocktimeOffset.toNat

def validateSwapParameters (maxSwapAmount : Nat) (currentHeight : Except MakerError Nat)
    (d : SwapDetails) : Except MakerError Nat := do
  ensure (d.txCount.toNat ≠ 0) (.general "Transaction count must be non-zero")
  ensure (d.maxInputBudget.toNat ≠ 0) (.general "Input budget must be non-zero")
  ensure (d.txCount.toNat ≤ maxTxCount)
    (.general "Transaction count above the protocol maximum")
  ensure (d.maxInputBudget.toNat ≤ maxTxCount) (.general "Input budget above the protocol maximum")
  ensure (d.incomingCount.toNat ≠ 0 ∧ d.incomingCount.toNat ≤ maxTxCount)
    (.general "Incoming count outside the protocol bounds")
  ensure (minRelayFeeRate ≤ d.feerate.toNat) (.general "Swap feerate below the relay floor")
  let protocol ← okOr d.protocol (.general "Swap details pin no on-chain protocol")
  let contractFloor ← okOr (minContractValueSats protocol (roundF64 d.feerate.toNat))
    (.general "Contract floor cannot be priced")
  ensure (min (contractFloor * d.incomingCount.toNat) (2 ^ 64 - 1) ≤ d.amount.toNat)
    (.general "Swap amount below the incoming contract floor")
  ensure (d.amount.toNat ≤ maxSwapAmount) (.general "Swap amount above maximum")
  let locked ← lockedBlocks currentHeight d protocol
  ensure (locked ≠ 0 ∧ locked ≤ 2 ^ 16 - 1) (.general "Swap timelock out of range")
  .ok locked

variable {d : SwapDetails} {state state' : ConnectionState P}

theorem validateSwapParameters_taproot {maxSwapAmount locked currentHeight}
    (h : validateSwapParameters maxSwapAmount currentHeight d = .ok locked)
    (hp : d.protocol = some .taproot) :
    locked = d.refundLocktimeOffset.toNat ∧ minContractReactionTime ≤ locked ∧
      ∃ height, currentHeight = .ok height ∧ leavesSweepMargin d.timelock.toNat height := by
  simp only [validateSwapParameters, bind_ok_iff, ensure_eq_ok, okOr_eq_ok, hp,
    Option.some.injEq] at h
  obtain ⟨_, -, _, -, _, -, _, -, _, -, _, -, _, rfl, _, -, _, -, _, -, n, hn, _, -, hl⟩ := h
  cases hl
  simp only [lockedBlocks, bind_ok_iff, ensure_eq_ok] at hn
  obtain ⟨height, hheight, _, hmargin, _, hoff, hn⟩ := hn
  cases hn
  exact ⟨rfl, hoff, height, hheight, hmargin⟩

/-! ## Swap details -/

/-- What the handler of `SwapDetails` asks of the server. -/
structure AdmissionEnv (P : Prims) where
  watchtowerAlive : Bool
  /-- the pin check against the features this maker serves and requires -/
  checkPins : List String → Except String Unit
  maxSwapAmount : Nat
  currentHeight : Except MakerError Nat
  now : Nat
  calculateSwapFee : (amount lockedBlocks : Nat) → Nat
  /-- admit and store the state; the stored state is read back -/
  store : String → ConnectionState P → Except MakerError (ConnectionState P)
  tweakablePoint : P.PublicKey

/-- The answer to `SwapDetails`: a tweakable point and the input count of every
planned split, or nothing for a rejection. -/
abbrev AckSwapDetails (P : Prims) := Option (P.PublicKey × List Nat)

def ConnectionState.withTerms (env : AdmissionEnv P) (d : SwapDetails) (protocol : ProtocolVersion)
    (offset : Nat) : ConnectionState P :=
  { s with
    swapId := some d.id
    swapAmount := d.amount.toNat
    txCount := d.txCount.toNat
    incomingCount := d.incomingCount.toNat
    maxInputBudget := d.maxInputBudget.toNat
    swapFeerate := roundF64 d.feerate.toNat
    timelock := d.timelock.toNat
    refundLocktimeOffset := offset
    protocol := protocol
    swapStartTime := env.now
    serviceFeeSats := env.calculateSwapFee d.amount.toNat offset
    phase := .awaitingContractData }

/-- A rejected admission leaves no live phase. -/
def ConnectionState.reset : ConnectionState P :=
  { s with
    phase := .awaitingSwapDetails
    swapId := none
    swapAmount := 0
    txCount := 0
    incomingCount := 0
    maxInputBudget := 0
    timelock := 0
    refundLocktimeOffset := 0
    serviceFeeSats := 0
    swapFeerate := 0
    fundingPlan := [] }

/-- The checks before the terms are taken over: nothing for details that are refused. -/
def screenDetails (env : AdmissionEnv P) (state : ConnectionState P) (d : SwapDetails) :
    Except MakerError (Option (ProtocolVersion × Nat)) := do
  state.expectPhase [.awaitingSwapDetails]
  if !isValidSwapId d.id || !env.watchtowerAlive then .ok none
  else
    match env.checkPins d.features, d.protocol with
    | .ok _, some protocol =>
      match validateSwapParameters env.maxSwapAmount env.currentHeight d with
      | .error _ => .ok none
      | .ok offset => .ok (some (protocol, offset))
    | _, _ => .ok none

def handleSwapDetails (env : AdmissionEnv P) (state : ConnectionState P) (d : SwapDetails) :
    Except MakerError (AckSwapDetails P × ConnectionState P) := do
  match ← screenDetails env state d with
  | none => .ok (none, state)
  | some (protocol, offset) =>
    let attempt := state.withTerms env d protocol offset
    match env.store d.id attempt with
    | .error _ => .ok (none, attempt.reset)
    | .ok stored =>
      .ok (some (env.tweakablePoint, stored.fundingPlan.map (·.utxos.length)),
        { attempt with
          fundingPlan := stored.fundingPlan
          swapStartTime := stored.swapStartTime })

/-- The answers to `SwapDetails`: none, with the connection as it was or reset after a
failed store, or an acknowledgement of the terms as they are stored. -/
inductive DetailsAnswered (env : AdmissionEnv P) (state : ConnectionState P) (d : SwapDetails) :
    AckSwapDetails P → ConnectionState P → Prop
  | refused : DetailsAnswered env state d none state
  | notStored {protocol offset} :
      DetailsAnswered env state d none (state.withTerms env d protocol offset).reset
  | accepted {protocol offset stored} (hprotocol : d.protocol = some protocol)
      (hvalid : validateSwapParameters env.maxSwapAmount env.currentHeight d = .ok offset)
      (hstored : env.store d.id (state.withTerms env d protocol offset) = .ok stored) :
      DetailsAnswered env state d
        (some (env.tweakablePoint, stored.fundingPlan.map (·.utxos.length)))
        { state.withTerms env d protocol offset with
          fundingPlan := stored.fundingPlan
          swapStartTime := stored.swapStartTime }

variable {env : AdmissionEnv P}

theorem screenDetails_ok {screened} (h : screenDetails env state d = .ok screened) :
    state.phase = .awaitingSwapDetails ∧ ∀ protocol offset, screened = some (protocol, offset) →
      d.protocol = some protocol ∧
        validateSwapParameters env.maxSwapAmount env.currentHeight d = .ok offset := by
  simp only [screenDetails, bind_ok_iff, ConnectionState.expectPhase, ensure_eq_ok,
    List.mem_singleton] at h
  obtain ⟨_, hphase, h⟩ := h
  refine ⟨hphase, ?_⟩
  rintro protocol offset rfl
  split at h
  · cases h
  · split at h
    · rename_i hprotocol
      split at h
      · cases h
      · rename_i hvalid
        cases h
        exact ⟨hprotocol, hvalid⟩
    · cases h

theorem handleSwapDetails_answered {ack} (h : handleSwapDetails env state d = .ok (ack, state')) :
    state.phase = .awaitingSwapDetails ∧ DetailsAnswered env state d ack state' := by
  simp only [handleSwapDetails, bind_ok_iff] at h
  obtain ⟨screened, hscreen, h⟩ := h
  obtain ⟨hphase, hterms⟩ := screenDetails_ok hscreen
  refine ⟨hphase, ?_⟩
  split at h
  · cases h
    exact .refused
  · obtain ⟨hprotocol, hvalid⟩ := hterms _ _ rfl
    split at h
    · cases h
      exact .notStored
    · rename_i hstored
      cases h
      exact .accepted hprotocol hvalid hstored

/-- **Accepted terms are validated terms**, and the connection carries them. -/
theorem handleSwapDetails_accept {ack}
    (h : handleSwapDetails env state d = .ok (some ack, state')) :
    ∃ protocol offset, d.protocol = some protocol ∧
      validateSwapParameters env.maxSwapAmount env.currentHeight d = .ok offset ∧
      state'.protocol = protocol ∧ state'.timelock = d.timelock.toNat ∧
      state'.swapFeerate = roundF64 d.feerate.toNat ∧ state'.swapAmount = d.amount.toNat ∧
      state'.incomingCount = d.incomingCount.toNat ∧ state'.swapId = some d.id ∧
      state'.phase = .awaitingContractData := by
  cases (handleSwapDetails_answered h).2 with
  | accepted hprotocol hvalid hstored =>
    exact ⟨_, _, hprotocol, hvalid, rfl, rfl, rfl, rfl, rfl, rfl, rfl⟩

end OpenSwap
