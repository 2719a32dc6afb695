import OpenSwap.Maker.SessionMoves

/-!
# What a handler does to its swap

A store writes the whole copy a connection holds, so a swap keeps its progress only as
long as that copy is not older than the entry.

* `Advances` says what a critical section may do, `SessionTask.advance_advances` that
  every one does no more; what holds across critical sections is derived from it.
* `Current` relates the entry of a swap to the copy of a connection that works on it; a
  handler that waits for the funding mark of its swap does not work on it yet.
* `StepOk` is what a step of a handler has to show: it touches no other swap, moves its
  own forward and leaves the copy current.
* `SessionTask.advance_ok`, `Dispatches.ok` and `Admits.ok` show it for the
  tasks of both protocols, for messages and for admission.
* `SessionTask.advance_marks`: what a step does to the funding marks.
-/

namespace OpenSwap

open Btc Checked

variable {P : Prims}

/-! ## Progress -/

def SwapPhase.rank : SwapPhase → Nat
  | .awaitingHello => 0
  | .awaitingOfferRequest => 1
  | .awaitingSwapDetails => 2
  | .awaitingContractData => 3
  | .awaitingSignaturesOrPreimage => 4
  | .awaitingPrivateKeyHandover => 5
  | .completed => 6

theorem SwapPhase.rank_le_completed (phase : SwapPhase) :
    phase.rank ≤ SwapPhase.completed.rank := by
  cases phase <;> decide

/-- The later entry has lost nothing: its phase is not behind, and no broadcast is gone. -/
structure Forward (e e' : SwapState P) : Prop where
  phase : e.phase.rank ≤ e'.phase.rank
  txids : e.fundingBroadcastTxids ⊆ e'.fundingBroadcastTxids

theorem Forward.refl (e : SwapState P) : Forward e e := ⟨le_rfl, List.Subset.refl _⟩

theorem Forward.trans {e e' e'' : SwapState P} (h : Forward e e') (h' : Forward e' e'') :
    Forward e e'' := ⟨h.phase.trans h'.phase, List.Subset.trans h.txids h'.txids⟩

theorem Forward.of_eq {e e' : SwapState P} (hphase : e'.phase = e.phase)
    (htxids : e'.fundingBroadcastTxids = e.fundingBroadcastTxids) : Forward e e' :=
  ⟨hphase ▸ le_rfl, fun _ h => htxids ▸ h⟩

/-- The copy a connection holds knows the entry's broadcasts and is not behind it. -/
structure InStep (e : SwapState P) (state : ConnectionState P) : Prop where
  txids : e.fundingBroadcastTxids = state.fundingBroadcastTxids
  phase : e.phase.rank ≤ state.phase.rank

instance (e : SwapState P) (state : ConnectionState P) : Decidable (InStep e state) :=
  decidable_of_iff (e.fundingBroadcastTxids = state.fundingBroadcastTxids ∧
    e.phase.rank ≤ state.phase.rank) ⟨fun h => ⟨h.1, h.2⟩, fun h => ⟨h.txids, h.phase⟩⟩

/-- The copy is in step with the entry, unless that is of another admission: a store
compares the instants and refuses such a copy. -/
def Current (swaps : Swaps P) (id : String) (state : ConnectionState P) : Prop :=
  ∀ e ∈ swaps.lookup id, e.swapStartTime = state.swapStartTime → InStep e state

instance (swaps : Swaps P) (id : String) (state : ConnectionState P) :
    Decidable (Current swaps id state) :=
  inferInstanceAs (Decidable (∀ e ∈ swaps.lookup id, _ → _))

/-- The handler has yet to get the funding mark of its swap. -/
def SessionTask.waits : SessionTask P → Bool
  | .legacy (.seenLive _ _ _) | .legacy (.seenWallet _ _ _ _) | .legacy (.beginFunding _ _)
  | .legacy (.respBegin _) | .taprootBegin _ _ => true
  | _ => false

/-- A handler that is at work after the step has a current copy. -/
def SessionNext.WorksCurrent (swaps : Swaps P) : SessionNext P → Prop
  | .busy state task => task.waits = false → Current swaps task.swapId state
  | _ => True

instance (swaps : Swaps P) : (next : SessionNext P) → Decidable (next.WorksCurrent swaps)
  | .busy _ _ => inferInstanceAs (Decidable (_ → _))
  | .idle _ | .closed _ => inferInstanceAs (Decidable True)

/-- The phase in which the handler of a task leaves its connection, at the latest. -/
def Task.ends : Task P → SwapPhase
  | .seenLive _ _ _ | .seenWallet _ _ _ _ | .beginFunding _ _ | .claim _ _ | .confirm _ _
  | .verifyEntry _ _ _ _ | .initializeSwap _ _ _ | .storeFunded _ _ _ _ =>
    .awaitingSignaturesOrPreimage
  | .respBegin _ | .respStore _ | .respVerify _ | .respSave _ | .respSend _ _ | .respFinish _ =>
    .awaitingPrivateKeyHandover
  | _ => .completed

def FundingStep.ends : FundingStep P → SwapPhase
  | .legacy _ _ _ => .awaitingSignaturesOrPreimage
  | .taproot _ _ => .awaitingPrivateKeyHandover

def SessionTask.ends : SessionTask P → SwapPhase
  | .legacy task => task.ends
  | .recordClaim step _ | .buildPlan step => step.ends
  | .clearClaim _ _ | .releaseAll _ _ => .completed
  | .releaseSpent _ after => after.ends
  | _ => .awaitingPrivateKeyHandover

/-! ## What a critical section does -/

section Relations

variable (maker : Maker P) (sh : Shared P) (c : Common P) (state : ConnectionState P)
  (answers : SessionAnswers P)

/-- The task after a critical section that leaves the connection's copy as it is, with
what the section has found. -/
inductive Leads : SessionTask P → SessionTask P → Prop
  | legacy {task task'} (h : Proceeds maker sh state answers.toAnswers task task') :
      Leads (.legacy task) (.legacy task')
  | claimed {pof coins} : Leads (.legacy (.claim pof coins)) (.legacy (.confirm pof coins))
  | planned {pof coins hashvalue} : Leads (.legacy (.initializeSwap pof coins hashvalue))
      (.buildPlan (.legacy pof coins hashvalue))
  | reserved {pof coins hashvalue plan} : Leads (.legacy (.initializeSwap pof coins hashvalue))
      (.recordClaim (.legacy pof coins hashvalue) plan)
  | taprootBegun {data checked} : Leads (.taprootBegin data checked) (.taprootClaim data checked)
  | taprootClaimed {data checked} : Leads (.taprootClaim data checked) (.taprootWait data checked)
  | taprootPrepared {data checked funding} (hcalls : answers.calls = .ok ())
      (hprepared : prepareTaproot answers.taproot state data checked = .ok funding) :
      Leads (.taprootWait data checked) (.taprootFund data funding)
  | taprootPlanned {data funding} : Leads (.taprootFund data funding)
      (.buildPlan (.taproot data funding))
  | taprootReserved {data funding plan} : Leads (.taprootFund data funding)
      (.recordClaim (.taproot data funding) plan)
  | recorded {step plan} : Leads (.recordClaim step plan) (.buildPlan step)
  | expired {step plan error} : Leads (.recordClaim step plan)
      (.releaseAll step.swapId (.close error))
  | unbuilt {step error} : Leads (.buildPlan step) (.releaseAll step.swapId (.clearClaim error))
  | funded {pof coins hashvalue outgoing txes}
      (hout : legacyOutgoing state answers.toAnswers pof hashvalue = .ok outgoing) :
      Leads (.buildPlan (.legacy pof coins hashvalue))
        (.legacy (.storeFunded pof coins outgoing txes))
  | taprootFunded {data funding outgoing} : Leads (.buildPlan (.taproot data funding))
      (.taprootStore data funding.incoming outgoing)
  | releasedClaim {id error} : Leads (.releaseAll id (.clearClaim error)) (.clearClaim id error)
  | releasedAll {id} : Leads (.releaseAll id .settle) (.legacy (.settle id))
  | taprootSaved {data index todo} : Leads (.taprootSave data) (.taprootSend data index todo)
  | taprootSent {data index} : Leads (.taprootSend data index []) (.taprootFinish data)

inductive Sends : SessionTask P → SessionTask P → Prop
  | legacy {resp tx rest} : Sends (.legacy (.respSend resp (tx :: rest)))
      (.legacy (.respSend resp rest))
  | taproot {data index coin rest} : Sends (.taprootSend data index (coin :: rest))
      (.taprootSend data (index + 1) rest)

/-- A copy of the same swap, admission and broadcasts, in the same phase or in one the
handler ends in. -/
structure Rewritten (ends : SwapPhase) (state state' : ConnectionState P) : Prop where
  swapId : state'.swapId = state.swapId
  start : state'.swapStartTime = state.swapStartTime
  terms : state'.terms = state.terms
  plan : state'.fundingPlan = state.fundingPlan
  txids : state'.fundingBroadcastTxids = state.fundingBroadcastTxids
  phase : state'.phase = state.phase ∨ state'.phase = ends

/-- What a critical section may do to the live swaps, and where it leaves the connection. -/
inductive Advances : SessionTask P → Swaps P → SessionNext P → Prop
  | closed {task error} : Advances task c.shared.ongoingSwaps (.closed error)
  | leads {task task'} (h : Leads maker c.shared state answers task task') :
      Advances task c.shared.ongoingSwaps (.busy state task')
  | claims {task task' txids swaps} (h : Leads maker c.shared state answers task task')
      (hclaim : claimIncomingContractTxids c.shared.ongoingSwaps task.swapId txids = .ok swaps)
      (hworks : task.waits = false) : Advances task swaps (.busy state task')
  | stores {task state' swaps next} (hstate : Rewritten task.ends state state')
      (hstore : storeConnectionState c.shared.ongoingSwaps task.swapId state' = .ok swaps)
      (hnext : next = .idle state' ∨ ∃ error, next = .closed error)
      (hworks : task.waits = false) : Advances task swaps next
  | storesSigs {resp swaps}
      (hstore : storeConnectionState c.shared.ongoingSwaps resp.id state = .ok swaps) :
      Advances (.legacy (.respStore resp)) swaps (.busy state (.legacy (.respVerify resp)))
  | storesFunding {data incoming outgoing state' swaps}
      (hstate : Rewritten .awaitingPrivateKeyHandover state state')
      (hstore : storeConnectionState c.shared.ongoingSwaps data.id state' = .ok swaps) :
      Advances (.taprootStore data incoming outgoing) swaps (.busy state' (.taprootSave data))
  | sigsFail {resp error}
      (hsigs : verifyContractSigs resp.receiversSigs resp.sendersSigs state.incomingSwapcoins
        state.outgoingSwapcoins = .error error) :
      Advances (.legacy (.respVerify resp)) (c.shared.ongoingSwaps.erase resp.id)
        (.busy state (.releaseAll resp.id (.close error)))
  | sigsHold {resp state'} (hstate : Rewritten .awaitingPrivateKeyHandover state state') :
      Advances (.legacy (.respVerify resp)) c.shared.ongoingSwaps
        (.busy state' (.legacy (.respSave resp)))
  | handsOver {id} : Advances (.legacy (.handoverSave id [])) c.shared.ongoingSwaps
      (.busy { state with phase := .completed } (.legacy (.complete id)))
  | completes {id} : Advances (.legacy (.complete id)) (c.shared.ongoingSwaps.erase id)
      (.busy state (.releaseAll id .settle))
  | sends {task after task' txid outgoing stored} (hafter : Sends task after)
      (hstored : c.shared.ongoingSwaps.lookup task.swapId = some stored)
      (htask : task' = after ∨ ∃ tx, P.txid tx = txid ∧ task' = .releaseSpent tx after) :
      Advances task (c.shared.ongoingSwaps.insert task.swapId { stored with
          fundingBroadcastTxids := addTxid stored.fundingBroadcastTxids txid })
        (.busy { state with
          outgoingSwapcoins := outgoing
          fundingBroadcastTxids := addTxid state.fundingBroadcastTxids txid } task')
  | releases {tx after} : Advances (.releaseSpent tx after) c.shared.ongoingSwaps
      (.busy state after)

end Relations

section Advances

variable {maker : Maker P} {sh : Shared P} {c : Common P} {state : ConnectionState P}
  {answers : SessionAnswers P} {task task' after : SessionTask P} {txid : Bytes}

theorem Leads.swapId_eq (h : Leads maker sh state answers task task') :
    task'.swapId = task.swapId := by
  cases h with
  | legacy h => exact h.swapId_eq
  | _ => rfl

theorem Leads.ends_le (h : Leads maker sh state answers task task') :
    task.ends.rank ≤ task'.ends.rank := by
  cases h with
  | legacy h => cases h <;> exact le_rfl
  | expired => exact SwapPhase.rank_le_completed _
  | unbuilt => exact SwapPhase.rank_le_completed _
  | _ => exact le_rfl

theorem Sends.swapId_eq (h : Sends task after) : after.swapId = task.swapId := by
  cases h <;> rfl

theorem Sends.works (h : Sends task after) : task.waits = false := by
  cases h <;> rfl

theorem Sends.ends_eq (h : Sends task after) : after.ends = task.ends := by
  cases h <;> rfl

theorem Rewritten.refl (ends : SwapPhase) : Rewritten ends state state :=
  ⟨rfl, rfl, rfl, rfl, rfl, .inl rfl⟩

section Combinators

variable {α : Type} {x : Except MakerError α}

theorem advances_orEnd {next : α → Common P × SessionNext P}
    (h : ∀ a, x = .ok a →
      Advances maker c state answers task (next a).1.shared.ongoingSwaps (next a).2) :
    Advances maker c state answers task (orEnd c x next).1.shared.ongoingSwaps
      (orEnd c x next).2 := by
  cases x with
  | ok a => exact h a rfl
  | error e => exact .closed

end Combinators

theorem advances_claimPlan {step plan}
    (hplanned : Leads maker c.shared state answers task (.buildPlan step))
    (hreserved : ∀ plan, Leads maker c.shared state answers task (.recordClaim step plan)) :
    Advances maker c state answers task
      (claimPlan c state answers step plan).1.shared.ongoingSwaps
      (claimPlan c state answers step plan).2 := by
  unfold claimPlan
  dsimp only
  split
  · exact advances_orEnd fun _ _ => .leads hplanned
  · refine advances_orEnd fun _ _ => ?_
    split
    · exact .leads (hreserved _)
    · exact .closed

theorem SwapState.fundingTx_txid {stored : SwapState P} {tx : Transaction}
    (h : stored.fundingTx txid = some tx) : P.txid tx = txid := by
  unfold SwapState.fundingTx at h
  split at h
  · simpa using List.find?_some h
  · simpa using List.find?_some h

theorem advances_sent {outgoing committed : List (OutgoingSwapCoin P)} (h : Sends task after) :
    Advances maker c state answers task
      (sent c state answers txid outgoing committed after).1.shared.ongoingSwaps
      (sent c state answers txid outgoing committed after).2 := by
  refine advances_orEnd fun _ _ => ?_
  dsimp only
  rw [disk_of_save]
  split
  · unfold recordFundingBroadcast orEnd
    rw [h.swapId_eq]
    split
    · rename_i stored hstored
      dsimp only [Common.withSwaps]
      split
      · exact .sends h (okOr_eq_ok.mp hstored) (.inl rfl)
      · rename_i tx htx
        exact .sends h (okOr_eq_ok.mp hstored) (.inr ⟨tx, SwapState.fundingTx_txid htx, rfl⟩)
    · exact .closed
  · exact .closed

/-- The critical sections that touch the reservations; all others are those of `advance`. -/
def Task.reserves : Task P → Bool
  | .initializeSwap .. | .respVerify _ | .respSend .. | .complete _ => true
  | _ => false

theorem GoesOn.advances {task : Task P} {next}
    (h : GoesOn maker c.shared state answers.toAnswers task next) :
    Advances maker c state answers (.legacy task) c.shared.ongoingSwaps next.lift := by
  cases next with
  | busy state' task' =>
    obtain ⟨rfl, hproceeds⟩ := h
    exact .leads (.legacy hproceeds)
  | idle state' => exact h.elim
  | closed error => exact .closed

theorem Moves.advances {task : Task P} {result}
    (h : Moves maker c.shared state answers.toAnswers task result) (htask : task.reserves = false) :
    Advances maker c state answers (.legacy task) result.1.ongoingSwaps result.2.lift := by
  cases h with
  | writes hnext => exact hnext.advances
  | binds hnext => exact hnext.advances
  | claims hswaps => exact .claims .claimed hswaps rfl
  | stores hstores hswaps =>
    cases hstores with
    | signed => exact .stores (.refl _) hswaps (.inl rfl) rfl
    | answered => exact .storesSigs hswaps
    | putBack => exact .stores (.refl _) hswaps (.inr ⟨_, rfl⟩) rfl
    | _ =>
      refine .stores ?_ hswaps (.inl rfl) rfl
      exact ⟨rfl, rfl, rfl, rfl, rfl, .inr rfl⟩
  | completes => exact .handsOver
  | _ => cases htask

theorem advanceLegacy_advances (task : Task P) :
    Advances maker c state answers (.legacy task)
      (advanceLegacy maker c state answers task).1.shared.ongoingSwaps
      (advanceLegacy maker c state answers task).2 := by
  cases task with
  | initializeSwap pof coins hashvalue =>
    exact advances_orEnd fun _ _ => advances_claimPlan .planned fun _ => .reserved
  | respVerify resp =>
    unfold advanceLegacy
    dsimp only
    split
    · rename_i hsigs
      exact .sigsFail hsigs
    · rename_i hsigs
      rw [stepRespVerify, hsigs]
      exact .sigsHold ⟨rfl, rfl, rfl, rfl, rfl, .inl rfl⟩
  | respSend resp todo =>
    cases todo with
    | nil => exact .leads (.legacy .sent)
    | cons tx rest => exact advances_sent .legacy
  | complete id => exact .completes
  | _ => exact advance_moves.advances rfl

/-- **What a critical section of a handler does.** -/
theorem SessionTask.advance_advances (task : SessionTask P) :
    Advances maker c state answers task
      (task.advance maker c state answers).1.shared.ongoingSwaps
      (task.advance maker c state answers).2 := by
  cases task with
  | legacy task => exact advanceLegacy_advances task
  | taprootBegin data checked => exact advances_orEnd fun _ _ => .leads .taprootBegun
  | taprootClaim data checked =>
    exact advances_orEnd fun _ hswaps => .claims .taprootClaimed hswaps rfl
  | taprootWait data checked =>
    refine advances_orEnd fun funding hok => ?_
    simp only [bind_ok_iff] at hok
    obtain ⟨_, hcalls, hprepared⟩ := hok
    exact .leads (.taprootPrepared hcalls hprepared)
  | taprootFund data funding =>
    exact advances_orEnd fun _ _ => advances_claimPlan .taprootPlanned fun _ => .taprootReserved
  | recordClaim step plan =>
    dsimp only [SessionTask.advance, OpenSwap.recordClaim]
    split
    · exact .leads .recorded
    · exact .leads .expired
  | buildPlan step =>
    dsimp only [SessionTask.advance, OpenSwap.buildPlan]
    split
    · exact .leads .unbuilt
    · cases step with
      | legacy pof coins hashvalue => exact advances_orEnd fun _ hout => .leads (.funded hout)
      | taproot data funding => exact advances_orEnd fun _ _ => .leads .taprootFunded
  | clearClaim id error => exact .closed
  | releaseAll id after =>
    dsimp only [SessionTask.advance, OpenSwap.releaseAll]
    cases after with
    | close error => exact .closed
    | clearClaim error => exact .leads .releasedClaim
    | settle =>
      dsimp only
      split
      · exact .leads .releasedAll
      · exact .closed
  | taprootStore data incoming outgoing =>
    exact advances_orEnd fun _ hswaps =>
      .storesFunding ⟨rfl, rfl, rfl, rfl, rfl, .inl rfl⟩ hswaps
  | taprootSave data =>
    refine advances_orEnd fun _ _ => ?_
    split
    · exact .leads .taprootSaved
    · exact .closed
  | taprootSend data index todo =>
    cases todo with
    | nil => exact .leads .taprootSent
    | cons coin rest => exact advances_sent .taproot
  | releaseSpent tx after =>
    dsimp only [SessionTask.advance, OpenSwap.releaseSpent]
    split
    · exact .releases
    · exact .closed
  | taprootFinish data =>
    have hstate : Rewritten .awaitingPrivateKeyHandover state
        { state with phase := .awaitingPrivateKeyHandover } := ⟨rfl, rfl, rfl, rfl, rfl, .inr rfl⟩
    exact advances_orEnd fun _ hswaps => .stores hstate hswaps (.inl rfl) rfl

/-! ## Funding marks -/

section Marks

variable {α : Type} {x : Except MakerError α} {state' : ConnectionState P} {id : String}

theorem SessionTask.swapId_of_fundingGuard (h : task.fundingGuard = some id) :
    task.swapId = id := by
  cases task with
  | legacy task => cases task <;> cases h <;> rfl
  | releaseAll _ after => cases after <;> cases h <;> rfl
  | _ => cases h <;> rfl

theorem Leads.fundingGuard_eq (h : Leads maker sh state answers task task')
    (hworks : task.waits = false) (hguard : task'.fundingGuard = some id) :
    task.fundingGuard = some id := by
  cases h with
  | legacy h => cases h <;> first | exact hguard | cases hworks
  | _ => first | exact hguard | cases hworks

theorem Advances.fundingGuard_eq {swaps}
    (h : Advances maker c state answers task swaps (.busy state' task'))
    (hworks : task.waits = false) (hguard : task'.fundingGuard = some id) :
    task.fundingGuard = some id := by
  cases h with
  | leads hleads => exact hleads.fundingGuard_eq hworks hguard
  | claims hleads => exact hleads.fundingGuard_eq hworks hguard
  | stores _ _ hnext => rcases hnext with hnext | ⟨_, hnext⟩ <;> cases hnext
  | sends hafter _ htask =>
    rcases htask with rfl | ⟨_, -, rfl⟩ <;> cases hafter <;> exact hguard
  | releases =>
    show some task'.swapId = some id
    rw [SessionTask.swapId_of_fundingGuard hguard]
  | handsOver => cases hguard
  | completes => cases hguard
  | _ => exact hguard

theorem stepBeginFunding_busy {id : String} {sh : Shared P} {next : Next P}
    (h : (stepBeginFunding sh id next).2.lift = .busy state' task') :
    id ∉ sh.fundingInProgress ∧ id ∈ (stepBeginFunding sh id next).1.fundingInProgress := by
  by_cases hmem : id ∈ sh.fundingInProgress <;>
    simp_all [stepBeginFunding, ensure, orCloseWith, Next.lift]

/-- **A handler gets the mark of its swap only if nobody has it**, and keeps it until it
ends. -/
theorem SessionTask.advance_marks
    (hnext : (task.advance maker c state answers).2 = .busy state' task')
    (hguard : task'.fundingGuard = some id) :
    task.fundingGuard = some id ∨ id ∉ c.shared.fundingInProgress ∧
      id ∈ (task.advance maker c state answers).1.shared.fundingInProgress := by
  obtain ⟨swaps, hadv⟩ : ∃ swaps, Advances maker c state answers task swaps (.busy state' task') :=
    ⟨_, hnext ▸ task.advance_advances⟩
  cases hworks : task.waits with
  | false => exact .inl (hadv.fundingGuard_eq hworks hguard)
  | true =>
    cases hadv with
    | leads hleads =>
      refine .inr ?_
      cases hleads with
      | legacy h =>
        cases h with
        | marked | respMarked =>
          cases hguard
          exact stepBeginFunding_busy hnext
        | _ => first | (cases hworks; done) | cases hguard
      | @taprootBegun data =>
        cases hguard
        by_cases hmem : data.id ∈ c.shared.fundingInProgress <;>
          simp_all [SessionTask.advance, ensure, orEnd, SessionTask.swapId]
      | _ => cases hworks
    | claims _ _ h => rw [h] at hworks; cases hworks
    | stores _ _ hnext => rcases hnext with hnext | ⟨_, hnext⟩ <;> cases hnext
    | sends hafter => rw [hafter.works] at hworks; cases hworks
    | _ => cases hworks

end Marks

end Advances

/-- An entry of a swap that was admitted, before the instant `clock`. -/
structure Entered (clock : Nat) (e : SwapState P) : Prop where
  late : e.phase.early = false
  start : e.swapStartTime < clock

theorem Entered.later {clock : Nat} {e : SwapState P} (h : Entered clock e) :
    Entered (clock + 1) e := ⟨h.late, Nat.lt_succ_of_lt h.start⟩

/-- What holds of a connection in the middle of a handler. -/
structure Busy (clock : Nat) (swaps : Swaps P) (state : ConnectionState P) (task : SessionTask P) :
    Prop where
  swapId : state.swapId = some task.swapId
  late : state.phase.early = false
  start : state.swapStartTime < clock
  ends : state.phase.rank ≤ task.ends.rank
  current : task.waits = false → Current swaps task.swapId state

/-- What holds of a connection between messages; its copy may be behind the entry. -/
structure Idle (clock : Nat) (state : ConnectionState P) : Prop where
  start : state.swapStartTime < clock
  late : state.phase.early = false → ∃ id, state.swapId = some id

/-- A handler for swap `id` leaves its connection in order. -/
def NextOk (clock : Nat) (swaps : Swaps P) (id : String) : SessionNext P → Prop
  | .busy state task => task.swapId = id ∧ Busy clock swaps state task
  | .idle state => Idle clock state
  | .closed _ => True

/-- A step of a handler for swap `id` touches no other swap, and moves its own forward. -/
structure StepOk (clock : Nat) (swaps : Swaps P) (id : String) (swaps' : Swaps P)
    (next : SessionNext P) : Prop where
  others : ∀ other, other ≠ id → swaps'.lookup other = swaps.lookup other
  entered : ∀ e', swaps'.lookup id = some e' → Entered clock e'
  forward : ∀ e e', swaps.lookup id = some e → swaps'.lookup id = some e' → Forward e e'
  next : NextOk clock swaps' id next

/-! ## Steps -/

section Steps

variable {maker : Maker P} {swaps swaps' : Swaps P} {c : Common P} {state : ConnectionState P}
  {task : SessionTask P} {answers : SessionAnswers P} {id : String} {task' after : SessionTask P}
  {α : Type} {sh : Shared P} {state' : ConnectionState P} {txid : Bytes} {txids : List Bytes}
  {msg : LegacyMessage P} {clock : Nat} {next : SessionNext P}

theorem Current.insert {e : SwapState P}
    (h : e.swapStartTime = state.swapStartTime → InStep e state) :
    Current (swaps.insert id e) id state := by
  intro e' he'
  rw [Option.mem_def, AList.lookup_insert, Option.some.injEq] at he'
  exact he' ▸ h

theorem Current.erase : Current (swaps.erase id) id state := by
  intro e he
  rw [Option.mem_def, AList.lookup_erase] at he
  cases he

theorem StepOk.same (hentered : ∀ e, swaps.lookup id = some e → Entered clock e)
    (hnext : NextOk clock swaps id next) : StepOk clock swaps id swaps next where
  others _ _ := rfl
  entered := hentered
  forward e e' he he' := by
    rw [he, Option.some.injEq] at he'
    exact he' ▸ .refl e
  next := hnext

theorem stepOk_insert {e'} (hentered : Entered clock e')
    (hforward : ∀ e, swaps.lookup id = some e → Forward e e')
    (hnext : NextOk clock (swaps.insert id e') id next) :
    StepOk clock swaps id (swaps.insert id e') next := by
  have hentry : ∀ e, (swaps.insert id e').lookup id = some e → e = e' := by
    intro e he
    rw [AList.lookup_insert, Option.some.injEq] at he
    exact he.symm
  exact ⟨fun other hne => AList.lookup_insert_ne hne, fun e he => hentry e he ▸ hentered,
    fun e e₁ he he₁ => hentry e₁ he₁ ▸ hforward e he, hnext⟩

/-- The copy may have moved on; its admission and its broadcasts are the same. -/
structure Raises (state state' : ConnectionState P) : Prop where
  swapId : state'.swapId = state.swapId
  start : state'.swapStartTime = state.swapStartTime
  txids : state'.fundingBroadcastTxids = state.fundingBroadcastTxids
  late : state'.phase.early = false
  phase : state.phase.rank ≤ state'.phase.rank

theorem InStep.raise {e} (h : InStep e state) (hr : Raises state state') : InStep e state' :=
  ⟨h.txids.trans hr.txids.symm, h.phase.trans hr.phase⟩

theorem Current.raise (h : Current swaps id state) (hr : Raises state state') :
    Current swaps id state' :=
  fun e he hstart => (h e he (hstart.trans hr.start)).raise hr

section

variable (h : Busy clock swaps state task)

include h

theorem Busy.raises : Raises state state := ⟨rfl, rfl, rfl, h.late, le_rfl⟩

theorem Busy.nextBusy (hr : Raises state state') (hid : task'.swapId = task.swapId)
    (hends : state'.phase.rank ≤ task'.ends.rank)
    (hcurrent : task'.waits = false → Current swaps' task.swapId state') :
    NextOk clock swaps' task.swapId (.busy state' task') :=
  ⟨hid, hid ▸ hr.swapId.trans h.swapId, hr.late, hr.start ▸ h.start, hends, hid ▸ hcurrent⟩

theorem Busy.nextIdle (hr : Raises state state') : Idle clock state' :=
  ⟨hr.start ▸ h.start, fun _ => ⟨_, hr.swapId.trans h.swapId⟩⟩

/-- **A store of a current copy** moves the entry forward, and leaves the copy current; a
copy of another admission is refused. -/
theorem Busy.store (hworks : task.waits = false) (hr : Raises state state')
    (hstore : storeConnectionState swaps task.swapId state' = .ok swaps')
    (hnext : Current swaps' task.swapId state' → NextOk clock swaps' task.swapId next) :
    StepOk clock swaps task.swapId swaps' next := by
  obtain ⟨stored, rfl, hfound⟩ := storeConnectionState_ok hstore
  refine stepOk_insert ⟨hr.late, show state'.swapStartTime < clock from hr.start ▸ h.start⟩
    (fun e he => ?_) (hnext (.insert fun _ => ⟨rfl, le_rfl⟩))
  rcases hfound with ⟨hstored, hstart⟩ | ⟨hnone, -⟩
  · obtain rfl : stored = e := Option.some.inj (hstored.symm.trans he)
    have hin := ((h.current hworks).raise hr) stored he hstart
    exact ⟨hin.phase, fun txid (htxid : txid ∈ stored.fundingBroadcastTxids) =>
      show txid ∈ state'.fundingBroadcastTxids from hin.txids ▸ htxid⟩
  · rw [hnone] at he
    cases he

theorem Busy.claim (hworks : task.waits = false) (hentered : ∀ e,
      swaps.lookup task.swapId = some e → Entered clock e)
    (hclaim : claimIncomingContractTxids swaps task.swapId txids = .ok swaps')
    (hid : task'.swapId = task.swapId) (hends : task.ends.rank ≤ task'.ends.rank) :
    StepOk clock swaps task.swapId swaps' (.busy state task') := by
  simp only [claimIncomingContractTxids, bind_ok_iff, ensure_eq_ok, okOr_eq_ok] at hclaim
  obtain ⟨_, -, e, he, _, -, hclaim⟩ := hclaim
  cases hclaim
  refine stepOk_insert ⟨(hentered e he).late, (hentered e he).start⟩ (fun e₁ he₁ => ?_)
    (h.nextBusy h.raises hid (h.ends.trans hends) fun _ => .insert fun hstart => ?_)
  · rw [he, Option.some.injEq] at he₁
    exact he₁ ▸ .of_eq rfl rfl
  · have hin := h.current hworks e he hstart
    exact ⟨hin.txids, hin.phase⟩

theorem Busy.erase (hid : task'.swapId = task.swapId) (hends : task.ends.rank ≤ task'.ends.rank) :
    StepOk clock swaps task.swapId (swaps.erase task.swapId) (.busy state task') := by
  have hgone : ∀ e, (swaps.erase task.swapId).lookup task.swapId ≠ some e := by
    intro e he
    rw [AList.lookup_erase] at he
    cases he
  exact ⟨fun other hne => AList.lookup_erase_ne hne, fun e he => absurd he (hgone e),
    fun _ e _ he => absurd he (hgone e),
    h.nextBusy h.raises hid (h.ends.trans hends) fun _ => .erase⟩

end

theorem mem_addTxid {txid'} :
    txid' ∈ addTxid txids txid ↔ txid' ∈ txids ∨ txid' = txid := by
  unfold addTxid
  split
  · rename_i hmem
    exact ⟨.inl, fun h => h.elim id fun heq => heq ▸ hmem⟩
  · simp

/-- **A broadcast is recorded on both sides**, in the entry and in the copy. -/
theorem Busy.record {stored outgoing} (h : Busy clock swaps state task)
    (hworks : task.waits = false) (hentered : Entered clock stored)
    (hstored : swaps.lookup task.swapId = some stored) (hid : task'.swapId = task.swapId)
    (hends : task.ends.rank ≤ task'.ends.rank) :
    StepOk clock swaps task.swapId (swaps.insert task.swapId { stored with
        fundingBroadcastTxids := addTxid stored.fundingBroadcastTxids txid })
      (.busy { state with
        outgoingSwapcoins := outgoing
        fundingBroadcastTxids := addTxid state.fundingBroadcastTxids txid } task') := by
  refine stepOk_insert ⟨hentered.late, hentered.start⟩ (fun e he => ?_) ⟨hid, hid ▸ h.swapId,
    h.late, h.start, h.ends.trans hends, fun _ => hid ▸ .insert fun hstart => ?_⟩
  · rw [hstored, Option.some.injEq] at he
    subst he
    exact ⟨le_rfl, fun txid' htxid' => mem_addTxid.mpr (.inl htxid')⟩
  · have hin := h.current hworks stored hstored hstart
    exact ⟨congrArg (addTxid · txid) hin.txids, hin.phase⟩

theorem SwapPhase.late_of_rank_le {phase phase' : SwapPhase} (h : phase.rank ≤ phase'.rank)
    (hlate : phase.early = false) : phase'.early = false := by
  revert h hlate
  cases phase <;> cases phase' <;> decide

theorem Busy.rank_le (h : Busy clock swaps state task) (hstate : Rewritten task.ends state state') :
    state'.phase.rank ≤ task.ends.rank := by
  rcases hstate.phase with heq | heq
  · exact heq ▸ h.ends
  · exact heq ▸ le_rfl

theorem Busy.raised (h : Busy clock swaps state task) (hstate : Rewritten task.ends state state') :
    Raises state state' := by
  have hphase : state.phase.rank ≤ state'.phase.rank := by
    rcases hstate.phase with heq | heq
    · exact heq ▸ le_rfl
    · exact heq ▸ h.ends
  exact ⟨hstate.swapId, hstate.start, hstate.txids, SwapPhase.late_of_rank_le hphase h.late, hphase⟩

theorem Advances.ok (hadv : Advances maker c state answers task swaps' next)
    (h : Busy clock c.shared.ongoingSwaps state task)
    (hentered : ∀ e, c.shared.ongoingSwaps.lookup task.swapId = some e → Entered clock e)
    (hmark : task.waits = true → next.WorksCurrent c.shared.ongoingSwaps) :
    StepOk clock c.shared.ongoingSwaps task.swapId swaps' next := by
  cases hadv with
  | closed => exact .same hentered trivial
  | @leads _ task' hleads =>
    refine .same hentered (h.nextBusy h.raises hleads.swapId_eq (h.ends.trans hleads.ends_le) ?_)
    intro hworks'
    cases hworks : task.waits with
    | false => exact h.current hworks
    | true => exact hleads.swapId_eq ▸ hmark hworks hworks'
  | claims hleads hclaim hworks =>
    exact h.claim hworks hentered hclaim hleads.swapId_eq hleads.ends_le
  | stores hstate hstore hnext hworks =>
    refine h.store hworks (h.raised hstate) hstore fun _ => ?_
    rcases hnext with rfl | ⟨_, rfl⟩
    · exact h.nextIdle (h.raised hstate)
    · trivial
  | storesSigs hstore =>
    exact h.store rfl h.raises hstore fun hin => h.nextBusy h.raises rfl h.ends fun _ => hin
  | storesFunding hstate hstore =>
    have hr := h.raised hstate
    exact h.store rfl hr hstore fun hin => h.nextBusy hr rfl (h.rank_le hstate) fun _ => hin
  | sigsFail hsigs => exact h.erase rfl (SwapPhase.rank_le_completed _)
  | sigsHold hstate =>
    have hr := h.raised hstate
    exact .same hentered
      (h.nextBusy hr rfl (h.rank_le hstate) fun _ => (h.current rfl).raise hr)
  | handsOver =>
    have hr : Raises state { state with phase := .completed } := ⟨rfl, rfl, rfl, rfl, h.ends⟩
    exact .same hentered (h.nextBusy hr rfl le_rfl fun _ => (h.current rfl).raise hr)
  | completes => exact h.erase rfl le_rfl
  | sends hafter hstored htask =>
    have hends := hafter.ends_eq
    have hin := hentered _ hstored
    rcases htask with rfl | ⟨tx, -, rfl⟩
    · exact h.record hafter.works hin hstored hafter.swapId_eq (hends ▸ le_rfl)
    · exact h.record hafter.works hin hstored hafter.swapId_eq (show _ ≤ _ from hends ▸ le_rfl)
  | releases => exact .same hentered (h.nextBusy h.raises rfl h.ends fun _ => h.current rfl)

/-- **Every step of a handler** moves its swap forward and leaves its copy current, if the
copy is current when the handler gets the mark. -/
theorem SessionTask.advance_ok (h : Busy clock c.shared.ongoingSwaps state task)
    (hentered : ∀ e, c.shared.ongoingSwaps.lookup task.swapId = some e → Entered clock e)
    (hmark : task.waits = true →
      (task.advance maker c state answers).2.WorksCurrent c.shared.ongoingSwaps) :
    StepOk clock c.shared.ongoingSwaps task.swapId
      (task.advance maker c state answers).1.shared.ongoingSwaps
      (task.advance maker c state answers).2 :=
  task.advance_advances.ok h hentered hmark

/-! ## Messages and admission -/

theorem restoreStateIfNeeded_idle (hentered : ∀ id e, swaps.lookup id = some e → Entered clock e)
    (h : Idle clock state) (hrestore : restoreStateIfNeeded swaps state id = .ok state') :
    Idle clock state' := by
  rcases restoreStateIfNeeded_ok hrestore with ⟨rfl, -⟩ | hstored
  · exact h
  · obtain ⟨e, he, rfl⟩ := Option.map_eq_some_iff.mp hstored
    exact ⟨(hentered id e he).start, fun _ => ⟨id, rfl⟩⟩

theorem Idle.begin {phases} (h : Idle clock state)
    (hcurrent : task.waits = false → Current swaps task.swapId state)
    (hphases : ∀ p ∈ phases, p.early = false ∧ p.rank ≤ task.ends.rank)
    (hphase : state.expectPhase phases = .ok ()) (hid : state.checkSwapId task.swapId = .ok ()) :
    Busy clock swaps state task := by
  rw [ConnectionState.expectPhase, ensure_eq_ok] at hphase
  rw [ConnectionState.checkSwapId, ensure_eq_ok] at hid
  obtain ⟨hlate, hends⟩ := hphases _ hphase
  obtain ⟨id, hsome⟩ := h.late hlate
  obtain rfl := hid id hsome
  exact ⟨hsome, hlate, h.start, hends, hcurrent⟩

theorem Busy.withIncoming {incoming} (h : Busy clock swaps state task) :
    Busy clock swaps { state with incomingSwapcoins := incoming } task :=
  ⟨h.swapId, h.late, h.start, h.ends, fun hworks e he hstart =>
    have hin := h.current hworks e he hstart
    ⟨hin.txids, hin.phase⟩⟩

theorem Current.of_withIncoming {incoming}
    (h : Current swaps id { state with incomingSwapcoins := incoming }) : Current swaps id state :=
  fun e he hstart => ⟨(h e he hstart).txids, (h e he hstart).phase⟩

theorem Starts.ok {next} (hstarts : Starts maker state msg next) (h : Idle clock state)
    (hcurrent : next.lift.WorksCurrent swaps) : NextOk clock swaps msg.swapId next.lift := by
  cases hstarts with
  | closes => trivial
  | request hphase hid =>
    exact ⟨rfl, h.begin hcurrent (by simp [SwapPhase.early, SwapPhase.rank_le_completed,
      SessionTask.ends, Task.ends]) hphase hid⟩
  | proof hphase hid =>
    exact ⟨rfl, h.begin hcurrent (by simp [SwapPhase.early, SessionTask.ends, Task.ends,
      SwapPhase.rank]) hphase hid⟩
  | signatures hphase hid =>
    exact ⟨rfl, h.begin hcurrent (by simp [SwapPhase.early, SessionTask.ends, Task.ends,
      SwapPhase.rank]) hphase hid⟩
  | handover hphase hid =>
    exact ⟨rfl, Busy.withIncoming (h.begin (fun hworks => (hcurrent hworks).of_withIncoming)
      (by simp [SwapPhase.early, SwapPhase.rank_le_completed, SessionTask.ends, Task.ends])
      hphase hid)⟩

theorem Dispatches.ok {msg next} (hdispatches : Dispatches maker swaps state answers msg next)
    (hentered : ∀ id e, swaps.lookup id = some e → Entered clock e) (h : Idle clock state)
    (hcurrent : next.WorksCurrent swaps) : NextOk clock swaps msg.swapId next := by
  cases hdispatches with
  | closes => trivial
  | legacy hrestored hstarts =>
    exact hstarts.ok (restoreStateIfNeeded_idle hentered h hrestored) hcurrent
  | contractData hrestored hphase hid =>
    exact ⟨rfl, (restoreStateIfNeeded_idle hentered h hrestored).begin hcurrent
      (by simp [SwapPhase.early, SessionTask.ends, SwapPhase.rank]) hphase hid⟩
  | handover hrestored hphase hid =>
    exact ⟨rfl, Busy.withIncoming ((restoreStateIfNeeded_idle hentered h hrestored).begin
      (fun hworks => (hcurrent hworks).of_withIncoming)
      (by simp [SwapPhase.early, SessionTask.ends, Task.ends, SwapPhase.rank]) hphase hid)⟩

theorem Admits.ok {s d result} (hadmits : Admits s state d result)
    (hentered : ∀ id e, s.shared.ongoingSwaps.lookup id = some e → Entered (s.clock + 1) e)
    (h : Idle (s.clock + 1) state) :
    StepOk (s.clock + 1) s.shared.ongoingSwaps d.id result.1.ongoingSwaps result.2.lift := by
  cases hadmits with
  | closes => exact .same (hentered d.id) trivial
  | refused => exact .same (hentered d.id) h
  | notStored _ hnow =>
    exact .same (hentered d.id) ⟨Nat.lt_succ_of_le hnow.le, fun hlate => by cases hlate⟩
  | joins _ he => exact .same (hentered d.id) ⟨(hentered d.id _ he).start, fun _ => ⟨_, rfl⟩⟩
  | opens _ hnow hnone =>
    refine stepOk_insert ⟨rfl, Nat.lt_succ_of_le hnow.le⟩ (fun e he => ?_)
      ⟨Nat.lt_succ_of_le hnow.le, fun _ => ⟨_, rfl⟩⟩
    rw [hnone] at he
    cases he

end Steps

end OpenSwap
