import OpenSwap.Maker.SessionSteps

/-!
# Handlers that may give a swap up

Some tasks of a handler remove its swap or release its whole reservation.  They are in
order while no broadcast of the swap is recorded, or once the swap is completed.

* `Fits` is what the task of a connection at work rests on; `SessionTask.advance_fits`
  carries it from step to step.
* `SessionTask.advance_frame` says what a step leaves of the shared state, and
  `SessionTask.mem_advance` which steps leave the entry in place.
-/

namespace OpenSwap

open Btc Checked AList

variable {P : Prims}

/-! ## What tasks rest on -/

/-- The signatures do not verify against the coins of the connection. -/
def sigsFail (resp : RespContractSigsForRecvrAndSender) (state : ConnectionState P) : Bool :=
  match verifyContractSigs resp.receiversSigs resp.sendersSigs state.incomingSwapcoins
      state.outgoingSwapcoins with
  | .ok _ => false
  | .error _ => true

def Unrecorded (swaps : Swaps P) (id : String) : Prop :=
  ∀ e ∈ swaps.lookup id, e.fundingBroadcastTxids = []

instance (swaps : Swaps P) (id : String) : Decidable (Unrecorded swaps id) :=
  inferInstanceAs (Decidable (∀ e ∈ swaps.lookup id, e.fundingBroadcastTxids = []))

/-- The handler executes the swap's funding plan, or has signatures that fail: it may give
the swap up, which is in order while no broadcast is recorded. -/
def Task.unrecorded (state : ConnectionState P) : Task P → Bool
  | .seenLive _ _ _ | .seenWallet _ _ _ _ | .beginFunding _ _ | .claim _ _ | .confirm _ _
  | .verifyEntry _ _ _ _ | .initializeSwap _ _ _ => true
  | .respBegin resp | .respStore resp | .respVerify resp => sigsFail resp state
  | _ => false

def SessionTask.unrecorded (state : ConnectionState P) : SessionTask P → Bool
  | .legacy task => task.unrecorded state
  | .taprootBegin _ _ | .taprootClaim _ _ | .taprootWait _ _ | .taprootFund _ _
  | .recordClaim _ _ | .buildPlan _ | .clearClaim _ _ | .releaseAll _ (.close _)
  | .releaseAll _ (.clearClaim _) => true
  | _ => false

def SessionTask.completes : SessionTask P → Bool
  | .legacy (.complete _) | .legacy (.settle _) | .releaseAll _ .settle => true
  | _ => false

/-- A handler that is at work after the step and may give its swap up finds no broadcast of
it recorded. -/
def SessionNext.WorksUnrecorded (swaps : Swaps P) : SessionNext P → Prop
  | .busy state task => task.waits = false → task.unrecorded state = true →
      Unrecorded swaps task.swapId
  | _ => True

instance (swaps : Swaps P) : (next : SessionNext P) → Decidable (next.WorksUnrecorded swaps)
  | .busy _ _ => inferInstanceAs (Decidable (_ → _))
  | .idle _ | .closed _ => inferInstanceAs (Decidable True)

structure Fits (swaps : Swaps P) (state : ConnectionState P) (task : SessionTask P) : Prop where
  unrecorded : task.unrecorded state → Unrecorded swaps task.swapId
  completed : task.completes → state.phase = .completed
  spent : ∀ tx after, task = .releaseSpent tx after →
    (∀ e ∈ swaps.lookup after.swapId, P.txid tx ∈ e.fundingBroadcastTxids) ∧
      after.unrecorded state = false ∧ after.completes = false ∧
      ∀ tx' after', after ≠ .releaseSpent tx' after'

section Tasks

variable {maker : Maker P} {swaps swaps' : Swaps P} {c : Common P} {state : ConnectionState P}
  {task : SessionTask P} {answers : SessionAnswers P} {id : String} {α : Type}
  {sh : Shared P} {txid : Bytes} {task' after : SessionTask P} {state' : ConnectionState P}
  {r : Reservations} {x : Except MakerError α} {r' : Reservations} {next : SessionNext P}

theorem Fits.of_free (hrec : task.unrecorded state = false) (hcomp : task.completes = false)
    (hspent : ∀ tx after, task ≠ .releaseSpent tx after) : Fits swaps state task where
  unrecorded h := by
    rw [hrec] at h
    cases h
  completed h := by
    rw [hcomp] at h
    cases h
  spent tx after h := absurd h (hspent tx after)

theorem Fits.of_unrecorded (h : Unrecorded swaps task.swapId) (hcomp : task.completes = false)
    (hspent : ∀ tx after, task ≠ .releaseSpent tx after) : Fits swaps state task where
  unrecorded _ := h
  completed h := by
    rw [hcomp] at h
    cases h
  spent tx after h := absurd h (hspent tx after)

def NextFits (swaps : Swaps P) : SessionNext P → Prop
  | .busy state task => task.waits = false → Fits swaps state task
  | _ => True

theorem Unrecorded.of_lookup (h : Unrecorded swaps id)
    (hsame : ∀ e', swaps'.lookup id = some e' →
      ∃ e, swaps.lookup id = some e ∧ e'.fundingBroadcastTxids = e.fundingBroadcastTxids) :
    Unrecorded swaps' id := by
  intro e' he'
  obtain ⟨e, he, htxids⟩ := hsame e' he'
  rw [htxids]
  exact h e he

theorem unrecorded_erase : Unrecorded (swaps.erase id) id := by
  intro e he
  rw [lookup_erase] at he
  cases he

theorem Unrecorded.claim {txids} (h : Unrecorded swaps id)
    (hclaim : claimIncomingContractTxids swaps id txids = .ok swaps') : Unrecorded swaps' id := by
  simp only [claimIncomingContractTxids, bind_ok_iff, ensure_eq_ok, okOr_eq_ok] at hclaim
  obtain ⟨_, -, e, he, _, -, hclaim⟩ := hclaim
  cases hclaim
  refine h.of_lookup fun e' he' => ⟨e, he, ?_⟩
  rw [lookup_insert, Option.some.injEq] at he'
  exact he' ▸ rfl

/-- A store that is not the return of a completed swap writes the broadcasts the entry
has. -/
theorem Busy.store_unrecorded {clock} (hb : Busy clock swaps state task)
    (hworks : task.waits = false) (hphase : state.phase ≠ .completed)
    (h : Unrecorded swaps task.swapId)
    (hstore : storeConnectionState swaps task.swapId state = .ok swaps') :
    Unrecorded swaps' task.swapId := by
  obtain ⟨stored, rfl, ⟨hstored, hstart⟩ | ⟨-, hdone, -⟩⟩ := storeConnectionState_ok hstore
  · refine h.of_lookup fun e' he' => ⟨stored, hstored, ?_⟩
    rw [lookup_insert, Option.some.injEq] at he'
    subst he'
    exact (hb.current hworks stored hstored hstart).txids.symm
  · exact absurd hdone hphase

/-! ### Every step leaves what the next task rests on -/

section

variable (h : Leads maker sh state answers task task')

include h

theorem Leads.unrecorded (hrec : task'.unrecorded state) : task.unrecorded state = true := by
  cases h with
  | legacy h => cases h <;> first | rfl | exact hrec
  | _ => first | rfl | exact hrec

theorem Leads.completes (hcomp : task'.completes) : task.completes = true := by
  cases h with
  | legacy h => cases h <;> first | rfl | cases hcomp
  | _ => first | rfl | cases hcomp

theorem Leads.fits (hf : Fits swaps state task)
    (hswaps : Unrecorded swaps task.swapId → Unrecorded swaps' task.swapId) :
    Fits swaps' state task' where
  unrecorded hrec := h.swapId_eq ▸ hswaps (hf.unrecorded (h.unrecorded hrec))
  completed hcomp := hf.completed (h.completes hcomp)
  spent tx after heq := by cases h <;> cases heq

end

theorem Sends.free (h : Sends task after) : after.unrecorded state = false ∧
    after.completes = false ∧ ∀ tx after', after ≠ .releaseSpent tx after' := by
  cases h <;> exact ⟨rfl, rfl, nofun⟩

theorem Advances.fits {clock} (hadv : Advances maker c state answers task swaps' next)
    (hb : Busy clock c.shared.ongoingSwaps state task)
    (hf : task.waits = false → Fits c.shared.ongoingSwaps state task)
    (hmark : task.waits = true → next.WorksUnrecorded c.shared.ongoingSwaps) :
    NextFits swaps' next := by
  cases hadv with
  | closed => trivial
  | leads h =>
    intro hworks'
    cases hworks : task.waits with
    | false => exact h.fits (hf hworks) id
    | true =>
      refine ⟨hmark hworks hworks', fun hcomp => ?_, fun tx after heq => ?_⟩
      · have hdone := h.completes hcomp
        unfold SessionTask.completes at hdone
        split at hdone <;> first | cases hworks | cases hdone
      · cases h <;> cases heq
  | claims h hclaim hworks => exact fun _ => h.fits (hf hworks) fun hrec => hrec.claim hclaim
  | stores hstate hstore hnext => rcases hnext with rfl | ⟨_, rfl⟩ <;> trivial
  | storesSigs hstore =>
    refine fun _ => ⟨fun hfail => ?_, nofun, nofun⟩
    have hphase : state.phase ≠ .completed := by
      intro hphase
      have hends := hb.ends
      rw [hphase] at hends
      exact absurd (show 6 ≤ 5 from hends) (by decide)
    exact hb.store_unrecorded rfl hphase ((hf rfl).unrecorded hfail) hstore
  | storesFunding hstate hstore => exact fun _ => .of_free rfl rfl nofun
  | sigsFail hsigs => exact fun _ => .of_unrecorded unrecorded_erase rfl nofun
  | sigsHold hstate => exact fun _ => .of_free rfl rfl nofun
  | handsOver => exact fun _ => ⟨nofun, fun _ => rfl, nofun⟩
  | completes => exact fun _ => ⟨nofun, fun _ => (hf rfl).completed rfl, nofun⟩
  | sends hafter hstored htask =>
    intro _
    obtain ⟨hrec, hcomp, hspent⟩ := hafter.free
    rcases htask with rfl | ⟨tx, htxid, rfl⟩
    · exact .of_free hrec hcomp hspent
    · refine ⟨nofun, nofun, fun tx' after' heq => ?_⟩
      cases heq
      refine ⟨fun e he => ?_, hrec, hcomp, hspent⟩
      rw [hafter.swapId_eq, Option.mem_def, lookup_insert, Option.some.injEq] at he
      subst he
      exact mem_addTxid.mpr (.inr htxid)
  | releases =>
    intro _
    obtain ⟨-, hrec, hcomp, hspent⟩ := (hf rfl).spent _ _ rfl
    exact .of_free hrec hcomp hspent

theorem SessionTask.advance_fits {clock} (hb : Busy clock c.shared.ongoingSwaps state task)
    (hf : task.waits = false → Fits c.shared.ongoingSwaps state task)
    (hmark : task.waits = true →
      (task.advance maker c state answers).2.WorksUnrecorded c.shared.ongoingSwaps) :
    NextFits (task.advance maker c state answers).1.shared.ongoingSwaps
      (task.advance maker c state answers).2 :=
  task.advance_advances.fits hb hf hmark

/-! ### What a step does to the reservation and to the entry -/

/-- What a step may do to the reservations: nothing to other swaps, and to its own what
its task allows. -/
inductive Reserves (state : ConnectionState P) (task : SessionTask P) (r : Reservations) :
    Reservations → Prop where
  | keep (plans : AList fun _ : String => List SplitPlan) :
      Reserves state task r { r with claimedPlans := plans }
  | reserve (outpoints : List OutPoint) : Reserves state task r (r.reserve task.swapId outpoints)
  | release : task.unrecorded state ∨ task.completes →
      Reserves state task r (r.release task.swapId)
  | spent (tx : Transaction) (after : SessionTask P) : task = .releaseSpent tx after →
      Reserves state task r (r.releaseInputs task.swapId (tx.input.map (·.previousOutput)))

theorem reserves_same : Reserves state task r r := .keep r.claimedPlans

/-- What a step leaves: the marks stay, the reservations change as the task allows, and the
bindings stay unless it binds some. -/
structure StepFrame (state : ConnectionState P) (task : SessionTask P) (c c' : Common P) :
    Prop where
  marks : c.shared.fundingInProgress ⊆ c'.shared.fundingInProgress
  reserves : Reserves state task c.reservations c'.reservations
  bindings : (∀ req, task ≠ .legacy (.cacheContracts req)) → SameBindings c.shared c'.shared

theorem StepFrame.reservations (h : Reserves state task c.reservations r) :
    StepFrame state task c { c with reservations := r } :=
  ⟨List.Subset.refl _, h, fun _ => .refl _⟩

theorem StepFrame.shared {sh} (hmarks : c.shared.fundingInProgress ⊆ sh.fundingInProgress)
    (hbindings : SameBindings c.shared sh) : StepFrame state task c { c with shared := sh } :=
  ⟨hmarks, reserves_same, fun _ => hbindings⟩

theorem StepFrame.same : StepFrame state task c c := .reservations reserves_same

theorem StepFrame.withSwaps : StepFrame state task c (c.withSwaps swaps) :=
  .shared (List.Subset.refl _) ⟨rfl, .inl rfl, rfl⟩

theorem StepFrame.removeEntry : StepFrame state task c (c.removeEntry id) :=
  ⟨List.Subset.refl _, .keep _, fun _ => ⟨rfl, .inl rfl, rfl⟩⟩

theorem frame_orEnd {next : α → Common P × SessionNext P}
    (h : ∀ a, StepFrame state task c (next a).1) : StepFrame state task c (orEnd c x next).1 := by
  cases x with
  | ok a => exact h a
  | error e => exact .same

theorem claimPlan_frame {step plan} (hid : step.swapId = task.swapId)
    (hrec : task.unrecorded state) :
    StepFrame state task c (claimPlan c state answers step plan).1 := by
  unfold claimPlan
  dsimp only
  split
  · exact frame_orEnd fun _ => .same
  · refine frame_orEnd fun _ => ?_
    rw [hid]
    split
    · exact .reservations (.reserve _)
    · exact .reservations (.release (.inl hrec))

theorem sent_frame {outgoing committed} :
    StepFrame state task c (sent c state answers txid outgoing committed after).1 := by
  refine frame_orEnd fun _ => ?_
  have hwallet : c.shared.wallet.Changed []
      (committed.foldl .addOutgoingSwapcoin c.shared.wallet) :=
    changed_foldl_addOutgoingSwapcoin committed _
  dsimp only
  rw [disk_of_save]
  split
  · unfold recordFundingBroadcast orEnd
    split <;> exact .shared (List.Subset.refl _) (.changed hwallet hwallet.save)
  · exact .shared (List.Subset.refl _) (.changed hwallet hwallet.save)

theorem SessionTask.advance_frame :
    StepFrame state task c (task.advance maker c state answers).1 := by
  cases task with
  | legacy task =>
    have hmoves : Moves maker c.shared state answers.toAnswers task
        (OpenSwap.advance maker c.shared state answers.toAnswers task) := advance_moves
    cases task with
    | initializeSwap pof coins hashvalue => exact frame_orEnd fun _ => claimPlan_frame rfl rfl
    | respVerify resp =>
      dsimp only [SessionTask.advance, advanceLegacy]
      split
      · exact .removeEntry
      · rename_i hsigs
        rw [stepRespVerify, hsigs]
        exact .same
    | respSend resp todo =>
      cases todo with
      | nil => exact .same
      | cons tx rest => exact sent_frame
    | complete id => exact .removeEntry
    | _ =>
      exact ⟨hmoves.marks, reserves_same, fun hne =>
        hmoves.sameBindings fun req heq => hne req (heq ▸ rfl)⟩
  | taprootBegin data checked =>
    exact frame_orEnd fun _ => .shared (List.subset_cons_self _ _) ⟨rfl, .inl rfl, rfl⟩
  | taprootWait data checked => exact frame_orEnd fun _ => .same
  | taprootFund data funding => exact frame_orEnd fun _ => claimPlan_frame rfl rfl
  | recordClaim step plan =>
    dsimp only [SessionTask.advance, OpenSwap.recordClaim]
    split
    · exact .reservations (.keep _)
    · exact .same
  | buildPlan step =>
    dsimp only [SessionTask.advance, OpenSwap.buildPlan]
    split
    · exact .same
    · cases step with
      | legacy pof coins hashvalue =>
        exact frame_orEnd fun _ => .shared (List.Subset.refl _) ⟨rfl, .inl rfl, rfl⟩
      | taproot data funding => exact frame_orEnd fun _ => .same
  | clearClaim id error => exact .reservations (.keep _)
  | releaseAll id after =>
    refine .reservations (.release ?_)
    cases after with
    | settle => exact .inr rfl
    | _ => exact .inl rfl
  | taprootSave data =>
    refine frame_orEnd fun _ => ?_
    have hbatch : c.shared.wallet.Changed state.incomingSwapcoins (c.shared.wallet.addFundingBatch
        state.incomingSwapcoins state.outgoingSwapcoins) := changed_addFundingBatch _ _
    split
    · exact .shared (List.Subset.refl _) (.changed hbatch (.inr hbatch))
    · exact .shared (List.Subset.refl _) (.changed (.refl _) hbatch.save)
  | taprootSend data index todo =>
    cases todo with
    | nil => exact .same
    | cons coin rest => exact sent_frame
  | releaseSpent tx after => exact .reservations (.spent tx after rfl)
  | _ => exact frame_orEnd fun _ => .withSwaps

theorem Reserves.locks_other {other} (h : Reserves state task r r') (hne : other ≠ task.swapId) :
    r'.locks other = r.locks other := by
  cases h with
  | keep plans => rfl
  | reserve outpoints =>
    simp only [Reservations.locks, Reservations.reserve, lookup_insert_ne hne]
  | release hfree => simp only [Reservations.locks, Reservations.release, lookup_erase_ne hne]
  | spent tx after htask =>
    simp only [Reservations.locks, Reservations.releaseInputs, lookup_insert_ne hne]

/-- What leaves the reservation of a swap with a recorded broadcast was spent by a
transaction that is recorded. -/
theorem Reserves.locks_own {e o} (h : Reserves state task r r') (hf : Fits swaps state task)
    (he : swaps.lookup task.swapId = some e) (hsent : e.fundingBroadcastTxids ≠ [])
    (hopen : state.phase ≠ .completed) (ho : o ∈ r.locks task.swapId) :
    o ∈ r'.locks task.swapId ∨
      ∃ tx, P.txid tx ∈ e.fundingBroadcastTxids ∧ o ∈ tx.input.map (·.previousOutput) := by
  cases h with
  | keep plans => exact .inl ho
  | reserve outpoints =>
    refine .inl ?_
    rw [Reservations.locks, Reservations.reserve, lookup_insert]
    exact List.mem_append_left _ ho
  | release hfree =>
    rcases hfree with hrec | hcomp
    · exact absurd (hf.unrecorded hrec e he) hsent
    · exact absurd (hf.completed hcomp) hopen
  | spent tx after htask =>
    by_cases hmem : o ∈ tx.input.map (·.previousOutput)
    · subst htask
      exact .inr ⟨tx, (hf.spent tx after rfl).1 e he, hmem⟩
    · refine .inl ?_
      rw [Reservations.locks, Reservations.releaseInputs, lookup_insert]
      exact List.mem_filter.mpr ⟨ho, decide_eq_true hmem⟩

theorem mem_of_store {swapId} (hstore : storeConnectionState swaps swapId state = .ok swaps')
    (h0 : id ∈ swaps) :
    id ∈ swaps' := by
  obtain ⟨stored, rfl, -⟩ := storeConnectionState_ok hstore
  exact (mem_insert _).mpr (.inr h0)

theorem Advances.mem (hadv : Advances maker c state answers task swaps' next)
    (hrec : task.unrecorded state = false) (hcomp : task.completes = false)
    (h0 : id ∈ c.shared.ongoingSwaps) : id ∈ swaps' := by
  cases hadv with
  | claims h hclaim =>
    simp only [claimIncomingContractTxids, bind_ok_iff] at hclaim
    obtain ⟨_, -, _, -, _, -, hclaim⟩ := hclaim
    cases hclaim
    exact (mem_insert _).mpr (.inr h0)
  | stores hstate hstore hnext => exact mem_of_store hstore h0
  | storesSigs hstore => exact mem_of_store hstore h0
  | storesFunding hstate hstore => exact mem_of_store hstore h0
  | sigsFail hsigs =>
    rw [SessionTask.unrecorded, Task.unrecorded, OpenSwap.sigsFail, hsigs] at hrec
    cases hrec
  | completes => cases hcomp
  | sends hafter hstored htask => exact (mem_insert _).mpr (.inr h0)
  | _ => exact h0

/-- A task that neither waits on an unrecorded swap nor ends a completed one leaves every
entry where it is. -/
theorem SessionTask.mem_advance (hrec : task.unrecorded state = false)
    (hcomp : task.completes = false) (h0 : id ∈ c.shared.ongoingSwaps) :
    id ∈ (task.advance maker c state answers).1.shared.ongoingSwaps :=
  task.advance_advances.mem hrec hcomp h0

/-- A task that waits for the funding mark changes neither swaps nor reservations. -/
theorem SessionTask.advance_waits (h : task.waits = true) :
    (task.advance maker c state answers).1.shared.ongoingSwaps = c.shared.ongoingSwaps ∧
      (task.advance maker c state answers).1.reservations = c.reservations := by
  have hbegin : ∀ id next,
      (stepBeginFunding c.shared id next).1.ongoingSwaps = c.shared.ongoingSwaps := by
    intro id next
    unfold stepBeginFunding orCloseWith
    split <;> rfl
  cases task with
  | legacy task =>
    cases task with
    | seenLive pof todo built => exact ⟨rfl, rfl⟩
    | seenWallet pof todo built coin => exact ⟨rfl, rfl⟩
    | beginFunding pof coins => exact ⟨hbegin _ _, rfl⟩
    | respBegin resp => exact ⟨hbegin _ _, rfl⟩
    | _ => cases h
  | taprootBegin data checked =>
    dsimp only [SessionTask.advance, orEnd]
    split <;> exact ⟨rfl, rfl⟩
  | _ => cases h

/-! ### Messages -/

/-- A message starts no handler that is at work and may give its swap up. -/
theorem Dispatches.fits {msg next} (h : Dispatches maker swaps state answers msg next) :
    NextFits swaps next := by
  cases h with
  | closes => trivial
  | legacy _ hstarts =>
    cases hstarts with
    | closes => trivial
    | request => exact fun _ => .of_free rfl rfl nofun
    | proof => exact fun hworks => by cases hworks
    | signatures => exact fun hworks => by cases hworks
    | handover => exact fun _ => .of_free rfl rfl nofun
  | contractData => exact fun hworks => by cases hworks
  | handover => exact fun _ => .of_free rfl rfl (by simp)

end Tasks

end OpenSwap
