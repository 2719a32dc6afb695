import OpenSwap.Maker.ServerSteps
import OpenSwap.Maker.Sessions

/-!
# What a step does to the sessions

A step of the server moves at most one connection.  `Stepped` lists what steps do and
`Dispatches` what a message leads to; `tasked_step` carries an invariant of the handlers from
step to step.
-/

namespace OpenSwap

open Btc Checked

variable {P : Prims}

def SessionNext.session : SessionNext P → Option (Session P)
  | .busy state task => some ⟨state, some task⟩
  | .idle state => some ⟨state, none⟩
  | .closed _ => none

inductive Stepped (maker : Maker P) (s : Sessions P) : SessionAction P → Sessions P → Prop
  | connect {conn} : Stepped maker s (.connect conn) { s with
      conns := s.conns.insert conn ⟨.new .legacy s.clock, none⟩
      clock := s.clock + 1 }
  | greet {conn state phase} (hconn : s.conns.lookup conn = some ⟨state, none⟩)
      (hphase : state.phase = .awaitingHello ∧ phase = .awaitingOfferRequest ∨
        state.phase = .awaitingOfferRequest ∧ phase = .awaitingSwapDetails) :
      Stepped maker s (.greet conn) { s with
        conns := s.conns.insert conn ⟨{ state with phase := phase }, none⟩ }
  | refuse {conn} : Stepped maker s (.greet conn) { s with conns := s.conns.erase conn }
  | details {conn d env planned state} (hconn : s.conns.lookup conn = some ⟨state, none⟩) :
      Stepped maker s (.swapDetails conn d env planned)
        { s.settle conn none { s.common with
            shared := (handleDetails ⟨s.common.shared, ∅, s.clock⟩ state d env planned).1 }
          (handleDetails ⟨s.common.shared, ∅, s.clock⟩ state d env planned).2.lift with
          clock := s.clock + 1 }
  | deliver {conn msg answers state} (hconn : s.conns.lookup conn = some ⟨state, none⟩) :
      Stepped maker s (.deliver conn msg answers) (s.settle conn none s.common
        (dispatchMessage maker s.common.shared.ongoingSwaps state answers msg))
  | run {conn answers state task} (hconn : s.conns.lookup conn = some ⟨state, some task⟩) :
      Stepped maker s (.run conn answers) (s.settle conn task.fundingGuard
        (task.advance maker s.common state answers).1
        (task.advance maker s.common state answers).2)
  | disconnect {conn} : Stepped maker s (.disconnect conn) { s with conns := s.conns.erase conn }
  | drain {idle late} (hdraining : s.draining = none) : Stepped maker s (.drain idle late) { s with
      common := (drainEntries idle late s.common).1
      draining := some (drainEntries idle late s.common).2 }
  | drainRelease {outcome drained} (hdraining : s.draining = some drained) :
      Stepped maker s (.drainRelease outcome) { s with
        common := { s.common with
          reservations := (OpenSwap.drainRelease outcome s.common.reservations drained).1 }
        draining := none
        recovering := s.recovering ++
          (OpenSwap.drainRelease outcome s.common.reservations drained).2 }
  | wallet {wallet disk} : Stepped maker s (.wallet wallet disk) { s with common := { s.common with
      shared := { s.common.shared with wallet := wallet, disk := disk } } }
  | restart {swapLocks shared} (hswaps : shared.ongoingSwaps = ∅)
      (hdisk : shared.wallet = s.common.shared.disk ∧ shared.disk = s.common.shared.disk) :
      Stepped maker s (.restart swapLocks)
        { s with
          common := ⟨shared, ⟨swapLocks, ∅⟩⟩, conns := ∅, draining := none, recovering := [] }

variable {maker : Maker P} {n : Nat} {next : SessionNext P} {I : Session P → Prop}

theorem stepped_of_step {s s' a} (h : s.step maker a = some s') :
    Stepped maker s a s' := by
  unfold Sessions.step at h
  split at h
  case h_1 =>
    split at h <;> cases h
    exact .connect
  case h_2 =>
    split at h
    · rename_i hconn
      split at h
      · rename_i hphase
        cases h
        exact .greet hconn (.inl ⟨hphase, rfl⟩)
      · rename_i hphase
        cases h
        exact .greet hconn (.inr ⟨hphase, rfl⟩)
      · cases h
        exact .refuse
    · cases h
  case h_3 =>
    split at h <;> cases h
    exact .details ‹_›
  case h_4 =>
    split at h <;> cases h
    exact .deliver ‹_›
  case h_5 =>
    split at h <;> cases h
    exact .run ‹_›
  case h_6 =>
    split at h <;> cases h
    exact .disconnect
  case h_7 =>
    split at h <;> cases h
    exact .drain ‹_›
  case h_8 =>
    split at h <;> cases h
    exact .drainRelease ‹_›
  case h_9 =>
    cases h
    exact .wallet
  case h_10 =>
    cases h
    exact .restart rfl ⟨rfl, rfl⟩

variable {s s' : Sessions P} {σ : Session P} {a : SessionAction P}

theorem lookup_settle {conn mark c} (h : (s.settle conn mark c next).conns.lookup n = some σ) :
    (n = conn ∧ next.session = some σ) ∨ n ≠ conn ∧ s.conns.lookup n = some σ := by
  cases next with
  | busy state task =>
    rcases AList.lookup_insert_cases h with ⟨rfl, rfl⟩ | h
    · exact .inl ⟨rfl, rfl⟩
    · exact .inr h
  | idle state =>
    rcases AList.lookup_insert_cases h with ⟨rfl, rfl⟩ | h
    · exact .inl ⟨rfl, rfl⟩
    · exact .inr h
  | closed error =>
    refine .inr ⟨?_, AList.lookup_of_lookup_erase h⟩
    rintro rfl
    rw [Sessions.settle, AList.lookup_erase] at h
    cases h

theorem Admits.idle {s state d result} (hadmits : Admits s state d result)
    (h : result.2.lift.session = some σ) : σ.task = none := by
  cases hadmits <;> cases h <;> rfl

/-! ## Invariants of sessions -/

def Sessions.All (I : Session P → Prop) (s : Sessions P) : Prop :=
  ∀ conn σ, s.conns.lookup conn = some σ → I σ

def SessionNext.All (I : Session P → Prop) : SessionNext P → Prop
  | .busy state task => I ⟨state, some task⟩
  | .idle state => I ⟨state, none⟩
  | .closed _ => True

theorem SessionNext.All.of_session (h : next.All I) (hσ : next.session = some σ) : I σ := by
  cases next with
  | busy state task =>
    cases hσ
    exact h
  | idle state =>
    cases hσ
    exact h
  | closed error => cases hσ

/-- What a message leads to: the connection is closed, or a handler starts on the state
restored from the stored swap. -/
inductive Dispatches (maker : Maker P) (swaps : Swaps P) (state : ConnectionState P)
    (answers : SessionAnswers P) : SwapMessage P → SessionNext P → Prop
  | closes {msg e} : Dispatches maker swaps state answers msg (.closed e)
  | legacy {msg restored next}
      (hrestored : restoreStateIfNeeded swaps state msg.swapId = .ok restored)
      (hstarts : Starts maker restored msg next) :
      Dispatches maker swaps state answers (.legacy msg) next.lift
  | contractData {data restored checked}
      (hrestored : restoreStateIfNeeded swaps state data.id = .ok restored)
      (hphase : restored.expectPhase [.awaitingContractData] = .ok ())
      (hid : restored.checkSwapId data.id = .ok ())
      (hchecked : checkTaprootContract answers.taproot restored data = .ok checked) :
      Dispatches maker swaps state answers (.taprootContractData data)
        (.busy restored (.taprootBegin data checked))
  | handover {handover restored}
      (hrestored : restoreStateIfNeeded swaps state handover.id = .ok restored)
      (hphase : restored.expectPhase [.awaitingPrivateKeyHandover] = .ok ())
      (hid : restored.checkSwapId handover.id = .ok ()) :
      Dispatches maker swaps state answers (.taprootPrivateKeyHandover handover)
        (.busy { restored with
          incomingSwapcoins := attach .withOtherPrivkey handover.privkeys
            restored.incomingSwapcoins }
          (.legacy (.handoverSave handover.id
            (attach .withOtherPrivkey handover.privkeys restored.incomingSwapcoins))))

theorem dispatchMessage_dispatches {swaps state answers msg} :
    Dispatches maker swaps state answers msg (dispatchMessage maker swaps state answers msg) := by
  cases msg with
  | legacy msg =>
    have hdispatched : Dispatched maker swaps state msg
        (dispatch maker swaps state msg answers.toAnswers) := dispatch_dispatched
    dsimp only [dispatchMessage]
    generalize dispatch maker swaps state msg answers.toAnswers = next at hdispatched ⊢
    cases hdispatched with
    | closes => exact .closes
    | starts hrestored hstarts => exact .legacy hrestored hstarts
  | taprootContractData data =>
    unfold dispatchMessage
    dsimp only
    split
    · exact .closes
    · rename_i hok
      simp only [bind_ok_iff, startTaproot] at hok
      obtain ⟨restored, hrestored, checked, hchecked, hstart⟩ := hok
      cases hstart
      have hconn := hchecked
      simp only [checkTaprootContract, bind_ok_iff] at hconn
      obtain ⟨_, hphase, _, hid, -⟩ := hconn
      exact .contractData (restoreFor_ok hrestored) hphase hid hchecked
  | taprootPrivateKeyHandover handover =>
    unfold dispatchMessage
    dsimp only
    split
    · exact .closes
    · rename_i hok
      simp only [bind_ok_iff, startTaproot] at hok
      obtain ⟨restored, hrestored, _, hphase, _, hid, _, -, _, -, _, -, hstart⟩ := hok
      cases hstart
      exact .handover (restoreFor_ok hrestored) hphase hid

/-- The handler of the session, if one is at work, satisfies `I`. -/
def Session.Tasked (I : ConnectionState P → SessionTask P → Prop) (σ : Session P) : Prop :=
  match σ.task with
  | some task => I σ.state task
  | none => True

theorem tasked_step {I : ConnectionState P → SessionTask P → Prop} (hs : s.All (Session.Tasked I))
    (hdeliver : ∀ conn msg answers state, a = .deliver conn msg answers →
      (dispatchMessage maker s.common.shared.ongoingSwaps state answers msg).All (Session.Tasked I))
    (hrun : ∀ conn answers state task, a = .run conn answers →
      s.conns.lookup conn = some ⟨state, some task⟩ → I state task →
      (task.advance maker s.common state answers).2.All (Session.Tasked I))
    (h : s.step maker a = some s') : s'.All (Session.Tasked I) := by
  intro n σ hσ
  cases stepped_of_step h with
  | connect | greet =>
    rcases AList.lookup_insert_cases hσ with ⟨-, rfl⟩ | ⟨-, hσ⟩
    · trivial
    · exact hs n σ hσ
  | details =>
    rcases lookup_settle hσ with ⟨rfl, hnext⟩ | ⟨-, hσ⟩
    · unfold Session.Tasked
      rw [handleDetails_admits.idle hnext]
      trivial
    · exact hs n σ hσ
  | deliver =>
    rcases lookup_settle hσ with ⟨rfl, hnext⟩ | ⟨-, hσ⟩
    · exact (hdeliver _ _ _ _ rfl).of_session hnext
    · exact hs n σ hσ
  | run hconn =>
    rcases lookup_settle hσ with ⟨rfl, hnext⟩ | ⟨-, hσ⟩
    · exact (hrun _ _ _ _ rfl hconn (hs _ _ hconn)).of_session hnext
    · exact hs n σ hσ
  | refuse | disconnect => exact hs n σ (AList.lookup_of_lookup_erase hσ)
  | restart => cases hσ
  | _ => exact hs n σ hσ

end OpenSwap
