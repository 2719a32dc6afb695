import OpenSwap.Taker.Lightning

/-!
# The steps of the taker's Lightning calls, case by case

* `LnTakerTask.Next` lists the moves that write nothing, `LnTakerTask.Stepped` everything a
  step can write or do; `LnTakerTask.advance_stepped` says that the lists are complete.
* `LnClient.step_moved` does the same for the machine.
* The lemmas on `LnTakerWallet` say what a store, a fill and a removal leave.
-/

namespace OpenSwap

open Btc Checked

variable {P : Prims}

/-! ## Writes -/

namespace LnTakerWallet

variable {w : LnTakerWallet P}

@[simp] theorem saveToDisk_lnPendingSwaps (saved : Bool) :
    (w.saveToDisk saved).lnPendingSwaps = w.lnPendingSwaps := by
  cases saved <;> rfl

@[simp] theorem saveToDisk_history (saved : Bool) : (w.saveToDisk saved).history = w.history := by
  cases saved <;> rfl

@[simp] theorem savePendingSwap_history (key : String) (record : LnPendingSwap P) (saved : Bool) :
    (w.savePendingSwap key record saved).history = w.history := saveToDisk_history saved

@[simp] theorem recordOutpoint_history (key : String) (outpoint : OutPoint) (value : Nat)
    (saved : Bool) : (w.recordOutpoint key outpoint value saved).history = w.history :=
  saveToDisk_history saved

theorem saveToDisk_disk (w : LnTakerWallet P) (saved : Bool) :
    (w.saveToDisk saved).disk = w.lnPendingSwaps ∨ (w.saveToDisk saved).disk = w.disk := by
  cases saved
  · exact .inr rfl
  · exact .inl rfl

theorem removePendingSwap_cases (w : LnTakerWallet P) (key : String) (saved : Bool) :
    (w.lnPendingSwaps.lookup key = none ∧ w.removePendingSwap key saved = w.saveToDisk saved) ∨
      ∃ record, w.lnPendingSwaps.lookup key = some record ∧
        w.removePendingSwap key saved = saveToDisk
          { w with
            lnPendingSwaps := w.lnPendingSwaps.erase key
            history := .removed key record w.chain :: w.history } saved := by
  unfold removePendingSwap
  split
  · exact .inr ⟨_, ‹_›, rfl⟩
  · exact .inl ⟨‹_›, rfl⟩

end LnTakerWallet

/-! ## Steps of a call -/

namespace LnTakerTask

def waits : LnTakerTask P → Bool
  | .confirmOwn _ _ _ | .awaitPayment _ | .confirmFunding _ _ => true
  | _ => false

section Outcomes

variable (taker : LnTaker P) (w : LnTakerWallet P) (answers : LnTakerAnswers P)

inductive Next : LnTakerTask P → LnTakerTask P → Prop where
  | stay {t} (h : t.waits) : Next t t
  | acceptIn {params req} (h : taker.requestIn answers params = .ok req) :
      Next (.swapIn params) (.acceptIn req)
  | saveIn {req terms} (h : taker.acceptIn req answers.reply = .ok terms) :
      Next (.acceptIn req) (.saveIn terms)
  | saveOut {req claim accept delta}
      (h : taker.acceptOut req none answers.reply = .ok (claim, accept, delta)) :
      Next (.acceptOut req) (.saveOut claim accept.invoice)
  | acceptFirst {req claim first} (h : taker.requestFirst answers req = .ok (claim, first)) :
      Next (.acceptSecond req) (.acceptFirst claim first)
  | saveFirst {claim req terms} (h : taker.acceptIn req answers.reply = .ok terms) :
      Next (.acceptFirst claim req) (.saveFirst terms claim)
  | announce {terms claim outpoint} :
      Next (.confirmOwn terms claim outpoint) (.announce terms claim)
  | awaitPayment {terms} : Next (.announce terms none) (.awaitPayment terms)
  | readFunded {terms claim} : Next (.announce terms (some claim)) (.readFunded claim)
  | confirmFunding {claim funded} : Next (.readFunded claim) (.confirmFunding claim funded)
  | verifyFunding {claim funded} : Next (.confirmFunding claim funded) (.verifyFunding claim funded)
  | recordFunding {claim funded value} (h : checkFunding w answers claim funded = .ok value) :
      Next (.verifyFunding claim funded)
        (.recordFunding claim funded.outpoint value)
  | settle {key record rest outpoint} (h : record.outpoint = some outpoint) :
      Next (.recover ((key, record) :: rest)) (.settle key outpoint rest)
  | recover {key outpoint rest} : Next (.settle key outpoint rest) (.recover rest)

inductive Saves : LnTakerTask P → String → LnPendingSwap P → LnTakerTask P → Prop where
  | swapIn {terms} : Saves (.saveIn terms) terms.key terms.record (.fund terms none)
  | swapOut {claim invoice} : Saves (.saveOut claim invoice) claim.key claim.record (.pay claim)
  | first {terms claim} :
      Saves (.saveFirst terms claim) terms.key terms.record (.saveSecond terms claim)
  | second {terms claim} :
      Saves (.saveSecond terms claim) claim.key claim.record (.fund terms (some claim))

inductive Fills : LnTakerTask P → String → OutPoint → LnTakerTask P → Prop where
  | own {terms claim outpoint} :
      Fills (.fund terms claim) terms.key outpoint (.sendFunding terms claim outpoint)
  | maker {claim outpoint value} : Fills (.recordFunding claim outpoint value) claim.key outpoint
        (.sendClaim claim outpoint value)

inductive Removes : LnTakerTask P → String → Option (LnTakerTask P) → Prop where
  | swapIn {key} : Removes (.closeIn key) key none
  | claimed {claim claimTx} :
      Removes (.close claim claimTx) claim.key (claim.firstHop.map .closeFirst)
  | first {key} : Removes (.closeFirst key) key none
  | uncommitted {key record rest} (h : record.outpoint = none ∨ record.value = none) :
      Removes (.recover ((key, record) :: rest)) key (some (.recover rest))
  | settled {key outpoint rest} (h : w.chain.confirmedSpend outpoint) :
      Removes (.settle key outpoint rest) key (some (.recover rest))

inductive Stepped : LnTakerTask P → LnTakerWallet P → Option (LnTakerTask P) → Prop where
  | ended (t : LnTakerTask P) : Stepped t w none
  | next {t t'} (h : Next taker w answers t t') : Stepped t w (some t')
  | requestedOut {params req} (h : taker.requestOut answers params id = .ok req) :
      Stepped (.swapOut params) (w.record (.requested req.key w.chain.height))
        (some (.acceptOut req))
  | requestedSecond {params req} (h : taker.requestOut answers params (· ++ "-out") = .ok req) :
      Stepped (.routed params) (w.record (.requested req.key w.chain.height))
        (some (.acceptSecond req))
  | saved {t t' key record next} (h : Saves t key record t')
      (hnext : next = none ∨ next = some t') :
      Stepped t (w.savePendingSwap key record answers.saved) next
  | filled {t t' key outpoint value next} (h : Fills t key outpoint t')
      (hnext : next = none ∨ next = some t') :
      Stepped t (w.recordOutpoint key outpoint value answers.saved) next
  | paid {claim cltvBound} : Stepped (.pay claim) (w.record (.paid claim.key cltvBound))
        (some (.readFunded claim))
  | fundingSent {terms claim outpoint next}
      (hnext : next = none ∨ next = some (.confirmOwn terms claim outpoint)) :
      Stepped (.sendFunding terms claim outpoint)
        (w.record (.fundingSent terms.key outpoint)) next
  | paymentClaimed {terms} : Stepped (.awaitPayment terms) (w.record (.paymentClaimed terms.key))
        (some (.closeIn terms.key))
  | claimSent {claim outpoint value destination claimTx next}
      (htx : claim.htlc.createHashlockSpend outpoint value claim.privkey claim.preimage
        destination = .ok claimTx) (hnext : next = none ∨ next = some (.close claim claimTx)) :
      Stepped (.sendClaim claim outpoint value)
        (w.record (.claimSent claim.key claim.htlc outpoint w.chain)) next
  | refundSent {key record rest outpoint} (h : record.outpoint = some outpoint) :
      Stepped (.recover ((key, record) :: rest))
        (w.record (.refundSent key outpoint)) (some (.settle key outpoint rest))
  | claimResent {key record rest outpoint} (h : record.outpoint = some outpoint)
      (hout : record.isSwapIn = false) : Stepped (.recover ((key, record) :: rest))
        (w.record (.claimSent key record.htlc outpoint w.chain)) (some (.settle key outpoint rest))
  | removed {t key t' next} (h : Removes w t key t') (hnext : next = none ∨ next = t') :
      Stepped t (w.removePendingSwap key answers.saved) next

end Outcomes

variable {taker : LnTaker P} {w : LnTakerWallet P} {answers : LnTakerAnswers P} {α : Type}

theorem of_cases (r : Except LnTakerError α) (next : α → LnTakerTask P) :
    (LnTakerNext.of r next).task = none ∨
      ∃ a, r = .ok a ∧ (LnTakerNext.of r next).task = some (next a) := by
  cases r with
  | error e => exact .inl rfl
  | ok a => exact .inr ⟨a, rfl, rfl⟩

theorem ifSaved_cases (saved : Bool) (t : LnTakerTask P) :
    (LnTakerNext.ifSaved saved t).task = none ∨ (LnTakerNext.ifSaved saved t).task = some t := by
  cases saved
  · exact .inl rfl
  · exact .inr rfl

theorem stepped_of {t r} {next : α → LnTakerTask P}
    (h : ∀ a, r = .ok a → Next taker w answers t (next a)) :
    Stepped taker w answers t w (LnTakerNext.of r next).task := by
  rcases of_cases r next with hnone | ⟨a, ha, hsome⟩
  · rw [hnone]
    exact .ended t
  · rw [hsome]
    exact .next (h a ha)

theorem recoverNext_stepped {key record rest} :
    Stepped taker w answers (.recover ((key, record) :: rest))
      (recoverNext w answers key record rest).1 (recoverNext w answers key record rest).2.task := by
  unfold recoverNext
  split
  · rename_i outpoint value houtpoint hvalue
    split
    · exact .ended _
    · split_ifs with hlost hin
      · exact .next (.settle houtpoint)
      · exact .refundSent houtpoint
      · exact .claimResent houtpoint (by simpa using hin)
  · rename_i hnot
    refine .removed (.uncommitted ?_) (ifSaved_cases _ _)
    cases ho : record.outpoint with
    | none => exact .inl rfl
    | some outpoint =>
      cases hv : record.value with
      | none => exact .inr rfl
      | some value => exact absurd hv (hnot outpoint value ho)

/-- **What a step does.** -/
theorem advance_stepped (t : LnTakerTask P) :
    Stepped taker w answers t (t.advance taker w answers).1
      (t.advance taker w answers).2.task := by
  cases t with
  | swapIn params => exact stepped_of fun req h => .acceptIn h
  | acceptIn req => exact stepped_of fun terms h => .saveIn h
  | saveIn terms => exact .saved .swapIn (ifSaved_cases _ _)
  | swapOut params =>
    simp only [advance]
    split_ifs
    · exact .ended _
    · split
      · exact .requestedOut ‹_›
      · exact .ended _
  | acceptOut req => exact stepped_of fun r h => .saveOut h
  | saveOut claim invoice => exact .saved .swapOut (ifSaved_cases _ _)
  | pay claim =>
    simp only [advance]
    split_ifs
    · exact .paid
    · exact .ended _
  | routed params =>
    simp only [advance]
    split
    · exact .requestedSecond ‹_›
    · exact .ended _
  | acceptSecond req => exact stepped_of fun r h => .acceptFirst h
  | acceptFirst claim req => exact stepped_of fun terms h => .saveFirst h
  | saveFirst terms claim => exact .saved .first (ifSaved_cases _ _)
  | saveSecond terms claim => exact .saved .second (ifSaved_cases _ _)
  | fund terms claim =>
    simp only [advance]
    split
    · exact .filled .own (ifSaved_cases _ _)
    · exact .ended _
  | sendFunding terms claim outpoint =>
    simp only [advance]
    split
    · exact .fundingSent (.inr rfl)
    · exact .fundingSent (.inl rfl)
    · exact .ended _
  | confirmOwn terms claim outpoint =>
    simp only [advance]
    split_ifs
    · exact .ended _
    · exact .next .announce
    · exact .next (.stay rfl)
  | announce terms claim =>
    cases claim with
    | none =>
      simp only [advance]
      split_ifs
      · exact .ended _
      · exact .next .awaitPayment
    | some claim =>
      simp only [advance]
      split_ifs
      · exact .ended _
      · exact .ended _
      · exact .next .readFunded
  | awaitPayment terms =>
    simp only [advance]
    split_ifs
    · exact .paymentClaimed
    · exact .ended _
    · exact .ended _
    · exact .next (.stay rfl)
  | closeIn key => exact .removed .swapIn (.inl rfl)
  | readFunded claim => exact stepped_of fun funded _ => .confirmFunding
  | confirmFunding claim funded =>
    simp only [advance]
    split_ifs
    · exact .ended _
    · exact .next .verifyFunding
    · exact .next (.stay rfl)
  | verifyFunding claim funded => exact stepped_of fun value h => .recordFunding h
  | recordFunding claim outpoint value => exact .filled .maker (ifSaved_cases _ _)
  | sendClaim claim outpoint value =>
    simp only [advance]
    split
    · exact .ended _
    · rename_i claimTx hbuild
      obtain ⟨destination, -, hspend⟩ := bind_ok_iff.mp hbuild
      rw [mapError_ok_iff] at hspend
      split
      · exact .claimSent hspend (.inr rfl)
      · exact .claimSent hspend (.inl rfl)
      · exact .ended _
  | close claim claimTx =>
    refine .removed .claimed ?_
    simp only [advance]
    split_ifs
    · cases claim.firstHop <;> exact .inr rfl
    · exact .inl rfl
  | closeFirst key => exact .removed .first (.inl rfl)
  | recover records =>
    cases records with
    | nil => exact .ended _
    | cons e rest => exact recoverNext_stepped
  | settle key outpoint rest =>
    simp only [advance]
    split_ifs with hsettled
    · rw [Bool.and_eq_true] at hsettled
      exact .removed (.settled hsettled.2) (ifSaved_cases _ _)
    · exact .next .recover

variable {t : LnTakerTask P} {w' : LnTakerWallet P} {next : Option (LnTakerTask P)}

theorem Stepped.history_suffix (h : Stepped taker w answers t w' next) :
    w.history <:+ w'.history := by
  cases h with
  | ended | next => exact List.suffix_rfl
  | requestedOut | requestedSecond | paid | fundingSent | paymentClaimed | claimSent | refundSent
  | claimResent => exact List.suffix_cons _ _
  | saved => exact (LnTakerWallet.savePendingSwap_history _ _ _).symm ▸ List.suffix_rfl
  | filled => exact (LnTakerWallet.recordOutpoint_history _ _ _ _).symm ▸ List.suffix_rfl
  | @removed _ key =>
    rcases w.removePendingSwap_cases key answers.saved with ⟨-, heq⟩ | ⟨record, -, heq⟩
    · exact (congrArg _ heq).trans (LnTakerWallet.saveToDisk_history _) ▸ List.suffix_rfl
    · rw [heq, LnTakerWallet.saveToDisk_history]
      exact List.suffix_cons _ _

theorem Stepped.disk_cases (h : Stepped taker w answers t w' next) :
    w'.disk = w.disk ∨ w'.disk = w'.lnPendingSwaps := by
  have hsave : ∀ (v : LnTakerWallet P) (saved : Bool), v.disk = w.disk →
      (v.saveToDisk saved).disk = w.disk ∨
        (v.saveToDisk saved).disk = (v.saveToDisk saved).lnPendingSwaps := by
    intro v saved hdisk
    rcases v.saveToDisk_disk saved with hnew | hold
    · exact .inr (hnew.trans (LnTakerWallet.saveToDisk_lnPendingSwaps saved).symm)
    · exact .inl (hold.trans hdisk)
  cases h with
  | ended | next | requestedOut | requestedSecond | paid | fundingSent | paymentClaimed | claimSent
  | refundSent | claimResent => exact .inl rfl
  | saved =>
    apply hsave
    rfl
  | filled =>
    apply hsave
    rfl
  | @removed _ key =>
    rcases w.removePendingSwap_cases key answers.saved with ⟨-, heq⟩ | ⟨record, -, heq⟩ <;>
      rw [heq] <;> apply hsave <;> rfl

end LnTakerTask

/-! ## Steps of the machine -/

namespace LnClient

variable {taker : LnTaker P} {w w' : LnClient P} {a : LnClientAction P}

inductive Moved (taker : LnTaker P) (w : LnClient P) (a : LnClientAction P) (w' : LnClient P) :
    Prop where
  | began {call} (hwallet : w'.wallet = w.wallet) (htask : w'.task = some (w.begin call))
  | stepped {t answers} (ha : a = .advance answers) (ht : w.task = some t)
      (hstep : LnTakerTask.Stepped taker w.wallet answers t w'.wallet w'.task)
  | saved (ha : a = .save) (hwallet : w'.wallet = w.wallet.saveToDisk true)
      (htask : w'.task = w.task)
  | chain (hwallet : w'.wallet = { w.wallet with chain := w'.wallet.chain })
      (htask : w'.task = w.task)
  | restarted (ha : a = .restart)
      (hwallet : w'.wallet = { w.wallet with lnPendingSwaps := w.wallet.disk })
      (htask : w'.task = none)

theorem step_moved (h : w.step taker a = some w') : Moved taker w a w' := by
  cases a with
  | call call =>
    simp only [step] at h
    split_ifs at h
    cases h
    exact .began rfl rfl
  | advance answers =>
    simp only [step, Option.bind_eq_bind, Option.bind_eq_some_iff] at h
    obtain ⟨t, ht, h⟩ := h
    cases h
    exact .stepped rfl ht t.advance_stepped
  | save =>
    cases h
    exact .saved rfl rfl rfl
  | chain chain =>
    cases h
    exact .chain rfl rfl
  | restart =>
    cases h
    exact .restarted rfl rfl rfl

theorem Moved.history_suffix (h : Moved taker w a w') : w.wallet.history <:+ w'.wallet.history := by
  cases h with
  | stepped _ _ hstep => exact hstep.history_suffix
  | began hwallet | saved _ hwallet | chain hwallet | restarted _ hwallet =>
    exact congrArg LnTakerWallet.history hwallet ▸ List.suffix_rfl

theorem Moved.disk_cases (h : Moved taker w a w') :
    w'.wallet.disk = w.wallet.disk ∨
      a ≠ .restart ∧ w'.wallet.disk = w'.wallet.lnPendingSwaps := by
  cases h with
  | stepped ha _ hstep => exact hstep.disk_cases.imp_right fun hdisk => ⟨by rw [ha]; nofun, hdisk⟩
  | saved ha hwallet =>
    rw [hwallet]
    exact .inr ⟨by rw [ha]; nofun, rfl⟩
  | began hwallet | chain hwallet | restarted _ hwallet =>
    rw [hwallet]
    exact .inl rfl

end LnClient

end OpenSwap
