import OpenSwap.Maker.LightningStore

/-!
# Paying the invoice of a swap-in

A handler copies the accepted swap, waits for its funding to confirm, checks the funding
against the copy, moves the stored swap on if it is still in the accepted phase, and pays.
The move compares phases only, so the copy has to be the stored swap.

* `LnTask.PayOk` is what is true of a handler at every stage of that way; a step keeps it
  for its own task (`LnTask.Stepped.payOk`) and for the others (`LnTask.PayOk.mono`).
-/

namespace OpenSwap

open Btc Checked

section

variable {P : Prims} {maker : LnMaker P} {answers : LnAnswers P} {sh sh' : LnShared P}
  {t : LnTask P} {next : Option (LnTask P)}

/-! ## What a payment rests on -/

/-- The swap as the handler moves it on, once its funding is found good. -/
def LnMakerSwap.MovedTo (before after : LnMakerSwap P) : Prop :=
  ∃ funding height updatedAt, after = { before with
    funding := some funding
    fundingHeight := some height
    phase := .inPaid
    updatedAt }

/-- A payment of at most `cltvBound` blocks is safe: the funding is confirmed, unspent, and pays
exactly the amount and the fee to the swap's contract, and the last block the payment can take
lies a margin before the first that may hold the taker's refund. -/
def LnMakerSwap.SafelyPaid (swap : LnMakerSwap P) (cltvBound : Nat) (chain : Chain) : Prop :=
  ∃ outpoint height, swap.funding = some (outpoint, swap.amount + swap.fee) ∧
    chain.txBlockHeight P outpoint.txid = some height ∧
    chain.output P outpoint = some ⟨swap.amount + swap.fee, swap.htlc.scriptPubkey P⟩ ∧
    chain.confirmedSpend outpoint = false ∧
    (∃ mempool, Chain.unspentOutput P ⟨chain.blocks, mempool⟩ outpoint =
      some ⟨swap.amount + swap.fee, swap.htlc.scriptPubkey P⟩) ∧
    chain.height + cltvBound + cltvSafetyMargin ≤ Chain.minableFrom height swap.locktime

/-- What the look at an announced funding has shown, as long as no block arrives. -/
def LnMakerSwap.FundingSeen (swap : LnMakerSwap P) (outpoint : OutPoint) (value remaining : Nat)
    (chain : Chain) : Prop :=
  value = swap.amount + swap.fee ∧ minRemainingLocktime ≤ remaining ∧
    remaining = swap.locktime -
      ((chain.txBlockHeight P outpoint.txid).map (chain.height - ·)).getD 0 ∧
    ∃ mempool, Chain.unspentOutput P ⟨chain.blocks, mempool⟩ outpoint =
      some ⟨swap.amount + swap.fee, swap.htlc.scriptPubkey P⟩

variable {id : String} {t' : LnTask P} {chain chain' : Chain} {swap before : LnMakerSwap P}
  {remaining value : Nat} {outpoint : OutPoint} {w : LnServer P}

theorem fundingVerdict_pass {funded}
    (h : fundingVerdict maker chain answers funded swap = .pass remaining) :
    swap.FundingSeen funded.outpoint funded.value remaining chain := by
  unfold fundingVerdict at h
  split at h
  · rename_i tx htx hnode
    split at h
    · cases h
    · rename_i output houtput
      split at h
      · cases h
      · rename_i hvalue
        split at h
        · cases h
        · rename_i u hvalid
          rw [SwapHtlc.validateFundingOutput_eq_ok] at hvalid
          subst hvalid
          dsimp only [LnShared.htlcUnspentAndAge] at h
          split_ifs at h with _ hunspent hremaining _
          cases h
          have hout : chain.output P funded.outpoint =
              some ⟨swap.amount + swap.fee, swap.htlc.scriptPubkey P⟩ := by
            rw [Chain.output, htx, Option.bind_some, houtput]
          have hspent : chain.spent funded.outpoint = false := by
            by_contra hne
            refine hunspent ?_
            simp [Chain.unspentOutput, hne]
          refine ⟨not_not.mp hvalue, Nat.le_of_not_lt hremaining, rfl, chain.mempool, ?_⟩
          rw [Chain.unspentOutput, hspent, if_neg Bool.false_ne_true, hout]
  · cases h

theorem LnMakerSwap.FundingSeen.of_blocks (h : swap.FundingSeen outpoint value remaining chain)
    (hblocks : chain'.blocks = chain.blocks) :
    swap.FundingSeen outpoint value remaining chain' := by
  obtain ⟨hvalue, hmin, hremaining, hunspent⟩ := h
  refine ⟨hvalue, hmin, ?_, ?_⟩
  · rw [Chain.txBlockHeight_of_blocks hblocks, Chain.height_of_blocks hblocks, hremaining]
  · rwa [hblocks]

theorem LnMakerSwap.FundingSeen.safelyPaid {height updatedAt}
    (h : swap.FundingSeen outpoint value remaining chain)
    (hheight : chain.txBlockHeight P outpoint.txid = some height) :
    LnMakerSwap.SafelyPaid
      { swap with
        funding := some (outpoint, value)
        fundingHeight := some height
        phase := .inPaid
        updatedAt } (remaining - cltvSafetyMargin) chain := by
  obtain ⟨hvalue, hmin, hremaining, mempool, hunspent⟩ := h
  subst hvalue
  have hspent : Chain.spent ⟨chain.blocks, mempool⟩ outpoint = false := by
    by_contra hne
    rw [Chain.unspentOutput, if_pos (by simpa using hne)] at hunspent
    cases hunspent
  have hout : Chain.output P ⟨chain.blocks, mempool⟩ outpoint =
      some ⟨swap.amount + swap.fee, swap.htlc.scriptPubkey P⟩ := by
    rwa [Chain.unspentOutput, hspent, if_neg Bool.false_ne_true] at hunspent
  have hblocks : (⟨chain.blocks, mempool⟩ : Chain).blocks = chain.blocks := rfl
  refine ⟨outpoint, height, rfl, hheight, ?_, ?_, ⟨mempool, hunspent⟩, ?_⟩
  · exact (Chain.output_of_blocks hblocks hheight).symm.trans hout
  · exact (Chain.confirmedSpend_of_blocks hblocks outpoint).symm.trans
      (Chain.not_confirmedSpend_of_not_spent hspent)
  · have hle := Chain.txBlockHeight_le hheight
    rw [hheight, Option.map_some, Option.getD_some] at hremaining
    simp only [Chain.minableFrom, cltvSafetyMargin, minRemainingLocktime] at *
    omega

/-! ## The conditions -/

def LnTask.awaitsFunding : LnTask P → Option String
  | .awaitConfirmation msg _ | .verifyFunding msg _ | .fundingHeight msg _ _ => some msg.swapId
  | .moveToPaid id _ _ => some id
  | _ => none

/-- A handler between the look at a funding's age and the payment. -/
def LnTask.aboutToPay : LnTask P → Bool
  | .fundingHeight _ _ _ | .moveToPaid _ _ _ | .payInvoice _ _ _ => true
  | _ => false

/-- No block arrives between the look at a funding's age and the payment. -/
def LnServer.noBlockBeforePayment (w : LnServer P) : LnAction P → Prop
  | .chain chain => chain.blocks = w.shared.chain.blocks ∨ w.tasks.all (!·.aboutToPay) = true
  | _ => True

/-- No request stores a swap while a handler waits for the funding of one with its id. -/
def LnServer.storesUnawaited (w : LnServer P) (a : LnAction P) : Prop :=
  (w.stepping a).all (fun p => match p.1 with
    | .insert id _ .accepted => w.tasks.all (·.awaitsFunding ≠ some id)
    | _ => true) = true

instance (w : LnServer P) : (a : LnAction P) → Decidable (w.noBlockBeforePayment a)
  | .chain chain => inferInstanceAs (Decidable (chain.blocks = w.shared.chain.blocks ∨
      w.tasks.all (!·.aboutToPay) = true))
  | .message _ | .handler _ _ | .snapshot | .turn _ | .watchdog _ | .event _ _ | .wait _ =>
    isTrue trivial

instance (w : LnServer P) (a : LnAction P) : Decidable (w.storesUnawaited a) :=
  inferInstanceAs (Decidable (_ = true))

/-! ## The invariant -/

/-- The swap that awaits funding under an id, if any, is the copy. -/
def LnShared.AwaitsAs (sh : LnShared P) (id : String) (copy : LnMakerSwap P) : Prop :=
  ∀ swap, sh.lnSwaps.lookup id = some swap → swap.phase = .inAccepted → swap = copy

def LnTask.PayOk (sh : LnShared P) : LnTask P → Prop
  | .awaitConfirmation msg swap | .verifyFunding msg swap =>
    swap.phase = .inAccepted ∧ sh.AwaitsAs msg.swapId swap
  | .fundingHeight msg swap remaining =>
    swap.phase = .inAccepted ∧ sh.AwaitsAs msg.swapId swap ∧
      swap.FundingSeen msg.outpoint msg.value remaining sh.chain
  | .moveToPaid id swap remaining =>
    (∃ before : LnMakerSwap P, before.phase = .inAccepted ∧ sh.AwaitsAs id before ∧
      before.MovedTo swap) ∧ swap.SafelyPaid (remaining - cltvSafetyMargin) sh.chain
  | .payInvoice id swap remaining =>
    (∃ before, .moved id before swap ∈ sh.history ∧ before.phase = .inAccepted ∧
      before.MovedTo swap) ∧ swap.SafelyPaid (remaining - cltvSafetyMargin) sh.chain
  | .store _ swap after | .insert _ swap after => swap.phase = .inAccepted → after = .accepted
  | .awaitPreimage _ swap | .sweepSwapIn _ swap _ | .finishSwapIn _ swap
  | .paymentOutcome _ swap | .finishSweep _ swap | .resolveSwapOut _ swap
  | .sendRefund _ swap => swap.phase ≠ .inAccepted
  | _ => True

theorem LnMakerSwap.MovedTo.phase {after} (h : before.MovedTo after) :
    after.phase = .inPaid := by
  obtain ⟨funding, height, updatedAt, rfl⟩ := h
  rfl

theorem LnMakerSwap.SafelyPaid.of_blocks {cltvBound} (h : swap.SafelyPaid cltvBound chain)
    (hblocks : chain'.blocks = chain.blocks) : swap.SafelyPaid cltvBound chain' := by
  obtain ⟨outpoint, height, hfunding, hheight, hout, hspend, hunspent, hbound⟩ := h
  refine ⟨outpoint, height, hfunding, ?_, ?_, ?_, ?_, ?_⟩
  · rw [Chain.txBlockHeight_of_blocks hblocks, hheight]
  · rw [Chain.output_of_blocks hblocks hheight, hout]
  · rw [Chain.confirmedSpend_of_blocks hblocks, hspend]
  · rwa [hblocks]
  · rwa [Chain.height_of_blocks hblocks]

/-- What is true of a task depends on the live swaps that await funding, on the blocks and
on what has happened. -/
theorem LnTask.PayOk.mono (h : t.PayOk sh)
    (hawaits : ∀ id copy, t.awaitsFunding = some id → sh.AwaitsAs id copy → sh'.AwaitsAs id copy)
    (hblocks : t.aboutToPay → sh'.chain.blocks = sh.chain.blocks)
    (hhistory : ∀ e ∈ sh.history, e ∈ sh'.history) : t.PayOk sh' := by
  cases t with
  | awaitConfirmation msg swap | verifyFunding msg swap => exact ⟨h.1, hawaits _ _ rfl h.2⟩
  | fundingHeight msg swap remaining =>
    exact ⟨h.1, hawaits _ _ rfl h.2.1, h.2.2.of_blocks (hblocks rfl)⟩
  | moveToPaid id swap remaining =>
    obtain ⟨⟨before, hphase, hbefore, hmoved⟩, hsafe⟩ := h
    exact ⟨⟨before, hphase, hawaits _ _ rfl hbefore, hmoved⟩, hsafe.of_blocks (hblocks rfl)⟩
  | payInvoice id swap remaining =>
    obtain ⟨⟨before, hmem, hmoved⟩, hsafe⟩ := h
    exact ⟨⟨before, hhistory _ hmem, hmoved⟩, hsafe.of_blocks (hblocks rfl)⟩
  | _ => exact h

/-- A step leaves alone the swap another handler waits to see funded, unless a request
stores one under its id. -/
theorem LnTask.Stepped.awaitsAs (h : LnTask.Stepped maker sh answers t sh' next) (ht : t.PayOk sh)
    {copy} (hfree : ∀ swap, t ≠ .insert id swap .accepted) (hcopy : sh.AwaitsAs id copy) :
    sh'.AwaitsAs id copy := by
  intro swap hswap hphase
  rcases h.lookup_cases hswap with hold | ⟨after, rfl⟩ | ⟨remaining, _, rfl, -, -⟩ |
    ⟨before, height, -, hpaid, rfl⟩
  · exact hcopy swap hold hphase
  · have : after = .accepted := ht hphase
    subst this
    exact absurd rfl (hfree swap)
  · obtain ⟨⟨before, -, -, hmoved⟩, -⟩ := ht
    rw [hmoved.phase] at hphase
    cases hphase
  · rw [show before.phase = .inAccepted from hphase] at hpaid
    cases hpaid

theorem LnTask.Quiet.payOk (h : LnTask.Quiet maker sh answers t t') (ht : t.PayOk sh) :
    t'.PayOk sh := by
  cases h with
  | accept => exact fun _ => rfl
  | awaitConfirmation hswap hphase =>
    refine ⟨hphase, fun swap hsame _ => ?_⟩
    rw [hswap, Option.some.injEq] at hsame
    exact hsame.symm
  | fundingHeight hpass => exact ⟨ht.1, ht.2, fundingVerdict_pass hpass⟩
  | moveToPaid hheight =>
    exact ⟨⟨_, ht.1, ht.2.1, _, _, _, rfl⟩, ht.2.2.safelyPaid hheight⟩
  | sweep hfrom => rcases hfrom with rfl | rfl | rfl <;> exact ht
  | payout hfrom =>
    rcases hfrom with ⟨_, rfl, -⟩ | ⟨rfl, -⟩ <;> exact fun hphase => absurd hphase ht
  | swept | fund | revert => exact nofun
  | _ => trivial

theorem AfterStore.Resumed.payOk {after : AfterStore} (h : after.Resumed sh id swap t')
    (hphase : swap.phase = .inAccepted → after = .accepted) :
    t'.PayOk sh' := by
  cases h with
  | sweep => exact nofun
  | sendRefund => exact fun h => nomatch hphase h
  | _ => trivial

theorem LnTask.Stepped.payOk (h : LnTask.Stepped maker sh answers t sh' next) (ht : t.PayOk sh)
    (hnext : next = some t') : t'.PayOk sh' := by
  cases h with
  | quiet mailboxes hq =>
    cases hnext
    exact (hq.payOk ht).mono (fun _ _ _ h => h) (fun _ => rfl) (fun _ h => h)
  | store hn =>
    obtain rfl := eq_of_none_or_some hn hnext
    exact ht
  | insert => exact (LnTask.resumed hnext).payOk ht
  | @moved id stored swap remaining hstored hphase =>
    cases hnext
    obtain ⟨⟨before, hbefore, hawaits, hmoved⟩, hsafe⟩ := ht
    -- the stored swap is the handler's copy
    rw [← hawaits stored hstored hphase] at hmoved
    exact ⟨⟨stored, List.mem_cons_self, hphase, hmoved⟩, hsafe⟩
  | paid hn =>
    obtain rfl := eq_of_none_or_some hn hnext
    obtain ⟨⟨before, -, -, hmoved⟩, -⟩ := ht
    show _ ≠ _
    rw [hmoved.phase]
    decide
  | refundSent =>
    cases hnext
    exact fun hphase => absurd hphase ht
  | fundingSent hn => rcases hn with rfl | rfl <;> cases hnext; trivial
  | ended | erase | forgotten | sweepSent => cases hnext
  | _ => cases hnext; trivial

/-! ## Counting payments and moves -/

def LnEffect.pays (id : String) (swap : LnMakerSwap P) : LnEffect P → Bool
  | .paid id' swap' _ _ => id' = id ∧ swap' = swap
  | _ => false

def LnEffect.movesTo (id : String) (swap : LnMakerSwap P) : LnEffect P → Bool
  | .moved id' _ swap' => id' = id ∧ swap' = swap
  | _ => false

def LnTask.paysFor (id : String) (swap : LnMakerSwap P) : LnTask P → Bool
  | .payInvoice id' swap' _ => id' = id ∧ swap' = swap
  | _ => false

theorem LnTask.paysFor_of_waits (h : t.waits) :
    t.paysFor id swap = false := by
  unfold LnTask.waits at h
  split at h <;> first | rfl | cases h

theorem LnTask.Stepped.paysFor_cases (h : LnTask.Stepped maker sh answers t sh' next)
    (hnext : next = some t') (hpays : t'.paysFor id swap) :
    ∃ before, sh'.history = .moved id before swap :: sh.history := by
  cases h with
  | quiet mailboxes hq =>
    cases hnext
    cases hq with
    | stay hw => rw [paysFor_of_waits hw] at hpays; cases hpays
    | _ => cases hpays
  | store hn | paid hn | fundingSent hn => rcases hn with rfl | rfl <;> cases hnext; cases hpays
  | insert => cases LnTask.resumed hnext <;> cases hpays
  | @moved _ before _ _ hbefore hphase =>
    cases hnext
    obtain ⟨rfl, rfl⟩ := of_decide_eq_true hpays
    exact ⟨before, rfl⟩
  | _ => cases hnext <;> cases hpays

theorem LnTask.Emits.paysFor {e} (h : LnTask.Emits sh t e) (hpays : e.pays id swap) :
    t.paysFor id swap = true := by
  cases h with
  | paid => exact hpays
  | _ => cases hpays

theorem LnTask.Stepped.counts (h : LnTask.Stepped maker sh answers t sh' next) (id : String)
    (swap : LnMakerSwap P) :
    sh'.history.countP (·.pays id swap) + next.toList.countP (·.paysFor id swap) +
        sh.history.countP (·.movesTo id swap) ≤
      sh.history.countP (·.pays id swap) + (if t.paysFor id swap then 1 else 0) +
        sh'.history.countP (·.movesTo id swap) := by
  by_cases hnext : ∃ t', next = some t' ∧ t'.paysFor id swap = true
  · obtain ⟨t', rfl, hpays⟩ := hnext
    obtain ⟨before, hhistory⟩ := h.paysFor_cases rfl hpays
    rw [hhistory, List.countP_cons, List.countP_cons]
    simp only [Option.toList_some, List.countP_singleton, hpays, LnEffect.pays, LnEffect.movesTo,
      decide_true, and_self, if_true, Bool.false_eq_true, if_false]
    omega
  · have hzero : next.toList.countP (·.paysFor id swap) = 0 := by
      rw [List.countP_eq_zero]
      intro t' ht' hpays
      exact hnext ⟨t', Option.mem_toList.mp ht', hpays⟩
    rcases h.history_cases with hsame | ⟨e, hemits, hnew⟩
    · rw [hsame]
      omega
    · rw [hnew, List.countP_cons, List.countP_cons]
      by_cases hpays : e.pays id swap = true
      · rw [if_pos hpays, if_pos (hemits.paysFor hpays)]
        omega
      · rw [if_neg hpays]
        omega

/-! ## Runs -/

def PaidAfterMove (history : List (LnEffect P)) : Prop :=
  ∀ newer older id swap cltvBound chain,
    history = newer ++ .paid id swap cltvBound chain :: older →
      (∃ before, .moved id before swap ∈ older ∧ before.phase = .inAccepted ∧
        before.MovedTo swap) ∧ swap.SafelyPaid cltvBound chain

structure PaidOnce (w : LnServer P) : Prop where
  tasks : ∀ t ∈ w.tasks, t.PayOk w.shared
  paid : PaidAfterMove w.shared.history
  once : ∀ id swap, w.shared.history.countP (·.pays id swap) +
    w.tasks.countP (·.paysFor id swap) ≤ w.shared.history.countP (·.movesTo id swap)

theorem PaidAfterMove.stepped (hpaid : PaidAfterMove sh.history) (ht : t.PayOk sh)
    (h : LnTask.Stepped maker sh answers t sh' next) : PaidAfterMove sh'.history := by
  rcases h.history_cases with hsame | ⟨e, hemits, hnew⟩
  · rwa [hsame]
  · rw [hnew]
    intro newer older id swap cltvBound chain heq
    rcases List.cons_eq_append_iff.mp heq with ⟨rfl, heq⟩ | ⟨newer', rfl, hold⟩
    · cases heq
      cases hemits
      exact ht
    · exact hpaid newer' older id swap cltvBound chain hold

def LnServer.paysUndisturbed (w : LnServer P) (a : LnAction P) : Prop :=
  w.noBlockBeforePayment a ∧ w.storesUnawaited a

instance (w : LnServer P) (a : LnAction P) : Decidable (w.paysUndisturbed a) :=
  inferInstanceAs (Decidable (_ ∧ _))

theorem LnServer.Begins.payOk (h : w.Begins t) (sh : LnShared P) :
    t.PayOk sh ∧ ∀ id swap, t.paysFor id swap = false := by
  rcases h with ⟨msg, rfl⟩ | ⟨id, swap, -, htask⟩
  · cases msg <;> exact ⟨trivial, fun _ _ => rfl⟩
  · unfold watchdogTask at htask
    split at htask <;> cases htask <;> refine ⟨?_, fun _ _ => rfl⟩ <;>
      simp_all [LnTask.PayOk]

theorem PaidOnce.step {w' a} (hw : PaidOnce w) (hok : w.paysUndisturbed a)
    (h : w.step maker a = some w') : PaidOnce w' := by
  rcases LnServer.step_cases h with hidles |
    ⟨t, answers, nextTask, before, after, hstepping, hstep, htasks, htasks', -⟩
  · refine ⟨fun t₁ ht₁ => ?_, ?_, fun id swap => ?_⟩
    · rcases hidles.tasks t₁ ht₁ with hmem | hbegins
      · refine (hw.tasks t₁ hmem).mono (fun id copy _ hcopy => ?_) (fun habout => ?_) fun e he => ?_
        · rwa [LnShared.AwaitsAs, hidles.swaps]
        · rcases hidles.chain with rfl | hsame
          · refine hok.1.resolve_right fun hnone => ?_
            have := List.all_eq_true.mp hnone t₁ hmem
            rw [habout] at this
            cases this
          · rw [hsame]
        · rwa [hidles.history]
      · exact (hbegins.payOk w'.shared).1
    · rw [hidles.history]
      exact hw.paid
    · rw [hidles.history, hidles.count _ fun t hbegins => (hbegins.payOk w.shared).2 id swap]
      exact hw.once id swap
  · have ht : t.PayOk w.shared := hw.tasks t (mem_tasks_self htasks)
    refine ⟨fun t₁ ht₁ => ?_, hw.paid.stepped ht hstep, fun id swap => ?_⟩
    · rcases tasks_cases htasks' ht₁ with hother | hnext
      · have hmem := mem_tasks_of_others htasks hother
        refine (hw.tasks t₁ hmem).mono (fun id copy hid hcopy => ?_)
          (fun _ => by rw [hstep.chain_eq]) hstep.history_mono
        refine hstep.awaitsAs ht (fun swap hinsert => ?_) hcopy
        subst hinsert
        have hunawaited := hok.2
        rw [LnServer.storesUnawaited, hstepping, Option.all_some] at hunawaited
        exact of_decide_eq_true (List.all_eq_true.mp hunawaited t₁ hmem) hid
      · exact hstep.payOk ht hnext
    · have hcounts := hstep.counts id swap
      have honce := hw.once id swap
      rw [htasks, List.countP_append, List.countP_cons] at honce
      rw [htasks', List.countP_append, List.countP_append]
      omega

theorem PaidOnce.start (chain : Chain) : PaidOnce (LnServer.start chain : LnServer P) where
  tasks := by simp [LnServer.start, LnServer.tasks]
  paid := by
    intro newer older id swap cltvBound chain heq
    simp [LnServer.start] at heq
  once := by simp [LnServer.start, LnServer.tasks]

/-- The step that moves a swap reads and writes the stored one at once. -/
theorem LnTask.Stepped.moved_stored (h : LnTask.Stepped maker sh answers t sh' next)
    (hnew : sh'.history = .moved id before swap :: sh.history)
    (hemits : LnTask.Emits sh t (.moved id before swap)) :
    sh.lnSwaps.lookup id = some before ∧
      (sh.lnMakerSwaps.lookup id).any (·.phase = .inAccepted) ∧
      sh'.lnSwaps.lookup id = some swap ∧ sh'.lnMakerSwaps.lookup id = some swap.toRecord := by
  cases hemits with
  | moved =>
    cases h with
    | moved hbefore hphase hrecord =>
      cases (List.cons.inj hnew).1
      exact ⟨hbefore, hrecord, AList.lookup_insert _, AList.lookup_insert _⟩
    | ended | quiet => exact absurd hnew.symm (List.cons_ne_self _ _)
    | forgotten phase =>
      unfold LnShared.removeLnSwapIfPhase at hnew
      split at hnew <;> exact absurd hnew.symm (List.cons_ne_self _ _)
    | sweepSent | settled => cases (List.cons.inj hnew).1

/-- **Payments of swap-ins.**  As long as no request stores a swap while a handler waits for the
funding of its id, and no block arrives between the look at the funding and the payment, every
payment follows its own move of the stored swap to paid and is safe. -/
theorem paid_after_move (maker : LnMaker P) (chain : Chain) {w : LnServer P}
    (hrun : Run.Reachable (LnServer.step · maker) LnServer.paysUndisturbed (.start chain) w) :
    (∀ newer older id swap cltvBound chain,
      w.shared.history = newer ++ .paid id swap cltvBound chain :: older →
        ∃ before, .moved id before swap ∈ older ∧ before.phase = .inAccepted ∧
          before.MovedTo swap ∧ swap.SafelyPaid cltvBound chain) ∧
      (∀ id swap, w.shared.history.countP (·.pays id swap) ≤
        w.shared.history.countP (·.movesTo id swap)) ∧
      ∀ a w', w.step maker a = some w' → ∀ id before swap,
        w'.shared.history = .moved id before swap :: w.shared.history →
          w.shared.lnSwaps.lookup id = some before ∧
          (w.shared.lnMakerSwaps.lookup id).any (·.phase = .inAccepted) = true ∧
          w'.shared.lnSwaps.lookup id = some swap ∧
          w'.shared.lnMakerSwaps.lookup id = some swap.toRecord := by
  have hw : PaidOnce w := hrun.invariant (.start chain) fun _ _ _ hw hok h => hw.step hok h
  refine ⟨?_, fun id swap => Nat.le_of_add_right_le (hw.once id swap), ?_⟩
  · intro newer older id swap cltvBound chain heq
    obtain ⟨⟨before, hmem, hphase, hmoved⟩, hsafe⟩ :=
      hw.paid newer older id swap cltvBound chain heq
    exact ⟨before, hmem, hphase, hmoved, hsafe⟩
  · intro a w' h id before swap hnew
    obtain ⟨_, _, _, -, hstep, hemits⟩ := LnServer.step_emits h hnew
    exact hstep.moved_stored hnew hemits

end

/-! ## A payment for another swap than the stored one -/

namespace SampleLn

def funded : LightningTakerMessage prims :=
  .swapInFunded ⟨swapId, ⟨prims.txid fundingTx, 0⟩, 101000⟩

/-- The funding confirms after a number of blocks without it. -/
def chainFunded (blocks : Nat) : Chain := ⟨List.replicate blocks [] ++ [[fundingTx]], []⟩

def requestSwapIn (handler : Nat) (k : Fin 15) : List (LnAction prims) :=
  .message (.request (.swapIn request)) :: List.replicate 5 (.handler handler (answers k))

def fundedAndPaid : List (LnAction prims) :=
  requestSwapIn 0 0 ++ [.chain (chainFunded 101), .message funded] ++
    List.replicate 6 (.handler 0 (answers 0))

/-- The funding is announced and stays in the mempool until the watchdog has forgotten the
swap; the taker requests the swap again, and then the funding confirms. -/
def fundedLate : List (LnAction prims) :=
  requestSwapIn 0 0 ++ [.message funded, .handler 0 (answers 0), .wait 301,
    .chain ⟨List.replicate 127 [], [fundingTx]⟩, .snapshot, .turn 0, .watchdog (answers 0)] ++
    requestSwapIn 1 1 ++ [.chain (chainFunded 127)] ++ List.replicate 5 (.handler 0 (answers 0))

def paidOnce (w : LnServer prims) : Bool :=
  match w.shared.history with
  | [.paid id _ bound c, .moved _ _ _] =>
    id = swapId ∧ bound = 132 ∧ c = chainFunded 101
  | _ => false

/-- The output a payment rests on does not pay the contract of the swap it moved. -/
def paidForAnother (w : LnServer prims) : Bool :=
  match w.shared.history with
  | [.paid id swap _ c, .moved id' before swap'] =>
    id = swapId ∧ id' = swapId ∧ swap' = swap ∧ before.phase = .inAccepted ∧
      before.privkey ≠ swap.privkey ∧ swap.funding = some (⟨prims.txid fundingTx, 0⟩, 101000) ∧
      c.output prims ⟨prims.txid fundingTx, 0⟩ ≠ some ⟨101000, before.htlc.scriptPubkey prims⟩
  | _ => false

end SampleLn

open SampleLn in
theorem paid_after_move_once :
    ∃ (w : LnServer prims) (swap before : LnMakerSwap prims),
      Run.Reachable (LnServer.step · maker) LnServer.paysUndisturbed (.start chain) w ∧
      w.shared.history = [.paid swapId swap 132 (chainFunded 101), .moved swapId before swap] ∧
      before.phase = .inAccepted ∧ before.MovedTo swap ∧ swap.SafelyPaid 132 (chainFunded 101) := by
  obtain ⟨w, hrun, hw⟩ : ∃ w, Run.Reachable (LnServer.step · maker) LnServer.paysUndisturbed
      (.start chain) w ∧ paidOnce w = true :=
    Run.exists_reachable_of_exec fundedAndPaid (by decide +kernel)
  unfold paidOnce at hw
  split at hw
  · rename_i id swap bound c id' before swap' hhistory
    obtain ⟨rfl, rfl, rfl⟩ := of_decide_eq_true hw
    obtain ⟨before', hmem, hphase, hmoved, hsafe⟩ :=
      (paid_after_move maker chain hrun).1 [] _ _ _ _ _ hhistory
    rw [List.mem_singleton] at hmem
    cases hmem
    exact ⟨w, swap, before, hrun, hhistory, hphase, hmoved, hsafe⟩
  · cases hw

open SampleLn in
/-- A handler that waited for the funding of a swap the watchdog has since forgotten moves
and pays the swap that was taken on in its place, whose contract the funding does not pay. -/
theorem paid_for_another_swap :
    ∃ (w : LnServer prims) (before swap : LnMakerSwap prims) (cltvBound : Nat) (c : Chain)
      (outpoint : OutPoint),
      Run.Reachable (LnServer.step · maker) LnServer.noBlockBeforePayment (.start chain) w ∧
      w.shared.history = [.paid swapId swap cltvBound c, .moved swapId before swap] ∧
      before.phase = .inAccepted ∧ before.privkey ≠ swap.privkey ∧
      swap.funding = some (outpoint, 101000) ∧
      c.output prims outpoint ≠ some ⟨101000, before.htlc.scriptPubkey prims⟩ := by
  obtain ⟨w, hrun, hw⟩ : ∃ w, Run.Reachable (LnServer.step · maker)
      LnServer.noBlockBeforePayment (.start chain) w ∧ paidForAnother w = true :=
    Run.exists_reachable_of_exec fundedLate (by decide +kernel)
  unfold paidForAnother at hw
  split at hw
  · rename_i id swap bound c id' before swap' hhistory
    obtain ⟨rfl, rfl, rfl, hphase, hkey, hfunding, houtput⟩ := of_decide_eq_true hw
    exact ⟨w, before, swap', bound, c, _, hrun, hhistory, hphase, hkey, hfunding, houtput⟩
  · cases hw

end OpenSwap
