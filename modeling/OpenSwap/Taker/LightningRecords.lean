import OpenSwap.Taker.LightningSteps

/-!
# Pending records of the taker's Lightning swaps

The record of a swap holds the only key to its contract.  A swap-in removes it once the
payment is claimed, a recovery once a block spends the contract.  The other two calls remove
theirs as soon as the claim is broadcast, and a routed swap takes that of its first hop along.

* `LnTakerTask.TaskOk` is what a task may rely on: the records it is about to write are new
  or without a contract, those it is about to remove are of the contract it spent.
* `RecordsOk` is the invariant of the wallet, `LnClient.Ok` that of the machine.
-/

namespace OpenSwap

open Btc Checked List AList

section

variable {P : Prims} {taker : LnTaker P} {answers : LnTakerAnswers P} {w w' : LnTakerWallet P}
  {t t' : LnTakerTask P} {next : Option (LnTakerTask P)}

/-! ## The conditions -/

def LnTakerWallet.keyFree (w : LnTakerWallet P) (key : String) : Bool :=
  (w.lnPendingSwaps.lookup key).isNone && (w.disk.lookup key).isNone

/-- A new preimage is new: no record has the key of its swap. -/
def LnTakerWallet.freshPreimage (w : LnTakerWallet P) (t : LnTakerTask P) (preimage : Bytes) :
    Bool :=
  let id := hexString (P.sha256 preimage)
  match t with
  | .swapIn _ | .swapOut _ => w.keyFree id
  | .routed _ => w.keyFree (id ++ "-in") && w.keyFree (id ++ "-out")
  | _ => true

/-- A swap-out that closes finds its claim in a block; a routed swap finds there a claim of
its first hop as well. -/
def LnTakerWallet.closesMined (w : LnTakerWallet P) : LnTakerTask P → Bool
  | .close _ claimTx => claimTx ∈ w.chain.blocks.flatten
  | .closeFirst key => (w.lnPendingSwaps.lookup key).all fun record => record.outpoint.all fun o =>
      w.chain.blocks.flatten.any fun tx => tx.spends o && (record.htlc.extractPreimage tx).isSome
  | _ => true

namespace LnClient

def freshSwap (w : LnClient P) : LnClientAction P → Prop
  | .advance answers => w.task.all (w.wallet.freshPreimage · answers.preimage) = true
  | _ => True

def closesMined (w : LnClient P) : LnClientAction P → Prop
  | .advance _ => w.task.all w.wallet.closesMined = true
  | _ => True

instance (w : LnClient P) : (a : LnClientAction P) → Decidable (w.freshSwap a)
  | .advance answers =>
    inferInstanceAs (Decidable (w.task.all (w.wallet.freshPreimage · answers.preimage) = true))
  | .call _ | .save | .chain _ | .restart => isTrue trivial

instance (w : LnClient P) : (a : LnClientAction P) → Decidable (w.closesMined a)
  | .advance _ => inferInstanceAs (Decidable (w.task.all w.wallet.closesMined = true))
  | .call _ | .save | .chain _ | .restart => isTrue trivial

end LnClient

/-! ## What a call knows of its records -/

namespace LnTakerWallet

def Fresh (w : LnTakerWallet P) (key : String) : Prop :=
  w.lnPendingSwaps.lookup key = none ∧ w.disk.lookup key = none

def Unfunded (w : LnTakerWallet P) (key : String) : Prop :=
  ∀ record, w.lnPendingSwaps.lookup key = some record → record.outpoint = none

def IsSwapIn (w : LnTakerWallet P) (key : String) : Prop :=
  ∀ record, w.lnPendingSwaps.lookup key = some record → record.isSwapIn = true

def FundedAt (w : LnTakerWallet P) (key : String) (outpoint : OutPoint) : Prop :=
  ∀ record, w.lnPendingSwaps.lookup key = some record → record.outpoint = some outpoint

structure Snapshot (w : LnTakerWallet P) (records : List (String × LnPendingSwap P)) : Prop where
  nodup : (records.map (·.1)).Nodup
  stored : ∀ e ∈ records, w.lnPendingSwaps.lookup e.1 = some e.2

variable {key : String} {rest : List (String × LnPendingSwap P)}

theorem Snapshot.tail {record} (h : w.Snapshot ((key, record) :: rest)) :
    w.Snapshot rest ∧ key ∉ rest.map (·.1) := by
  have hnodup := nodup_cons.mp h.nodup
  exact ⟨⟨hnodup.2, fun e he => h.stored e (mem_cons_of_mem _ he)⟩, hnodup.1⟩

theorem Snapshot.fundedAt {record outpoint} (h : w.Snapshot ((key, record) :: rest))
    (ho : record.outpoint = some outpoint) :
    w.FundedAt key outpoint := by
  intro r hr
  have hrecord := h.stored _ mem_cons_self
  rw [hr, Option.some.injEq] at hrecord
  rw [hrecord, ho]

theorem fresh_of_keyFree (h : w.keyFree key) : w.Fresh key := by
  simpa [keyFree, Fresh] using h

theorem Fresh.saveToDisk (h : w.Fresh key) (saved : Bool) :
    (w.saveToDisk saved).Fresh key := by
  refine ⟨by simpa using h.1, ?_⟩
  rcases w.saveToDisk_disk saved with hdisk | hdisk
  · rw [hdisk, h.1]
  · rw [hdisk, h.2]

end LnTakerWallet

def LnTakerTask.TaskOk (w : LnTakerWallet P) : LnTakerTask P → Prop
  | .swapIn _ | .swapOut _ | .routed _ | .closeFirst _ => True
  | .acceptIn req => w.Fresh req.key
  | .saveIn terms => w.Fresh terms.key
  | .acceptOut req => w.Fresh req.key
  | .saveOut claim _ => w.Fresh claim.key
  | .acceptSecond req =>
    w.Fresh req.key ∧ w.Fresh (req.swapId ++ "-in") ∧ req.key ≠ req.swapId ++ "-in"
  | .acceptFirst claim req => w.Fresh claim.key ∧ w.Fresh req.key ∧ claim.key ≠ req.key
  | .saveFirst terms claim => w.Fresh claim.key ∧ w.Fresh terms.key ∧ claim.key ≠ terms.key
  | .saveSecond terms claim =>
    w.Fresh claim.key ∧ w.Unfunded terms.key ∧ w.IsSwapIn terms.key ∧ claim.key ≠ terms.key
  | .fund terms claim =>
    w.Unfunded terms.key ∧ w.IsSwapIn terms.key ∧
      ∀ c, claim = some c → w.Unfunded c.key ∧ c.key ≠ terms.key
  | .sendFunding terms claim _ | .confirmOwn terms claim _ | .announce terms claim =>
    w.IsSwapIn terms.key ∧ ∀ c, claim = some c → w.Unfunded c.key
  | .awaitPayment terms => w.IsSwapIn terms.key
  | .closeIn key => w.IsSwapIn key ∧ .paymentClaimed key ∈ w.history
  | .pay claim | .readFunded claim | .confirmFunding claim _ | .verifyFunding claim _
  | .recordFunding claim _ _ => w.Unfunded claim.key
  | .sendClaim claim outpoint _ => w.FundedAt claim.key outpoint
  | .close claim claimTx =>
    ∃ outpoint, w.FundedAt claim.key outpoint ∧ claimTx.spends outpoint = true
  | .recover records => w.Snapshot records
  | .settle key outpoint rest => w.FundedAt key outpoint ∧ w.Snapshot rest ∧ key ∉ rest.map (·.1)

/-! ### Keys of the records -/

variable {req : OutRequest P} {reply : Option (LightningMakerMessage P)} {saved : Bool}
  {value : Nat} {o : OutPoint} {params : LnSwapParams} {claim : ClaimTerms P} {key : String}

theorem requestIn_key {req} (h : taker.requestIn answers params = .ok req) :
    req.key = hexString (P.sha256 answers.preimage) := by
  simp only [LnTaker.requestIn, bind_ok_iff] at h
  obtain ⟨_, -, _, -, _, -, _, -, _, -, _, -, _, -, _, -, _, -, _, -, h⟩ := h
  cases h
  rfl

theorem requestOut_key {key : String → String} (h : taker.requestOut answers params key = .ok req) :
    req.swapId = hexString (P.sha256 answers.preimage) ∧ req.key = key req.swapId := by
  simp only [LnTaker.requestOut, bind_ok_iff] at h
  obtain ⟨_, -, _, -, _, -, h⟩ := h
  cases h
  exact ⟨rfl, rfl⟩

theorem acceptIn_eq_ok {req terms} (h : taker.acceptIn req reply = .ok terms) :
    terms.key = req.key := by
  simp only [LnTaker.acceptIn, bind_ok_iff] at h
  obtain ⟨msg, -, h⟩ := h
  split at h
  · simp only [bind_ok_iff] at h
    obtain ⟨_, -, _, -, h⟩ := h
    cases h
    rfl
  · cases h

theorem acceptOut_eq_ok {firstHop accept delta}
    (h : taker.acceptOut req firstHop reply = .ok (claim, accept, delta)) :
    claim.key = req.key ∧ claim.htlc = .new taker.ripemd160 (Prims.publicKey req.privkey)
      accept.makerTimelockPubkey (P.sha256 req.preimage) req.locktime := by
  simp only [LnTaker.acceptOut, bind_ok_iff] at h
  obtain ⟨msg, -, h⟩ := h
  split at h
  · simp only [bind_ok_iff] at h
    obtain ⟨_, -, _, -, _, -, _, -, _, -, h⟩ := h
    cases h
    exact ⟨rfl, rfl⟩
  · cases h

theorem requestFirst_eq_ok {first} (h : taker.requestFirst answers req = .ok (claim, first)) :
    first.key = req.swapId ++ "-in" ∧ ∃ accept delta,
      taker.acceptOut req (some (req.swapId ++ "-in")) answers.reply =
        .ok (claim, accept, delta) := by
  simp only [LnTaker.requestFirst, bind_ok_iff] at h
  obtain ⟨⟨claim', accept, delta⟩, hout, _, -, _, -, _, -, _, -, _, -, _, -, _, -, h⟩ := h
  cases h
  exact ⟨rfl, accept, delta, hout⟩

/-! ## The invariant -/

/-- Every removal of a record with a known contract was right. -/
def RemovedOk (history : List (LnTakerEffect P)) : Prop :=
  ∀ newer older key record chain, history = newer ++ .removed key record chain :: older →
    ∀ o, record.outpoint = some o →
      chain.confirmedSpend o = true ∨ record.isSwapIn = true ∧ .paymentClaimed key ∈ older

/-- A record with a known contract that is on disk is in memory as well, or was removed. -/
def LnTakerWallet.Durable (w : LnTakerWallet P) : Prop :=
  ∀ key record o, w.disk.lookup key = some record → record.outpoint = some o →
    (∃ record', w.lnPendingSwaps.lookup key = some record' ∧ record'.outpoint = some o) ∨
      ∃ record' chain, .removed key record' chain ∈ w.history ∧ record'.outpoint = some o

structure RecordsOk (w : LnTakerWallet P) : Prop where
  memory : ∀ key record, w.lnPendingSwaps.lookup key = some record →
    record.outpoint.isSome = record.value.isSome
  disk : ∀ key record, w.disk.lookup key = some record →
    record.outpoint.isSome = record.value.isSome
  durable : w.Durable
  removed : RemovedOk w.history

/-! ### Steps that write nothing -/

theorem LnTakerTask.Next.taskOk (h : LnTakerTask.Next taker w answers t t') (ht : t.TaskOk w)
    (hfresh : w.freshPreimage t answers.preimage) : t'.TaskOk w := by
  cases h with
  | stay => exact ht
  | acceptIn hreq =>
    show w.Fresh _
    rw [requestIn_key hreq]
    exact LnTakerWallet.fresh_of_keyFree hfresh
  | saveIn hterms =>
    show w.Fresh _
    rw [acceptIn_eq_ok hterms]
    exact ht
  | saveOut hclaim =>
    show w.Fresh _
    rw [(acceptOut_eq_ok hclaim).1]
    exact ht
  | acceptFirst hfirst =>
    obtain ⟨hkey, accept, delta, hout⟩ := requestFirst_eq_ok hfirst
    refine ⟨?_, ?_, ?_⟩
    · rw [(acceptOut_eq_ok hout).1]
      exact ht.1
    · rw [hkey]
      exact ht.2.1
    · rw [(acceptOut_eq_ok hout).1, hkey]
      exact ht.2.2
  | saveFirst hterms =>
    obtain ⟨hclaim, hreq, hne⟩ := ht
    rw [← acceptIn_eq_ok hterms] at hreq hne
    exact ⟨hclaim, hreq, hne⟩
  | announce => exact ht
  | awaitPayment => exact ht.1
  | readFunded => exact ht.2 _ rfl
  | confirmFunding | verifyFunding | recordFunding => exact ht
  | settle ho => exact ⟨ht.fundedAt ho, ht.tail.1, ht.tail.2⟩
  | recover => exact ht.2.1

/-! ### Steps that write -/

namespace LnTakerWallet

variable {key key' : String} {record : LnPendingSwap P} {outpoint : OutPoint} {value : Nat}
  {saved : Bool}

theorem lookup_savePendingSwap :
    (w.savePendingSwap key record saved).lnPendingSwaps.lookup key' =
      if key' = key then some record else w.lnPendingSwaps.lookup key' := by
  rw [savePendingSwap, saveToDisk_lnPendingSwaps]
  split_ifs with h
  · subst h
    exact lookup_insert _
  · exact lookup_insert_ne h

theorem lookup_recordOutpoint (h : (w.recordOutpoint key outpoint value saved).lnPendingSwaps.lookup
    key' = some record) :
    ∃ before, w.lnPendingSwaps.lookup key' = some before ∧
      record = if key' = key then
        { before with outpoint := some outpoint, value := some value } else before := by
  rw [recordOutpoint, saveToDisk_lnPendingSwaps] at h
  obtain ⟨before, hbefore, rfl⟩ := AList.lookup_modifyAt_eq_some.mp h
  exact ⟨before, hbefore, rfl⟩

theorem Fresh.savePendingSwap (h : w.Fresh key') (hne : key' ≠ key) :
    (w.savePendingSwap key record saved).Fresh key' := by
  refine Fresh.saveToDisk ?_ saved
  refine ⟨?_, h.2⟩
  rw [lookup_insert_ne hne]
  exact h.1

theorem Unfunded.recordOutpoint (h : w.Unfunded key') (hne : key' ≠ key) :
    (w.recordOutpoint key outpoint value saved).Unfunded key' := by
  intro record hrecord
  obtain ⟨before, hbefore, rfl⟩ := lookup_recordOutpoint hrecord
  rw [if_neg hne]
  exact h before hbefore

theorem IsSwapIn.recordOutpoint (h : w.IsSwapIn key') :
    (w.recordOutpoint key outpoint value saved).IsSwapIn key' := by
  intro record hrecord
  obtain ⟨before, hbefore, rfl⟩ := lookup_recordOutpoint hrecord
  split_ifs <;> exact h before hbefore

theorem lookup_of_removePendingSwap
    (h : (w.removePendingSwap key saved).lnPendingSwaps.lookup key' = some record) :
    w.lnPendingSwaps.lookup key' = some record := by
  rcases w.removePendingSwap_cases key saved with ⟨-, heq⟩ | ⟨r, -, heq⟩
  · rw [heq, saveToDisk_lnPendingSwaps] at h
    exact h
  · rw [heq, saveToDisk_lnPendingSwaps] at h
    exact AList.lookup_of_lookup_erase h

theorem Snapshot.removePendingSwap {rest} (h : w.Snapshot rest) (hnot : key ∉ rest.map (·.1)) :
    (w.removePendingSwap key saved).Snapshot rest := by
  refine ⟨h.nodup, fun e he => ?_⟩
  have hne : e.1 ≠ key := fun heq => hnot (mem_map.mpr ⟨e, he, heq⟩)
  rcases w.removePendingSwap_cases key saved with ⟨-, heq⟩ | ⟨r, -, heq⟩
  · rw [heq, saveToDisk_lnPendingSwaps]
    exact h.stored e he
  · rw [heq, saveToDisk_lnPendingSwaps, lookup_erase_ne hne]
    exact h.stored e he

end LnTakerWallet

theorem LnTakerTask.Saves.taskOk {record} (h : LnTakerTask.Saves t key record t')
    (ht : t.TaskOk w) :
    t'.TaskOk (w.savePendingSwap key record saved) := by
  cases h with
  | swapIn =>
    refine ⟨fun r hr => ?_, fun r hr => ?_, nofun⟩ <;>
      rw [LnTakerWallet.lookup_savePendingSwap, if_pos rfl] at hr <;> cases hr <;> rfl
  | swapOut =>
    intro r hr
    rw [LnTakerWallet.lookup_savePendingSwap, if_pos rfl] at hr
    cases hr
    rfl
  | first =>
    obtain ⟨hclaim, -, hne⟩ := ht
    refine ⟨hclaim.savePendingSwap hne, fun r hr => ?_, fun r hr => ?_, hne⟩ <;>
      rw [LnTakerWallet.lookup_savePendingSwap, if_pos rfl] at hr <;> cases hr <;> rfl
  | second =>
    obtain ⟨-, hunfunded, hin, hne⟩ := ht
    refine ⟨fun r hr => ?_, fun r hr => ?_, fun c hc => ?_⟩
    · rw [LnTakerWallet.lookup_savePendingSwap, if_neg hne.symm] at hr
      exact hunfunded r hr
    · rw [LnTakerWallet.lookup_savePendingSwap, if_neg hne.symm] at hr
      exact hin r hr
    · cases hc
      refine ⟨fun r hr => ?_, hne⟩
      rw [LnTakerWallet.lookup_savePendingSwap, if_pos rfl] at hr
      cases hr
      rfl

theorem LnTakerTask.Fills.taskOk {outpoint} (h : LnTakerTask.Fills t key outpoint t')
    (ht : t.TaskOk w) :
    t'.TaskOk (w.recordOutpoint key outpoint value saved) := by
  cases h with
  | own =>
    obtain ⟨-, hin, hclaim⟩ := ht
    exact ⟨hin.recordOutpoint, fun c hc => (hclaim c hc).1.recordOutpoint (hclaim c hc).2⟩
  | maker =>
    intro r hr
    obtain ⟨before, -, rfl⟩ := LnTakerWallet.lookup_recordOutpoint hr
    rw [if_pos rfl]

theorem LnTakerTask.Stepped.taskOk (h : LnTakerTask.Stepped taker w answers t w' next)
    (ht : t.TaskOk w) (hfresh : w.freshPreimage t answers.preimage) (hnext : next = some t') :
    t'.TaskOk w' := by
  cases h with
  | ended => cases hnext
  | next hq =>
    cases hnext
    exact hq.taskOk ht hfresh
  | requestedOut hreq =>
    cases hnext
    obtain ⟨hid, hkey⟩ := requestOut_key hreq
    show w.Fresh _
    rw [hkey, hid]
    exact LnTakerWallet.fresh_of_keyFree hfresh
  | requestedSecond hreq =>
    cases hnext
    obtain ⟨hid, hkey⟩ := requestOut_key hreq
    have hfree := Bool.and_eq_true_iff.mp hfresh
    refine ⟨?_, ?_, ?_⟩
    · show w.Fresh _
      rw [hkey, hid]
      exact LnTakerWallet.fresh_of_keyFree hfree.2
    · show w.Fresh _
      rw [hid]
      exact LnTakerWallet.fresh_of_keyFree hfree.1
    · rw [hkey]
      intro heq
      have hlist := congrArg String.toList heq
      simp only [String.toList_append, append_cancel_left_eq] at hlist
      exact absurd hlist (by decide)
  | saved hs hn =>
    obtain rfl := eq_of_none_or_some hn hnext
    exact hs.taskOk ht
  | filled hf hn =>
    obtain rfl := eq_of_none_or_some hn hnext
    exact hf.taskOk ht
  | paid =>
    cases hnext
    exact ht
  | fundingSent hn =>
    obtain rfl := eq_of_none_or_some hn hnext
    exact ht
  | paymentClaimed =>
    cases hnext
    exact ⟨ht, mem_cons_self⟩
  | claimSent htx hn =>
    obtain rfl := eq_of_none_or_some hn hnext
    exact ⟨_, ht, SwapHtlc.spends_of_createHashlockSpend htx⟩
  | refundSent ho | claimResent ho =>
    cases hnext
    exact ⟨ht.fundedAt ho, ⟨ht.tail.1.nodup, ht.tail.1.stored⟩, ht.tail.2⟩
  | removed hr hn =>
    rcases hn with rfl | rfl
    · cases hnext
    · cases hr with
      | swapIn | first => cases hnext
      | claimed =>
        obtain ⟨key, -, rfl⟩ := Option.map_eq_some_iff.mp hnext
        trivial
      | uncommitted =>
        cases hnext
        exact ht.tail.1.removePendingSwap ht.tail.2
      | settled =>
        cases hnext
        exact ht.2.1.removePendingSwap ht.2.2

/-! ### The records after a step -/

section

variable (hw : RecordsOk w)

include hw

theorem RecordsOk.saveToDisk (saved : Bool) : RecordsOk
    (w.saveToDisk saved) := by
  cases saved with
  | false => exact hw
  | true => exact ⟨hw.memory, hw.memory, fun key r o hr ho => .inl ⟨r, hr, ho⟩, hw.removed⟩

theorem RecordsOk.record {e} (he : ∀ key record chain, e ≠ .removed key record chain) :
    RecordsOk (w.record e) := by
  refine ⟨hw.memory, hw.disk, fun key r o hr ho => ?_, ?_⟩
  · rcases hw.durable key r o hr ho with hmem | ⟨r', c, hmem, ho'⟩
    · exact .inl hmem
    · exact .inr ⟨r', c, mem_cons_of_mem _ hmem, ho'⟩
  · intro newer older key r c heq
    rcases cons_eq_append_iff.mp heq with ⟨rfl, heq⟩ | ⟨newer', rfl, hold⟩
    · exact absurd (List.cons.inj heq).1.symm (Ne.symm (he key r c))
    · exact hw.removed newer' older key r c hold

theorem RecordsOk.savePendingSwap {record} (hfresh : w.Fresh key)
    (hrecord : record.outpoint.isSome = record.value.isSome) (saved : Bool) :
    RecordsOk (w.savePendingSwap key record saved) := by
  refine RecordsOk.saveToDisk ?_ saved
  refine ⟨AList.forall_lookup_insert hrecord hw.memory, hw.disk, fun key' r o hr ho => ?_,
    hw.removed⟩
  · have hne : key' ≠ key := by
      rintro rfl
      rw [hfresh.2] at hr
      cases hr
    rcases hw.durable key' r o hr ho with ⟨r', hr', ho'⟩ | hremoved
    · exact .inl ⟨r', by simpa only [lookup_insert_ne hne] using hr', ho'⟩
    · exact .inr hremoved

theorem RecordsOk.recordOutpoint {outpoint} (hunfunded : w.Unfunded key) (saved : Bool) :
    RecordsOk (w.recordOutpoint key outpoint value saved) := by
  refine RecordsOk.saveToDisk ?_ saved
  refine ⟨fun key' r hr => ?_, hw.disk, fun key' r o hr ho => ?_, hw.removed⟩
  · obtain ⟨before, hbefore, rfl⟩ := AList.lookup_modifyAt_eq_some.mp hr
    split_ifs
    · rfl
    · exact hw.memory key' before hbefore
  · rcases hw.durable key' r o hr ho with ⟨r', hr', ho'⟩ | hremoved
    · have hne : key' ≠ key := by
        rintro rfl
        rw [hunfunded r' hr'] at ho'
        cases ho'
      refine .inl ⟨r', AList.lookup_modifyAt_eq_some.mpr ⟨r', hr', ?_⟩, ho'⟩
      rw [if_neg hne]
    · exact .inr hremoved

theorem RecordsOk.removePendingSwap
    (hok : ∀ record o, w.lnPendingSwaps.lookup key = some record → record.outpoint = some o →
      w.chain.confirmedSpend o ∨
        record.isSwapIn ∧ .paymentClaimed key ∈ w.history) (saved : Bool) :
    RecordsOk (w.removePendingSwap key saved) := by
  rcases w.removePendingSwap_cases key saved with ⟨-, heq⟩ | ⟨record, hrecord, heq⟩
  · rw [heq]
    exact hw.saveToDisk saved
  · rw [heq]
    refine RecordsOk.saveToDisk ?_ saved
    refine ⟨fun key' r hr => hw.memory key' r (AList.lookup_of_lookup_erase hr), hw.disk,
      fun key' r o hr ho => ?_, ?_⟩
    · rcases hw.durable key' r o hr ho with ⟨r', hr', ho'⟩ | ⟨r', c, hmem, ho'⟩
      · by_cases hkey : key' = key
        · subst hkey
          exact .inr ⟨r', w.chain, by simp_all, ho'⟩
        · exact .inl ⟨r', by simpa only [lookup_erase_ne hkey] using hr', ho'⟩
      · exact .inr ⟨r', c, mem_cons_of_mem _ hmem, ho'⟩
    · intro newer older key' r c hcons o ho
      rcases cons_eq_append_iff.mp hcons with ⟨rfl, hcons⟩ | ⟨newer', rfl, hold⟩
      · cases hcons
        exact hok record o hrecord ho
      · exact hw.removed newer' older key' r c hold o ho

end

theorem LnTakerTask.Removes.allowed {nextTask} (h : LnTakerTask.Removes w t key nextTask)
    (hw : RecordsOk w) (ht : t.TaskOk w) (hmined : w.closesMined t) {record}
    (hrecord : w.lnPendingSwaps.lookup key = some record) (ho : record.outpoint = some o) :
    w.chain.confirmedSpend o ∨ record.isSwapIn ∧ .paymentClaimed key ∈ w.history := by
  cases h with
  | swapIn => exact .inr ⟨ht.1 record hrecord, ht.2⟩
  | claimed =>
    obtain ⟨outpoint, hfunded, hspends⟩ := ht
    rw [hfunded record hrecord, Option.some.injEq] at ho
    subst ho
    exact .inl (any_eq_true.mpr ⟨_, of_decide_eq_true hmined, hspends⟩)
  | first =>
    simp only [LnTakerWallet.closesMined, hrecord, ho, Option.all_some] at hmined
    obtain ⟨tx, htx, hspends⟩ := any_eq_true.mp hmined
    exact .inl (any_eq_true.mpr ⟨tx, htx, (Bool.and_eq_true_iff.mp hspends).1⟩)
  | uncommitted hnone =>
    have hstored := ht.stored _ mem_cons_self
    rw [hrecord, Option.some.injEq] at hstored
    subst hstored
    have hboth := hw.memory key record hrecord
    rw [ho] at hnone hboth
    rcases hnone with hnone | hnone
    · cases hnone
    · rw [hnone] at hboth
      cases hboth
  | settled hspent =>
    rw [ht.1 record hrecord, Option.some.injEq] at ho
    exact .inl (ho ▸ hspent)

theorem LnTakerTask.Stepped.recordsOk (h : LnTakerTask.Stepped taker w answers t w' next)
    (hw : RecordsOk w) (ht : t.TaskOk w) (hmined : w.closesMined t) : RecordsOk w' := by
  cases h with
  | ended | next => exact hw
  | requestedOut | requestedSecond | paid | fundingSent | paymentClaimed | claimSent | refundSent
  | claimResent => exact hw.record nofun
  | saved hs =>
    cases hs with
    | swapIn | swapOut => exact hw.savePendingSwap ht rfl _
    | first => exact hw.savePendingSwap ht.2.1 rfl _
    | second => exact hw.savePendingSwap ht.1 rfl _
  | filled hf =>
    cases hf with
    | own => exact hw.recordOutpoint ht.1 _
    | maker => exact hw.recordOutpoint ht _
  | removed hr => exact hw.removePendingSwap (fun _ _ => hr.allowed hw ht hmined) _

/-- A record with a known contract stays as far as that goes, or its removal is noted. -/
def LnTakerWallet.Keeps (w w' : LnTakerWallet P) (key : String) (o : OutPoint) : Prop :=
  (∃ record', w'.lnPendingSwaps.lookup key = some record' ∧ record'.outpoint = some o) ∨
    ∃ record chain, w'.history = .removed key record chain :: w.history ∧ record.outpoint = some o

theorem LnTakerTask.Stepped.keeps (h : LnTakerTask.Stepped taker w answers t w' next)
    (ht : t.TaskOk w) {record} (hrecord : w.lnPendingSwaps.lookup key = some record)
    (ho : record.outpoint = some o) :
    w.Keeps w' key o := by
  cases h with
  | ended | next | requestedOut | requestedSecond | paid | fundingSent | paymentClaimed | claimSent
  | refundSent | claimResent => exact .inl ⟨record, hrecord, ho⟩
  | @saved _ _ key' record' _ hs =>
    have hfresh : w.Fresh key' := by
      cases hs with
      | swapIn | swapOut => exact ht
      | first => exact ht.2.1
      | second => exact ht.1
    have hne : key ≠ key' := by
      rintro rfl
      rw [hfresh.1] at hrecord
      cases hrecord
    exact .inl ⟨record, by rw [LnTakerWallet.lookup_savePendingSwap, if_neg hne, hrecord], ho⟩
  | @filled _ _ key' outpoint value _ hf =>
    have hunfunded : w.Unfunded key' := by
      cases hf with
      | own => exact ht.1
      | maker => exact ht
    have hne : key ≠ key' := by
      rintro rfl
      rw [hunfunded record hrecord] at ho
      cases ho
    refine .inl ⟨record, ?_, ho⟩
    rw [LnTakerWallet.recordOutpoint, LnTakerWallet.saveToDisk_lnPendingSwaps]
    refine AList.lookup_modifyAt_eq_some.mpr ⟨record, hrecord, ?_⟩
    rw [if_neg hne]
  | @removed _ key' _ _ hr =>
    rcases w.removePendingSwap_cases key' answers.saved with ⟨-, heq⟩ | ⟨r, hr', heq⟩
    · rw [heq]
      exact .inl ⟨record, by rw [LnTakerWallet.saveToDisk_lnPendingSwaps, hrecord], ho⟩
    · rw [heq]
      by_cases hkey : key = key'
      · subst hkey
        rw [hrecord, Option.some.injEq] at hr'
        subst hr'
        exact .inr ⟨record, w.chain, LnTakerWallet.saveToDisk_history _, ho⟩
      · refine .inl ⟨record, ?_, ho⟩
        rw [LnTakerWallet.saveToDisk_lnPendingSwaps, lookup_erase_ne hkey, hrecord]

/-! ## Runs -/

structure LnClient.Ok (w : LnClient P) : Prop where
  records : RecordsOk w.wallet
  task : ∀ t, w.task = some t → t.TaskOk w.wallet

namespace LnClient

variable {w w' : LnClient P} {a : LnClientAction P}

theorem Ok.start (chain : Chain) : (start chain : LnClient P).Ok where
  records := ⟨nofun, nofun, nofun, fun _ _ _ _ _ h => absurd h.symm (by simp [LnClient.start])⟩
  task := nofun

theorem begin_taskOk (w : LnClient P) (call : LnCall) : (w.begin call).TaskOk w.wallet := by
  cases call with
  | swapIn | swapOut | routed => trivial
  | recover =>
    refine ⟨?_, fun e he => ?_⟩
    · rw [map_map]
      exact w.wallet.lnPendingSwaps.nodupKeys
    · obtain ⟨s, hs, rfl⟩ := mem_map.mp he
      exact mem_lookup_iff.mpr hs

theorem taskOk_congr {wallet wallet'} (ht : t.TaskOk wallet)
    (hmemory : wallet'.lnPendingSwaps = wallet.lnPendingSwaps)
    (hdisk : wallet'.disk = wallet.lnPendingSwaps ∨ wallet'.disk = wallet.disk)
    (hhistory : wallet'.history = wallet.history) : t.TaskOk wallet' := by
  have hfresh : ∀ {key}, wallet.Fresh key → wallet'.Fresh key := by
    intro key hkey
    refine ⟨by rw [hmemory, hkey.1], ?_⟩
    rcases hdisk with hdisk | hdisk
    · rw [hdisk, hkey.1]
    · rw [hdisk, hkey.2]
  have hunfunded : ∀ {key}, wallet.Unfunded key → wallet'.Unfunded key :=
    fun h record hrecord => h record (hmemory ▸ hrecord)
  have hin : ∀ {key}, wallet.IsSwapIn key → wallet'.IsSwapIn key :=
    fun h record hrecord => h record (hmemory ▸ hrecord)
  have hfunded : ∀ {key o}, wallet.FundedAt key o → wallet'.FundedAt key o :=
    fun h record hrecord => h record (hmemory ▸ hrecord)
  have hsnapshot : ∀ {records}, wallet.Snapshot records → wallet'.Snapshot records :=
    fun h => ⟨h.nodup, fun e he => by rw [hmemory, h.stored e he]⟩
  cases t with
  | swapIn | swapOut | routed | closeFirst => trivial
  | acceptIn | saveIn | acceptOut | saveOut => exact hfresh ht
  | acceptSecond | acceptFirst | saveFirst => exact ⟨hfresh ht.1, hfresh ht.2.1, ht.2.2⟩
  | saveSecond => exact ⟨hfresh ht.1, hunfunded ht.2.1, hin ht.2.2.1, ht.2.2.2⟩
  | fund =>
    exact ⟨hunfunded ht.1, hin ht.2.1, fun c hc => ⟨hunfunded (ht.2.2 c hc).1, (ht.2.2 c hc).2⟩⟩
  | sendFunding | confirmOwn | announce => exact ⟨hin ht.1, fun c hc => hunfunded (ht.2 c hc)⟩
  | awaitPayment => exact hin ht
  | closeIn => exact ⟨hin ht.1, hhistory ▸ ht.2⟩
  | pay | readFunded | confirmFunding | verifyFunding | recordFunding => exact hunfunded ht
  | sendClaim => exact hfunded ht
  | close =>
    obtain ⟨outpoint, hat, hspends⟩ := ht
    exact ⟨outpoint, hfunded hat, hspends⟩
  | recover => exact hsnapshot ht
  | settle => exact ⟨hfunded ht.1, hsnapshot ht.2.1, ht.2.2⟩

theorem Ok.step (hw : w.Ok) (hfresh : w.freshSwap a) (hmined : w.closesMined a)
    (h : w.step taker a = some w') : w'.Ok := by
  cases step_moved h with
  | began hwallet htask =>
    refine ⟨hwallet ▸ hw.records, fun t ht => ?_⟩
    rw [htask, Option.some.injEq] at ht
    rw [← ht, hwallet]
    exact w.begin_taskOk _
  | stepped ha ht hstep =>
    subst ha
    simp only [LnClient.freshSwap, LnClient.closesMined, ht, Option.all_some] at hfresh hmined
    exact ⟨hstep.recordsOk hw.records (hw.task _ ht) hmined,
      fun t' ht' => hstep.taskOk (hw.task _ ht) hfresh ht'⟩
  | saved _ hwallet htask =>
    refine ⟨hwallet ▸ hw.records.saveToDisk true, fun t ht => ?_⟩
    rw [hwallet]
    exact taskOk_congr (hw.task t (htask ▸ ht)) rfl (.inl rfl) rfl
  | chain hwallet htask =>
    refine ⟨?_, fun t ht => ?_⟩
    · rw [hwallet]
      exact ⟨hw.records.memory, hw.records.disk, hw.records.durable, hw.records.removed⟩
    · rw [hwallet]
      exact taskOk_congr (hw.task t (htask ▸ ht)) rfl (.inr rfl) rfl
  | restarted ha hwallet htask =>
    refine ⟨?_, fun t ht => ?_⟩
    · rw [hwallet]
      exact ⟨hw.records.disk, hw.records.disk, fun key r o hr ho => .inl ⟨r, hr, ho⟩,
        hw.records.removed⟩
    · rw [htask] at ht
      cases ht

/-- Only a restart takes a record with a known contract out of memory silently. -/
theorem Ok.keeps (hw : w.Ok) (h : w.step taker a = some w') (ha : a ≠ .restart) {record}
    (hrecord : w.wallet.lnPendingSwaps.lookup key = some record) (ho : record.outpoint = some o) :
    w.wallet.Keeps w'.wallet key o := by
  cases step_moved h with
  | began hwallet =>
    rw [hwallet]
    exact .inl ⟨record, hrecord, ho⟩
  | stepped _ ht hstep => exact hstep.keeps (hw.task _ ht) hrecord ho
  | saved _ hwallet =>
    rw [hwallet]
    exact .inl ⟨record, hrecord, ho⟩
  | chain hwallet =>
    rw [hwallet]
    exact .inl ⟨record, hrecord, ho⟩
  | restarted hrestart => exact absurd hrestart ha

/-- What is on disk is kept there in the same sense, restarts or not. -/
theorem Ok.keeps_disk (hw : w.Ok) (h : w.step taker a = some w') {record}
    (hrecord : w.wallet.disk.lookup key = some record) (ho : record.outpoint = some o) :
    (∃ record', w'.wallet.disk.lookup key = some record' ∧ record'.outpoint = some o) ∨
      ∃ record' chain, .removed key record' chain ∈ w'.wallet.history ∧
        record'.outpoint = some o := by
  have hmono := (step_moved h).history_suffix
  rcases (step_moved h).disk_cases with hdisk | ⟨ha, hdisk⟩
  · exact .inl ⟨record, by rw [hdisk, hrecord], ho⟩
  · rw [hdisk]
    rcases hw.records.durable key record o hrecord ho with ⟨r, hr, ho'⟩ | ⟨r, c, hmem, ho'⟩
    · rcases hw.keeps h ha hr ho' with hkept | ⟨r', c, hnew, ho''⟩
      · exact .inl hkept
      · exact .inr ⟨r', c, hnew ▸ mem_cons_self, ho''⟩
    · exact .inr ⟨r, c, hmono.subset hmem, ho'⟩

end LnClient

end

/-! ## A swap-out -/

namespace SampleLnTaker

def preimage : Bytes := List.replicate 32 0x43

def paymentHash : Bytes :=
  natBe 32 0x4113d54b0b611294b7f595b691c9db541fc0fc719848d6c5c34522eacc0b3a24

def swapId : String := "4113d54b0b611294b7f595b691c9db541fc0fc719848d6c5c34522eacc0b3a24"

def invoice : String :=
  "lnbcrt1010u1pj48ugqpp5gyfa2jctvyfffdl4jkmfrjwm2s0uplr3npydd3wrg53w4nqt8gjqsp5zyg3zyg3zyg3zyg3zyg3zyg3zyg3zyg3zyg3zyg3zyg3zyg3zygsdqdwdmkzupdda6hgcqzpgfqrsgq8uq9aaurxaqv8pn00y8xrm694jxj3jgcczjwt4py7fyflyczej03lef6reaja4u685laj323533fwe30fry5umjavrdwcuxzqlmzrlgpzhxmq4"

def ripemd160 : Bytes → Bytes :=
  digest 20 [(paymentHash, natBe 20 0xc7081dc0a31e2b518c185595a837240a1290fcca)]

def htlc : SwapHtlc :=
  .new ripemd160 (⟨true, TablePoint.mul 4⟩ : Tables.empty.prims.PublicKey)
    (⟨true, TablePoint.mul 0⟩ : Tables.empty.prims.PublicKey) paymentHash 144

def fundingTx : Transaction where
  version := 2
  lockTime := 0
  input := [⟨⟨List.replicate 32 0x0c, 0⟩, [], 0xfffffffd, []⟩]
  output := [⟨100000, encode [.push [], .push
    (natBe 32 0x05c9a96416cc501db32aa2ffd0bd4312560ca7233a8dcb25368bd9a5307d1a98)]⟩]

def outpoint : OutPoint :=
  ⟨natBe 32 0x692c07f788e6528877232bba7b0e151d347e4f2cb43c9c42e317e7be4322f7b7, 0⟩

def receiveScript : Bytes := encode [.push [], .push (List.replicate 20 0x77)]

def unsignedClaim : Transaction where
  version := 2
  lockTime := 0
  input := [⟨outpoint, [], 0, []⟩]
  output := [⟨99700, receiveScript⟩]

def claimDigest : Bytes :=
  natBe 32 0x91b89e3cbbcecb6afda077b61f9fd25c5580e049193f46f115d8631c4cb3e781

def claimSig : Bytes :=
  natBe 71 0x3045022100d637f0b3b58f5eb74e265ed2404ca888b1cf7ffb43f93b8003ba86b37f99f076022015c82cd19fb2eee131574097ea6d35fd08215253b890f3c88baff493f4ac5050

def tables : Tables :=
  { Tables.empty with
    sha256 := [(preimage, paymentHash),
      (htlc.redeemscript,
        natBe 32 0x05c9a96416cc501db32aa2ffd0bd4312560ca7233a8dcb25368bd9a5307d1a98)]
    hash160 := [(preimage, natBe 20 0xc7081dc0a31e2b518c185595a837240a1290fcca)]
    txid := [(fundingTx, outpoint.txid),
      (unsignedClaim,
        natBe 32 0x5947cded60b7a0f2ec372f46f94dd185e6cfe3ae43cd7514c71fa8575ee7db47)]
    sighash := [((unsignedClaim, 0, htlc.redeemscript, 100000, sighashAll), claimDigest)]
    signatures := [((4, claimDigest), claimSig)] }

def prims : Prims := tables.prims

def claimTx : Transaction :=
  SwapHtlc.withWitness unsignedClaim
    [(EcdsaSig.mk claimSig sighashAll).toBytes, preimage, htlc.redeemscript]

/-- The one invoice there is to parse is the maker's. -/
def taker : LnTaker prims where
  advertisedFee offer amount := offer.fee amount
  ripemd160 := ripemd160
  parseInvoice _ := some ⟨paymentHash, some 101000000, 40⟩

/-- Everything succeeds. -/
def serving {P : Prims} (timelockKey hashlockKey : P.SecretKey)
    (reply : Option (LightningMakerMessage P)) : LnTakerAnswers P where
  backend := true
  conn := some ⟨"maker", ⟨true, true, fun _ => 1000, 10000, 1000000, 1000000⟩⟩
  preimage := preimage
  timelockKey := timelockKey
  hashlockKey := hashlockKey
  holdInvoice := none
  sent := true
  reply := reply
  saved := true
  node := true
  timeout := false
  fundingTx := none
  broadcast := .sent
  earlyReject := false
  lightning := true
  claimable := false
  screened := true
  receiveScript := some receiveScript

def answers (reply : Option (LightningMakerMessage prims)) : LnTakerAnswers prims :=
  serving (3 : Fin 15) (4 : Fin 15) reply

def accept : LnSwapOutAccept prims where
  swapId := swapId
  invoice := invoice
  fee := 1000
  makerTimelockPubkey := ⟨true, TablePoint.mul 0⟩
  locktime := 144
  minConfirmations := 1

def chain : Chain := ⟨List.replicate 101 [], []⟩

def funded : Chain := ⟨chain.blocks ++ [[fundingTx]], []⟩

def swapsOut : List (LnClientAction prims) :=
  [.call (.swapOut ⟨100000, none, 1⟩), .advance (answers none),
    .advance (answers (some (.swapOutAccept accept))), .advance (answers none),
    .advance (answers none),
    .advance (answers (some (.swapOutFunded ⟨swapId, outpoint, 100000⟩))), .chain funded,
    .advance (answers none), .advance (answers none), .advance (answers none)]

def closesAfterBlock : List (LnClientAction prims) :=
  swapsOut ++ [.advance (answers none), .chain ⟨funded.blocks ++ [[claimTx]], []⟩,
    .advance (answers none)]

def closesAtOnce : List (LnClientAction prims) :=
  swapsOut ++ [.advance (answers none), .chain ⟨funded.blocks, [claimTx]⟩,
    .advance (answers none), .chain funded]

def removedLast (spent : Bool) (w : LnClient prims) : Bool :=
  match w.wallet.history with
  | .removed key record c :: _ =>
    key = swapId ∧ record.outpoint = some outpoint ∧ record.isSwapIn = false ∧
      c.confirmedSpend outpoint = spent
  | _ => false

def unreachable (w : LnClient prims) : Prop :=
  w.wallet.chain.unspentOutput prims outpoint = some ⟨100000, htlc.scriptPubkey prims⟩ ∧
    w.wallet.lnPendingSwaps.keys = [] ∧ w.wallet.disk.keys = []

instance (w : LnClient prims) : Decidable (unreachable w) := by
  unfold unreachable
  infer_instance

end SampleLnTaker

end OpenSwap
