import OpenSwap.Taker.LightningRecords

/-!
# When the taker claims

A claim shows the preimage, and with it the maker settles the payment it holds.  After the
lock the maker can spend the contract as well, so a claim has to be out before.  Nothing in
the taker looks at the age of a contract: neither a swap that waited for its funding, nor a
recovery that finds a record of any age.
-/

namespace OpenSwap

open Btc Checked List

section

variable {P : Prims} {taker : LnTaker P} {answers : LnTakerAnswers P} {w w' : LnTakerWallet P}
  {t t' : LnTakerTask P} {next : Option (LnTakerTask P)}

/-! ## The conditions -/

def LnTakerTask.claiming : LnTakerTask P → Option (String × SwapHtlc × OutPoint)
  | .sendClaim claim outpoint _ => some (claim.key, claim.htlc, outpoint)
  | .recover ((key, record) :: _) =>
    if record.isSwapIn then none else record.outpoint.map fun o => (key, record.htlc, o)
  | _ => none

def LnTakerEffect.requestHeight (key : String) : LnTakerEffect P → Option Nat
  | .requested key' height => if key' = key then some height else none
  | _ => none

def LnTakerWallet.requestHeights (w : LnTakerWallet P) (key : String) : List Nat :=
  w.history.filterMap (·.requestHeight key)

/-- Fewer blocks than the lock have come since the request. -/
def LnTakerWallet.inTime (w : LnTakerWallet P) (t : LnTakerTask P) : Bool :=
  t.claiming.all fun (key, htlc, _) =>
    (w.requestHeights key).all (w.chain.height < · + htlc.locktime)

/-- A contract with a key made for the request is in no block up to it. -/
def LnTakerWallet.fundedAfter (w : LnTakerWallet P) (t : LnTakerTask P) : Bool :=
  t.claiming.all fun (key, _, outpoint) => (w.requestHeights key).all fun requested =>
    (w.chain.txBlockHeight P outpoint.txid).all (requested < ·)

namespace LnClient

def claimsInTime (w : LnClient P) : LnClientAction P → Prop
  | .advance _ => w.task.all w.wallet.inTime = true
  | _ => True

def fundedAfterRequest (w : LnClient P) : LnClientAction P → Prop
  | .advance _ => w.task.all w.wallet.fundedAfter = true
  | _ => True

instance (w : LnClient P) : (a : LnClientAction P) → Decidable (w.claimsInTime a)
  | .advance _ => inferInstanceAs (Decidable (w.task.all w.wallet.inTime = true))
  | .call _ | .save | .chain _ | .restart => isTrue trivial

instance (w : LnClient P) : (a : LnClientAction P) → Decidable (w.fundedAfterRequest a)
  | .advance _ => inferInstanceAs (Decidable (w.task.all w.wallet.fundedAfter = true))
  | .call _ | .save | .chain _ | .restart => isTrue trivial

end LnClient

/-! ## Contracts of a request -/

def SwapHtlc.Built (taker : LnTaker P) (htlc : SwapHtlc) : Prop :=
  ∃ (hashlock timelock : P.PublicKey) (paymentHash : Bytes),
    htlc = .new taker.ripemd160 hashlock timelock paymentHash htlc.locktime

def Requested (history : List (LnTakerEffect P)) (key : String) : Prop :=
  ∃ height, .requested key height ∈ history

structure Claimable (taker : LnTaker P) (history : List (LnTakerEffect P)) (key : String)
    (htlc : SwapHtlc) : Prop where
  requested : Requested history key
  built : htlc.Built taker

variable {history history' : List (LnTakerEffect P)}

theorem Claimable.mono {key htlc} (h : Claimable taker history key htlc)
    (hsub : history ⊆ history') :
    Claimable taker history' key htlc := by
  obtain ⟨height, hmem⟩ := h.requested
  exact ⟨⟨height, hsub hmem⟩, h.built⟩

namespace LnTakerTask

def claims : LnTakerTask P → List (String × SwapHtlc)
  | .saveOut claim _ | .pay claim | .acceptFirst claim _ | .saveFirst _ claim
  | .saveSecond _ claim | .readFunded claim | .confirmFunding claim _ | .verifyFunding claim _
  | .recordFunding claim _ _ | .sendClaim claim _ _ => [(claim.key, claim.htlc)]
  | .fund _ claim | .sendFunding _ claim _ | .confirmOwn _ claim _ | .announce _ claim =>
    claim.toList.map fun claim => (claim.key, claim.htlc)
  | .recover records | .settle _ _ records =>
    (records.filter (!·.2.isSwapIn)).map fun e => (e.1, e.2.htlc)
  | _ => []

def requestKey : LnTakerTask P → Option String
  | .acceptOut req | .acceptSecond req => some req.key
  | _ => none

variable {key : String} {htlc : SwapHtlc} {outpoint : OutPoint} {history : List (LnTakerEffect P)}

theorem claims_of_claiming (h : t.claiming = some (key, htlc, outpoint)) :
    (key, htlc) ∈ t.claims := by
  unfold claiming at h
  split at h
  · cases h
    exact mem_singleton_self _
  · rename_i record rest
    split_ifs at h with hin
    obtain ⟨o, -, ho⟩ := Option.map_eq_some_iff.mp h
    cases ho
    exact mem_map.mpr
      ⟨(key, record), mem_filter.mpr ⟨mem_cons_self, by simpa using hin⟩, rfl⟩
  · cases h

theorem claims_recover_subset {e : String × LnPendingSwap P}
    {rest : List (String × LnPendingSwap P)} :
    (LnTakerTask.recover rest).claims ⊆ (LnTakerTask.recover (e :: rest)).claims := by
  intro c hc
  obtain ⟨r, hr, heq⟩ := mem_map.mp hc
  rw [mem_filter] at hr
  exact mem_map.mpr ⟨r, mem_filter.mpr ⟨mem_cons_of_mem _ hr.1, hr.2⟩, heq⟩

theorem Next.claims_cases (h : Next taker w answers t t') (hmem : (key, htlc) ∈ t'.claims) :
    (key, htlc) ∈ t.claims ∨ t.requestKey = some key ∧ htlc.Built taker := by
  cases h with
  | stay | saveFirst | announce | readFunded | confirmFunding | verifyFunding | recordFunding
  | recover => exact .inl (by simpa [claims] using hmem)
  | acceptIn | saveIn | awaitPayment => cases hmem
  | saveOut hclaim =>
    obtain ⟨hkey, hhtlc⟩ := acceptOut_eq_ok hclaim
    cases mem_singleton.mp hmem
    exact .inr ⟨by rw [hkey]; rfl, _, _, _, by rw [hhtlc]; rfl⟩
  | acceptFirst hfirst =>
    obtain ⟨-, accept, delta, hclaim⟩ := requestFirst_eq_ok hfirst
    obtain ⟨hkey, hhtlc⟩ := acceptOut_eq_ok hclaim
    cases mem_singleton.mp hmem
    exact .inr ⟨by rw [hkey]; rfl, _, _, _, by rw [hhtlc]; rfl⟩
  | settle => exact .inl (claims_recover_subset hmem)

/-- What a task claims, or waits to be told, belongs to a request that went out. -/
structure ClaimsOk (taker : LnTaker P) (history : List (LnTakerEffect P)) (t : LnTakerTask P) :
    Prop where
  request : ∀ key, t.requestKey = some key → Requested history key
  claims : ∀ key htlc, (key, htlc) ∈ t.claims → Claimable taker history key htlc

theorem ClaimsOk.mono (h : t.ClaimsOk taker history)
    (hsub : history ⊆ history') : t.ClaimsOk taker history' where
  request key hkey := (h.request key hkey).imp fun _ hmem => hsub hmem
  claims key htlc hmem := (h.claims key htlc hmem).mono hsub

theorem ClaimsOk.of_subset (h : t.ClaimsOk taker history) (hkey : t'.requestKey = none)
    (hsub : t'.claims ⊆ t.claims) : t'.ClaimsOk taker history where
  request key hsome := by
    rw [hkey] at hsome
    cases hsome
  claims key htlc hmem := h.claims key htlc (hsub hmem)

theorem Next.claimsOk (h : Next taker w answers t t') (ht : t.ClaimsOk taker history) :
    t'.ClaimsOk taker history where
  request key hkey := by
    cases h with
    | stay => exact ht.request key hkey
    | _ => cases hkey
  claims key htlc hmem := by
    rcases h.claims_cases hmem with hold | ⟨hkey, hbuilt⟩
    · exact ht.claims key htlc hold
    · exact ⟨ht.request key hkey, hbuilt⟩

theorem Stepped.claimsOk (h : Stepped taker w answers t w' next) (ht : t.ClaimsOk taker w.history)
    (hnext : next = some t') : t'.ClaimsOk taker w'.history := by
  have ht' := ht.mono h.history_suffix.subset
  cases h with
  | ended => cases hnext
  | next hq =>
    cases hnext
    exact hq.claimsOk ht
  | requestedOut | requestedSecond =>
    cases hnext
    refine ⟨fun key hkey => ?_, nofun⟩
    cases hkey
    exact ⟨_, mem_cons_self⟩
  | saved hs hn =>
    obtain rfl := eq_of_none_or_some hn hnext
    cases hs <;> exact ht'.of_subset rfl (by simp [LnTakerTask.claims])
  | filled hf hn =>
    obtain rfl := eq_of_none_or_some hn hnext
    cases hf <;> exact ht'.of_subset rfl (by simp [LnTakerTask.claims])
  | paid | paymentClaimed =>
    cases hnext
    exact ht'.of_subset rfl (by simp [LnTakerTask.claims])
  | fundingSent hn | claimSent _ hn =>
    obtain rfl := eq_of_none_or_some hn hnext
    exact ht'.of_subset rfl (by simp [LnTakerTask.claims])
  | refundSent | claimResent =>
    cases hnext
    exact ht'.of_subset rfl claims_recover_subset
  | removed hr hn =>
    rcases hn with rfl | rfl
    · cases hnext
    · cases hr with
      | swapIn | first => cases hnext
      | claimed =>
        obtain ⟨key, -, rfl⟩ := Option.map_eq_some_iff.mp hnext
        exact ⟨nofun, nofun⟩
      | uncommitted =>
        cases hnext
        exact ht'.of_subset rfl claims_recover_subset
      | settled =>
        cases hnext
        exact ht'.of_subset rfl fun _ h => h

theorem Stepped.claimSent_cases (h : Stepped taker w answers t w' next) {c}
    (hmem : .claimSent key htlc outpoint c ∈ w'.history) :
    .claimSent key htlc outpoint c ∈ w.history ∨
      t.claiming = some (key, htlc, outpoint) ∧ c = w.chain := by
  cases h with
  | ended | next => exact .inl hmem
  | requestedOut | requestedSecond | paid | fundingSent | paymentClaimed | refundSent =>
    rcases mem_cons.mp hmem with hnew | hold
    · cases hnew
    · exact .inl hold
  | claimSent =>
    rcases mem_cons.mp hmem with hnew | hold
    · cases hnew
      exact .inr ⟨rfl, rfl⟩
    · exact .inl hold
  | claimResent ho hout =>
    rcases mem_cons.mp hmem with hnew | hold
    · cases hnew
      exact .inr ⟨by simp [claiming, ho, hout], rfl⟩
    · exact .inl hold
  | saved =>
    rw [LnTakerWallet.savePendingSwap_history] at hmem
    exact .inl hmem
  | filled =>
    rw [LnTakerWallet.recordOutpoint_history] at hmem
    exact .inl hmem
  | @removed _ key' =>
    rcases w.removePendingSwap_cases key' answers.saved with ⟨-, heq⟩ | ⟨record, -, heq⟩
    · rw [heq, LnTakerWallet.saveToDisk_history] at hmem
      exact .inl hmem
    · rw [heq, LnTakerWallet.saveToDisk_history] at hmem
      rcases mem_cons.mp hmem with hnew | hold
      · cases hnew
      · exact .inl hold

end LnTakerTask

/-! ## The invariant -/

/-- Every record to claim with is that of a request. -/
def Backed (taker : LnTaker P) (history : List (LnTakerEffect P))
    (records : AList fun _ : String => LnPendingSwap P) : Prop :=
  ∀ key record, records.lookup key = some record → record.isSwapIn = false →
    Claimable taker history key record.htlc

theorem Backed.mono {records} (h : Backed taker history records) (hsub : history ⊆ history') :
    Backed taker history' records :=
  fun key record hrecord hout => (h key record hrecord hout).mono hsub

theorem LnTakerTask.Stepped.backed (h : LnTakerTask.Stepped taker w answers t w' next)
    (ht : t.ClaimsOk taker w.history) (hw : Backed taker w.history w.lnPendingSwaps) :
    Backed taker w'.history w'.lnPendingSwaps := by
  refine Backed.mono ?_ h.history_suffix.subset
  cases h with
  | ended | next | requestedOut | requestedSecond | paid | fundingSent | paymentClaimed | claimSent
  | refundSent | claimResent => exact hw
  | saved hs =>
    intro key record hrecord hout
    rw [LnTakerWallet.lookup_savePendingSwap] at hrecord
    split_ifs at hrecord with hkey
    · cases hrecord
      cases hs with
      | swapIn | first => cases hout
      | swapOut | second => exact hkey ▸ ht.claims _ _ (mem_singleton_self _)
    · exact hw key record hrecord hout
  | filled =>
    intro key record hrecord hout
    obtain ⟨before, hbefore, rfl⟩ := LnTakerWallet.lookup_recordOutpoint hrecord
    split_ifs at hout ⊢ <;> exact hw key before hbefore hout
  | removed =>
    intro key record hrecord hout
    exact hw key record (LnTakerWallet.lookup_of_removePendingSwap hrecord) hout

structure ClaimsOk (taker : LnTaker P) (w : LnClient P) : Prop where
  memory : Backed taker w.wallet.history w.wallet.lnPendingSwaps
  disk : Backed taker w.wallet.history w.wallet.disk
  task : ∀ t, w.task = some t → t.ClaimsOk taker w.wallet.history
  sent : ∀ key htlc outpoint c, .claimSent key htlc outpoint c ∈ w.wallet.history →
    htlc.Built taker ∧ ∀ confirmed, c.txBlockHeight P outpoint.txid = some confirmed →
      c.height < Chain.minableFrom confirmed htlc.locktime

namespace ClaimsOk

variable {w w' : LnClient P} {a : LnClientAction P}

theorem start (chain : Chain) : ClaimsOk taker (.start chain) where
  memory := nofun
  disk := nofun
  task := nofun
  sent := nofun

theorem begin (hw : ClaimsOk taker w) (call : LnCall) :
    (w.begin call).ClaimsOk taker w.wallet.history := by
  cases call with
  | swapIn | swapOut | routed => exact ⟨nofun, nofun⟩
  | recover =>
    refine ⟨nofun, fun key htlc hmem => ?_⟩
    obtain ⟨e, he, heq⟩ := mem_map.mp hmem
    rw [mem_filter] at he
    obtain ⟨s, hs, rfl⟩ := mem_map.mp he.1
    cases heq
    exact hw.memory _ _ (AList.mem_lookup_iff.mpr hs) (by simpa using he.2)

theorem inTime {key : String} {htlc : SwapHtlc} {outpoint : OutPoint}
    {wallet : LnTakerWallet P} (ht : t.ClaimsOk taker wallet.history)
    (hclaiming : t.claiming = some (key, htlc, outpoint)) (htime : wallet.inTime t)
    (hafter : wallet.fundedAfter t) :
    htlc.Built taker ∧ ∀ confirmed, wallet.chain.txBlockHeight P outpoint.txid = some confirmed →
      wallet.chain.height < Chain.minableFrom confirmed htlc.locktime := by
  have hclaim := ht.claims key htlc (LnTakerTask.claims_of_claiming hclaiming)
  refine ⟨hclaim.built, fun confirmed hconfirmed => ?_⟩
  obtain ⟨requested, hmem⟩ := hclaim.requested
  have hheight : requested ∈ wallet.requestHeights key :=
    mem_filterMap.mpr ⟨_, hmem, by simp [LnTakerEffect.requestHeight]⟩
  simp only [LnTakerWallet.inTime, LnTakerWallet.fundedAfter, hclaiming, Option.all_some,
    all_eq_true, decide_eq_true_eq, hconfirmed] at htime hafter
  have hbefore := htime requested hheight
  have hlater := hafter requested hheight
  rw [Chain.minableFrom]
  omega

theorem step (hw : ClaimsOk taker w) (htime : w.claimsInTime a) (hafter : w.fundedAfterRequest a)
    (h : w.step taker a = some w') : ClaimsOk taker w' := by
  cases LnClient.step_moved h with
  | began hwallet htask =>
    refine ⟨hwallet ▸ hw.memory, hwallet ▸ hw.disk, fun t ht => ?_, hwallet ▸ hw.sent⟩
    rw [htask, Option.some.injEq] at ht
    rw [← ht, hwallet]
    exact hw.begin _
  | stepped ha ht hstep =>
    subst ha
    simp only [LnClient.claimsInTime, LnClient.fundedAfterRequest, ht, Option.all_some]
      at htime hafter
    have hmemory := hstep.backed (hw.task _ ht) hw.memory
    refine ⟨hmemory, ?_, fun t' ht' => hstep.claimsOk (hw.task _ ht) ht', ?_⟩
    · rcases hstep.disk_cases with hdisk | hdisk
      · rw [hdisk]
        exact hw.disk.mono hstep.history_suffix.subset
      · rw [hdisk]
        exact hmemory
    · intro key htlc outpoint c hmem
      rcases hstep.claimSent_cases hmem with hold | ⟨hclaiming, rfl⟩
      · exact hw.sent key htlc outpoint c hold
      · exact inTime (hw.task _ ht) hclaiming htime hafter
  | saved _ hwallet htask =>
    refine ⟨?_, ?_, fun t ht => ?_, ?_⟩ <;> rw [hwallet]
    · exact hw.memory
    · exact hw.memory
    · exact hw.task t (htask ▸ ht)
    · exact hw.sent
  | chain hwallet htask =>
    refine ⟨?_, ?_, fun t ht => ?_, ?_⟩ <;> rw [hwallet]
    · exact hw.memory
    · exact hw.disk
    · exact hw.task t (htask ▸ ht)
    · exact hw.sent
  | restarted _ hwallet htask =>
    refine ⟨?_, ?_, fun t ht => ?_, ?_⟩ <;> rw [hwallet]
    · exact hw.disk
    · exact hw.disk
    · rw [htask] at ht
      cases ht
    · exact hw.sent

end ClaimsOk

/-- **Claims before the refund.**  When each claim goes out while fewer blocks than the lock
have come since the request, and the contract itself came after the request, every claim
was broadcast below the height from which its contract's refund can be in a block. -/
theorem claims_before_refund (taker : LnTaker P) (chain : Chain) {w : LnClient P}
    (hrun : Run.Reachable (LnClient.step · taker)
      (fun w a => w.fundedAfterRequest a ∧ w.claimsInTime a) (.start chain) w)
    {key : String} {htlc : SwapHtlc} {outpoint : OutPoint} {c : Chain}
    (hsent : .claimSent key htlc outpoint c ∈ w.wallet.history) :
    (∃ (hashlock timelock : P.PublicKey) (paymentHash : Bytes),
        htlc = .new taker.ripemd160 hashlock timelock paymentHash htlc.locktime) ∧
      ∀ confirmed, c.txBlockHeight P outpoint.txid = some confirmed →
        c.height < Chain.minableFrom confirmed htlc.locktime := by
  have hw : ClaimsOk taker w :=
    hrun.invariant (.start chain) fun _ _ _ hw hok h => hw.step hok.2 hok.1 h
  exact hw.sent key htlc outpoint c hsent

end

namespace SampleLnTaker

def claimsAtOnce : List (LnClientAction prims) := swapsOut ++ [.advance (answers none)]

def claimsLate : List (LnClientAction prims) :=
  swapsOut ++ [.restart, .chain ⟨funded.blocks ++ List.replicate 144 [], []⟩, .call .recover,
    .advance (answers none)]

def claimedLast (height : Nat) (w : LnClient prims) : Bool :=
  match w.wallet.history with
  | .claimSent key contract o c :: _ =>
    key = swapId ∧ contract = htlc ∧ o = outpoint ∧ c.txBlockHeight prims outpoint.txid = some 101 ∧
      c.height = height
  | _ => false

end SampleLnTaker

open SampleLnTaker in
theorem claims_before_refund_once :
    ∃ (w : LnClient prims) (c : Chain),
      Run.Reachable (LnClient.step · taker) (fun w a => w.fundedAfterRequest a ∧ w.claimsInTime a)
        (.start chain) w ∧
      .claimSent swapId htlc outpoint c ∈ w.wallet.history ∧
      c.txBlockHeight prims outpoint.txid = some 101 ∧ c.height < Chain.minableFrom 101 144 := by
  obtain ⟨w, hrun, hw⟩ : ∃ w, Run.Reachable (LnClient.step · taker)
      (fun w a => w.fundedAfterRequest a ∧ w.claimsInTime a) (.start chain) w ∧
      claimedLast 101 w = true :=
    Run.exists_reachable_of_exec claimsAtOnce (by decide +kernel)
  unfold claimedLast at hw
  split at hw
  · rename_i key contract o c older hhistory
    obtain ⟨rfl, rfl, rfl, hconfirmed, -⟩ := of_decide_eq_true hw
    have hmem : .claimSent swapId htlc outpoint c ∈ w.wallet.history :=
      hhistory ▸ mem_cons_self
    exact ⟨w, c, hrun, hmem, hconfirmed,
      (claims_before_refund taker chain hrun hmem).2 101 hconfirmed⟩
  · cases hw

open SampleLnTaker in
/-- A recovery claims a contract from the height on at which the maker's refund can be in a
block. -/
theorem claim_after_refund_opens :
    ∃ (w : LnClient prims) (c : Chain),
      Run.Reachable (LnClient.step · taker) (fun w a => w.freshSwap a ∧ w.fundedAfterRequest a)
        (.start chain) w ∧
      .claimSent swapId htlc outpoint c ∈ w.wallet.history ∧
      c.txBlockHeight prims outpoint.txid = some 101 ∧
      Chain.minableFrom 101 htlc.locktime ≤ c.height := by
  obtain ⟨w, hrun, hw⟩ : ∃ w, Run.Reachable (LnClient.step · taker)
      (fun w a => w.freshSwap a ∧ w.fundedAfterRequest a) (.start chain) w ∧
      claimedLast 245 w = true :=
    Run.exists_reachable_of_exec claimsLate (by decide +kernel)
  unfold claimedLast at hw
  split at hw
  · rename_i key contract o c older hhistory
    obtain ⟨rfl, rfl, rfl, hconfirmed, hheight⟩ := of_decide_eq_true hw
    exact ⟨w, c, hrun, hhistory ▸ mem_cons_self, hconfirmed, hheight ▸ (by decide)⟩
  · cases hw

end OpenSwap
