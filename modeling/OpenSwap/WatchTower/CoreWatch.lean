import OpenSwap.Base.Retry
import OpenSwap.WatchTower.Rebuild

/-!
# The watcher on Core

Core announces transactions as they enter the mempool and again when they are mined, and
whole blocks as they connect; notifications it lost are made up for by asking the node about
each watch.  All of these write the record of a watch, with or without the mark that the
spend is confirmed, and only the mark protects a record from a rival in the mempool.

* `reconcileWatch_kept`, `CoreWatcher.step_kept`: what keeps a confirmed record through one
  re-check and through one step.
-/

namespace OpenSwap

open Btc Checked CoreRpc List Option

variable {P : Prims}

inductive Spend where
  | found (tx : Transaction) (mined : Bool)
  | foundUnindexed (tx : Transaction)
  /-- no longer known when its confirmations are read -/
  | leftMempool (tx : Transaction)
  | none
  | unknown
deriving DecidableEq, Repr

/-- The calls of `lookup_spend`, in order. -/
structure LookupCalls (P : Prims) where
  prevout : Moment P
  raw : Moment P
  spender : Moment P
  mined : MinedCalls P
  minedSpender : Moment P
  unspent : Moment P
  synced : Moment P
  funding : Moment P

def lookupSpend (calls : LookupCalls P) (o : OutPoint) : Except WalletError Spend := do
  match ← mempoolSpendingTransaction calls.prevout calls.raw o with
  | some tx =>
    match ← txConfirmations calls.spender (P.txid tx) with
    | some confirmations => return .found tx (0 < confirmations)
    | none => return .leftMempool tx
  | none =>
    match ← minedSpendingTransaction calls.mined o with
    | some tx =>
      match ← txConfirmations calls.minedSpender (P.txid tx) with
      | some confirmations => return .found tx (0 < confirmations)
      | none => return .foundUnindexed tx
    | none =>
      if (← getTxOut calls.unspent o true).isSome then return .none
      else
        let synced ← txindexSynced calls.synced
        if (← txConfirmations calls.funding o.txid).any (0 < ·) then return .unknown
        else return if synced then .none else .unknown

/-- The calls of `reconcile_watch`. -/
structure RecheckCalls (P : Prims) where
  recorded : Moment P
  synced : Moment P
  txout : Moment P
  lookup : LookupCalls P

/-- The first half of a re-check: a spend on record as confirmed settles it, or stays while
the index cannot tell; `none` if the spend has to be looked up. -/
def recheckRecorded (calls : RecheckCalls P) (o : OutPoint) (watch : WatchRequest) :
    Except WalletError (Option Bool) := do
  match watch.spentTx, watch.inBlock with
  | some tx, true =>
    match ← txConfirmations calls.recorded (P.txid tx) with
    | some confirmations => return if 0 < confirmations then some true else none
    | none =>
      if ← txindexSynced calls.synced then return none
      else return if (← getTxOut calls.txout o false).isNone then some false else none
  | _, _ => return none

/-- What a looked up spend does to the registry, and whether it settles the re-check. -/
def Spend.record (P : Prims) (registry : FileRegistry) : Spend → Bool × FileRegistry
  | .found tx mined => (true, processTransaction P tx mined registry)
  | .foundUnindexed tx => (false, processTransaction P tx true registry)
  | .leftMempool tx => (false, processTransaction P tx false registry)
  | .none => (true, registry)
  | .unknown => (false, registry)

/-- Before the spend is looked up, only the confirmed mark goes: the transaction may carry the
only copy of a preimage. -/
def clearMark (o : OutPoint) (watch : WatchRequest) (registry : FileRegistry) : FileRegistry :=
  if watch.spentTx.isSome && watch.inBlock then
    registry.upsertWatch o { watch with inBlock := false }
  else registry

def reconcileWatch (calls : RecheckCalls P) (o : OutPoint) (watch : WatchRequest)
    (registry : FileRegistry) : Except WalletError Bool × FileRegistry :=
  match recheckRecorded calls o watch with
  | .error e => (.error e, registry)
  | .ok (some settled) => (.ok settled, registry)
  | .ok none =>
    match lookupSpend calls.lookup o with
    | .error e => (.error e, clearMark o watch registry)
    | .ok spend =>
      let recorded := spend.record P (clearMark o watch registry)
      (.ok recorded.1, recorded.2)

/-- `reconcile_watch` or `recheck_electrum_watch`: whether the re-check settles, with the
registry it leaves. -/
abbrev Recheck := OutPoint → WatchRequest → FileRegistry → Except WalletError Bool × FileRegistry

/-- A re-check within a pass, of a watch as it was when the pass began. -/
def settles (watches : FileRegistry) (recheck : Recheck) (registry : FileRegistry) (o : OutPoint) :
    Bool × FileRegistry :=
  match watches.lookup o with
  | none => (true, registry)
  | some watch =>
    match recheck o watch registry with
    | (.ok true, registry') => (true, registry')
    | (_, registry') => (false, registry')

/-- A pass over the queue: a re-check that does not settle ends it, and its watch goes to the
end of the queue. -/
def reconcileWatches (calls : OutPoint → RecheckCalls P) (watches : FileRegistry)
    (pending : List OutPoint) (registry : FileRegistry) : FileRegistry × List OutPoint :=
  Retry.pass (settles watches fun o => reconcileWatch (calls o) o) registry pending

/-! ## The machine -/

structure CoreWatcher where
  registry : FileRegistry
  pendingReconcile : List OutPoint
  known : Nat

inductive CoreWatchAction (P : Prims) where
  | register (o : OutPoint) (scriptPubkey : Bytes)
  | unwatch (o : OutPoint)
  /-- a transaction is announced, or is part of a scan of the mempool -/
  | txSeen (tx : Transaction)
  /-- the block of a height is announced, or read in a scan of the blocks -/
  | blockConnected (height : Nat)
  | missed
  | reconcile (calls : OutPoint → RecheckCalls P)
  | request (o : OutPoint) (funding : HeightCalls P) (txout : Moment P)

namespace CoreWatcher

variable (s : CoreWatcher)

def queueReconcile (o : OutPoint) : CoreWatcher :=
  if o ∈ s.pendingReconcile then s
  else { s with pendingReconcile := s.pendingReconcile ++ [o] }

/-- A failed query leaves a record alone. -/
def confirmRecordedSpend (funding : HeightCalls P) (txout : Moment P) (o : OutPoint) : Bool :=
  match isConfirmedSpend funding txout o with
  | .ok stillThere => stillThere
  | .error _ => true

def step (ledger : List (List Transaction)) : CoreWatchAction P → Option CoreWatcher
  | .register o spk => some { s with registry := s.registry.registerWatch o spk }
  | .unwatch o => some { s with registry := s.registry.removeWatch o }
  | .txSeen tx => some { s with registry := processTransaction P tx false s.registry }
  | .blockConnected height => ledger[height]?.map fun txdata =>
      { s with
        registry := processBlock P txdata s.registry
        known := max s.known (height + 1) }
  | .missed => some (s.registry.keys.foldl queueReconcile s)
  | .reconcile calls =>
    let done := reconcileWatches calls s.registry s.pendingReconcile s.registry
    some { s with registry := done.1, pendingReconcile := done.2 }
  | .request o funding txout =>
    some { s with
      registry :=
        afterWatchRequest ⟨confirmRecordedSpend funding txout o, false, none⟩ o s.registry }

def start : CoreWatcher := ⟨∅, [], 0⟩

end CoreWatcher

/-! ## A truthful node on a chain without reorganisations -/

/-- A call sees the node at or beyond some number of blocks of the ledger; what is in its
mempool is not mined, and nothing it lists is stale. -/
structure CoreNode.Follows (n : CoreNode P) (ledger : List (List Transaction)) (known : Nat) :
    Prop where
  blocks : ∃ k, known ≤ k ∧ n.chain.blocks = ledger.take k
  mempool : ∀ tx ∈ n.chain.mempool, n.chain.txBlockHeight P (P.txid tx) = none
  active : ∀ txid entry, n.txindex.lookup txid = some entry → entry.active

/-- The calls of a re-check see such a node, if they are answered. -/
structure RecheckCalls.Follow (calls : RecheckCalls P) (ledger : List (List Transaction))
    (known : Nat) : Prop where
  recorded : ∀ n, calls.recorded = some n → n.Follows ledger known
  txout : ∀ n, calls.txout = some n → n.Follows ledger known
  prevout : ∀ n, calls.lookup.prevout = some n → n.Follows ledger known
  spender : ∀ n, calls.lookup.spender = some n → n.Follows ledger known
  block : ∀ height n, calls.lookup.mined.block height = some n → n.Follows ledger known
  minedSpender : ∀ n, calls.lookup.minedSpender = some n → n.Follows ledger known

/-- An identifier commits to what a transaction spends. -/
def TxidCommits (P : Prims) (ledger : List (List Transaction)) : Prop :=
  ∀ block ∈ ledger, ∀ tx ∈ block, ∀ tx', P.txid tx' = P.txid tx →
    ∀ o, Transaction.spends o tx' = tx.spends o

namespace CoreWatcher

/-- What the environment does is that of a truthful node on the ledger. -/
def Truthful (ledger : List (List Transaction)) (s : CoreWatcher) : CoreWatchAction P → Prop
  | .reconcile calls => ∀ o, (calls o).Follow ledger s.known
  | .request _ _ txout => ∀ n, txout = some n → n.Follows ledger s.known
  | _ => True

/-- A spend on record as confirmed is not announced as unconfirmed; in a re-check the index
lists it, or has not caught up by the next call; at a query the index lists the funding. -/
def Orderly (s : CoreWatcher) : CoreWatchAction P → Prop
  | .txSeen tx => ∀ o watch recorded, s.registry.lookup o = some watch → watch.inBlock = true →
      watch.spentTx = some recorded → tx.spends o = true → P.txid tx ≠ P.txid recorded
  | .reconcile calls => ∀ o watch recorded, s.registry.lookup o = some watch →
      watch.inBlock = true → watch.spentTx = some recorded → ∀ n n', (calls o).recorded = some n →
      n.rawTransaction (P.txid recorded) = none → (calls o).synced = some n' → n'.synced = false
  | .request o funding _ => ∀ watch, s.registry.lookup o = some watch → watch.inBlock = true →
      ∀ n, funding.info = some n → ((n.rawTransaction o.txid).bind (·.block)).isSome = true
  | _ => True

end CoreWatcher

/-! ## What a mined spend rules out -/

/-- The transaction spends the outpoint in a block that the node has connected. -/
structure MinedBy (ledger : List (List Transaction)) (known : Nat) (o : OutPoint)
    (tx : Transaction) : Prop where
  block : ∃ i txdata, ledger[i]? = some txdata ∧ i < known ∧ tx ∈ txdata
  spends : tx.spends o

theorem exists_of_txBlockHeight {c : Chain} {txid : Bytes} (h : (c.txBlockHeight P txid).isSome) :
    ∃ (i : Nat) (txdata : List Transaction) (tx : Transaction), c.blocks[i]? = some txdata ∧
      tx ∈ txdata ∧ P.txid tx = txid := by
  obtain ⟨i, hi⟩ := isSome_iff_exists.mp h
  obtain ⟨hlt, hany, -⟩ := findIdx?_eq_some_iff_getElem.mp hi
  obtain ⟨tx, htx, hid⟩ := any_eq_true.mp hany
  exact ⟨i, _, tx, getElem?_eq_getElem hlt, htx, of_decide_eq_true hid⟩

section Mined

variable {ledger : List (List Transaction)} {known : Nat} {o : OutPoint} {spend : Transaction}
  {n : CoreNode P} {tx : Transaction} {txdata : List Transaction}

theorem CoreNode.Follows.getElem (hn : n.Follows ledger known) {height : Nat}
    (h : n.chain.blocks[height]? = some txdata) :
    ledger[height]? = some txdata := by
  obtain ⟨k, -, heq⟩ := hn.blocks
  rw [heq, getElem?_take] at h
  split at h
  · exact h
  · cases h

variable (h : MinedBy ledger known o spend)

include h

theorem MinedBy.mono {known'} (hle : known ≤ known') : MinedBy ledger known' o spend := by
  obtain ⟨i, txdata, hblock, hlt, htx⟩ := h.block
  exact ⟨⟨i, txdata, hblock, by omega, htx⟩, h.spends⟩

/-- Whatever the ledger has that spends the outpoint is this transaction. -/
theorem MinedBy.eq (honce : SpentOnce ledger) {i : Nat}
    (hblock : ledger[i]? = some txdata) (htx : tx ∈ txdata) (hspends : tx.spends o) :
    tx = spend := by
  obtain ⟨j, txdata', hblock', -, htx'⟩ := h.block
  exact (honce o i j txdata txdata' tx spend hblock htx hspends hblock' htx' h.spends).2

variable (hn : n.Follows ledger known)

include hn

theorem MinedBy.mem_blocks : ∃ txdata ∈ n.chain.blocks, spend ∈ txdata := by
  obtain ⟨i, txdata, hblock, hlt, htx⟩ := h.block
  obtain ⟨k, hk, heq⟩ := hn.blocks
  refine ⟨txdata, ?_, htx⟩
  rw [heq]
  exact mem_of_getElem? ((getElem?_take_of_lt (by omega)).trans hblock)

theorem MinedBy.height : (n.chain.txBlockHeight P (P.txid spend)).isSome = true := by
  obtain ⟨txdata, hblock, htx⟩ := h.mem_blocks hn
  exact txBlockHeight_isSome_of_mem hblock htx

theorem MinedBy.confirmations {info} (hinfo : n.rawTransaction (P.txid spend) = some info) :
    0 < info.confirmations :=
  CoreNode.confirmations_mined hn.mempool (hn.active _) (h.height hn) hinfo

theorem MinedBy.txOut (includeMempool : Bool) : n.txOut o includeMempool = none := by
  obtain ⟨txdata, hblock, htx⟩ := h.mem_blocks hn
  have hspent : n.chain.confirmedSpend o = true :=
    any_eq_true.mpr ⟨spend, mem_flatten.mpr ⟨txdata, hblock, htx⟩, h.spends⟩
  rw [CoreNode.txOut, if_pos hspent]

theorem MinedBy.ne_mempool (htx : tx ∈ n.chain.mempool) : P.txid tx ≠ P.txid spend := by
  intro hid
  have hheight := h.height hn
  rw [← hid, hn.mempool tx htx] at hheight
  cases hheight

end Mined

/-! ## One re-check -/

section Recheck

variable {ledger : List (List Transaction)} {known : Nat} {o : OutPoint} {spend : Transaction}
  {registry : FileRegistry} {found : Spend} {calls : RecheckCalls P} {tx : Transaction}
  {inBlock : Bool} {o' : OutPoint} {watch : WatchRequest}

/-- An announcement keeps a record that it does not concern, that it repeats as confirmed, or
that it rivals unconfirmed. -/
theorem recorded_processTransaction (h : registry.Recorded o spend)
    (htx : tx.spends o → inBlock = false ∧ P.txid tx ≠ P.txid spend ∨
      inBlock ∧ tx = spend) :
    (processTransaction P tx inBlock registry).Recorded o spend := by
  obtain ⟨watch, hwatch, hspent, hmark⟩ := h
  rw [FileRegistry.Recorded, lookup_processTransaction]
  split
  · rename_i hspends
    rw [hwatch, map_some]
    refine ⟨_, rfl, ?_⟩
    rcases htx hspends with ⟨rfl, hne⟩ | ⟨rfl, rfl⟩
    · rw [WatchRequest.afterSpend,
        if_pos (by simp [WatchRequest.keepsRecord, hspent, hmark, hne.symm])]
      exact ⟨hspent, hmark⟩
    · rw [WatchRequest.afterSpend_inBlock]
      exact ⟨rfl, rfl⟩
  · exact ⟨watch, hwatch, hspent, hmark⟩

/-- The transaction a spend puts on record, and whether as confirmed. -/
def Spend.announced : Spend → Option (Transaction × Bool)
  | .found tx mined => some (tx, mined)
  | .foundUnindexed tx => some (tx, true)
  | .leftMempool tx => some (tx, false)
  | .none | .unknown => Option.none

theorem Spend.recorded_record (h : registry.Recorded o spend)
    (hfound : ∀ tx inBlock, found.announced = some (tx, inBlock) → tx.spends o →
      inBlock = false ∧ P.txid tx ≠ P.txid spend ∨ inBlock ∧ tx = spend) :
    (found.record P registry).2.Recorded o spend := by
  cases found with
  | found tx mined => exact recorded_processTransaction h (hfound tx mined rfl)
  | foundUnindexed tx => exact recorded_processTransaction h (hfound tx true rfl)
  | leftMempool tx => exact recorded_processTransaction h (hfound tx false rfl)
  | none | unknown => exact h

/-- A looked up spend comes from the mempool, and is confirmed only if it is mined since, or
from a block; there is none if the output is unspent, or if the funding is not confirmed
after the index had caught up. -/
theorem lookupSpend_cases {calls : LookupCalls P} (h : lookupSpend calls o = .ok found) :
    (∃ tx inBlock n spender, found.announced = some (tx, inBlock) ∧ calls.prevout = some n ∧
      spender ∈ n.chain.mempool ∧ spender.spends o ∧ P.txid tx = P.txid spender ∧
      (inBlock → ∃ n' info, calls.spender = some n' ∧
        n'.rawTransaction (P.txid tx) = some info ∧ 0 < info.confirmations)) ∨
    (∃ tx inBlock height n txdata, found.announced = some (tx, inBlock) ∧
      calls.mined.block height = some n ∧ n.chain.blocks[height]? = some txdata ∧ tx ∈ txdata ∧
      tx.spends o ∧ (inBlock = false → ∃ n' info, calls.minedSpender = some n' ∧
        n'.rawTransaction (P.txid tx) = some info ∧ info.confirmations = 0)) ∨
    found = .none ∧ (∃ n, calls.unspent = some n ∧ (n.txOut o true).isSome) ∨
    found = .none ∧ (∃ n n' n'', calls.prevout = some n ∧
      n.chain.mempool.any (·.spends o) = false ∧ calls.synced = some n' ∧ n'.synced ∧
      calls.funding = some n'' ∧
      ((n''.rawTransaction o.txid).map (·.confirmations)).any (0 < ·) = false) ∨
    found = .unknown := by
  rw [lookupSpend, bind_ok_iff] at h
  obtain ⟨pooled, hpooled, h⟩ := h
  split at h
  · rename_i tx'
    refine .inl ?_
    obtain ⟨n, n', spender, info, hn, hspender, hspends, -, hinfo, rfl⟩ :=
      mempoolSpendingTransaction_eq_some hpooled
    obtain ⟨confirmations, hconf, h⟩ := bind_ok_iff.mp h
    obtain ⟨n'', hn'', hraw⟩ := txConfirmations_eq_ok.mp hconf
    have hid := CoreNode.rawTransaction_txid hinfo
    split at h
    · cases h
      obtain ⟨info', hinfo', rfl⟩ := map_eq_some_iff.mp hraw
      exact ⟨_, _, n, spender, rfl, hn, hspender, hspends, hid,
        fun hpos => ⟨n'', info', hn'', hinfo', of_decide_eq_true hpos⟩⟩
    · cases h
      exact ⟨_, _, n, spender, rfl, hn, hspender, hspends, hid, nofun⟩
  · obtain ⟨mined, hmined, h⟩ := bind_ok_iff.mp h
    split at h
    · rename_i tx'
      refine .inr (.inl ?_)
      obtain ⟨height, n, txdata, hn, hblock, htx, hspends⟩ :=
        minedSpendingTransaction_eq_some hmined
      obtain ⟨confirmations, hconf, h⟩ := bind_ok_iff.mp h
      obtain ⟨n'', hn'', hraw⟩ := txConfirmations_eq_ok.mp hconf
      split at h
      · cases h
        obtain ⟨info', hinfo', rfl⟩ := map_eq_some_iff.mp hraw
        exact ⟨_, _, height, n, txdata, rfl, hn, hblock, htx, hspends,
          fun hzero => ⟨n'', info', hn'', hinfo', by simpa using hzero⟩⟩
      · cases h
        exact ⟨_, _, height, n, txdata, rfl, hn, hblock, htx, hspends, nofun⟩
    · obtain ⟨out, hout, h⟩ := bind_ok_iff.mp h
      split at h
      · rename_i hsome
        cases h
        obtain ⟨n, hn, rfl⟩ := getTxOut_eq_ok.mp hout
        exact .inr (.inr (.inl ⟨rfl, n, hn, hsome⟩))
      · obtain ⟨synced, hsynced, h⟩ := bind_ok_iff.mp h
        obtain ⟨n', hn', rfl⟩ := txindexSynced_eq_ok.mp hsynced
        obtain ⟨funding, hfunding, h⟩ := bind_ok_iff.mp h
        obtain ⟨n'', hn'', rfl⟩ := txConfirmations_eq_ok.mp hfunding
        split at h
        · cases h
          simp
        · rename_i hany
          cases h
          split
          · rename_i hcaught
            obtain ⟨n, hn, hpool⟩ := mempoolSpendingTransaction_eq_none hpooled
            exact .inr (.inr (.inr (.inl ⟨rfl, n, n', n'', hn, hpool, hn', hcaught, hn'',
              by simpa using hany⟩)))
          · simp

theorem recheckRecorded_settles (hmined : MinedBy ledger known o spend)
    (hcalls : calls.Follow ledger known) (hspent : watch.spentTx = some spend)
    (hmark : watch.inBlock)
    (hsteady : ∀ n n', calls.recorded = some n → n.rawTransaction (P.txid spend) = none →
      calls.synced = some n' → n'.synced = false) :
    recheckRecorded calls o watch ≠ .ok none := by
  intro h
  rw [recheckRecorded, hspent, hmark] at h
  obtain ⟨confirmations, hconf, h⟩ := bind_ok_iff.mp h
  obtain ⟨n, hn, hraw⟩ := txConfirmations_eq_ok.mp hconf
  split at h
  · obtain ⟨info, hinfo, rfl⟩ := map_eq_some_iff.mp hraw
    rw [if_pos (hmined.confirmations (hcalls.recorded n hn) hinfo)] at h
    cases h
  · obtain ⟨synced, hsynced, h⟩ := bind_ok_iff.mp h
    obtain ⟨n', hn', rfl⟩ := txindexSynced_eq_ok.mp hsynced
    rw [hsteady n n' hn (map_eq_none_iff.mp hraw) hn'] at h
    obtain ⟨out, hout, h⟩ := bind_ok_iff.mp h
    obtain ⟨n'', hn'', rfl⟩ := getTxOut_eq_ok.mp hout
    rw [hmined.txOut (hcalls.txout n'' hn'')] at h
    cases h

variable (honce : SpentOnce ledger) (hcommits : TxidCommits P ledger)
  (hmined : MinedBy ledger known o spend)

include honce hcommits hmined

theorem lookupSpend_kept (hcalls : calls.Follow ledger known)
    (h : lookupSpend calls.lookup o' = .ok found) (hrecorded : registry.Recorded o spend) :
    (found.record P registry).2.Recorded o spend := by
  refine Spend.recorded_record hrecorded fun tx inBlock hannounced hspends => ?_
  rcases lookupSpend_cases h with ⟨_, _, n, spender, hfound, hn, hspender, -, hid, hconf⟩ |
    ⟨_, _, height, n, txdata, hfound, hn, hblock, htx, -, hconf⟩ | ⟨rfl, -⟩ | ⟨rfl, -⟩ | rfl
  · cases hfound.symm.trans hannounced
    have hne : P.txid tx ≠ P.txid spend := by
      rw [hid]
      exact hmined.ne_mempool (hcalls.prevout n hn) hspender
    cases inBlock with
    | false => exact .inl ⟨rfl, hne⟩
    | true =>
      -- mined since: then the ledger has it, and it would have to be the one on record
      obtain ⟨n', info, hn', hinfo, hpos⟩ := hconf rfl
      obtain ⟨i, txdata, tx', hblock, htx', hid'⟩ :=
        exists_of_txBlockHeight (CoreNode.confirmations_pos hinfo hpos)
      have hledger := (hcalls.spender n' hn').getElem hblock
      have hspends' : tx'.spends o = true :=
        (hcommits txdata (mem_of_getElem? hledger) tx' htx' tx hid'.symm o).symm.trans hspends
      have heq := hmined.eq honce hledger htx' hspends'
      exact absurd (by rw [← hid', heq]) hne
  · cases hfound.symm.trans hannounced
    have hledger := (hcalls.block height n hn).getElem hblock
    have heq := hmined.eq honce hledger htx hspends
    cases inBlock with
    | true => exact .inr ⟨rfl, heq⟩
    | false =>
      obtain ⟨n', info, hn', hinfo, hzero⟩ := hconf rfl
      rw [heq] at hinfo
      have hpos := hmined.confirmations (hcalls.minedSpender n' hn') hinfo
      omega
  all_goals cases hannounced

theorem reconcileWatch_kept (hcalls : calls.Follow ledger known)
    (hrecorded : registry.Recorded o spend)
    (hown : o' = o → recheckRecorded calls o watch ≠ .ok none) :
    (reconcileWatch calls o' watch registry).2.Recorded o spend := by
  unfold reconcileWatch
  split
  · exact hrecorded
  · exact hrecorded
  · rename_i hnone
    have hne : o ≠ o' := fun heq => hown heq.symm (heq ▸ hnone)
    have hcleared : (clearMark o' watch registry).Recorded o spend := by
      unfold clearMark
      split
      · obtain ⟨w, hw, hrest⟩ := hrecorded
        exact ⟨w, (AList.lookup_insert_ne hne).trans hw, hrest⟩
      · exact hrecorded
    split
    · exact hcleared
    · rename_i hlookup
      exact lookupSpend_kept honce hcommits hmined hcalls hlookup hcleared

theorem reconcileWatches_kept {calls : OutPoint → RecheckCalls P}
    (hcalls : ∀ o, (calls o).Follow ledger known) {watches}
    (hown : ∀ watch, watches.lookup o = some watch → recheckRecorded (calls o) o watch ≠ .ok none)
    {pending} (hrecorded : registry.Recorded o spend) :
    (reconcileWatches calls watches pending registry).1.Recorded o spend := by
  refine Retry.pass_invariant (I := (FileRegistry.Recorded · o spend)) hrecorded fun r o' hr => ?_
  unfold settles
  split
  · exact hr
  · rename_i watch hwatch
    have hkept : (reconcileWatch (calls o') o' watch r).2.Recorded o spend :=
      reconcileWatch_kept honce hcommits hmined (hcalls o') hr
        fun heq => heq ▸ hown watch (heq ▸ hwatch)
    split <;> rename_i heq <;> rwa [show reconcileWatch _ _ _ _ = _ from heq] at hkept

end Recheck

/-! ## Runs -/

namespace CoreWatcher

variable {ledger : List (List Transaction)} {o : OutPoint} {spend : Transaction}
  {s s' : CoreWatcher}

theorem registry_foldl_queueReconcile (keys : List OutPoint) (s : CoreWatcher) :
    (keys.foldl queueReconcile s).registry = s.registry ∧
      (keys.foldl queueReconcile s).known = s.known := by
  induction keys generalizing s with
  | nil => exact ⟨rfl, rfl⟩
  | cons key rest ih =>
    have hqueue : (s.queueReconcile key).registry = s.registry ∧
        (s.queueReconcile key).known = s.known := by
      unfold queueReconcile
      split <;> exact ⟨rfl, rfl⟩
    exact ⟨(ih _).1.trans hqueue.1, (ih _).2.trans hqueue.2⟩

/-- The spend is mined where the node has come, and on record as confirmed. -/
structure Kept (ledger : List (List Transaction)) (o : OutPoint) (spend : Transaction)
    (s : CoreWatcher) : Prop where
  mined : MinedBy ledger s.known o spend
  recorded : s.registry.Recorded o spend

theorem confirmRecordedSpend_mined {known : Nat} (hmined : MinedBy ledger known o spend)
    {funding : HeightCalls P} {txout : Moment P}
    (hlisted : ∀ n, funding.info = some n → ((n.rawTransaction o.txid).bind (·.block)).isSome)
    (htxout : ∀ n, txout = some n → n.Follows ledger known) :
    confirmRecordedSpend funding txout o = true := by
  unfold confirmRecordedSpend
  split
  · rename_i stillThere h
    rw [isConfirmedSpend, bind_ok_iff] at h
    obtain ⟨height, hheight, h⟩ := h
    split at h
    · rename_i hnone
      rw [isNone_iff_eq_none] at hnone
      rw [hnone, txBlockHeight, bind_ok_iff] at hheight
      obtain ⟨n, hn, hheight⟩ := hheight
      have hsome := hlisted n (ask_eq_ok.mp hn)
      split at hheight
      · rename_i hblock
        rw [hblock] at hsome
        cases hsome
      · obtain ⟨_, -, hheight⟩ := bind_ok_iff.mp hheight
        cases hheight
    · obtain ⟨out, hout, h⟩ := bind_ok_iff.mp h
      obtain ⟨n, hn, rfl⟩ := getTxOut_eq_ok.mp hout
      rw [hmined.txOut (htxout n hn)] at h
      cases h
      rfl
  · rfl

theorem Kept.step (honce : SpentOnce ledger) (hcommits : TxidCommits P ledger)
    {a : CoreWatchAction P} (hs : s.Kept ledger o spend) (htrue : s.Truthful ledger a)
    (horderly : s.Orderly a) (hwatched : a ≠ .unwatch o) (h : s.step ledger a = some s') :
    s'.Kept ledger o spend := by
  obtain ⟨hmined, hrecorded⟩ := hs
  obtain ⟨watch, hwatch, hspent, hmark⟩ := id hrecorded
  cases a with
  | register o' spk =>
    cases h
    exact ⟨hmined, recorded_registerWatch.mpr hrecorded⟩
  | unwatch o' =>
    cases h
    have hne : o ≠ o' := fun heq => hwatched (by rw [heq])
    exact ⟨hmined, watch, (AList.lookup_erase_ne hne).trans hwatch, hspent, hmark⟩
  | txSeen tx =>
    cases h
    exact ⟨hmined, recorded_processTransaction hrecorded fun hspends =>
      .inl ⟨rfl, horderly o watch spend hwatch hmark hspent hspends⟩⟩
  | blockConnected height =>
    obtain ⟨txdata, hblock, rfl⟩ := map_eq_some_iff.mp h
    refine ⟨hmined.mono (Nat.le_max_left ..), ?_⟩
    obtain ⟨i, txdata', hblock', -, htx⟩ := hmined.block
    have hlookup := lookup_processBlock_on (P := P) honce hblock' htx hmined.spends hblock
      s.registry
    rw [hwatch] at hlookup
    split at hlookup
    · exact ⟨watch.confirmed spend, hlookup, rfl, rfl⟩
    · exact ⟨watch, hlookup, hspent, hmark⟩
  | missed =>
    cases h
    obtain ⟨hregistry, hknown⟩ := registry_foldl_queueReconcile s.registry.keys s
    refine ⟨?_, ?_⟩
    · rw [hknown]
      exact hmined
    · rw [hregistry]
      exact hrecorded
  | reconcile calls =>
    cases h
    refine ⟨hmined, reconcileWatches_kept honce hcommits hmined htrue (fun watch' hwatch' => ?_)
      hrecorded⟩
    cases hwatch.symm.trans hwatch'
    exact recheckRecorded_settles hmined (htrue o) hspent hmark
      (horderly o watch spend hwatch hmark hspent)
  | request o' funding txout =>
    cases h
    refine ⟨hmined, ?_⟩
    unfold afterWatchRequest
    split
    · exact hrecorded
    · rename_i watch' hwatch'
      by_cases heq : o = o'
      · subst heq
        rw [confirmRecordedSpend_mined hmined (horderly watch hwatch hmark) htrue]
        simpa using hrecorded
      · split
        · exact ⟨watch, (AList.lookup_insert_ne heq).trans hwatch, hspent, hmark⟩
        · exact hrecorded

theorem Kept.of_block (honce : SpentOnce ledger) {height txdata}
    (hwatched : (s.registry.lookup o).isSome) (hblock : ledger[height]? = some txdata)
    (htx : spend ∈ txdata) (hspends : spend.spends o)
    (h : s.step ledger (.blockConnected height : CoreWatchAction P) = some s') :
    s'.Kept ledger o spend := by
  rw [CoreWatcher.step, hblock, map_some] at h
  cases h
  obtain ⟨watch, hwatch⟩ := isSome_iff_exists.mp hwatched
  refine ⟨⟨⟨height, txdata, hblock, ?_, htx⟩, hspends⟩, watch.confirmed spend, ?_, rfl, rfl⟩
  · change height < max s.known (height + 1)
    omega
  · refine (lookup_processBlock_on honce hblock htx hspends hblock s.registry).trans ?_
    rw [if_pos rfl, hwatch, map_some]

end CoreWatcher

/-- **Confirmed records.**  On a chain without reorganisations, the spend of a watched outpoint in
a processed block stays on record as confirmed through every `Orderly` run that does not unwatch
the outpoint. -/
theorem confirmed_record_kept {ledger : List (List Transaction)} (honce : SpentOnce ledger)
    (hcommits : TxidCommits P ledger) {s s' s'' : CoreWatcher} {o : OutPoint} {height : Nat}
    {txdata : List Transaction} {spend : Transaction}
    (hwatched : (s.registry.lookup o).isSome = true) (hblock : ledger[height]? = some txdata)
    (htx : spend ∈ txdata) (hspends : spend.spends o = true)
    (h : s.step ledger (.blockConnected height : CoreWatchAction P) = some s')
    (hrun : Run.Reachable (fun s (a : CoreWatchAction P) => s.step ledger a)
      (fun s a => s.Truthful ledger a ∧ s.Orderly a ∧ a ≠ .unwatch o) s' s'') :
    s''.registry.Recorded o spend := by
  have hkept : s''.Kept ledger o spend :=
    hrun.invariant (.of_block honce hwatched hblock htx hspends h)
      fun _ _ _ hs hok hstep => hs.step honce hcommits hok.1 hok.2.1 hok.2.2 hstep
  exact hkept.recorded

/-! ## A spend announced again after its block -/

namespace SampleWatch

/-- The contract is registered and the block with its spend arrives. -/
def watching : CoreWatcher := ⟨FileRegistry.registerWatch contract contractScript ∅, [], 0⟩

def spendSeen : CoreWatcher := ⟨processBlock prims [spendTx] watching.registry, [], 3⟩

def recheckCalls : RecheckCalls prims where
  recorded := some currentNode
  synced := some currentNode
  txout := some currentNode
  lookup :=
    { prevout := some currentNode
      raw := some currentNode
      spender := some currentNode
      mined := ⟨some currentNode, ⟨some currentNode, some currentNode⟩, some currentNode,
        fun _ => some currentNode⟩
      minedSpender := some currentNode
      unspent := some currentNode
      synced := some currentNode
      funding := some currentNode }

theorem currentNode_follows : currentNode.Follows ledger 3 where
  blocks := ⟨4, by decide, rfl⟩
  mempool := fun _ h => (nomatch h)
  active txid entry h := by
    have hactive : currentNode.txindex.entries.all (·.2.active) = true := by decide +kernel
    exact all_eq_true.mp hactive _ (AList.lookup_eq_some.mp h)

theorem recheckCalls_follow : recheckCalls.Follow ledger 3 where
  recorded _ h := by cases h; exact currentNode_follows
  txout _ h := by cases h; exact currentNode_follows
  prevout _ h := by cases h; exact currentNode_follows
  spender _ h := by cases h; exact currentNode_follows
  block _ _ h := by cases h; exact currentNode_follows
  minedSpender _ h := by cases h; exact currentNode_follows

theorem spends_stripWitness (o : OutPoint) (tx : Transaction) :
    tx.stripWitness.spends o = tx.spends o := by
  simp [Transaction.spends, Transaction.stripWitness, Function.comp_def]

theorem ledger_txidCommits : TxidCommits prims ledger := by
  have hlisted : ledger.flatten.all (fun tx => prims.txid tx ≠ List.replicate 32 0 ∧
      tables.txid.all (fun e => e.2 = prims.txid tx → e.1 = tx)) = true := by decide +kernel
  intro block hblock tx htx tx' hid o
  obtain ⟨hne, hall⟩ := of_decide_eq_true
    (all_eq_true.mp hlisted tx (mem_flatten.mpr ⟨block, hblock, htx⟩))
  have hmem := mem_of_digest_eq hid hne
  have heq : tx'.stripWitness = tx := of_decide_eq_true (all_eq_true.mp hall _ hmem) rfl
  rw [← spends_stripWitness, heq]

theorem lookup_spendSeen {o watch} (h : spendSeen.registry.lookup o = some watch) :
    o = contract ∧ watch = ⟨contractScript, true, some spendTx⟩ := by
  have hentries : spendSeen.registry.entries.all (fun e => e.1 = contract ∧
      e.2 = ⟨contractScript, true, some spendTx⟩) = true := by decide +kernel
  exact of_decide_eq_true (all_eq_true.mp hentries _ (AList.lookup_eq_some.mp h))

end SampleWatch

open SampleWatch in
theorem confirmed_record_kept_rechecked :
    ∃ s, Run.Reachable (fun s (a : CoreWatchAction prims) => s.step ledger a)
        (fun s a => s.Truthful ledger a ∧ s.Orderly a ∧ a ≠ .unwatch contract) spendSeen s ∧
      s.pendingReconcile = [] ∧ s.registry.Recorded contract spendTx := by
  have hqueued : Run.Reachable (fun s (a : CoreWatchAction prims) => s.step ledger a)
      (fun s a => s.Truthful ledger a ∧ s.Orderly a ∧ a ≠ .unwatch contract) spendSeen
      { spendSeen with pendingReconcile := [contract] } :=
    .step (a := .missed) .init ⟨trivial, trivial, nofun⟩ rfl
  have hrechecked : Run.Reachable (fun s (a : CoreWatchAction prims) => s.step ledger a)
      (fun s a => s.Truthful ledger a ∧ s.Orderly a ∧ a ≠ .unwatch contract)
      spendSeen spendSeen := by
    refine .step (a := .reconcile fun _ => recheckCalls) hqueued
      ⟨fun _ => recheckCalls_follow, ?_, nofun⟩ rfl
    intro o watch recorded hwatch _ hspent n n' hn hnone
    obtain ⟨-, rfl⟩ := lookup_spendSeen hwatch
    cases hspent
    cases hn
    have hsome : (currentNode.rawTransaction (prims.txid spendTx)).isSome = true := by
      decide +kernel
    rw [hnone] at hsome
    cases hsome
  have hrun : Run.Reachable (fun s (a : CoreWatchAction prims) => s.step ledger a)
      (fun s a => s.Truthful ledger a ∧ s.Orderly a ∧ a ≠ .unwatch contract) spendSeen
      ⟨processTransaction prims rivalTx false spendSeen.registry, [], 3⟩ := by
    refine .step (a := .txSeen rivalTx) hrechecked ⟨trivial, ?_, nofun⟩ rfl
    intro o watch recorded hwatch _ hspent _
    obtain ⟨-, rfl⟩ := lookup_spendSeen hwatch
    cases hspent
    decide +kernel
  have hblock : watching.step ledger (.blockConnected 2 : CoreWatchAction prims) = some spendSeen :=
    rfl
  exact ⟨_, hrun, rfl, confirmed_record_kept ledger_spentOnce ledger_txidCommits
    (by decide +kernel) rfl mem_cons_self (by decide +kernel) hblock hrun⟩

open SampleWatch in
/-- Core announces the spend once more after its block, and then another one: the first
announcement takes the confirmed mark, the second the record. -/
theorem record_lost_to_rival :
    watching.step ledger (.blockConnected 2 : CoreWatchAction prims) = some spendSeen ∧
    spendSeen.registry.Recorded contract spendTx ∧
    ∃ s, Run.Reachable (fun s (a : CoreWatchAction prims) => s.step ledger a)
      (fun s a => s.Truthful ledger a ∧ a ≠ .unwatch contract) spendSeen s ∧
      s.registry.lookup contract = some ⟨contractScript, false, some rivalTx⟩ := by
  refine ⟨by rfl, ⟨⟨contractScript, true, some spendTx⟩, by decide +kernel, rfl, rfl⟩, _,
    .step (a := .txSeen rivalTx) (.step (a := .txSeen spendTx) .init ⟨trivial, nofun⟩ rfl)
      ⟨trivial, nofun⟩ rfl, by decide +kernel⟩

end OpenSwap
