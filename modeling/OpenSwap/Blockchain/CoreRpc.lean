import OpenSwap.Base.Checked
import OpenSwap.Base.Maps
import OpenSwap.Btc.Chain
import OpenSwap.Protocol.Common

/-!
# The Core backend

What a Bitcoin Core node answers, and the lookups the program makes of it.  Every remote
call sees the node at a moment of its own, and fails on its own: a lookup that makes several
calls takes one `Moment` for each.  The transaction index of a node lags behind its chain,
and goes on listing a transaction under its stale block when a reorganisation has undone it.

* `CoreNode.confirmations_pos`: confirmations are those of the active chain.
* `txBlockHeight_eq_some`, `mempoolSpendingTransaction_eq_some`,
  `minedSpendingTransaction_eq_some` say what an answer rests on, moment by moment.
-/

namespace OpenSwap

open Btc Checked List

variable {P : Prims}

/-- A transaction as the index lists it: the height of its block, and whether that block is
part of the active chain. -/
structure IndexEntry where
  tx : Transaction
  height : Nat
  active : Bool
deriving DecidableEq, Repr

/-- A node at one moment.  Its index may lag behind, but it tells blocks of the active chain
from stale ones. -/
structure CoreNode (P : Prims) where
  chain : Chain
  txindex : AList fun _ : Bytes => IndexEntry
  synced : Bool
  lists_own : ∀ txid entry, txindex.lookup txid = some entry → P.txid entry.tx = txid
  lists_active : ∀ txid entry, txindex.lookup txid = some entry → entry.active →
    chain.txBlockHeight P txid = some entry.height

def CoreNode.ofChecked (chain : Chain) (txindex : AList fun _ : Bytes => IndexEntry) (synced : Bool)
    (h : txindex.entries.all (fun e => P.txid e.2.tx = e.1 ∧
      (e.2.active = true → chain.txBlockHeight P e.1 = some e.2.height)) = true) : CoreNode P where
  chain := chain
  txindex := txindex
  synced := synced
  lists_own _ _ hentry :=
    (of_decide_eq_true (all_eq_true.mp h _ (AList.lookup_eq_some.mp hentry))).1
  lists_active _ _ hentry :=
    (of_decide_eq_true (all_eq_true.mp h _ (AList.lookup_eq_some.mp hentry))).2

/-- The node a call reaches; `none` if the call fails. -/
abbrev Moment (P : Prims) := Option (CoreNode P)

/-- The reply to `getrawtransaction`. -/
structure RawTransactionInfo where
  tx : Transaction
  confirmations : Nat
  /-- the height of the block, active or stale, that is named -/
  block : Option Nat

def isUnspendable (script : Bytes) : Bool := script.head? = some 0x6a || 10000 < script.length

namespace CoreNode

variable (n : CoreNode P)

/-- The output an outpoint names, as far as the active chain creates one to be spent. -/
def created (o : OutPoint) : Option TxOut :=
  ((n.chain.blocks.flatten.find? (P.txid · = o.txid)).bind (·.output[o.vout]?)).filter
    fun out => !isUnspendable out.scriptPubkey

/-- The reply to `gettxout`: the set of unspent outputs of the active chain, and on demand
the mempool on top of it. -/
def txOut (o : OutPoint) (includeMempool : Bool) : Option TxOut :=
  if n.chain.confirmedSpend o then none
  else if includeMempool then
    if n.chain.mempool.any (·.spends o) then none
    else (n.created o).or
      ((n.chain.mempool.find? (P.txid · = o.txid)).bind (·.output[o.vout]?))
  else n.created o

/-- The mempool goes before the index. -/
def rawTransaction (txid : Bytes) : Option RawTransactionInfo :=
  match n.chain.mempool.find? (P.txid · = txid) with
  | some tx => some ⟨tx, 0, none⟩
  | none => (n.txindex.lookup txid).map fun entry =>
      ⟨entry.tx, if entry.active then n.chain.height + 1 - entry.height else 0, some entry.height⟩

end CoreNode

/-! ## Lookups -/

namespace CoreRpc

variable (m : Moment P)

def ask : Except WalletError (CoreNode P) := okOr m .rpc

def txConfirmations (txid : Bytes) : Except WalletError (Option Nat) := do
  let n ← ask m
  return (n.rawTransaction txid).map (·.confirmations)

def txindexSynced : Except WalletError Bool := do
  return (← ask m).synced

def getTxOut (o : OutPoint) (includeMempool : Bool) : Except WalletError (Option TxOut) := do
  return (← ask m).txOut o includeMempool

def getBlockCount : Except WalletError Nat := do
  return (← ask m).chain.height

/-- The block the active chain has at a height when its hash is asked for; `none` also if the
block itself is then not served. -/
def blockAtHeight (height : Nat) : Except WalletError (List Transaction) := do
  okOr (← ask m).chain.blocks[height]? .rpc

/-- The calls of `tx_block_height`: the transaction, and the header of its block. -/
structure HeightCalls (P : Prims) where
  info : Moment P
  header : Moment P

def txBlockHeight (calls : HeightCalls P) (txid : Bytes) : Except WalletError (Option Nat) := do
  let n ← ask calls.info
  match (n.rawTransaction txid).bind (·.block) with
  | none => return none
  | some height =>
    let _ ← ask calls.header
    return some height

def mempoolSpendingTransaction (prevout raw : Moment P) (o : OutPoint) :
    Except WalletError (Option Transaction) := do
  let n ← ask prevout
  match n.chain.mempool.find? (·.spends o) with
  | none => return none
  | some spender =>
    let n' ← ask raw
    let info ← okOr (n'.rawTransaction (P.txid spender)) .rpc
    return some info.tx

def scanForSpend (block : Nat → Moment P) (o : OutPoint) :
    List Nat → Except WalletError (Option Transaction)
  | [] => return none
  | height :: rest => do
    let txdata ← blockAtHeight (block height) height
    match txdata.find? (·.spends o) with
    | some tx => return some tx
    | none => scanForSpend block o rest

def heights (first last : Nat) : List Nat := List.range' first (last + 1 - first)

/-- The calls of `mined_spending_transaction`. -/
structure MinedCalls (P : Prims) where
  txout : Moment P
  funding : HeightCalls P
  count : Moment P
  block : Nat → Moment P

def minedSpendingTransaction (calls : MinedCalls P) (o : OutPoint) :
    Except WalletError (Option Transaction) := do
  if (← getTxOut calls.txout o true).isSome then return none
  match ← txBlockHeight calls.funding o.txid with
  | none => return none
  | some first => scanForSpend calls.block o (heights first (← getBlockCount calls.count))

/-- The calls of `spending_transaction`. -/
structure SpendCalls (P : Prims) where
  prevout : Moment P
  raw : Moment P
  mined : MinedCalls P

def spendingTransaction (calls : SpendCalls P) (o : OutPoint) :
    Except WalletError (Option Transaction) := do
  match ← mempoolSpendingTransaction calls.prevout calls.raw o with
  | some tx => return some tx
  | none => minedSpendingTransaction calls.mined o

def isConfirmedSpend (funding : HeightCalls P) (txout : Moment P) (o : OutPoint) :
    Except WalletError Bool := do
  if (← txBlockHeight funding o.txid).isNone then return false
  return (← getTxOut txout o false).isNone

def confirmedSpendingTransaction (calls : SpendCalls P) (height : HeightCalls P) (o : OutPoint) :
    Except WalletError (Option Transaction) := do
  match ← spendingTransaction calls o with
  | none => return none
  | some tx => return if (← txBlockHeight height (P.txid tx)).isSome then some tx else none

/-! ## What an answer rests on -/

variable {m : Moment P} {o : OutPoint} {tx : Transaction} {txid : Bytes} {height : Nat}

@[simp] theorem ask_eq_ok {n} : ask m = .ok n ↔ m = some n := okOr_eq_ok

theorem txConfirmations_eq_ok {r} :
    txConfirmations m txid = .ok r ↔
      ∃ n, m = some n ∧ (n.rawTransaction txid).map (·.confirmations) = r := by
  simp [txConfirmations, bind_ok_iff, pure, Except.pure]

theorem getTxOut_eq_ok {includeMempool r} :
    getTxOut m o includeMempool = .ok r ↔ ∃ n, m = some n ∧ n.txOut o includeMempool = r := by
  simp [getTxOut, bind_ok_iff, pure, Except.pure]

theorem txindexSynced_eq_ok {r} :
    txindexSynced m = .ok r ↔ ∃ n, m = some n ∧ n.synced = r := by
  simp [txindexSynced, bind_ok_iff, pure, Except.pure]

theorem blockAtHeight_eq_ok {txdata} :
    blockAtHeight m height = .ok txdata ↔
      ∃ n, m = some n ∧ n.chain.blocks[height]? = some txdata := by
  simp [blockAtHeight, bind_ok_iff]

theorem txBlockHeight_eq_some {calls : HeightCalls P}
    (h : txBlockHeight calls txid = .ok (some height)) :
    ∃ n info, calls.info = some n ∧ n.rawTransaction txid = some info ∧
      info.block = some height := by
  simp only [txBlockHeight, bind_ok_iff, ask_eq_ok] at h
  obtain ⟨n, hn, h⟩ := h
  split at h
  · cases h
  · rename_i height' hblock
    obtain ⟨_, -, h⟩ := bind_ok_iff.mp h
    cases h
    obtain ⟨info, hinfo, hheight⟩ := Option.bind_eq_some_iff.mp hblock
    exact ⟨n, info, hn, hinfo, hheight⟩

theorem mempoolSpendingTransaction_eq_some {prevout raw : Moment P}
    (h : mempoolSpendingTransaction prevout raw o = .ok (some tx)) :
    ∃ n n' spender info, prevout = some n ∧ spender ∈ n.chain.mempool ∧ spender.spends o ∧
      raw = some n' ∧ n'.rawTransaction (P.txid spender) = some info ∧ info.tx = tx := by
  simp only [mempoolSpendingTransaction, bind_ok_iff, ask_eq_ok] at h
  obtain ⟨n, hn, h⟩ := h
  split at h
  · cases h
  · rename_i spender hspender
    simp only [bind_ok_iff, ask_eq_ok, okOr_eq_ok] at h
    obtain ⟨n', hn', info, hinfo, h⟩ := h
    cases h
    exact ⟨n, n', spender, info, hn, mem_of_find?_eq_some hspender,
      find?_some hspender, hn', hinfo, rfl⟩

theorem mempoolSpendingTransaction_eq_none {prevout raw : Moment P}
    (h : mempoolSpendingTransaction prevout raw o = .ok none) :
    ∃ n, prevout = some n ∧ n.chain.mempool.any (·.spends o) = false := by
  simp only [mempoolSpendingTransaction, bind_ok_iff, ask_eq_ok] at h
  obtain ⟨n, hn, h⟩ := h
  split at h
  · rename_i hnone
    exact ⟨n, hn, by simpa using hnone⟩
  · simp only [bind_ok_iff] at h
    obtain ⟨_, -, _, -, h⟩ := h
    cases h

theorem scanForSpend_eq_some {block : Nat → Moment P} {scanned}
    (h : scanForSpend block o scanned = .ok (some tx)) :
    ∃ height n txdata, height ∈ scanned ∧ block height = some n ∧
      n.chain.blocks[height]? = some txdata ∧ tx ∈ txdata ∧ tx.spends o = true := by
  induction scanned with
  | nil => cases h
  | cons height rest ih =>
    rw [scanForSpend, bind_ok_iff] at h
    obtain ⟨txdata, hread, h⟩ := h
    obtain ⟨n, hn, hblock⟩ := blockAtHeight_eq_ok.mp hread
    split at h
    · rename_i tx' hfind
      cases h
      exact ⟨height, n, txdata, mem_cons_self, hn, hblock,
        mem_of_find?_eq_some hfind, find?_some hfind⟩
    · obtain ⟨height', n', txdata', hmem, hrest⟩ := ih h
      exact ⟨height', n', txdata', mem_cons_of_mem _ hmem, hrest⟩

/-- A mined spend was in a block of the active chain when that block was read. -/
theorem minedSpendingTransaction_eq_some {calls : MinedCalls P}
    (h : minedSpendingTransaction calls o = .ok (some tx)) :
    ∃ height n txdata, calls.block height = some n ∧ n.chain.blocks[height]? = some txdata ∧
      tx ∈ txdata ∧ tx.spends o = true := by
  rw [minedSpendingTransaction, bind_ok_iff] at h
  obtain ⟨out, -, h⟩ := h
  split at h
  · cases h
  · obtain ⟨first, -, h⟩ := bind_ok_iff.mp h
    split at h
    · cases h
    · obtain ⟨count, -, h⟩ := bind_ok_iff.mp h
      obtain ⟨height, n, txdata, -, hrest⟩ := scanForSpend_eq_some h
      exact ⟨height, n, txdata, hrest⟩

end CoreRpc

namespace CoreNode

variable {n : CoreNode P} {txid : Bytes} {info : RawTransactionInfo}

theorem rawTransaction_txid (h : n.rawTransaction txid = some info) : P.txid info.tx = txid := by
  unfold rawTransaction at h
  split at h
  · rename_i tx hfind
    cases h
    simpa using find?_some hfind
  · obtain ⟨entry, hentry, rfl⟩ := Option.map_eq_some_iff.mp h
    exact n.lists_own txid entry hentry

theorem confirmations_pos (h : n.rawTransaction txid = some info) (hpos : 0 < info.confirmations) :
    (n.chain.txBlockHeight P txid).isSome = true := by
  unfold rawTransaction at h
  split at h
  · cases h
    cases hpos
  · obtain ⟨entry, hentry, rfl⟩ := Option.map_eq_some_iff.mp h
    cases hactive : entry.active with
    | false => simp [hactive] at hpos
    | true => rw [n.lists_active txid entry hentry hactive, Option.isSome_some]

theorem confirmations_mined
    (hmempool : ∀ tx ∈ n.chain.mempool, n.chain.txBlockHeight P (P.txid tx) = none)
    (hactive : ∀ entry, n.txindex.lookup txid = some entry → entry.active)
    (hmined : (n.chain.txBlockHeight P txid).isSome)
    (h : n.rawTransaction txid = some info) : 0 < info.confirmations := by
  unfold rawTransaction at h
  split at h
  · rename_i tx hfind
    have hid : P.txid tx = txid := by simpa using find?_some hfind
    rw [← hid, hmempool tx (mem_of_find?_eq_some hfind)] at hmined
    cases hmined
  · obtain ⟨entry, hentry, rfl⟩ := Option.map_eq_some_iff.mp h
    have hle := Chain.txBlockHeight_le (n.lists_active _ _ hentry (hactive entry hentry))
    simp only [hactive entry hentry, ↓reduceIte]
    omega

end CoreNode

end OpenSwap
