import OpenSwap.Base.Maps
import OpenSwap.Btc.Chain

/-!
# The watch registry

The outpoints the watcher follows, each with the spend it has on record and whether that
spend was seen in a block, and the updates that write there.

* `lookup_processTransaction` is all an announced transaction does: to the watches it
  spends, and to no other.
* `lookup_processBlock`: a block records its last spend of a watched outpoint as confirmed
  and leaves the outpoints alone that it does not spend.
* `answerWatchRequest` is the reply to a query, over what the backend says of the watch
  meanwhile, and `watchRequest` what the caller is left with.
-/

namespace OpenSwap

open Btc

structure WatchRequest where
  scriptPubkey : Bytes
  /-- the recorded spend was in a block -/
  inBlock : Bool
  spentTx : Option Transaction
deriving DecidableEq, Repr

abbrev FileRegistry := AList fun _ : OutPoint => WatchRequest

namespace FileRegistry

variable (outpoint : OutPoint)

def registerWatch (scriptPubkey : Bytes) (registry : FileRegistry) : FileRegistry :=
  let entry := (registry.lookup outpoint).getD ⟨scriptPubkey, false, none⟩
  registry.insert outpoint { entry with scriptPubkey }

def upsertWatch (watch : WatchRequest) (registry : FileRegistry) :
    FileRegistry := registry.insert outpoint watch

def removeWatch (registry : FileRegistry) : FileRegistry :=
  registry.erase outpoint

end FileRegistry

section Process

variable (P : Prims)

namespace WatchRequest

/-- Another transaction is on record as confirmed, and this one is not: a confirmed spend can
hold the only copy of a preimage. -/
def keepsRecord (watch : WatchRequest) (tx : Transaction) (inBlock : Bool) : Bool :=
  watch.spentTx.any (fun recorded => P.txid recorded ≠ P.txid tx) && watch.inBlock && !inBlock

/-- The watch once a transaction that spends its outpoint is announced. -/
def afterSpend (tx : Transaction) (inBlock : Bool) (watch : WatchRequest) : WatchRequest :=
  if watch.keepsRecord P tx inBlock then watch else { watch with spentTx := some tx, inBlock }

end WatchRequest

/-- What an input of a transaction does to the registry, with the watches as they were when
the transaction arrived. -/
def processInput (tx : Transaction) (inBlock : Bool) (watches registry : FileRegistry)
    (outpoint : OutPoint) : FileRegistry :=
  match watches.lookup outpoint with
  | none => registry
  | some watch =>
    if watch.keepsRecord P tx inBlock then registry
    else registry.upsertWatch outpoint { watch with spentTx := some tx, inBlock }

def processTransaction (tx : Transaction) (inBlock : Bool) (registry : FileRegistry) :
    FileRegistry :=
  (tx.input.map (·.previousOutput)).foldl (processInput P tx inBlock registry) registry

def processBlock (txdata : List Transaction) (registry : FileRegistry) : FileRegistry :=
  txdata.foldl (fun registry tx => processTransaction P tx true registry) registry

end Process

/-! ## What the updates do to one watch -/

section Lookup

variable {P : Prims} {registry : FileRegistry} {o : OutPoint}

namespace FileRegistry

@[simp] theorem lookup_registerWatch (o : OutPoint) (spk : Bytes) (registry : FileRegistry) :
    (registry.registerWatch o spk).lookup o =
      some { (registry.lookup o).getD ⟨spk, false, none⟩ with scriptPubkey := spk } :=
  AList.lookup_insert _

theorem lookup_registerWatch_of_ne {o'} (h : o ≠ o') (spk : Bytes) :
    (registry.registerWatch o' spk).lookup o = registry.lookup o := AList.lookup_insert_ne h

end FileRegistry

variable {tx : Transaction} {inBlock : Bool} {watches : FileRegistry} {txdata : List Transaction}

theorem lookup_processInput_of_ne {o'} (h : o ≠ o') :
    (processInput P tx inBlock watches registry o').lookup o = registry.lookup o := by
  rw [processInput]
  split
  · rfl
  · split
    · rfl
    · exact AList.lookup_insert_ne h

theorem lookup_processInput_self (h : registry.lookup o = watches.lookup o ∨
      registry.lookup o = (watches.lookup o).map (.afterSpend P tx inBlock)) :
    (processInput P tx inBlock watches registry o).lookup o =
      (watches.lookup o).map (.afterSpend P tx inBlock) := by
  rw [processInput]
  cases hw : watches.lookup o with
  | none =>
    rw [hw] at h
    rcases h with h | h <;> exact h
  | some watch =>
    simp only [Option.map_some, WatchRequest.afterSpend]
    split
    · rename_i hkeep
      rcases h with h | h
      · rw [h, hw]
      · rw [h, hw, Option.map_some, WatchRequest.afterSpend, if_pos hkeep]
    · exact AList.lookup_insert _

theorem lookup_foldl_processInput (spent : List OutPoint)
    (h : registry.lookup o = watches.lookup o ∨
      registry.lookup o = (watches.lookup o).map (.afterSpend P tx inBlock)) :
    (spent.foldl (processInput P tx inBlock watches) registry).lookup o =
      if o ∈ spent then (watches.lookup o).map (.afterSpend P tx inBlock)
      else registry.lookup o := by
  induction spent generalizing registry with
  | nil => simp
  | cons o' rest ih =>
    rw [List.foldl_cons]
    by_cases ho : o = o'
    · subst ho
      have hself := lookup_processInput_self h
      rw [ih (.inr hself), hself, if_pos List.mem_cons_self]
      split <;> rfl
    · have hne : (processInput P tx inBlock watches registry o').lookup o = registry.lookup o :=
        lookup_processInput_of_ne ho
      rw [ih (hne ▸ h), hne]
      simp [ho]

theorem lookup_processTransaction (tx : Transaction) (inBlock : Bool) (registry : FileRegistry)
    (o : OutPoint) :
    (processTransaction P tx inBlock registry).lookup o =
      if tx.spends o then (registry.lookup o).map (.afterSpend P tx inBlock)
      else registry.lookup o := by
  rw [processTransaction, lookup_foldl_processInput _ (.inl rfl)]
  simp only [Transaction.spends_iff]

def WatchRequest.confirmed (tx : Transaction) (watch : WatchRequest) : WatchRequest :=
  { watch with spentTx := some tx, inBlock := true }

@[simp] theorem WatchRequest.afterSpend_inBlock (tx : Transaction) :
    WatchRequest.afterSpend P tx true = .confirmed tx := by
  funext watch
  simp [afterSpend, keepsRecord, confirmed]

@[simp] theorem WatchRequest.confirmed_confirmed (tx tx' : Transaction) (watch : WatchRequest) :
    (watch.confirmed tx).confirmed tx' = watch.confirmed tx' := rfl

theorem lookup_processBlock (txdata : List Transaction) (registry : FileRegistry) (o : OutPoint) :
    (processBlock P txdata registry).lookup o =
      match (txdata.filter (·.spends o)).getLast? with
      | some tx => (registry.lookup o).map (.confirmed tx)
      | none => registry.lookup o := by
  induction txdata generalizing registry with
  | nil => rfl
  | cons tx rest ih =>
    refine (ih _).trans ?_
    rw [lookup_processTransaction, WatchRequest.afterSpend_inBlock]
    cases hspends : tx.spends o with
    | false => simp [hspends]
    | true =>
      rw [List.filter_cons_of_pos hspends, List.getLast?_cons, if_pos rfl]
      cases (rest.filter (·.spends o)).getLast? <;> simp [Function.comp_def]

theorem lookup_processBlock_of_unspent (h : ∀ tx ∈ txdata, tx.spends o = false) :
    (processBlock P txdata registry).lookup o = registry.lookup o := by
  have hnone : txdata.filter (·.spends o) = [] := List.filter_eq_nil_iff.mpr (by simpa using h)
  rw [lookup_processBlock, hnone]
  rfl

theorem lookup_processBlock_of_spent (htx : tx ∈ txdata) (hspends : tx.spends o)
    (hone : ∀ tx' ∈ txdata, tx'.spends o → tx' = tx) :
    (processBlock P txdata registry).lookup o = (registry.lookup o).map (.confirmed tx) := by
  rw [lookup_processBlock]
  cases hlast : (txdata.filter (·.spends o)).getLast? with
  | none =>
    rw [List.getLast?_eq_none_iff, List.filter_eq_nil_iff] at hlast
    exact absurd hspends (hlast tx htx)
  | some tx' =>
    have hmem := List.mem_filter.mp (List.mem_of_getLast? hlast)
    rw [hone tx' hmem.1 hmem.2]

end Lookup

/-! ## Queries -/

inductive WatcherEvent where
  | utxoSpent (spendingTx : Option Transaction)
  | noOutpoint
  | error
deriving DecidableEq, Repr

/-- What the backend says of a watch while a query is answered. -/
structure BackendView where
  /-- a spend on record as confirmed is still on chain, or the backend did not answer -/
  confirmsRecord : Bool
  /-- the watch may have missed a spend; never so with Core -/
  blind : Bool
  /-- the spend on record once a blind watch is checked, if the server answers -/
  checked : Option (Option Transaction)

def answerWatchRequest (view : BackendView) (outpoint : OutPoint) (registry : FileRegistry) :
    WatcherEvent :=
  match registry.lookup outpoint with
  | none => .noOutpoint
  | some watch =>
    -- a record that is gone from the chain is cleared, and the entry passed over
    if watch.inBlock && !view.confirmsRecord then .noOutpoint
    else if view.blind then
      match view.checked, watch.spentTx with
      | some spend, _ => .utxoSpent spend
      | none, some tx => .utxoSpent (some tx)
      | none, none => .error
    else .utxoSpent watch.spentTx

/-- The registry after a query, but for what a check of a blind watch records. -/
def afterWatchRequest (view : BackendView) (outpoint : OutPoint) (registry : FileRegistry) :
    FileRegistry :=
  match registry.lookup outpoint with
  | none => registry
  | some watch =>
    if watch.inBlock && !view.confirmsRecord then
      registry.upsertWatch outpoint { watch with spentTx := none, inBlock := false }
    else registry

/-- What the caller of a query gets: no answer from the watcher is an error, and so is one
that reports an error. -/
def watchRequest : Option WatcherEvent → Option WatcherEvent
  | some .error | none => none
  | some event => some event

theorem watchRequest_ne_error (reply : Option WatcherEvent) : watchRequest reply ≠ some .error := by
  rcases reply with _ | _ | _ | _ <;> exact nofun

end OpenSwap
