import OpenSwap.Base.Run
import OpenSwap.Blockchain.CoreRpc
import OpenSwap.Btc.Tables

/-!
# Confirmed spends

Two queries decide when the keys of a swap are deleted: whether an outpoint has a confirmed
spend, and which transaction that is.  With Core the answers are inferred from calls that
each see the node at another moment; with Electrum they rest on the history of a script,
which the client keeps and gives out again for a while.

* `CoreRpc.isConfirmedSpend_spent`: a missing output was spent if the active chain creates it.
* `CoreRpc.confirmedSpendingTransaction_includes`: a spend is on the active chain unless the
  index lists it under a stale block.
* `ElectrumClient.Ok`: what is kept was the server's answer at a moment between its request and
  the time it is kept with, which is that of the answer's arrival.
-/

namespace OpenSwap

open Btc Checked List

variable {P : Prims}

/-- A transaction the chain holds, under its identifier, spends the outpoint. -/
def IncludesSpend (P : Prims) (c : Chain) (o : OutPoint) : Prop :=
  ∃ tx : Transaction, tx.spends o = true ∧ (c.txBlockHeight P (P.txid tx)).isSome = true

variable {c : Chain} {tx : Transaction} {o : OutPoint} {txdata : List Transaction}

theorem txBlockHeight_isSome_of_mem (hblock : txdata ∈ c.blocks) (htx : tx ∈ txdata) :
    (c.txBlockHeight P (P.txid tx)).isSome = true := by
  rw [Chain.txBlockHeight, findIdx?_isSome, any_eq_true]
  exact ⟨txdata, hblock, any_eq_true.mpr ⟨tx, htx, by simp⟩⟩

theorem includesSpend_of_mem (hblock : txdata ∈ c.blocks) (htx : tx ∈ txdata)
    (hspends : tx.spends o) : IncludesSpend P c o :=
  ⟨tx, hspends, txBlockHeight_isSome_of_mem hblock htx⟩

theorem includesSpend_of_confirmedSpend (h : c.confirmedSpend o) : IncludesSpend P c o := by
  obtain ⟨tx, hmem, hspends⟩ := any_eq_true.mp h
  obtain ⟨txdata, hblock, htx⟩ := mem_flatten.mp hmem
  exact includesSpend_of_mem hblock htx hspends

/-! ## Core -/

namespace CoreRpc

theorem isConfirmedSpend_spent {funding : HeightCalls P} {txout : Moment P}
    (hcreated : ∀ n, txout = some n → (n.created o).isSome)
    (h : isConfirmedSpend funding txout o = .ok true) :
    ∃ n, txout = some n ∧ n.chain.confirmedSpend o = true := by
  rw [isConfirmedSpend, bind_ok_iff] at h
  obtain ⟨height, -, h⟩ := h
  split at h
  · cases h
  · obtain ⟨out, hout, h⟩ := bind_ok_iff.mp h
    obtain ⟨n, hn, rfl⟩ := getTxOut_eq_ok.mp hout
    refine ⟨n, hn, ?_⟩
    by_contra hspent
    rw [CoreNode.txOut, if_neg hspent, if_neg (by simp)] at h
    have hmissing : (n.created o).isNone = true := Except.ok.inj h
    rw [Option.isNone_iff_eq_none] at hmissing
    have hsome := hcreated n hn
    rw [hmissing] at hsome
    cases hsome

/-- A transaction that is listed in a block, and not in a stale one, is on the active chain. -/
theorem txBlockHeight_active {calls : HeightCalls P} {txid : Bytes} {height : Nat}
    (hstale : ∀ n entry, calls.info = some n → n.txindex.lookup txid = some entry →
      entry.active)
    (h : txBlockHeight calls txid = .ok (some height)) :
    ∃ n, calls.info = some n ∧ (n.chain.txBlockHeight P txid).isSome = true := by
  obtain ⟨n, info, hn, hinfo, hblock⟩ := txBlockHeight_eq_some h
  refine ⟨n, hn, ?_⟩
  unfold CoreNode.rawTransaction at hinfo
  split at hinfo
  · cases hinfo
    cases hblock
  · obtain ⟨entry, hentry, -⟩ := Option.map_eq_some_iff.mp hinfo
    rw [n.lists_active txid entry hentry (hstale n entry hn hentry), Option.isSome_some]

theorem confirmedSpendingTransaction_includes {calls : SpendCalls P} {height : HeightCalls P}
    (hstale : ∀ n spender entry, height.info = some n → Transaction.spends o spender →
      n.txindex.lookup (P.txid spender) = some entry → entry.active)
    (h : confirmedSpendingTransaction calls height o = .ok (some tx)) :
    ∃ n, (height.info = some n ∨ ∃ block, calls.mined.block block = some n) ∧
      IncludesSpend P n.chain o := by
  rw [confirmedSpendingTransaction, bind_ok_iff] at h
  obtain ⟨spend, hspend, h⟩ := h
  split at h
  · cases h
  · rename_i tx'
    obtain ⟨listed, hlisted, h⟩ := bind_ok_iff.mp h
    rw [spendingTransaction, bind_ok_iff] at hspend
    obtain ⟨found, hfound, hspend⟩ := hspend
    split at hspend
    · -- named by the mempool: the index must list it on the active chain
      cases hspend
      obtain ⟨_, n', spender, info, -, -, hspends, -, hinfo, rfl⟩ :=
        mempoolSpendingTransaction_eq_some hfound
      have hsame : P.txid info.tx = P.txid spender := CoreNode.rawTransaction_txid hinfo
      cases listed with
      | none => cases h
      | some at' =>
        rw [hsame] at hlisted
        obtain ⟨n, hn, hactive⟩ := txBlockHeight_active
          (fun n entry hn hentry => hstale n spender entry hn hspends hentry) hlisted
        exact ⟨n, .inl hn, spender, hspends, hactive⟩
    · -- found in a block of the active chain
      obtain ⟨block, n, txdata, hn, hblock, htx, hspends⟩ := minedSpendingTransaction_eq_some hspend
      exact ⟨n, .inr ⟨block, hn⟩, includesSpend_of_mem (mem_of_getElem? hblock) htx hspends⟩

end CoreRpc

/-! ## Electrum -/

/-- An entry of a script's history; the height of an unconfirmed transaction is not positive. -/
structure HistoryEntry where
  txHash : Bytes
  height : Int
deriving DecidableEq, Repr

/-- A truthful server at one moment: what it reports as mined is on its chain. -/
structure ServerView (P : Prims) where
  chain : Chain
  history : Bytes → List HistoryEntry
  truthful : ∀ script entry, entry ∈ history script → 0 < entry.height →
    (chain.txBlockHeight P entry.txHash).isSome

/-- For how long an answer about a script is given out again, in milliseconds. -/
def scriptCacheTtl : Nat := 3000

/-- A history the client gives out again: when it was asked for, which the client does not note,
when its answer came in, and the answer. -/
structure KeptHistory where
  sentAt : Nat
  keptAt : Nat
  entries : List HistoryEntry

/-- A request under way, with the generation it started under. -/
structure HistoryRequest where
  script : Bytes
  generation : Nat
  sentAt : Nat

/-- The client's side of a connection: the time, the server as it is now and was before, the
histories kept, and the requests of the threads. -/
structure ElectrumClient (P : Prims) where
  now : Nat
  server : ServerView P
  past : List (Nat × ServerView P)
  scriptGeneration : Nat
  histories : AList fun _ : Bytes => KeptHistory
  requests : AList fun _ : Nat => HistoryRequest

inductive ElectrumAction (P : Prims) where
  | wait (ms : Nat) (server : ServerView P)
  | request (thread : Nat) (script : Bytes)
  /-- the answer comes in, and shows the server at one of its moments -/
  | answer (thread moment : Nat)
  | fail (thread : Nat)
  /-- another tip is noted, or a transaction was broadcast -/
  | forgetScripts

/-- How a call comes by a history: from the cache, or as the answer to its own request. -/
inductive HistoryRead
  | cached (script : Bytes)
  | asked (thread moment : Nat)

namespace ElectrumClient

variable (c : ElectrumClient P)

def views : List (Nat × ServerView P) := (c.now, c.server) :: c.past

def fresh (script : Bytes) : Option (List HistoryEntry) :=
  ((c.histories.lookup script).filter fun kept => c.now - kept.keptAt < scriptCacheTtl).map
    (·.entries)

/-- What the server answers to a request: what it held at a moment since. -/
def answerTo (thread moment : Nat) : Option (HistoryRequest × List HistoryEntry) := do
  let request ← c.requests.lookup thread
  let view ← c.views[moment]?
  if request.sentAt ≤ view.1 then some (request, view.2.history request.script) else none

def step : ElectrumAction P → Option (ElectrumClient P)
  | .wait ms server => some { c with now := c.now + ms, server, past := c.views }
  | .request thread script =>
    if (c.requests.lookup thread).isSome || (c.fresh script).isSome then none
    else some { c with requests := c.requests.insert thread ⟨script, c.scriptGeneration, c.now⟩ }
  | .answer thread moment => (c.answerTo thread moment).map fun (request, entries) =>
    { c with
      requests := c.requests.erase thread
      histories := if c.scriptGeneration = request.generation then
          c.histories.insert request.script ⟨request.sentAt, c.now, entries⟩
        else c.histories }
  | .fail thread => some { c with requests := c.requests.erase thread }
  | .forgetScripts => some { c with
      scriptGeneration := (c.scriptGeneration + 1) % 2 ^ 64
      histories := ∅ }

def start (server : ServerView P) : ElectrumClient P := ⟨0, server, [], 0, ∅, ∅⟩

/-- The end of `history`: what a call that comes by it this way is given now. -/
def history : HistoryRead → Except WalletError (List HistoryEntry)
  | .cached script => okOr (c.fresh script) .rpc
  | .asked thread moment => okOr ((c.answerTo thread moment).map (·.2)) .rpc

end ElectrumClient

/-- A transaction by its identifier: what is served under another one is refused. -/
def transactionGetValidating (P : Prims) (served : Bytes → Option Transaction) (txid : Bytes) :
    Except WalletError Transaction := do
  let tx ← okOr (served txid) .rpc
  ensure (P.txid tx = txid) .rpc
  return tx

def confirmedSpendIn (P : Prims) (served : Bytes → Option Transaction) (o : OutPoint) :
    List HistoryEntry → Except WalletError (Option Transaction)
  | [] => return none
  | entry :: rest => do
    if entry.txHash = o.txid ∨ entry.height ≤ 0 then confirmedSpendIn P served o rest
    else
      let tx ← transactionGetValidating P served entry.txHash
      if tx.spends o then return some tx else confirmedSpendIn P served o rest

namespace ElectrumClient

variable (c : ElectrumClient P)

def confirmedSpendingTransaction (served : Bytes → Option Transaction) (o : OutPoint)
    (read : HistoryRead) : Except WalletError (Option Transaction) := do
  confirmedSpendIn P served o (← c.history read)

def isConfirmedSpend (served : Bytes → Option Transaction) (o : OutPoint) (read : HistoryRead) :
    Except WalletError Bool := do
  return (← confirmedSpendIn P served o (← c.history read)).isSome

end ElectrumClient

theorem transactionGetValidating_txid {served : Bytes → Option Transaction} {txid}
    (h : transactionGetValidating P served txid = .ok tx) : P.txid tx = txid := by
  simp only [transactionGetValidating, bind_ok_iff, okOr_eq_ok, ensure_eq_ok] at h
  obtain ⟨tx', -, _, hid, heq⟩ := h
  cases heq
  exact hid

theorem confirmedSpendIn_eq_some {served : Bytes → Option Transaction} {entries}
    (h : confirmedSpendIn P served o entries = .ok (some tx)) :
    ∃ entry ∈ entries, 0 < entry.height ∧ P.txid tx = entry.txHash ∧ tx.spends o = true := by
  induction entries with
  | nil => cases h
  | cons entry rest ih =>
    have hlater (h : confirmedSpendIn P served o rest = .ok (some tx)) :
        ∃ e ∈ entry :: rest, 0 < e.height ∧ P.txid tx = e.txHash ∧ tx.spends o = true := by
      obtain ⟨e, he, hrest⟩ := ih h
      exact ⟨e, mem_cons_of_mem _ he, hrest⟩
    rw [confirmedSpendIn] at h
    split at h
    · exact hlater h
    · rename_i hmined
      obtain ⟨tx', hget, h⟩ := bind_ok_iff.mp h
      split at h
      · cases h
        rw [not_or, not_le] at hmined
        exact ⟨entry, mem_cons_self, hmined.2, transactionGetValidating_txid hget, ‹_›⟩
      · exact hlater h

namespace ElectrumClient

/-- The moment lies between the request of what the call is given and its arrival: the call's own
request, or one whose answer has been kept for less than the cache's time. -/
def ReadWithin (c : ElectrumClient P) (readAt : Nat) : HistoryRead → Prop
  | .cached script => ∃ kept, c.histories.lookup script = some kept ∧
      kept.sentAt ≤ readAt ∧ readAt ≤ kept.keptAt ∧ c.now - kept.keptAt < scriptCacheTtl
  | .asked thread _ => ∃ request, c.requests.lookup thread = some request ∧
      request.sentAt ≤ readAt ∧ readAt ≤ c.now

structure Ok (c : ElectrumClient P) : Prop where
  past : ∀ v ∈ c.past, v.1 ≤ c.now
  kept : ∀ script kept, c.histories.lookup script = some kept →
    ∃ readAt view, (readAt, view) ∈ c.views ∧ kept.sentAt ≤ readAt ∧ readAt ≤ kept.keptAt ∧
      kept.entries = view.history script

variable {c : ElectrumClient P} {read : HistoryRead}

theorem Ok.view_le (hc : c.Ok) {v} (hv : v ∈ c.views) : v.1 ≤ c.now := by
  rcases mem_cons.mp hv with rfl | hv
  · exact le_rfl
  · exact hc.past v hv

theorem answerTo_eq_some {thread moment request entries}
    (h : c.answerTo thread moment = some (request, entries)) :
    c.requests.lookup thread = some request ∧ ∃ readAt view, (readAt, view) ∈ c.views ∧
      request.sentAt ≤ readAt ∧ entries = view.history request.script := by
  obtain ⟨_, hrequest, h⟩ := Option.bind_eq_some_iff.mp h
  obtain ⟨⟨readAt, view⟩, hview, h⟩ := Option.bind_eq_some_iff.mp h
  split at h
  · rename_i hsent
    cases h
    exact ⟨hrequest, readAt, view, mem_of_getElem? hview, hsent, rfl⟩
  · cases h

theorem Ok.history (hc : c.Ok) {entries} (h : c.history read = .ok entries) :
    ∃ script readAt view, (readAt, view) ∈ c.views ∧ c.ReadWithin readAt read ∧
      entries = view.history script := by
  cases read with
  | cached script =>
    obtain ⟨kept, hkept, rfl⟩ := Option.map_eq_some_iff.mp (okOr_eq_ok.mp h)
    obtain ⟨hlookup, hin⟩ := Option.filter_eq_some_iff.mp hkept
    obtain ⟨readAt, view, hview, hsent, hle, heq⟩ := hc.kept script kept hlookup
    exact ⟨script, readAt, view, hview, ⟨kept, hlookup, hsent, hle, of_decide_eq_true hin⟩, heq⟩
  | asked thread moment =>
    obtain ⟨⟨request, _⟩, hanswer, rfl⟩ := Option.map_eq_some_iff.mp (okOr_eq_ok.mp h)
    obtain ⟨hlookup, readAt, view, hview, hsent, heq⟩ := answerTo_eq_some hanswer
    exact ⟨_, readAt, view, hview, ⟨request, hlookup, hsent, hc.view_le hview⟩, heq⟩

theorem Ok.step {c' a} (hc : c.Ok) (h : c.step a = some c') : c'.Ok := by
  cases a with
  | wait ms server =>
    cases h
    refine ⟨fun v hv => (hc.view_le hv).trans (Nat.le_add_right _ _), fun script kept hkept => ?_⟩
    obtain ⟨readAt, view, hview, hrest⟩ := hc.kept script kept hkept
    exact ⟨readAt, view, mem_cons_of_mem _ hview, hrest⟩
  | request thread script =>
    simp only [ElectrumClient.step] at h
    split at h
    · cases h
    · cases h
      exact ⟨hc.past, hc.kept⟩
  | answer thread moment =>
    obtain ⟨⟨request, entries⟩, hanswer, rfl⟩ := Option.map_eq_some_iff.mp h
    obtain ⟨-, readAt, view, hview, hsent, heq⟩ := answerTo_eq_some hanswer
    refine ⟨hc.past, ?_⟩
    dsimp only
    split
    · -- kept under the time of its arrival
      exact AList.forall_lookup_insert ⟨readAt, view, hview, hsent, hc.view_le hview, heq⟩ hc.kept
    · exact hc.kept
  | fail thread =>
    cases h
    exact ⟨hc.past, hc.kept⟩
  | forgetScripts =>
    cases h
    exact ⟨hc.past, fun script kept hkept => by cases hkept⟩

theorem confirmedSpendingTransaction_includes (hc : c.Ok) {served : Bytes → Option Transaction}
    (h : c.confirmedSpendingTransaction served o read = .ok (some tx)) :
    ∃ readAt view, (readAt, view) ∈ c.views ∧ c.ReadWithin readAt read ∧
      IncludesSpend P view.chain o := by
  rw [confirmedSpendingTransaction, bind_ok_iff] at h
  obtain ⟨entries, hread, h⟩ := h
  obtain ⟨script, readAt, view, hview, hwithin, rfl⟩ := hc.history hread
  obtain ⟨entry, hentry, hmined, hid, hspends⟩ := confirmedSpendIn_eq_some h
  refine ⟨readAt, view, hview, hwithin, tx, hspends, ?_⟩
  rw [hid]
  exact view.truthful script entry hentry hmined

theorem isConfirmedSpend_eq_true {served : Bytes → Option Transaction}
    (h : c.isConfirmedSpend served o read = .ok true) :
    ∃ tx, c.confirmedSpendingTransaction served o read = .ok (some tx) := by
  simp only [isConfirmedSpend, bind_ok_iff] at h
  obtain ⟨entries, hread, spend, hspend, h⟩ := h
  cases spend with
  | none => cases h
  | some tx =>
    refine ⟨tx, ?_⟩
    rw [confirmedSpendingTransaction, bind_ok_iff]
    exact ⟨entries, hread, hspend⟩

end ElectrumClient

/-- **Confirmed spends.**  A positive answer names a spend on the active chain: with Core, of a
moment of the call, unless the index lists a spend under a stale block; with Electrum, of a
moment between the request of the history and its arrival, in this call or in the one whose answer
the cache still holds. -/
theorem confirmed_spend_answers :
    (∀ (funding : CoreRpc.HeightCalls P) (txout : Moment P) (o : OutPoint),
      (∀ n, txout = some n → (n.created o).isSome = true) →
      CoreRpc.isConfirmedSpend funding txout o = .ok true →
        ∃ n, txout = some n ∧ IncludesSpend P n.chain o) ∧
    (∀ (calls : CoreRpc.SpendCalls P) (height : CoreRpc.HeightCalls P) (o : OutPoint)
      (tx : Transaction),
      (∀ n spender entry, height.info = some n → Transaction.spends o spender = true →
        n.txindex.lookup (P.txid spender) = some entry → entry.active = true) →
      CoreRpc.confirmedSpendingTransaction calls height o = .ok (some tx) →
        ∃ n, (height.info = some n ∨ ∃ block, calls.mined.block block = some n) ∧
          IncludesSpend P n.chain o) ∧
    ∀ (server : ServerView P) (c : ElectrumClient P),
      Run.Reachable ElectrumClient.step (fun _ _ => True) (.start server) c →
      ∀ (served : Bytes → Option Transaction) (o : OutPoint) (read : HistoryRead),
        c.isConfirmedSpend served o read = .ok true ∨
          (∃ tx, c.confirmedSpendingTransaction served o read = .ok (some tx)) →
        ∃ readAt view, (readAt, view) ∈ c.views ∧ c.ReadWithin readAt read ∧
          IncludesSpend P view.chain o := by
  refine ⟨fun funding txout o hcreated h => ?_, fun calls height o tx hstale h => ?_,
    fun server c hrun served o read h => ?_⟩
  · obtain ⟨n, hn, hspent⟩ := CoreRpc.isConfirmedSpend_spent hcreated h
    exact ⟨n, hn, includesSpend_of_confirmedSpend hspent⟩
  · exact CoreRpc.confirmedSpendingTransaction_includes hstale h
  · have hc : c.Ok := hrun.invariant
      ⟨fun _ h => (nomatch h), fun _ _ h => (nomatch h)⟩ fun _ _ _ hc _ h => hc.step h
    rcases h with h | ⟨tx, h⟩
    · obtain ⟨tx, h⟩ := ElectrumClient.isConfirmedSpend_eq_true h
      exact ElectrumClient.confirmedSpendingTransaction_includes hc h
    · exact ElectrumClient.confirmedSpendingTransaction_includes hc h

/-! ## A funding that a reorganisation undid -/

namespace SampleWatch

def contractScript : Bytes := encode [.push [], .push (List.replicate 32 0x55)]

def fundingTx : Transaction where
  version := 2
  lockTime := 0
  input := [⟨⟨List.replicate 32 0x0d, 0⟩, [], 0xfffffffd, []⟩]
  output := [⟨60000, contractScript⟩]

def contract : OutPoint where
  txid := natBe 32 0xd69137cdbf818e3250a202e21c8305828ff26160159c9fc979b61611f762601a
  vout := 0

def spendTx : Transaction where
  version := 2
  lockTime := 0
  input := [⟨contract, [], 0, []⟩]
  output := [⟨59700, encode [.push [], .push (List.replicate 20 0x77)]⟩]

def spendTxid : Bytes :=
  natBe 32 0xa21f7a9413b54c8c1085a02c596ba26155a24b07d43b75e17f6080aa281e1c68

def laterFundingTx : Transaction where
  version := 2
  lockTime := 0
  input := [⟨⟨List.replicate 32 0x0e, 0⟩, [], 0xfffffffd, []⟩]
  output := [⟨70000, encode [.push [], .push (List.replicate 32 0x56)]⟩]

def laterContract : OutPoint where
  txid := natBe 32 0x358ef4ef21cfbff60827d5978c235fd330a9b1709a368d8942e3bc6525ee8aa2
  vout := 0

def rivalTx : Transaction where
  version := 2
  lockTime := 0
  input := [⟨contract, [], 0xfffffffd, []⟩]
  output := [⟨59000, encode [.push [], .push (List.replicate 20 0x78)]⟩]

def tables : Tables where
  sha256 := []
  hash160 := []
  txid := [(fundingTx, contract.txid), (spendTx, spendTxid), (laterFundingTx, laterContract.txid),
    (rivalTx, natBe 32 0xc384e47b23032d25bd49bb31568d598a9dc31b350dd615aff9f5565666a8bbb6)]
  aggregate := []
  taproot := []
  sighash := []
  signatures := []

def prims : Prims := tables.prims

def spentNode : CoreNode prims :=
  .ofChecked ⟨[[], [fundingTx], [spendTx]], []⟩
    (AList.insert spendTxid ⟨spendTx, 2, true⟩ (AList.insert contract.txid ⟨fundingTx, 1, true⟩ ∅))
    true (by decide +kernel)

def spentCalls : CoreRpc.SpendCalls prims where
  prevout := some spentNode
  raw := some spentNode
  mined := ⟨some spentNode, ⟨some spentNode, some spentNode⟩, some spentNode,
    fun _ => some spentNode⟩

def reorgedNode : CoreNode prims :=
  .ofChecked ⟨[[], [], []], [fundingTx, spendTx]⟩
    (AList.insert spendTxid ⟨spendTx, 2, false⟩
      (AList.insert contract.txid ⟨fundingTx, 1, false⟩ ∅)) true (by decide +kernel)

def droppedNode : CoreNode prims :=
  .ofChecked ⟨[[], [], []], []⟩
    (AList.insert spendTxid ⟨spendTx, 2, false⟩
      (AList.insert contract.txid ⟨fundingTx, 1, false⟩ ∅)) true (by decide +kernel)

def spentView : ServerView prims where
  chain := spentNode.chain
  history script := if script = contractScript then [⟨spendTxid, 2⟩] else []
  truthful script entry hentry _ := by
    split at hentry
    · cases mem_singleton.mp hentry
      decide +kernel
    · cases hentry

def reorgedView : ServerView prims where
  chain := reorgedNode.chain
  history _ := []
  truthful _ _ hentry := (nomatch hentry)

def served (txid : Bytes) : Option Transaction := if txid = spendTxid then some spendTx else none

theorem not_includesSpend_of_empty (h : c.blocks.flatten = []) (o : OutPoint) :
    ¬ IncludesSpend prims c o := by
  rintro ⟨tx, -, hsome⟩
  rw [Chain.txBlockHeight, findIdx?_isSome, any_eq_true] at hsome
  obtain ⟨txdata, hblock, hany⟩ := hsome
  rw [flatten_eq_nil_iff.mp h txdata hblock] at hany
  cases hany

end SampleWatch

namespace SampleWatch

/-- The client with its request for the contract's history under way. -/
def asking : ElectrumClient prims :=
  { ElectrumClient.start spentView with requests := AList.insert 0 ⟨contractScript, 0, 0⟩ ∅ }

end SampleWatch

open SampleWatch in
theorem confirmed_spend_answered :
    (CoreRpc.isConfirmedSpend ⟨some spentNode, some spentNode⟩ (some spentNode) contract =
        .ok true ∧
      ∃ n, some spentNode = some n ∧ IncludesSpend prims n.chain contract) ∧
    (CoreRpc.confirmedSpendingTransaction spentCalls ⟨some spentNode, some spentNode⟩ contract =
        .ok (some spendTx) ∧
      ∃ n, (some spentNode = some n ∨ ∃ block, spentCalls.mined.block block = some n) ∧
        IncludesSpend prims n.chain contract) ∧
    asking.isConfirmedSpend served contract (.asked 0 0) = .ok true ∧
      ∃ readAt view, (readAt, view) ∈ asking.views ∧ asking.ReadWithin readAt (.asked 0 0) ∧
        IncludesSpend prims view.chain contract := by
  have hspent : CoreRpc.isConfirmedSpend ⟨some spentNode, some spentNode⟩ (some spentNode)
      contract = .ok true := by decide +kernel
  have hspender : CoreRpc.confirmedSpendingTransaction spentCalls ⟨some spentNode, some spentNode⟩
      contract = .ok (some spendTx) := by decide +kernel
  have hserved : asking.isConfirmedSpend served contract (.asked 0 0) = .ok true := by
    decide +kernel
  obtain ⟨hcore, hcoreSpender, helectrum⟩ := confirmed_spend_answers (P := prims)
  refine ⟨⟨hspent, hcore ⟨some spentNode, some spentNode⟩ _ _ (fun n hn => ?_) hspent⟩,
    ⟨hspender, hcoreSpender _ ⟨some spentNode, some spentNode⟩ _ _
      (fun n spender entry hn _ h => ?_) hspender⟩, hserved, helectrum spentView asking
        (.step (a := .request 0 contractScript) .init trivial rfl) served _ _ (.inl hserved)⟩
  · cases hn
    decide +kernel
  · cases hn
    have hactive : spentNode.txindex.entries.all (·.2.active) = true := by decide +kernel
    exact all_eq_true.mp hactive _ (AList.lookup_eq_some.mp h)

open SampleWatch in
/-- Core reports a spend of an output that its chain no longer creates, and names one that
only a stale block held; Electrum reports one that was undone twenty seconds ago, while the answer
that showed it was on its way. -/
theorem spend_reported_after_reorg :
    (CoreRpc.isConfirmedSpend ⟨some droppedNode, some droppedNode⟩ (some droppedNode) contract =
        .ok true ∧
      CoreRpc.confirmedSpendingTransaction
        ⟨some reorgedNode, some reorgedNode, ⟨none, ⟨none, none⟩, none, fun _ => none⟩⟩
        ⟨some droppedNode, some droppedNode⟩ contract = .ok (some spendTx) ∧
      ¬ IncludesSpend prims reorgedNode.chain contract ∧
      ¬ IncludesSpend prims droppedNode.chain contract) ∧
    ∃ c, Run.Reachable ElectrumClient.step (fun _ _ => True) (.start spentView) c ∧
      c.isConfirmedSpend served contract (.cached contractScript) = .ok true ∧
      ¬ IncludesSpend prims c.server.chain contract := by
  refine ⟨⟨by decide +kernel, by decide +kernel, not_includesSpend_of_empty rfl contract,
    not_includesSpend_of_empty rfl contract⟩, ?_⟩
  obtain ⟨c, hrun, hc⟩ : ∃ c, Run.Reachable ElectrumClient.step (fun _ _ => True)
      (.start spentView) c ∧ decide (c.isConfirmedSpend served contract (.cached contractScript) =
        .ok true ∧ c.server.chain.blocks.flatten = []) = true :=
    Run.exists_reachable_of_exec [.request 0 contractScript, .wait 20000 reorgedView, .answer 0 1,
      .wait 1000 reorgedView] (by decide +kernel)
  obtain ⟨hanswer, hempty⟩ := of_decide_eq_true hc
  exact ⟨c, hrun, hanswer, not_includesSpend_of_empty hempty contract⟩

end OpenSwap
