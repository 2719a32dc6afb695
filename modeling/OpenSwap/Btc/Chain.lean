import OpenSwap.Btc.Tx

/-!
# What a node shows of the chain

Blocks by height and the mempool, with the queries a wallet makes: heights, the
transaction behind an identifier, the output behind an outpoint, and whether an outpoint
is spent.

* `output_of_blocks` and `txBlockHeight_of_blocks`: of a confirmed transaction the blocks
  alone say everything; the mempool may change at will.
-/

namespace Btc

/-- The blocks, the one of height `0` first, and the mempool. -/
structure Chain where
  blocks : List (List Transaction)
  mempool : List Transaction
deriving DecidableEq, Repr

def Transaction.spends (o : OutPoint) (tx : Transaction) : Bool :=
  tx.input.any (·.previousOutput = o)

theorem Transaction.spends_iff {o : OutPoint} {tx : Transaction} :
    tx.spends o ↔ o ∈ tx.input.map (·.previousOutput) := by
  simp [Transaction.spends]

inductive Broadcast where
  | sent
  /-- the call failed although the transaction was relayed -/
  | relayed
  | lost
deriving DecidableEq, Repr

namespace Chain

variable (P : Prims) (c : Chain)

def height : Nat := c.blocks.length - 1

def txBlockHeight (txid : Bytes) : Option Nat :=
  c.blocks.findIdx? (·.any fun tx => P.txid tx = txid)

def transaction (txid : Bytes) : Option Transaction :=
  (c.blocks.flatten ++ c.mempool).find? fun tx => P.txid tx = txid

variable (o : OutPoint)

def output : Option TxOut := (c.transaction P o.txid).bind (·.output[o.vout]?)

def confirmedSpend : Bool := c.blocks.flatten.any (Transaction.spends o)

/-- A block or the mempool spends the outpoint. -/
def spent : Bool := (c.blocks.flatten ++ c.mempool).any (Transaction.spends o)

def unspentOutput : Option TxOut := if c.spent o then none else c.output P o

/-- The lowest block that may spend an output confirmed at `confirmed` through a relative
lock of `lock` blocks. -/
def minableFrom (confirmed lock : Nat) : Nat := confirmed + lock

variable {P c} {c' : Chain} {txid : Bytes} {n : Nat} {o : OutPoint}

theorem txBlockHeight_of_blocks (h : c'.blocks = c.blocks) (txid : Bytes) :
    c'.txBlockHeight P txid = c.txBlockHeight P txid := by
  rw [txBlockHeight, h, txBlockHeight]

theorem height_of_blocks (h : c'.blocks = c.blocks) : c'.height = c.height := by
  rw [height, h, height]

theorem confirmedSpend_of_blocks (h : c'.blocks = c.blocks) (o : OutPoint) :
    c'.confirmedSpend o = c.confirmedSpend o := by
  rw [confirmedSpend, h, confirmedSpend]

theorem transaction_of_txBlockHeight (hn : c.txBlockHeight P txid = some n) :
    c.transaction P txid = c.blocks.flatten.find? fun tx => P.txid tx = txid := by
  obtain ⟨hlt, hany, -⟩ := List.findIdx?_eq_some_iff_getElem.mp hn
  obtain ⟨tx, htx, hid⟩ := List.any_eq_true.mp hany
  have hmem : tx ∈ c.blocks.flatten :=
    List.mem_flatten.mpr ⟨_, List.getElem_mem hlt, htx⟩
  rw [transaction, List.find?_append, Option.or_of_isSome]
  exact List.find?_isSome.mpr ⟨tx, hmem, hid⟩

theorem output_of_blocks (h : c'.blocks = c.blocks) (hn : c.txBlockHeight P o.txid = some n) :
    c'.output P o = c.output P o := by
  have hn' : c'.txBlockHeight P o.txid = some n := (txBlockHeight_of_blocks h _).trans hn
  rw [output, output, transaction_of_txBlockHeight hn, transaction_of_txBlockHeight hn', h]

theorem txBlockHeight_le (hn : c.txBlockHeight P txid = some n) :
    n ≤ c.height := by
  obtain ⟨hlt, -, -⟩ := List.findIdx?_eq_some_iff_getElem.mp hn
  exact Nat.le_sub_one_of_lt hlt

theorem not_confirmedSpend_of_not_spent (h : c.spent o = false) :
    c.confirmedSpend o = false := by
  rw [spent, List.any_append, Bool.or_eq_false_iff] at h
  exact h.1

end Chain

end Btc
