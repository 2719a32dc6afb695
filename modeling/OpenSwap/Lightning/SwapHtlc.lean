import OpenSwap.Btc.Chain
import OpenSwap.Protocol.Contract

/-!
# The on-chain side of a Lightning swap

A submarine swap locks coins in a P2WSH output with the contract script of the
on-chain protocols: the hash branch pays whoever learns the preimage of the Lightning
payment, the lock branch refunds whoever funded the output.  Both roles build their
spends and check their outputs with the functions here.

* `validateFundingOutput_eq_ok` says what an accepted funding output is.
-/

namespace OpenSwap

open Btc Checked

variable {P : Prims}

/-! ## Invoices -/

/-- What a BOLT11 invoice says, as its parser reports it. -/
structure Invoice where
  paymentHash : Bytes
  amountMsat : Option Nat
  minFinalCltvExpiryDelta : Nat
deriving DecidableEq, Repr

inductive InvoiceError where
  | parse
  | paymentHash
  | amount (found : Option Nat) (expected : Nat)
deriving DecidableEq, Repr

/-- The final delta of an invoice that commits to the hash and to exactly the amount. -/
def verifyInvoice (parseInvoice : String → Option Invoice) (invoice : String)
    (paymentHash : Bytes) (expectedMsat : Nat) : Except InvoiceError Nat := do
  let parsed ← okOr (parseInvoice invoice) .parse
  ensure (parsed.paymentHash = paymentHash) .paymentHash
  ensure (parsed.amountMsat = some expectedMsat) (.amount parsed.amountMsat expectedMsat)
  .ok parsed.minFinalCltvExpiryDelta

/-! ## The output -/

inductive SwapError where
  | wrongScript
  | wrongValue (value expected : Nat)
  | spendFeeOverflow
  | feeExceedsValue (fee value : Nat)
deriving DecidableEq, Repr

structure SwapHtlc where
  redeemscript : Bytes
  locktime : Nat
deriving DecidableEq, Repr

/-- The hash of the script, `hash160` of the preimage, from the payment hash, its
`sha256`: only the outer hash is left to apply. -/
def hashvalueFromPaymentHash (ripemd160 : Bytes → Bytes) (paymentHash : Bytes) : Bytes :=
  ripemd160 paymentHash

def spendTxVsize : Nat := 150

def spendFeeRate : Nat := 2

namespace SwapHtlc

def new (ripemd160 : Bytes → Bytes) (hashlockPubkey timelockPubkey : P.PublicKey)
    (paymentHash : Bytes) (locktime : Nat) : SwapHtlc where
  redeemscript := createContractRedeemscript hashlockPubkey timelockPubkey
    (hashvalueFromPaymentHash ripemd160 paymentHash) locktime
  locktime := locktime

def scriptPubkey (P : Prims) (htlc : SwapHtlc) : Bytes :=
  redeemscriptToScriptpubkey P htlc.redeemscript

def validateFundingOutput (P : Prims) (htlc : SwapHtlc) (output : TxOut) (expectedValue : Nat) :
    Except SwapError Unit := do
  ensure (output.scriptPubkey = htlc.scriptPubkey P) .wrongScript
  ensure (output.value = expectedValue) (.wrongValue output.value expectedValue)

def buildSpend (outpoint : OutPoint) (inputValue sequence : Nat) (destination : Bytes) :
    Except SwapError Transaction := do
  let fee ← okOr (feeAtRateSats spendTxVsize spendFeeRate) .spendFeeOverflow
  let outputValue ← okOr (checkedSub inputValue fee) (.feeExceedsValue fee inputValue)
  .ok {
    version := 2
    lockTime := 0
    input := [⟨outpoint, [], sequence, []⟩]
    output := [⟨outputValue, destination⟩] }

variable (htlc : SwapHtlc)

def signInput (tx : Transaction) (inputValue : Nat) (privkey : P.SecretKey) : Bytes :=
  (EcdsaSig.mk (P.sign privkey (P.sighash tx 0 htlc.redeemscript inputValue sighashAll))
    sighashAll).toBytes

def withWitness (tx : Transaction) (witness : List Bytes) : Transaction :=
  { tx with input := tx.input.map fun i => { i with witness } }

/-- The claim: it needs the preimage, and shows it. -/
def createHashlockSpend (outpoint : OutPoint) (inputValue : Nat) (privkey : P.SecretKey)
    (preimage destination : Bytes) : Except SwapError Transaction := do
  let tx ← buildSpend outpoint inputValue 0 destination
  .ok (withWitness tx [htlc.signInput tx inputValue privkey, preimage, htlc.redeemscript])

/-- The refund: its input waits out the lock. -/
def createTimelockSpend (outpoint : OutPoint) (inputValue : Nat) (privkey : P.SecretKey)
    (destination : Bytes) : Except SwapError Transaction := do
  let tx ← buildSpend outpoint inputValue htlc.locktime destination
  .ok (withWitness tx [htlc.signInput tx inputValue privkey, [], htlc.redeemscript])

/-- What an input shows, if its witness has the shape of a claim. -/
def shownPreimage (input : TxIn) : Option Bytes :=
  match input.witness with
  | [_, preimage, script] =>
    if script = htlc.redeemscript ∧ preimage.length = 32 then some preimage else none
  | _ => none

def extractPreimage (spendTx : Transaction) : Option Bytes :=
  spendTx.input.findSome? htlc.shownPreimage

/-! ### What they establish -/

variable {tx : Transaction} {privkey : P.SecretKey} {htlc : SwapHtlc} {outpoint : OutPoint}
  {inputValue : Nat} {destination preimage : Bytes}

theorem validateFundingOutput_eq_ok {output expectedValue u} :
    htlc.validateFundingOutput P output expectedValue = .ok u ↔
      output = ⟨expectedValue, htlc.scriptPubkey P⟩ := by
  cases output
  simp [validateFundingOutput, bind_ok_iff, and_comm]

theorem input_of_buildSpend {sequence}
    (h : buildSpend outpoint inputValue sequence destination = .ok tx) :
    tx.input = [⟨outpoint, [], sequence, []⟩] := by
  simp only [buildSpend, bind_ok_iff] at h
  obtain ⟨_, -, _, -, h⟩ := h
  cases h
  rfl

theorem spends_of_createHashlockSpend
    (h : htlc.createHashlockSpend outpoint inputValue privkey preimage destination = .ok tx) :
    tx.spends outpoint = true := by
  simp only [createHashlockSpend, bind_ok_iff] at h
  obtain ⟨tx', htx', h⟩ := h
  cases h
  simp [Transaction.spends, withWitness, input_of_buildSpend htx']

end SwapHtlc

end OpenSwap
