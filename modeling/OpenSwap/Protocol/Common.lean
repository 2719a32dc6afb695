import OpenSwap.Btc.Tx

/-!
# Shared protocol data: versions, swap terms, fee policy, swap coins

Fee rates are negotiated as whole satoshi per virtual byte and kept as doubles,
so a rate is the natural number the double holds and products are rounded with
`roundF64`.
-/

namespace OpenSwap

open Btc

inductive ProtocolVersion where
  | legacy
  | taproot
deriving DecidableEq, Repr

def ProtocolVersion.featureName : ProtocolVersion → String
  | .legacy => "legacy"
  | .taproot => "taproot"

inductive ProtocolError where
  | general (msg : String)
  | scriptError
  | secp
  | taproot
deriving DecidableEq, Repr

inductive SelectionError where
  | insufficientFunds (available required : Nat)
  | other (name : String)
deriving DecidableEq, Repr

inductive WalletError where
  | general (msg : String)
  | insufficientFund (available required : Nat)
  | selection (error : SelectionError)
  | watchWindowCap (window cap : Nat)
  | rpc
  | io
deriving DecidableEq, Repr

/-- The outcome of a save: a failed one may still have reached the disk. -/
inductive SaveOutcome where
  | saved
  | failed (written : Bool)
deriving DecidableEq, Repr

def SaveOutcome.written : SaveOutcome → Bool
  | .saved => true
  | .failed written => written

inductive MakerError where
  | general (msg : String)
  | insufficientLiquidity (available required : Nat)
  | tooManySwaps
  | swapParamMismatch
  | contractBroadcast (swapId : String) (spendingTxid : Option Bytes)
  | wallet (e : WalletError)
  | protocol (e : ProtocolError)
deriving DecidableEq, Repr

/-! ## Protocol constants -/

/-- Blocks between the refund locks of two neighbouring hops. -/
def refundLocktimeStep : Nat := 20

/-- Fewest blocks a party keeps for reacting to a contract. -/
def minContractReactionTime : Nat := 10

def maxTxCount : Nat := 10

def minRelayFeeRate : Nat := 1

/-- The 21 million cap, in satoshi. -/
def maxMoney : Nat := 2100000000000000

/-- `u32::saturating_add` -/
def satAdd32 (a b : Nat) : Nat := min (a + b) (2 ^ 32 - 1)

/-! ## Identifiers -/

def hexDigit (n : Nat) : Char := if n < 10 then .ofNat (48 + n) else .ofNat (87 + n)

def hexString (b : Bytes) : String :=
  .ofList (b.flatMap fun x => [hexDigit (x.toNat / 16), hexDigit (x.toNat % 16)])

/-! ## Swap terms -/

structure SwapDetails where
  id : String
  features : List String
  amount : UInt64
  txCount : UInt32
  incomingCount : UInt32
  maxInputBudget : UInt32
  feerate : UInt64
  /-- Legacy: a relative block count; Taproot: an absolute height -/
  timelock : UInt32
  refundLocktimeOffset : UInt16

def SwapDetails.protocol (d : SwapDetails) : Option ProtocolVersion :=
  [ProtocolVersion.legacy, .taproot].find? fun p => d.features.any (· == p.featureName)

/-! ## Fee policy -/

def legacyContractSpendVsize : Nat := 150
def taprootKeypathVsize : Nat := 112
def taprootScriptpathVsize : Nat := 155
def contractTxVsize : Nat := 150
def fundingTxVsize (inputs : Nat) : Nat := 11 + 43 + 43 + 68 * inputs

/-- Fee for `vbytes` at `feerate`; `none` for unusable rates and for fees beyond
64 bits.  The product of two whole doubles is whole, so nothing is rounded up. -/
def feeAtRateSats (vbytes feerate : Nat) : Option Nat :=
  if feerate < minRelayFeeRate then none
  else
    let fee := roundF64 (feerate * roundF64 vbytes)
    if 2 ^ 64 ≤ fee then none else some fee

variable {vbytes feerate fee a b c : Nat}

theorem feeAtRateSats_pos (hpos : 0 < vbytes) (h : feeAtRateSats vbytes feerate = some fee) :
    0 < fee := by
  simp only [feeAtRateSats, Option.ite_none_left_eq_some, Option.some.injEq] at h
  obtain ⟨hrate, -, rfl⟩ := h
  have hone : roundF64 1 = 1 := roundF64_eq (by decide)
  have hsize : 0 < roundF64 vbytes := hone.ge.trans (roundF64_mono hpos)
  have hproduct : 0 < feerate * roundF64 vbytes :=
    Nat.mul_pos (Nat.lt_of_lt_of_le (by decide) (not_lt.mp hrate)) hsize
  exact hone.ge.trans (roundF64_mono hproduct)

theorem feeAtRateSats_le {vbytes'} (hle : vbytes ≤ vbytes')
    (h : feeAtRateSats vbytes' feerate = some fee) :
    ∃ less ≤ fee, feeAtRateSats vbytes feerate = some less := by
  have hround : roundF64 (feerate * roundF64 vbytes) ≤ roundF64 (feerate * roundF64 vbytes') :=
    roundF64_mono (Nat.mul_le_mul_left _ (roundF64_mono hle))
  simp only [feeAtRateSats, Option.ite_none_left_eq_some, Option.some.injEq] at h ⊢
  obtain ⟨hrate, hbig, rfl⟩ := h
  exact ⟨_, hround, hrate, fun hlarge => hbig (hlarge.trans hround), rfl⟩

/-- `u64::checked_add` -/
def checkedAdd64 (a b : Nat) : Option Nat := if a + b < 2 ^ 64 then some (a + b) else none

theorem checkedAdd64_eq_some :
    checkedAdd64 a b = some c ↔ a + b = c ∧ c < 2 ^ 64 := by
  rw [checkedAdd64]
  split <;> simp <;> omega

/-- `u64::checked_mul` -/
def checkedMul64 (a b : Nat) : Option Nat := if a * b < 2 ^ 64 then some (a * b) else none

theorem checkedMul64_eq_some :
    checkedMul64 a b = some c ↔ a * b = c ∧ c < 2 ^ 64 := by
  rw [checkedMul64]
  split <;> simp <;> omega

/-- `u64::checked_sub` -/
def checkedSub (a b : Nat) : Option Nat := if b ≤ a then some (a - b) else none

/-- `u64::saturating_add` -/
def satAdd64 (a b : Nat) : Nat := min (a + b) (2 ^ 64 - 1)

/-- An unchecked `+` of two `u64`: a build without overflow checks wraps. -/
def wrapAdd64 (a b : Nat) : Nat := (a + b) % 2 ^ 64

theorem foldl_wrapAdd64_mod (amounts : List Nat) (total : Nat) :
    amounts.foldl wrapAdd64 (total % 2 ^ 64) = (total + amounts.sum) % 2 ^ 64 := by
  induction amounts generalizing total with
  | nil => simp
  | cons amount rest ih =>
    rw [List.foldl_cons, wrapAdd64, Nat.mod_add_mod, ih, List.sum_cons, Nat.add_assoc]

/-- An unchecked `*` of two `u64` -/
def wrapMul64 (a b : Nat) : Nat := a * b % 2 ^ 64

def p2trMinNonDustSats : Nat := minimalNonDust (p2tr (List.replicate 32 0))

section Price

/-! The rate of a plan is a double, and what the code computes from it is the fee of a size
(`fee_at_rate_sats`): the functions of this section take that fee as `price`. -/

variable (price : Nat → Option Nat)

/-- What a funding transaction is reimbursed for. -/
def policyFeeAt (inputCount maxInputBudget : Nat) : Option Nat :=
  price (fundingTxVsize (min (max inputCount 1) maxInputBudget))

def settlementBudgetAt : ProtocolVersion → Option Nat
  | .legacy => do
    let contractFee ← price contractTxVsize
    let spendFee ← price legacyContractSpendVsize
    checkedAdd64 contractFee spendFee
  | .taproot => price taprootScriptpathVsize

/-- Smallest contract worth creating. -/
def contractFloorAt (protocol : ProtocolVersion) : Option Nat := do
  checkedAdd64 (← settlementBudgetAt price protocol) p2trMinNonDustSats

end Price

def fundingFeePolicySats (inputCount maxInputBudget feerate : Nat) : Option Nat :=
  policyFeeAt (feeAtRateSats · feerate) inputCount maxInputBudget

theorem fundingFeePolicySats_le {maxInputBudget} (inputs : Nat)
    (h : fundingFeePolicySats maxInputBudget maxInputBudget feerate = some fee) :
    ∃ less ≤ fee, fundingFeePolicySats inputs maxInputBudget feerate = some less := by
  refine feeAtRateSats_le ?_ h
  unfold fundingTxVsize
  omega

def sweepFeePolicySats : ProtocolVersion → Nat → Option Nat
  | .legacy, feerate => feeAtRateSats legacyContractSpendVsize feerate
  | .taproot, feerate => feeAtRateSats taprootKeypathVsize feerate

def paymentSettlementBudgetSats (protocol : ProtocolVersion) (feerate : Nat) : Option Nat :=
  settlementBudgetAt (feeAtRateSats · feerate) protocol

def minContractValueSats (protocol : ProtocolVersion) (feerate : Nat) : Option Nat :=
  contractFloorAt (feeAtRateSats · feerate) protocol

/-! ## Funding plans -/

/-- One planned funding transaction: the inputs that fund it and the value it sends. -/
structure SplitPlan where
  utxos : List OutPoint
  value : Nat
deriving DecidableEq, Repr

/-! ## Swap coins -/

section Coins

variable (P : Prims)

structure IncomingSwapCoin where
  protocol : ProtocolVersion
  myPrivkey : Option P.SecretKey
  myPubkey : Option P.PublicKey
  otherPubkey : Option P.PublicKey
  otherPrivkey : Option P.SecretKey
  contractTx : Transaction
  hashlockPrivkey : P.SecretKey
  fundingAmount : Nat
  hashPreimage : Option Bytes
  swapId : Option String
  contractRedeemscript : Option Bytes
  multisigRedeemscript : Option Bytes
  hashlockScript : Option Bytes
  timelockScript : Option Bytes
  othersContractSig : Option EcdsaSig
  tapTweak : Option Bytes
  internalKey : Option Bytes
  spendingTx : Option Transaction
  negotiatedFeerate : Nat

structure OutgoingSwapCoin where
  protocol : ProtocolVersion
  myPrivkey : Option P.SecretKey
  myPubkey : Option P.PublicKey
  otherPubkey : Option P.PublicKey
  otherPrivkey : Option P.SecretKey
  fundingTx : Option Transaction
  contractTx : Transaction
  timelockPrivkey : P.SecretKey
  fundingAmount : Nat
  hashPreimage : Option Bytes
  swapId : Option String
  contractRedeemscript : Option Bytes
  hashlockScript : Option Bytes
  timelockScript : Option Bytes
  othersContractSig : Option EcdsaSig
  tapTweak : Option Bytes
  internalKey : Option Bytes
  recoveryAddress : Option Bytes
  negotiatedFeerate : Nat
  /-- set once the coin's funding may be on the network -/
  committed : Bool
  /-- set with the first sweep of the swap's incoming coins -/
  incomingClaimed : Bool

end Coins

variable {P : Prims}

def IncomingSwapCoin.contractTxid (c : IncomingSwapCoin P) : Bytes := P.txid c.contractTx

def IncomingSwapCoin.newTaproot (hashlockPrivkey : P.SecretKey)
    (hashlockScript timelockScript : Bytes) (contractTx : Transaction)
    (fundingAmount negotiatedFeerate : Nat) : IncomingSwapCoin P where
  protocol := .taproot
  myPrivkey := none
  myPubkey := none
  otherPubkey := none
  otherPrivkey := none
  contractTx := contractTx
  hashlockPrivkey := hashlockPrivkey
  fundingAmount := fundingAmount
  hashPreimage := none
  swapId := none
  contractRedeemscript := none
  multisigRedeemscript := none
  hashlockScript := some hashlockScript
  timelockScript := some timelockScript
  othersContractSig := none
  tapTweak := none
  internalKey := none
  spendingTx := none
  negotiatedFeerate := negotiatedFeerate

def OutgoingSwapCoin.newTaproot (timelockPrivkey : P.SecretKey)
    (hashlockScript timelockScript : Bytes) (contractTx : Transaction)
    (fundingAmount negotiatedFeerate : Nat) : OutgoingSwapCoin P where
  protocol := .taproot
  myPrivkey := none
  myPubkey := none
  otherPubkey := none
  otherPrivkey := none
  fundingTx := none
  contractTx := contractTx
  timelockPrivkey := timelockPrivkey
  fundingAmount := fundingAmount
  hashPreimage := none
  swapId := none
  contractRedeemscript := none
  hashlockScript := some hashlockScript
  timelockScript := some timelockScript
  othersContractSig := none
  tapTweak := none
  internalKey := none
  recoveryAddress := none
  negotiatedFeerate := negotiatedFeerate
  committed := false
  incomingClaimed := false

end OpenSwap
