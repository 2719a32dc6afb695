import OpenSwap.Protocol.Contract

/-!
# Legacy swap coins

How the two kinds of Legacy coins are made, the funding output an incoming coin
stands on, and the signed contract transaction made from it.

* `IncomingSwapCoin.fundingOutpoint` is the outpoint the coin's contract spends.
* `IncomingSwapCoin.createSignedContractTx` is the 2-of-2 spend of it, and
  `IncomingSwapCoin.createSignedContractTx_spends` says when the spend is valid.
-/

namespace OpenSwap

open Btc Checked

variable {P : Prims}

/-- A rate as the coins store it: the double cast to 64 bits, saturating. -/
def castU64 (n : Nat) : Nat := min n (2 ^ 64 - 1)

variable {tx : Transaction} {input : TxIn} {output : TxOut}

theorem castU64_of_priced {feerate fee} (h : feeAtRateSats contractTxVsize feerate = some fee) :
    castU64 feerate = feerate := by
  unfold feeAtRateSats at h
  split at h
  · cases h
  · dsimp only at h
    split at h
    · cases h
    · rename_i hfee
      have h150 : roundF64 contractTxVsize = 150 := roundF64_eq (by decide)
      rw [h150] at hfee
      have hlt : feerate * 150 < 2 ^ 64 := by
        by_contra hge
        exact hfee (le_roundF64 (by omega))
      unfold castU64
      omega

def IncomingSwapCoin.newLegacy (myPrivkey : P.SecretKey) (otherPubkey : P.PublicKey)
    (contractTx : Transaction) (contractRedeemscript : Bytes) (hashlockPrivkey : P.SecretKey)
    (fundingAmount negotiatedFeerate : Nat) : IncomingSwapCoin P where
  protocol := .legacy
  myPrivkey := some myPrivkey
  myPubkey := some (Prims.publicKey myPrivkey)
  otherPubkey := some otherPubkey
  otherPrivkey := none
  contractTx := contractTx
  hashlockPrivkey := hashlockPrivkey
  fundingAmount := fundingAmount
  hashPreimage := none
  swapId := none
  contractRedeemscript := some contractRedeemscript
  multisigRedeemscript :=
    some (createMultisigRedeemscript (Prims.publicKey myPrivkey) otherPubkey)
  hashlockScript := none
  timelockScript := none
  othersContractSig := none
  tapTweak := none
  internalKey := none
  spendingTx := none
  negotiatedFeerate := negotiatedFeerate

def OutgoingSwapCoin.newLegacy (myPrivkey : P.SecretKey) (otherPubkey : P.PublicKey)
    (contractTx : Transaction) (contractRedeemscript : Bytes) (timelockPrivkey : P.SecretKey)
    (fundingAmount negotiatedFeerate : Nat) : OutgoingSwapCoin P where
  protocol := .legacy
  myPrivkey := some myPrivkey
  myPubkey := some (Prims.publicKey myPrivkey)
  otherPubkey := some otherPubkey
  otherPrivkey := none
  fundingTx := none
  contractTx := contractTx
  timelockPrivkey := timelockPrivkey
  fundingAmount := fundingAmount
  hashPreimage := none
  swapId := none
  contractRedeemscript := some contractRedeemscript
  hashlockScript := none
  timelockScript := none
  othersContractSig := none
  tapTweak := none
  internalKey := none
  recoveryAddress := none
  negotiatedFeerate := negotiatedFeerate
  committed := false
  incomingClaimed := false

variable (o : OutgoingSwapCoin P)

/-- The position of the contract output: in a Taproot transaction with several
outputs the first one of the funding amount. -/
def OutgoingSwapCoin.contractOutputVout : Nat :=
  if o.protocol = .taproot ∧ 1 < o.contractTx.output.length then
    (o.contractTx.output.findIdx? (·.value = o.fundingAmount)).getD 0
  else 0

def OutgoingSwapCoin.contractOutpoint : OutPoint :=
  ⟨P.txid o.contractTx, o.contractOutputVout⟩

variable (c : IncomingSwapCoin P)

def IncomingSwapCoin.fundingOutpoint : Option OutPoint :=
  c.contractTx.input.head?.map (·.previousOutput)

/-- The incoming funding outpoint and its 2-of-2 output script: the watch whose
spend is the breach signal. -/
def fundingWatch (incoming : IncomingSwapCoin P) : Option (OutPoint × Bytes) := do
  let outpoint ← incoming.fundingOutpoint
  let redeemscript ← incoming.multisigRedeemscript
  some (outpoint, redeemscriptToScriptpubkey P redeemscript)

def Transaction.mapFirstInput (f : TxIn → TxIn) (tx : Transaction) : Transaction :=
  match tx.input with
  | [] => tx
  | input :: rest => { tx with input := f input :: rest }

/-- A fully signed contract transaction for broadcast, for the fields of either kind of
coin.  The redeemscript is rebuilt from the two keys; the other side's signature goes in
as it was stored. -/
def createSignedContractTx (protocol : ProtocolVersion) (contractTx : Transaction)
    (fundingAmount : Nat) (myPrivkey : Option P.SecretKey)
    (myPubkey otherPubkey : Option P.PublicKey) (othersContractSig : Option EcdsaSig) :
    Except WalletError Transaction :=
  match protocol with
  | .taproot => .ok contractTx
  | .legacy => do
    let myPrivkey ← okOr myPrivkey (.general "Missing my_privkey for contract tx signing")
    let myPubkey ← okOr myPubkey (.general "Missing my_pubkey for contract tx signing")
    let otherPubkey ← okOr otherPubkey (.general "Missing other_pubkey for contract tx signing")
    let othersSig ← okOr othersContractSig
      (.general "Missing others_contract_sig for contract tx signing")
    let multisigRedeemscript := createMultisigRedeemscript myPubkey otherPubkey
    let mySig ← (signContractTx contractTx multisigRedeemscript fundingAmount myPrivkey).mapError
      fun _ => .general "Failed to sign contract tx"
    .ok (Transaction.mapFirstInput (fun input =>
      applyTwoSignaturesTo2of2MultisigSpend myPubkey otherPubkey mySig othersSig input
        multisigRedeemscript) contractTx)

def IncomingSwapCoin.createSignedContractTx : Except WalletError Transaction :=
  OpenSwap.createSignedContractTx c.protocol c.contractTx c.fundingAmount c.myPrivkey c.myPubkey
    c.otherPubkey c.othersContractSig

/-! ## Contract outputs and their spends -/

/-- The number a Taproot timelock script starts with, in 32 bits; the shift of a fifth
byte wraps around. -/
def taprootTimelock : Bytes → Option Nat
  | [] => none
  | len :: rest =>
    if rest.length < 5 ∨ len.toNat = 0 ∨ 5 < len.toNat ∨ rest.length < len.toNat then none
    else some ((rest.take len.toNat).zipIdx.foldl
      (fun locktime byte => locktime ||| byte.1.toNat <<< (8 * byte.2 % 32)) 0)

/-- The contract's timelock: a height under Taproot, a number of blocks under Legacy. -/
def contractTimelock (protocol : ProtocolVersion) (redeemscript timelockScript : Option Bytes) :
    Option Nat :=
  match protocol with
  | .taproot => timelockScript.bind taprootTimelock
  | .legacy => redeemscript.bind fun script => (readContractLocktime script).toOption

/-- Leaf version and script of a script-path witness, with or without an annex. -/
def taprootLeafScript (witness : List Bytes) : Option (UInt8 × Bytes) :=
  let items := match witness.getLast? with
    | some (0x50 :: _) => if 2 ≤ witness.length then witness.dropLast else witness
    | _ => witness
  match items.reverse with
  | (control :: _) :: script :: _ => some (control &&& 0xfe, script)
  | _ => none

def tapscriptLeafVersion : UInt8 := 0xc0

def isTimelockSpend (spendingTx : Transaction) (contractOutpoint : OutPoint)
    (protocol : ProtocolVersion) (redeemscript timelockScript : Option Bytes) : Bool :=
  match spendingTx.input.find? (·.previousOutput = contractOutpoint) with
  | none => false
  | some input =>
    match protocol with
    | .taproot => timelockScript.any fun script =>
        taprootLeafScript input.witness = some (tapscriptLeafVersion, script)
    | .legacy => redeemscript.any fun script =>
        -- the empty element selects the timelock branch
        input.witness.length = 3 && input.witness[1]? = some [] &&
          input.witness.getLast? = some script

def IncomingSwapCoin.contractOutputVout : Nat :=
  if c.protocol = .taproot ∧ 1 < c.contractTx.output.length then
    (c.contractTx.output.findIdx? (·.value = c.fundingAmount)).getD 0
  else 0

def OutgoingSwapCoin.timelock : Option Nat :=
  contractTimelock o.protocol o.contractRedeemscript o.timelockScript

def OutgoingSwapCoin.isOwnTimelockSpend (tx : Transaction) : Bool :=
  OpenSwap.isTimelockSpend tx o.contractOutpoint o.protocol o.contractRedeemscript o.timelockScript

/-! ## The signed contract as a spend -/

theorem sighash_mapFirstInput {f : TxIn → TxIn}
    (hf : ∀ input, { f input with witness := [] } = { input with witness := [] }) :
    P.sighash (Transaction.mapFirstInput f tx) = P.sighash tx := by
  rw [← P.sighash_stripWitness, ← P.sighash_stripWitness tx]
  unfold Transaction.mapFirstInput
  split
  · rfl
  · rename_i input rest hin
    simp [Transaction.stripWitness, hin, hf]

/-- Two signatures over the rebuilt script make a bare input a spend of its output. -/
theorem spendsScriptHash_of_twoSignatures {key1 key2 : P.PublicKey} {sig1 sig2 : EcdsaSig}
    (hin : tx.input[0]? = some (applyTwoSignaturesTo2of2MultisigSpend key1 key2 sig1 sig2 input
      (createMultisigRedeemscript key1 key2))) (hbare : input.scriptSig = [] ∧ input.witness = [])
    (hspk : output.scriptPubkey = p2wsh P (createMultisigRedeemscript key1 key2))
    (hok1 : segwitSigOk P tx 0 (createMultisigRedeemscript key1 key2) output.value key1.toBytes
      sig1.toBytes)
    (hok2 : segwitSigOk P tx 0 (createMultisigRedeemscript key1 key2) output.value key2.toBytes
      sig2.toBytes) :
    spendsScriptHash P tx 0 output = true := by
  obtain ⟨hscriptSig, hwitness⟩ := hbare
  have hlen1 : sig1.toBytes.length ≤ maxElementSize :=
    Nat.le_trans (length_of_segwitSigOk hok1) (by decide)
  have hlen2 : sig2.toBytes.length ≤ maxElementSize :=
    Nat.le_trans (length_of_segwitSigOk hok2) (by decide)
  have hinstrs := collect_createMultisigRedeemscript key1 key2
  by_cases hlt : keyLt key1 key2
  · rw [if_pos hlt] at hinstrs
    have hwit : (applyTwoSignaturesTo2of2MultisigSpend key1 key2 sig1 sig2 input
        (createMultisigRedeemscript key1 key2)).witness =
        [[], sig1.toBytes, sig2.toBytes] ++ [createMultisigRedeemscript key1 key2] := by
      simp [applyTwoSignaturesTo2of2MultisigSpend, hwitness, hlt]
    rw [spendsScriptHash_iff hin hwit, satisfies_twoOfTwo hinstrs]
    exact ⟨hscriptSig, hspk, hlen1, hlen2, hok1, hok2⟩
  · rw [if_neg hlt] at hinstrs
    have hwit : (applyTwoSignaturesTo2of2MultisigSpend key1 key2 sig1 sig2 input
        (createMultisigRedeemscript key1 key2)).witness =
        [[], sig2.toBytes, sig1.toBytes] ++ [createMultisigRedeemscript key1 key2] := by
      simp [applyTwoSignaturesTo2of2MultisigSpend, hwitness, hlt]
    rw [spendsScriptHash_iff hin hwit, satisfies_twoOfTwo hinstrs]
    exact ⟨hscriptSig, hspk, hlen2, hlen1, hok2, hok1⟩

/-- **The signed contract spends the 2-of-2 output.**  A coin whose counterparty
signature is one over all of the contract transaction, whose contract input is bare and
whose keys rebuild the script the output pays. -/
theorem IncomingSwapCoin.createSignedContractTx_spends {c : IncomingSwapCoin P}
    {myPrivkey : P.SecretKey} {otherPubkey : P.PublicKey} {sig : EcdsaSig}
    (hprotocol : c.protocol = .legacy) (hpriv : c.myPrivkey = some myPrivkey)
    (hmy : c.myPubkey = some (Prims.publicKey myPrivkey))
    (hother : c.otherPubkey = some otherPubkey) (hc : otherPubkey.compressed)
    (hsig : c.othersContractSig = some sig) (hall : sig.sighashType = sighashAll)
    (hin : c.contractTx.input = [input]) (hbare : input.scriptSig = [] ∧ input.witness = [])
    (hspk : output.scriptPubkey =
      p2wsh P (createMultisigRedeemscript (Prims.publicKey myPrivkey) otherPubkey))
    (hvalue : output.value = c.fundingAmount) (hverify : verifyContractTxSig c.contractTx
      (createMultisigRedeemscript (Prims.publicKey myPrivkey) otherPubkey) c.fundingAmount
      otherPubkey sig.signature = .ok ()) :
    ∃ tx, c.createSignedContractTx = .ok tx ∧
      tx.input.head?.map (·.previousOutput) = some input.previousOutput ∧
      spendsScriptHash P tx 0 output = true := by
  simp only [verifyContractTxSig, contractSighash, bind_ok_iff, ensure_eq_ok,
    Except.ok.injEq] at hverify
  obtain ⟨digest, ⟨_, hne, hdigest⟩, hverify⟩ := hverify
  have hmySig : signContractTx c.contractTx
      (createMultisigRedeemscript (Prims.publicKey myPrivkey) otherPubkey) c.fundingAmount
        myPrivkey = .ok ⟨P.sign myPrivkey digest, sighashAll⟩ := by
    simp only [signContractTx, contractSighash, bind_ok_iff, ensure_eq_ok, Except.ok.injEq]
    exact ⟨digest, ⟨(), hne, hdigest⟩, rfl⟩
  let f : TxIn → TxIn := fun input => applyTwoSignaturesTo2of2MultisigSpend
    (Prims.publicKey myPrivkey) otherPubkey ⟨P.sign myPrivkey digest, sighashAll⟩ sig input
    (createMultisigRedeemscript (Prims.publicKey myPrivkey) otherPubkey)
  have hsigned : c.createSignedContractTx = .ok (Transaction.mapFirstInput f c.contractTx) := by
    simp only [IncomingSwapCoin.createSignedContractTx, OpenSwap.createSignedContractTx, hprotocol,
      hpriv, hmy, hother, hsig, bind_ok_iff, okOr_eq_ok, mapError_ok_iff, Option.some.injEq,
      exists_eq_left', hmySig, Except.ok.injEq]
    rfl
  -- both signatures are over the digest that the script's own check computes
  have hsighash : P.sighash (Transaction.mapFirstInput f c.contractTx) 0
      (createMultisigRedeemscript (Prims.publicKey myPrivkey) otherPubkey) output.value
      sighashAll = digest := by
    rw [sighash_mapFirstInput (f := f) fun _ => rfl, hvalue, hdigest]
  have hinput : (Transaction.mapFirstInput f c.contractTx).input[0]? = some (f input) := by
    simp [Transaction.mapFirstInput, hin]
  refine ⟨_, hsigned, by simp [Transaction.mapFirstInput, hin, f,
    applyTwoSignaturesTo2of2MultisigSpend],
    spendsScriptHash_of_twoSignatures hinput hbare hspk ?_ ?_⟩
  · rw [segwitSigOk_toBytes (Prims.PublicKey.parse_toBytes rfl), hsighash]
    exact P.verify_sign myPrivkey digest
  · rw [segwitSigOk_toBytes (Prims.PublicKey.parse_toBytes hc), hall, hsighash]
    exact hverify

end OpenSwap
