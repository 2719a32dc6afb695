import OpenSwap.Maker.Admission
import OpenSwap.Wallet.Swapcoin

/-!
# Legacy messages: what the maker checks and builds

The parts of the Legacy handlers that touch no shared state: the checks on a request
for sender signatures, on a proof of funding and on the answers that follow, and the
coins the maker builds from them.  The server that runs them is in `Maker.Server`.

* `contractBinding_of_verified`: a verified sender contract binds its prevout to a script.
* `verifyFundingEntry_ok`: what an accepted entry of a proof of funding satisfies.
* `own_key_of_accepted`: which key of an accepted 2-of-2 script is ours.
-/

namespace OpenSwap

open Btc Checked

/-! ## Messages -/

section Messages

variable (P : Prims)

structure ContractTxInfoForSender where
  multisigNonce : P.SecretKey
  hashlockNonce : P.SecretKey
  timelockPubkey : P.PublicKey
  sendersContractTx : Transaction
  multisigRedeemscript : Bytes
  fundingInputValue : Nat

structure ReqContractSigsForSender where
  id : String
  txsInfo : List (ContractTxInfoForSender P)
  hashvalue : Bytes
  locktime : UInt16

structure FundingTxInfo where
  fundingTx : Transaction
  multisigRedeemscript : Bytes
  multisigNonce : P.SecretKey
  contractRedeemscript : Bytes
  hashlockNonce : P.SecretKey

structure NextHopInfo where
  nextMultisigPubkey : P.PublicKey
  nextHashlockPubkey : P.PublicKey

structure ProofOfFunding where
  id : String
  confirmedFundingTxes : List (FundingTxInfo P)
  nextOpenswapInfo : List (NextHopInfo P)
  refundLocktime : UInt16

structure RespContractSigsForRecvrAndSender where
  id : String
  receiversSigs : List EcdsaSig
  sendersSigs : List EcdsaSig

structure PrivateKeyHandover where
  id : String
  privkeys : List P.SecretKey

end Messages

variable {P : Prims}

/-! ## Signing the sender's contracts -/

def soleInputOutput (tx : Transaction) : Option (TxIn × TxOut) :=
  match tx.input, tx.output with
  | [input], [output] => some (input, output)
  | _, _ => none

variable {info : FundingTxInfo P} {tweakablePubkey : P.PublicKey} {output : TxOut}
  {tweakablePrivkey : P.SecretKey} {swapFeerate : Nat} {swapId : String} {coin : IncomingSwapCoin P}

theorem soleInputOutput_eq_some {tx input} :
    soleInputOutput tx = some (input, output) ↔ tx.input = [input] ∧ tx.output = [output] := by
  unfold soleInputOutput
  split
  · rename_i i o hi ho
    rw [hi, ho]
    simp
  · rename_i hne
    simp only [reduceCtorEq, false_iff, not_and]
    intro hi ho
    exact hne input output hi ho

/-- One contract of a request: template, our key, shape, and the output it pays.
Value, sequence, version, lock time and signature script are not looked at. -/
def verifySenderContract (tweakablePubkey : P.PublicKey) (hashvalue : Bytes)
    (takerLocktime : Nat) (txinfo : ContractTxInfoForSender P) : Except MakerError Unit := do
  (checkRedeemscriptIsMultisig P txinfo.multisigRedeemscript).mapError
    fun _ => .general "Sender contract invalid multisig redeemscript"
  (checkMultisigHasPubkey txinfo.multisigRedeemscript tweakablePubkey
    txinfo.multisigNonce).mapError
    fun _ => .general "Sender contract multisig doesn't contain maker's pubkey"
  let (_, output) ← okOr (soleInputOutput txinfo.sendersContractTx)
    (.general "Sender contract tx has invalid structure")
  let hashlockPubkey ← (calculatePubkeyFromNonce tweakablePubkey txinfo.hashlockNonce).mapError
    fun _ => .general "Sender contract hashlock key derivation failed"
  (isContractOutValid output hashlockPubkey txinfo.timelockPubkey hashvalue takerLocktime
    0).mapError fun _ => .general "Sender contract output invalid"

/-- `u16::checked_add` -/
def checkedAdd16 (a b : Nat) : Option Nat := if a + b < 2 ^ 16 then some (a + b) else none

variable (txsInfo : List (ContractTxInfoForSender P))

def verifyReqContractSigsForSender (tweakablePubkey : P.PublicKey) (hashvalue : Bytes)
    (locktime : Nat) : Except MakerError Unit := do
  ensure (txsInfo ≠ []) (.general "Empty sender contract txs info from taker")
  let takerLocktime ← okOr (checkedAdd16 locktime refundLocktimeStep)
    (.general "Sender contract locktime overflows the refund step")
  checkAll (verifySenderContract tweakablePubkey hashvalue takerLocktime) txsInfo

def contractBinding (tx : Transaction) : Option (OutPoint × Bytes) :=
  (soleInputOutput tx).map fun (input, output) => (input.previousOutput, output.scriptPubkey)

def requestBindings : List (OutPoint × Bytes) :=
  txsInfo.filterMap fun txinfo => contractBinding txinfo.sendersContractTx

def signSenderContractTx (tweakablePrivkey : P.SecretKey) (txinfo : ContractTxInfoForSender P) :
    Except MakerError EcdsaSig := do
  let multisigPrivkey ← okOr (P.addTweak tweakablePrivkey txinfo.multisigNonce)
    (.general "Failed to derive multisig privkey")
  (signContractTx txinfo.sendersContractTx txinfo.multisigRedeemscript txinfo.fundingInputValue
    multisigPrivkey).mapError fun _ => .general "Failed to sign contract transaction"

theorem contractBinding_of_verified {hashvalue locktime txsInfo txinfo}
    (h : verifyReqContractSigsForSender txsInfo tweakablePubkey hashvalue locktime = .ok ())
    (hmem : txinfo ∈ txsInfo) :
    ∃ input output, txinfo.sendersContractTx.input = [input] ∧
      txinfo.sendersContractTx.output = [output] ∧
      (input.previousOutput, output.scriptPubkey) ∈ requestBindings txsInfo := by
  simp only [verifyReqContractSigsForSender, bind_ok_iff, checkAll_eq_ok] at h
  obtain ⟨_, -, takerLocktime, -, hall⟩ := h
  have hone := hall txinfo hmem
  simp only [verifySenderContract, bind_ok_iff, okOr_eq_ok, mapError_ok_iff] at hone
  obtain ⟨_, -, _, -, ⟨input, output⟩, hends, -⟩ := hone
  obtain ⟨hin, hout⟩ := soleInputOutput_eq_some.mp hends
  refine ⟨input, output, hin, hout, List.mem_filterMap.mpr ⟨txinfo, hmem, ?_⟩⟩
  rw [contractBinding, hends]
  rfl

/-! ## Proof of funding -/

def findFundingOutputIndex (info : FundingTxInfo P) : Except MakerError Nat :=
  okOr (info.fundingTx.output.findIdx?
    (·.scriptPubkey = redeemscriptToScriptpubkey P info.multisigRedeemscript))
    (.general "Funding output doesn't match with multisig redeem script")

def fundingOutput (info : FundingTxInfo P) : Except MakerError (OutPoint × TxOut) := do
  let index ← findFundingOutputIndex info
  let output ← okOr info.fundingTx.output[index]? (.general "Funding output not found")
  .ok (⟨P.txid info.fundingTx, index⟩, output)

def declaredIncoming (contractFloor : Nat) : List (FundingTxInfo P) → Nat → Except MakerError Nat
  | [], total => .ok total
  | info :: rest, total => do
    let (_, output) ← fundingOutput info
    ensure (contractFloor ≤ output.value)
      (.general "Legacy funding output below the contract floor")
    let total ← okOr (checkedAdd64 total output.value) (.general "Funding output amounts overflow")
    declaredIncoming contractFloor rest total

theorem declaredIncoming_ok {contractFloor declared : Nat} {infos : List (FundingTxInfo P)}
    {total : Nat} (h : declaredIncoming contractFloor infos total = .ok declared) :
    ∃ outs, List.Forall₂ (fun info out => fundingOutput info = .ok out) infos outs ∧
      (∀ p ∈ outs, contractFloor ≤ p.2.value) ∧ total + (outs.map (·.2.value)).sum = declared := by
  induction infos generalizing total with
  | nil =>
    cases h
    exact ⟨[], .nil, nofun, rfl⟩
  | cons info rest ih =>
    simp only [declaredIncoming, bind_ok_iff, ensure_eq_ok, okOr_eq_ok, checkedAdd64_eq_some] at h
    obtain ⟨⟨outpoint, output⟩, hout, _, hfloor, _, ⟨rfl, -⟩, h⟩ := h
    obtain ⟨outs, houts, hfloors, hsum⟩ := ih h
    refine ⟨(outpoint, output) :: outs, .cons hout houts, ?_, ?_⟩
    · rintro p (_ | ⟨_, hp⟩)
      · exact hfloor
      · exact hfloors p hp
    · rw [List.map_cons, List.sum_cons, ← add_assoc]
      exact hsum

/-- The checks of a proof against the negotiated terms, before anything is built. -/
def checkProofTerms (state : ConnectionState P) (pof : ProofOfFunding P) :
    Except MakerError Unit := do
  state.expectPhase [.awaitingContractData, .awaitingSignaturesOrPreimage]
  state.checkSwapId pof.id
  ensure (pof.refundLocktime.toNat = state.timelock)
    (.general "ProofOfFunding refund locktime does not match the negotiated timelock")
  ensure (pof.confirmedFundingTxes.length = state.incomingCount)
    (.general "ProofOfFunding tx count differs from the declared incoming count")
  ensure (pof.nextOpenswapInfo.length = state.fundingPlan.length)
    (.general "ProofOfFunding next-hop contract count differs from the frozen plan")
  let contractFloor ← okOr (minContractValueSats .legacy state.swapFeerate)
    (.general "Contract floor cannot be priced")
  let declared ← declaredIncoming contractFloor pof.confirmedFundingTxes 0
  ensure (declared = state.swapAmount)
    (.general "ProofOfFunding incoming amount differs from the declared swap amount")

/-- The incoming coin of one entry.  Its contract is rebuilt from the outpoint, the
value, the peer's contract script and the negotiated rate. -/
def receiverCoin (tweakablePrivkey : P.SecretKey) (swapFeerate : Nat) (swapId : String)
    (info : FundingTxInfo P) : Except MakerError (IncomingSwapCoin P) := do
  let (pubkey1, pubkey2) ←
    (readPubkeysFromMultisigRedeemscript P info.multisigRedeemscript).mapError .protocol
  let (outpoint, output) ← fundingOutput info
  let multisigPrivkey ← okOr (P.addTweak tweakablePrivkey info.multisigNonce) (.protocol .secp)
  let otherPubkey := if Prims.publicKey multisigPrivkey = pubkey1 then pubkey2 else pubkey1
  let hashlockPrivkey ← okOr (P.addTweak tweakablePrivkey info.hashlockNonce) (.protocol .secp)
  let receiverContractTx ← (createReceiversContractTx P outpoint output.value
    info.contractRedeemscript swapFeerate).mapError .protocol
  .ok { IncomingSwapCoin.newLegacy multisigPrivkey otherPubkey receiverContractTx
      info.contractRedeemscript hashlockPrivkey output.value (castU64 swapFeerate) with
    swapId := some swapId }

def checkFundingShape (refundLocktime : Nat) :
    List (FundingTxInfo P) → List OutPoint → Except MakerError Unit
  | [], _ => .ok ()
  | info :: rest, seen => do
    let locktime ← (readContractLocktime info.contractRedeemscript).mapError .protocol
    ensure (minContractReactionTime ≤ locktime - refundLocktime)
      (.general "Next hop locktime too close to current hop locktime")
    let index ← (findFundingOutputIndex info).mapError
      fun _ => .general "Funding output not found"
    let outpoint : OutPoint := ⟨P.txid info.fundingTx, index⟩
    ensure (outpoint ∉ seen) (.general "Duplicate funding outpoint")
    checkFundingShape refundLocktime rest (outpoint :: seen)

def ensurePrevoutMatchesCachedContract (cached : Option Bytes) (contractScriptpubkey : Bytes) :
    Except WalletError Unit :=
  match cached with
  | some contract => ensure (contract = contractScriptpubkey)
      (.general "Provided contract does not match the cached sender contract")
  | none => .error (.general "No cached sender contract for funding prevout")

/-- One entry after the wait: still unspent, the two scripts hold our keys, the
contract is the one we signed for, and all entries share one hash value. -/
def verifyFundingEntry (tweakablePubkey : P.PublicKey) (prevoutToContract : OutPoint → Option Bytes)
    (refundLocktime : Nat) (unspent : Except MakerError Bool) (hashvalue : Option Bytes)
    (info : FundingTxInfo P) : Except MakerError Bytes := do
  let locktime ← (readContractLocktime info.contractRedeemscript).mapError .protocol
  ensure (minContractReactionTime ≤ locktime - refundLocktime)
    (.general "Next hop locktime too close to current hop locktime")
  let index ← (findFundingOutputIndex info).mapError fun _ => .general "Funding output not found"
  let fundingOutpoint : OutPoint := ⟨P.txid info.fundingTx, index⟩
  let isUnspent ← unspent
  ensure (isUnspent = true) (.general "Funding output already spent")
  (checkRedeemscriptIsMultisig P info.multisigRedeemscript).mapError .protocol
  (checkMultisigHasPubkey info.multisigRedeemscript tweakablePubkey
    info.multisigNonce).mapError .protocol
  (checkHashlockHasPubkey info.contractRedeemscript tweakablePubkey
    info.hashlockNonce).mapError .protocol
  (ensurePrevoutMatchesCachedContract (prevoutToContract fundingOutpoint)
    (redeemscriptToScriptpubkey P info.contractRedeemscript)).mapError .wallet
  let thisHashvalue ← (readHashvalueFromContract info.contractRedeemscript).mapError .protocol
  ensure (∀ previous ∈ hashvalue, previous = thisHashvalue)
    (.general "Hash values in contracts do not match")
  .ok thisHashvalue

theorem verifyFundingEntry_ok {prevoutToContract : OutPoint → Option Bytes}
    {refundLocktime unspent hashvalue thisHashvalue}
    (h : verifyFundingEntry tweakablePubkey prevoutToContract refundLocktime unspent hashvalue info
      = .ok thisHashvalue) :
    unspent = .ok true ∧ checkRedeemscriptIsMultisig P info.multisigRedeemscript = .ok () ∧
      checkMultisigHasPubkey info.multisigRedeemscript tweakablePubkey info.multisigNonce = .ok () ∧
      ∃ index, findFundingOutputIndex info = .ok index ∧
        prevoutToContract ⟨P.txid info.fundingTx, index⟩ =
          some (p2wsh P info.contractRedeemscript) := by
  simp only [verifyFundingEntry, bind_ok_iff, ensure_eq_ok, mapError_ok_iff] at h
  obtain ⟨_, -, _, -, index, hindex, isUnspent, hunspent, _, rfl, _, htemplate, _, hkey, _, -, _,
    hcached, -⟩ := h
  refine ⟨hunspent, htemplate, hkey, index, hindex, ?_⟩
  unfold ensurePrevoutMatchesCachedContract at hcached
  split at hcached
  · rename_i contract hcontract
    rw [ensure_eq_ok] at hcached
    rw [hcontract, hcached]
    rfl
  · cases hcached

theorem fundingOutput_ok {outpoint} (h : fundingOutput info = .ok (outpoint, output)) :
    findFundingOutputIndex info = .ok outpoint.vout ∧ outpoint.txid = P.txid info.fundingTx ∧
      info.fundingTx.output[outpoint.vout]? = some output ∧
      output.scriptPubkey = p2wsh P info.multisigRedeemscript := by
  simp only [fundingOutput, bind_ok_iff, okOr_eq_ok] at h
  obtain ⟨index, hindex, out, hout, h⟩ := h
  cases h
  refine ⟨hindex, rfl, hout, ?_⟩
  rw [findFundingOutputIndex, okOr_eq_ok, List.findIdx?_eq_some_iff_getElem] at hindex
  obtain ⟨hlt, hspk, -⟩ := hindex
  rw [List.getElem?_eq_getElem hlt, Option.some.injEq] at hout
  rw [← hout]
  exact of_decide_eq_true hspk

/-- **What an incoming coin is built from**: its contract transaction depends on the
funding outpoint and value, the output of the peer's contract script and the rate. -/
theorem receiverCoin_ok (h : receiverCoin tweakablePrivkey swapFeerate swapId info = .ok coin) :
    ∃ pubkey1 pubkey2 multisigPrivkey outpoint output fee,
      readPubkeysFromMultisigRedeemscript P info.multisigRedeemscript = .ok (pubkey1, pubkey2) ∧
      fundingOutput info = .ok (outpoint, output) ∧
      P.addTweak tweakablePrivkey info.multisigNonce = some multisigPrivkey ∧
      feeAtRateSats contractTxVsize swapFeerate = some fee ∧ fee ≤ output.value ∧
      coin.swapId = some swapId ∧ coin.fundingAmount = output.value ∧
      coin.negotiatedFeerate = castU64 swapFeerate ∧
      coin.contractTx = mkContractTx outpoint (output.value - fee)
        (p2wsh P info.contractRedeemscript) ∧
      coin.myPubkey = some (Prims.publicKey multisigPrivkey) ∧
      coin.otherPubkey = some (if Prims.publicKey multisigPrivkey = pubkey1 then pubkey2
        else pubkey1) ∧
      coin.multisigRedeemscript = some (createMultisigRedeemscript
        (Prims.publicKey multisigPrivkey)
        (if Prims.publicKey multisigPrivkey = pubkey1 then pubkey2 else pubkey1)) := by
  simp only [receiverCoin, createReceiversContractTx, bind_ok_iff, okOr_eq_ok, mapError_ok_iff] at h
  obtain ⟨⟨pubkey1, pubkey2⟩, hkeys, ⟨outpoint, output⟩, hout, multisigPrivkey, hpriv, _, -, tx,
    htx, h⟩ := h
  obtain ⟨fee, hfee, hle, rfl⟩ := createSendersContractTx_ok.mp htx
  cases h
  exact ⟨pubkey1, pubkey2, multisigPrivkey, outpoint, output, fee, hkeys, hout, hpriv, hfee,
    Nat.le_of_add_right_le hle, rfl, rfl, rfl, rfl, rfl, rfl, rfl⟩

theorem receiverCoin_output {out}
    (h : receiverCoin tweakablePrivkey swapFeerate swapId info = .ok coin)
    (hout : fundingOutput info = .ok out) :
    coin.protocol = .legacy ∧ coin.fundingOutpoint = some out.1 ∧
      coin.fundingAmount = out.2.value ∧
      coin.contractRedeemscript = some info.contractRedeemscript := by
  simp only [receiverCoin, createReceiversContractTx, bind_ok_iff, okOr_eq_ok, mapError_ok_iff] at h
  obtain ⟨⟨pubkey1, pubkey2⟩, -, _, hout', _, -, _, -, tx, htx, h⟩ := h
  obtain ⟨fee, -, -, rfl⟩ := createSendersContractTx_ok.mp htx
  rw [hout, Except.ok.injEq] at hout'
  subst hout'
  cases h
  exact ⟨rfl, rfl, rfl, rfl⟩

/-! ## The multisig script on the coin -/

variable (c : IncomingSwapCoin P)

def IncomingSwapCoin.rebuiltMultisig : Option Bytes := do
  let otherPubkey ← c.otherPubkey
  let myPubkey ← c.myPubkey
  some (createMultisigRedeemscript myPubkey otherPubkey)

def verifyReceiverSig (sig : EcdsaSig) (incoming : IncomingSwapCoin P) :
    Except MakerError Unit := do
  let otherPubkey ← okOr incoming.otherPubkey
    (.general "Incoming swapcoin missing other_pubkey for signature verification")
  let multisigRedeemscript ← okOr incoming.rebuiltMultisig
    (.general "Incoming swapcoin missing my_pubkey")
  (verifyContractTxSig incoming.contractTx multisigRedeemscript incoming.fundingAmount otherPubkey
    sig.signature).mapError fun _ => .general "Receiver signature verification failed"

def verifySenderSig (sig : EcdsaSig) (outgoing : OutgoingSwapCoin P) : Except MakerError Unit := do
  let otherPubkey ← okOr outgoing.otherPubkey
    (.general "Outgoing swapcoin missing other_pubkey for signature verification")
  let myPubkey ← okOr outgoing.myPubkey (.general "Outgoing swapcoin missing my_pubkey")
  (verifyContractTxSig outgoing.contractTx (createMultisigRedeemscript myPubkey otherPubkey)
    outgoing.fundingAmount otherPubkey sig.signature).mapError
    fun _ => .general "Sender signature verification failed"

def verifyContractSigs (receiversSigs sendersSigs : List EcdsaSig)
    (incoming : List (IncomingSwapCoin P)) (outgoing : List (OutgoingSwapCoin P)) :
    Except MakerError Unit := do
  checkAll (fun p => verifyReceiverSig p.1 p.2) (receiversSigs.zip incoming)
  checkAll (fun p => verifySenderSig p.1 p.2) (sendersSigs.zip outgoing)

theorem own_key_of_accepted {multisigPrivkey nonce redeemscript pubkey1 pubkey2}
    (hkeys : readPubkeysFromMultisigRedeemscript P redeemscript = .ok (pubkey1, pubkey2))
    (hcheck : checkMultisigHasPubkey redeemscript (Prims.publicKey tweakablePrivkey) nonce = .ok ())
    (hpriv : P.addTweak tweakablePrivkey nonce = some multisigPrivkey) :
    pubkey1 = Prims.publicKey multisigPrivkey ∨ pubkey2 = Prims.publicKey multisigPrivkey := by
  simp only [checkMultisigHasPubkey, bind_ok_iff, hkeys, Except.ok.injEq, ensure_eq_ok,
    calculatePubkeyFromNonce, Prims.publicKey, P.combine_pubOf, hpriv, Option.map_some,
    okOr_eq_ok, Option.some.injEq] at hcheck
  obtain ⟨_, rfl, _, ⟨_, rfl, rfl⟩, hmem⟩ := hcheck
  exact hmem

/-! ## After the proof: signatures, keys and outgoing coins -/

/-- Walk a list of values along a list of coins; coins without a value stay. -/
def attach {α β : Type} (f : β → α → β) : List α → List β → List β
  | a :: as, b :: bs => f b a :: attach f as bs
  | _, bs => bs

theorem mem_attach {α β : Type} {f : β → α → β} {as bs b} (h : b ∈ attach f as bs) :
    b ∈ bs ∨ ∃ a ∈ as, ∃ b' ∈ bs, b = f b' a := by
  induction as generalizing bs with
  | nil => exact .inl (by simpa [attach] using h)
  | cons a as ih =>
    cases bs with
    | nil => simp [attach] at h
    | cons b' bs =>
      rcases List.mem_cons.mp h with rfl | h
      · exact .inr ⟨a, List.mem_cons_self, b', List.mem_cons_self, rfl⟩
      · rcases ih h with hmem | ⟨a', ha', b'', hb'', rfl⟩
        · exact .inl (List.mem_cons_of_mem _ hmem)
        · exact .inr ⟨a', List.mem_cons_of_mem _ ha', b'', List.mem_cons_of_mem _ hb'', rfl⟩

def IncomingSwapCoin.withContractSig (sig : EcdsaSig) :
    IncomingSwapCoin P := { c with othersContractSig := some sig }

def OutgoingSwapCoin.withContractSig (c : OutgoingSwapCoin P) (sig : EcdsaSig) :
    OutgoingSwapCoin P := { c with othersContractSig := some sig }

def IncomingSwapCoin.withOtherPrivkey (key : P.SecretKey) :
    IncomingSwapCoin P := { c with otherPrivkey := some key }

def verifyHandedKey (privkey : P.SecretKey) (incoming : IncomingSwapCoin P) :
    Except MakerError Unit := do
  let expectedPubkey ← okOr incoming.otherPubkey
    (.general "Missing other_pubkey on incoming swapcoin during handover verification")
  ensure (Prims.publicKey privkey = expectedPubkey)
    (.general "Privkey derives pubkey that doesn't match expected other_pubkey")

def verifyLegacyPrivkeyHandover (privkeys : List P.SecretKey)
    (incoming : List (IncomingSwapCoin P)) : Except MakerError Unit := do
  ensure (privkeys.length = incoming.length)
    (.general "Privkey count doesn't match incoming swapcoin count")
  checkAll (fun p => verifyHandedKey p.1 p.2) (privkeys.zip incoming)

def forwardableAmount (swapFee swapFeerate incomingAmount contracts : Nat) :
    Except MakerError Nat := do
  let sweepFee ← okOr ((sweepFeePolicySats .legacy swapFeerate).bind (checkedMul64 · contracts))
    (.general "Sweep fee overflow")
  okOr ((checkedSub incomingAmount swapFee).bind (checkedSub · sweepFee))
    (.general "Swap fee exceeds incoming amount")

/-- One executed split of the funding plan: the funding transaction, the position of
the payment, and the keys made for it. -/
structure FundedSplit (P : Prims) where
  fundingTx : Transaction
  vout : Nat
  multisigPrivkey : P.SecretKey
  timelockPrivkey : P.SecretKey

def outgoingLegacyCoin (swapId : String) (hashvalue : Bytes) (locktime contractFeerate : Nat)
    (split : FundedSplit P) (next : NextHopInfo P) : Except MakerError (OutgoingSwapCoin P) := do
  let contractRedeemscript := createContractRedeemscript next.nextHashlockPubkey
    (Prims.publicKey split.timelockPrivkey) hashvalue locktime
  let output ← okOr split.fundingTx.output[split.vout]? (.general "Funding output not found")
  let sendersContractTx ← (createSendersContractTx P ⟨P.txid split.fundingTx, split.vout⟩
    output.value contractRedeemscript contractFeerate).mapError .protocol
  .ok { OutgoingSwapCoin.newLegacy split.multisigPrivkey next.nextMultisigPubkey sendersContractTx
      contractRedeemscript split.timelockPrivkey output.value (castU64 contractFeerate) with
    fundingTx := some split.fundingTx
    swapId := some swapId }

end OpenSwap
