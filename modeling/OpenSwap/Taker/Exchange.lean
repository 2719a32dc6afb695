import OpenSwap.Taker.Verification

/-!
# The last hop of the Legacy exchange

The messages between the taker and the last maker: the maker's contracts, the taker's
signatures on them, and the signatures the maker returns over the same contracts.  The
maker is any function of what it was sent.

Not modelled: the other checks on the way (the receiver contracts of the hop, the
confirmation of its funding), which can only end the exchange.
-/

namespace OpenSwap

open Btc Checked

variable {P : Prims}

/-! ## The exchange -/

structure LastHopKeys (P : Prims) where
  multisigPrivkeys : List P.SecretKey
  hashlockPrivkeys : List P.SecretKey

/-- Pair entries with keys in turn, from position `i` on; without keys there is no pair. -/
def zipCycle {α β : Type} (keys : List β) : List α → Nat → List (α × β)
  | [], _ => []
  | x :: xs, i =>
    match cycleGet keys i with
    | none => []
    | some key => (x, key) :: zipCycle keys xs (i + 1)

def signSenderContracts (keys : LastHopKeys P) (sendersInfo : List SenderContractTxInfo) :
    Except TakerError (List EcdsaSig) :=
  collectM (fun (p : SenderContractTxInfo × P.SecretKey) =>
    (signContractTx p.1.contractTx p.1.multisigRedeemscript p.1.fundingAmount p.2).mapError
      TakerError.protocol) (zipCycle keys.multisigPrivkeys sendersInfo 0)

/-- The incoming coin of a contract.  The other key is the first of the script that is
not the taker's. -/
def incomingFromInfo (terms : HopTerms) (swapId : String) (info : SenderContractTxInfo)
    (multisigPrivkey hashlockPrivkey : P.SecretKey) : Except TakerError (IncomingSwapCoin P) := do
  let (pubkey1, pubkey2) ← (readPubkeysFromMultisigRedeemscript P
    info.multisigRedeemscript).mapError TakerError.protocol
  let otherPubkey := if pubkey1 = Prims.publicKey multisigPrivkey then pubkey2 else pubkey1
  .ok { IncomingSwapCoin.newLegacy multisigPrivkey otherPubkey info.contractTx
          info.contractRedeemscript hashlockPrivkey info.fundingAmount
            (castU64 terms.swapFeerate) with
        swapId := some swapId, hashPreimage := some terms.preimage }

/-- A returned signature counts if it is valid under one of the two keys. -/
def verifyReceiverSigOf (sig : EcdsaSig) (tx : Transaction) (info : SenderContractTxInfo) :
    Except TakerError Unit := do
  let (pubkey1, pubkey2) ← (readPubkeysFromMultisigRedeemscript P
    info.multisigRedeemscript).mapError TakerError.protocol
  let validUnder := fun pubkey => verifyContractTxSig tx info.multisigRedeemscript
    info.fundingAmount pubkey sig.signature = .ok ()
  ensure (validUnder pubkey1 ∨ validUnder pubkey2)
    (.general "Invalid receiver contract signature from maker")

def verifyReceiverSigs (P : Prims) (sigs : List EcdsaSig) (receiversTxs : List Transaction)
    (prevSendersInfo : List SenderContractTxInfo) : Except TakerError Unit := do
  ensure (sigs.length = receiversTxs.length ∧ sigs.length = prevSendersInfo.length)
    (.general "Wrong number of receiver signatures")
  checkAll (fun (p : (EcdsaSig × Transaction) × SenderContractTxInfo) =>
    verifyReceiverSigOf (P := P) p.1.1 p.1.2 p.2) ((sigs.zip receiversTxs).zip prevSendersInfo)

/-- Put the signatures on the coins, in order, as far as both lists go. -/
def storeReceiverSigs : List (IncomingSwapCoin P) → List EcdsaSig → List (IncomingSwapCoin P)
  | coin :: coins, sig :: sigs =>
    { coin with othersContractSig := some sig } :: storeReceiverSigs coins sigs
  | coins, _ => coins

/-- A finished last hop: what the taker gave out, what it got back, and its coins. -/
structure LastHopRun (P : Prims) where
  sendersSigs : List EcdsaSig
  receiverSigs : List EcdsaSig
  incoming : List (IncomingSwapCoin P)

/-- The taker's side of the last hop.  `reply` is what the maker answers, knowing the
taker's signatures. -/
def exchangeLastHop (terms : HopTerms) (keys : LastHopKeys P) (refundLocktime : UInt16)
    (expectedAmount : Option Nat) (swapId : String) (sendersInfo : List SenderContractTxInfo)
    (reply : List EcdsaSig → List EcdsaSig) : Except TakerError (LastHopRun P) := do
  verifyMakerSenderContracts P terms sendersInfo (keys.multisigPrivkeys.map Prims.publicKey)
    (keys.hashlockPrivkeys.map Prims.publicKey) refundLocktime expectedAmount
  let sendersSigs ← signSenderContracts keys sendersInfo
  let incoming ← collectM (fun (p : (SenderContractTxInfo × P.SecretKey) × P.SecretKey) =>
      incomingFromInfo terms swapId p.1.1 p.1.2 p.2)
    (zipCycle keys.hashlockPrivkeys (zipCycle keys.multisigPrivkeys sendersInfo 0) 0)
  let receiverSigs := reply sendersSigs
  verifyReceiverSigs P receiverSigs (sendersInfo.map (·.contractTx)) sendersInfo
  .ok ⟨sendersSigs, receiverSigs, storeReceiverSigs incoming receiverSigs⟩

/-! ## Positions

Every list of the exchange has one entry for each contract, at the contract's place. -/

variable {α β : Type} {i : Nat} {sigs : List EcdsaSig} {sendersInfo : List SenderContractTxInfo}
  {coin : IncomingSwapCoin P} {terms : HopTerms} {swapId : String}

theorem zipCycle_getElem? {keys : List β} {xs : List α} {j : Nat} {x : α} {key : β}
    (h : (zipCycle keys xs i)[j]? = some (x, key)) :
    xs[j]? = some x ∧ cycleGet keys (i + j) = some key := by
  induction xs generalizing i j with
  | nil => cases h
  | cons a xs ih =>
    unfold zipCycle at h
    split at h
    · cases h
    · rename_i key' hkey
      cases j with
      | zero =>
        cases h
        exact ⟨rfl, hkey⟩
      | succ j =>
        obtain ⟨hx, hk⟩ := ih h
        exact ⟨hx, by rwa [Nat.add_right_comm] at hk⟩

theorem cycleGet_map {f : α → β} {keys} :
    cycleGet (keys.map f) i = (cycleGet keys i).map f := by
  simp [cycleGet]

theorem storeReceiverSigs_getElem? {coins sig} (hsig : sigs[i]? = some sig)
    (h : (storeReceiverSigs coins sigs)[i]? = some coin) :
    ∃ c, coins[i]? = some c ∧ coin = { c with othersContractSig := some sig } := by
  induction coins generalizing sigs i with
  | nil => cases h
  | cons c coins ih =>
    cases sigs with
    | nil => cases hsig
    | cons s sigs =>
      cases i with
      | zero =>
        cases hsig
        cases h
        exact ⟨c, rfl, rfl⟩
      | succ i => exact ih hsig h

theorem storeReceiverSigs_length (coins : List (IncomingSwapCoin P)) (sigs : List EcdsaSig) :
    (storeReceiverSigs coins sigs).length = coins.length := by
  induction coins generalizing sigs with
  | nil => cases sigs <;> rfl
  | cons c coins ih =>
    cases sigs with
    | nil => rfl
    | cons s sigs => exact congrArg (· + 1) (ih sigs)

theorem incomingFromInfo_ok {info multisigPrivkey hashlockPrivkey}
    (h : incomingFromInfo terms swapId info multisigPrivkey hashlockPrivkey = .ok coin) :
    ∃ pubkey1 pubkey2,
      readPubkeysFromMultisigRedeemscript P info.multisigRedeemscript = .ok (pubkey1, pubkey2) ∧
      coin.protocol = .legacy ∧ coin.myPrivkey = some multisigPrivkey ∧
      coin.myPubkey = some (Prims.publicKey multisigPrivkey) ∧
      coin.otherPubkey =
        some (if pubkey1 = Prims.publicKey multisigPrivkey then pubkey2 else pubkey1) ∧
      coin.contractTx = info.contractTx ∧ coin.fundingAmount = info.fundingAmount := by
  simp only [incomingFromInfo, bind_ok_iff, mapError_ok_iff] at h
  obtain ⟨⟨pubkey1, pubkey2⟩, hread, h⟩ := h
  cases h
  exact ⟨pubkey1, pubkey2, hread, rfl, rfl, rfl, rfl, rfl, rfl⟩

theorem verifyReceiverSigs_ok
    (h : verifyReceiverSigs P sigs (sendersInfo.map (·.contractTx)) sendersInfo = .ok ()) :
    sigs.length = sendersInfo.length ∧
    ∀ (i : Nat) (info : SenderContractTxInfo) (sig : EcdsaSig), sendersInfo[i]? = some info →
      sigs[i]? = some sig →
      ∃ pubkey1 pubkey2,
        readPubkeysFromMultisigRedeemscript P info.multisigRedeemscript = .ok (pubkey1, pubkey2) ∧
        (verifyContractTxSig info.contractTx info.multisigRedeemscript info.fundingAmount pubkey1
          sig.signature = .ok () ∨
        verifyContractTxSig info.contractTx info.multisigRedeemscript info.fundingAmount pubkey2
          sig.signature = .ok ()) := by
  simp only [verifyReceiverSigs, bind_ok_iff, ensure_eq_ok, checkAll_eq_ok] at h
  obtain ⟨_, ⟨-, hlen⟩, hall⟩ := h
  refine ⟨hlen, fun i info sig hinfo hsig => ?_⟩
  have hmem : ((sig, info.contractTx), info) ∈
      (sigs.zip (sendersInfo.map (·.contractTx))).zip sendersInfo := by
    refine List.mem_of_getElem? (i := i) ?_
    simp [List.getElem?_zip_eq_some, hinfo, hsig]
  have hcheck := hall _ hmem
  simp only [verifyReceiverSigOf, bind_ok_iff, mapError_ok_iff, ensure_eq_ok] at hcheck
  obtain ⟨⟨pubkey1, pubkey2⟩, hread, hvalid⟩ := hcheck
  exact ⟨pubkey1, pubkey2, hread, hvalid⟩

theorem exchangeLastHop_ok {keys refundLocktime expectedAmount}
    {reply : List EcdsaSig → List EcdsaSig} {run}
    (h : exchangeLastHop terms keys refundLocktime expectedAmount swapId sendersInfo reply =
      .ok run)
    (hcoin : run.incoming[i]? = some coin) :
    ∃ info sig multisigPrivkey hashlockPrivkey c,
      sendersInfo[i]? = some info ∧ run.receiverSigs[i]? = some sig ∧
      cycleGet keys.multisigPrivkeys i = some multisigPrivkey ∧
      verifyMakerSenderContracts P terms sendersInfo (keys.multisigPrivkeys.map Prims.publicKey)
        (keys.hashlockPrivkeys.map Prims.publicKey) refundLocktime expectedAmount = .ok () ∧
      verifyReceiverSigs P run.receiverSigs (sendersInfo.map (·.contractTx)) sendersInfo = .ok () ∧
      incomingFromInfo terms swapId info multisigPrivkey hashlockPrivkey = .ok c ∧
      coin = { c with othersContractSig := some sig } := by
  simp only [exchangeLastHop, bind_ok_iff] at h
  obtain ⟨_, hverify, sendersSigs, -, incoming, hincoming, _, hsigs, hrun⟩ := h
  cases hrun
  obtain ⟨hlen, -⟩ := verifyReceiverSigs_ok hsigs
  -- the coin has a contract at its position, the contract a signature
  obtain ⟨c₀, hc₀⟩ : ∃ c₀, incoming[i]? = some c₀ := by
    have hlt := (List.getElem?_eq_some_iff.mp hcoin).1
    rw [storeReceiverSigs_length] at hlt
    exact ⟨_, List.getElem?_eq_getElem hlt⟩
  obtain ⟨⟨⟨info, multisigPrivkey⟩, hashlockPrivkey⟩, hpair, hc⟩ := collectM_getElem? hincoming hc₀
  obtain ⟨hpair, -⟩ := zipCycle_getElem? hpair
  obtain ⟨hinfo, hkey⟩ := zipCycle_getElem? hpair
  obtain ⟨sig, hsig⟩ : ∃ sig, (reply sendersSigs)[i]? = some sig := by
    have hlt := (List.getElem?_eq_some_iff.mp hinfo).1
    exact ⟨_, List.getElem?_eq_getElem (hlen ▸ hlt)⟩
  obtain ⟨c, hc', rfl⟩ := storeReceiverSigs_getElem? hsig hcoin
  rw [hc₀] at hc'
  cases hc'
  rw [Nat.zero_add] at hkey
  exact ⟨info, sig, multisigPrivkey, hashlockPrivkey, c₀, hinfo, hsig, hkey, hverify, hsigs, hc,
    rfl⟩


/-! ## The signed contracts -/

/-- What the exchange does not check of a contract and of the signature returned for it. -/
structure PlainReply (P : Prims) (info : SenderContractTxInfo) (multisigPrivkey : P.SecretKey)
    (sig : EcdsaSig) : Prop where
  /-- the keys of the 2-of-2 script are in order -/
  ascending : slice info.multisigRedeemscript pubkey1Offset pubkeyLength ≤
    slice info.multisigRedeemscript pubkey2Offset pubkeyLength
  bare : ∀ input ∈ info.contractTx.input, input.scriptSig = [] ∧ input.witness = []
  sighash : sig.sighashType = sighashAll
  /-- the signature is not one of the taker's own -/
  notOwn : verifyContractTxSig info.contractTx info.multisigRedeemscript info.fundingAmount
    (Prims.publicKey multisigPrivkey) sig.signature ≠ .ok ()

/-- The transaction is a valid spend of the funding output of the contract. -/
def spendsFunding (P : Prims) (info : SenderContractTxInfo) (tx : Transaction) : Bool :=
  match tx.input.head? with
  | none => false
  | some input =>
    match info.fundingTx.output[input.previousOutput.vout]? with
    | none => false
    | some output =>
      input.previousOutput.txid = P.txid info.fundingTx && spendsScriptHash P tx 0 output

namespace SampleSwap

def takerKeys : LastHopKeys takerPrims where
  multisigPrivkeys := [(10 : Fin 15)]
  hashlockPrivkeys := [(11 : Fin 15)]

def lastHop (reply : List EcdsaSig → List EcdsaSig) : Except TakerError (LastHopRun takerPrims) :=
  exchangeLastHop hopTerms takerKeys 20 (some 98850) "00000000000000aa" [honestOffer] reply

def signed : List EcdsaSig → List EcdsaSig := fun _ => [⟨makerSig, sighashAll⟩]
def replayed : List EcdsaSig → List EcdsaSig := fun sigs => sigs

/-- Of a coin: is its signature valid under the counterparty's key, and is its signed
contract a spend of the funding output? -/
def report (coin : IncomingSwapCoin takerPrims) : Option (Bool × Bool) := do
  let sig ← coin.othersContractSig
  let otherPubkey ← coin.otherPubkey
  let tx ← coin.createSignedContractTx.toOption
  some (verifyContractTxSig honestOffer.contractTx honestOffer.multisigRedeemscript
    honestOffer.fundingAmount otherPubkey sig.signature = .ok (),
    spendsFunding takerPrims honestOffer tx)

theorem lastHop_signed : ∃ run, lastHop signed = .ok run ∧ run.incoming.length = 1 ∧
    run.receiverSigs = [⟨makerSig, sighashAll⟩] := by
  have hrun : ((lastHop signed).toOption.map fun run => (run.incoming.length, run.receiverSigs)) =
      some (1, [⟨makerSig, sighashAll⟩]) := by decide +kernel
  cases h : lastHop signed with
  | error e =>
    rw [h] at hrun
    cases hrun
  | ok run =>
    rw [h] at hrun
    simp only [Except.toOption, Option.map_some, Option.some.injEq, Prod.mk.injEq] at hrun
    exact ⟨run, rfl, hrun⟩

end SampleSwap

/-- **The signed contracts of the incoming coins.**  In every exchange in which the maker
keeps to what is not checked, every signature on a coin is valid under the counterparty's
key, and the signed contract is a valid spend of the funding output. -/
theorem incoming_contract_spendable {terms : HopTerms} {keys : LastHopKeys P}
    {refundLocktime : UInt16} {expectedAmount : Option Nat} {swapId : String}
    {sendersInfo : List SenderContractTxInfo} {reply : List EcdsaSig → List EcdsaSig}
    {run : LastHopRun P}
    (h : exchangeLastHop terms keys refundLocktime expectedAmount swapId sendersInfo reply =
      .ok run)
    (hplain : ∀ i info sig multisigPrivkey, sendersInfo[i]? = some info →
      run.receiverSigs[i]? = some sig → cycleGet keys.multisigPrivkeys i = some multisigPrivkey →
      PlainReply P info multisigPrivkey sig)
    {i : Nat} {coin : IncomingSwapCoin P} (hcoin : run.incoming[i]? = some coin) :
    ∃ info sig otherPubkey tx, sendersInfo[i]? = some info ∧
      coin.othersContractSig = some sig ∧ coin.otherPubkey = some otherPubkey ∧
      verifyContractTxSig info.contractTx info.multisigRedeemscript info.fundingAmount otherPubkey
        sig.signature = .ok () ∧
      coin.createSignedContractTx = .ok tx ∧ spendsFunding P info tx = true := by
  obtain ⟨info, sig, multisigPrivkey, hashlockPrivkey, c, hinfo, hsig, hkey, hverify, hsigs, hc,
    rfl⟩ := exchangeLastHop_ok h hcoin
  have hreply := hplain i info sig multisigPrivkey hinfo hsig hkey
  obtain ⟨input, output, fundingOutput, hacc⟩ := verifyMakerSenderContracts_ok hverify hinfo
  obtain ⟨pubkey1, pubkey2, hread, hprotocol, hpriv, hmy, hother, htx, hamount⟩ :=
    incomingFromInfo_ok hc
  obtain ⟨_, _, hread₁, hown⟩ := hacc.multisigKey (Prims.publicKey multisigPrivkey)
    (by rw [cycleGet_map, hkey]; rfl)
  cases hread.symm.trans hread₁
  obtain ⟨_, _, hread₂, hvalid⟩ := (verifyReceiverSigs_ok hsigs).2 i info sig hinfo hsig
  cases hread.symm.trans hread₂
  -- the signature is not valid under the taker's key, so it is under the other one
  have hcounter : verifyContractTxSig info.contractTx info.multisigRedeemscript info.fundingAmount
      (if pubkey1 = Prims.publicKey multisigPrivkey then pubkey2 else pubkey1) sig.signature
      = .ok () := by
    split
    · rename_i heq
      exact hvalid.resolve_left (heq ▸ hreply.notOwn)
    · rename_i hne
      exact hvalid.resolve_right (hown.resolve_left hne ▸ hreply.notOwn)
  obtain ⟨hscript, hcompressed⟩ := rebuilt_multisig_eq hacc.template hread hown hreply.ascending
  obtain ⟨tx, hsigned, houtpoint, hspends⟩ := IncomingSwapCoin.createSignedContractTx_spends
    (c := { c with othersContractSig := some sig }) hprotocol hpriv hmy hother hcompressed rfl
    hreply.sighash (htx ▸ hacc.inputs) (hreply.bare input (by simp [hacc.inputs]))
    (by rw [hscript]; exact hacc.fundingScript) (by rw [hacc.fundingValue]; exact hamount.symm)
    (by rw [hscript]; dsimp only; rw [htx, hamount]; exact hcounter)
  refine ⟨info, sig, _, tx, hinfo, rfl, hother, hcounter, hsigned, ?_⟩
  obtain ⟨signedInput, hhead, hprev⟩ := Option.map_eq_some_iff.mp houtpoint
  simp [spendsFunding, hhead, hprev, hacc.funding, hacc.fundingTxid, hspends]

open SampleSwap in
/-- With the maker's own signature the coin's contract can be published. -/
theorem incoming_contract_signed :
    ∃ run coin tx, lastHop signed = .ok run ∧
      run.incoming[0]? = some coin ∧ coin.createSignedContractTx = .ok tx ∧
      spendsFunding takerPrims honestOffer tx = true := by
  obtain ⟨run, hrun, hlen, hsigs⟩ := lastHop_signed
  have hcoin : run.incoming[0]? = some (run.incoming[0]) := List.getElem?_eq_getElem (by omega)
  have hplain : ∀ i info sig multisigPrivkey, [honestOffer][i]? = some info →
      run.receiverSigs[i]? = some sig →
      cycleGet takerKeys.multisigPrivkeys i = some multisigPrivkey →
      PlainReply takerPrims info multisigPrivkey sig := by
    intro i info sig multisigPrivkey hinfo hsig hkey
    rw [hsigs] at hsig
    cases i with
    | zero =>
      cases hinfo
      cases hsig
      cases hkey
      exact ⟨by decide +kernel, by decide, rfl, by decide +kernel⟩
    | succ i => cases hinfo
  obtain ⟨info, sig, otherPubkey, tx, hinfo, -, -, -, hsigned, hspends⟩ :=
    incoming_contract_spendable hrun hplain hcoin
  cases hinfo
  exact ⟨run, _, tx, hrun, hcoin, hsigned, hspends⟩

/-- The taker's own signature, sent back by the maker, is accepted: it is not valid under
the maker's key, and the signed contract does not spend the funding output. -/
theorem own_signature_accepted :
    ((SampleSwap.lastHop SampleSwap.replayed).toOption.map fun run =>
      run.incoming.map SampleSwap.report) = some [some (false, false)] := by
  decide +kernel

end OpenSwap
