import OpenSwap.Maker.FundingScript

/-!
# Legacy contracts the taker accepts

The taker's check of the contracts a maker offers for the next hop.  It reads some
fields of the contract script at fixed positions and the input and the output script
of the contract transaction; the rest is the maker's.

Not modelled: the marks against makers that a failed check leaves in the offer book.
-/

namespace OpenSwap

open Btc Checked List

variable {P : Prims}

inductive TakerError where
  | general (msg : String)
  | protocol (e : ProtocolError)
  | blocklist
deriving DecidableEq, Repr

structure SenderContractTxInfo where
  fundingTx : Transaction
  contractTx : Transaction
  multisigRedeemscript : Bytes
  contractRedeemscript : Bytes
  fundingAmount : Nat

structure HopTerms where
  /-- the input count of every split of the plan the maker declared -/
  fundingSplits : List Nat
  preimage : Bytes
  maxInputBudget : Nat
  swapFeerate : Nat
  lastHop : Bool
  screenFundingTx : Transaction → Except TakerError Unit

/-! ## The check -/

def checkDistinctOutpoints : List SenderContractTxInfo → List OutPoint → Except TakerError Unit
  | [], _ => .ok ()
  | info :: rest, seen =>
    match info.contractTx.input with
    | [] => checkDistinctOutpoints rest seen
    | input :: _ => do
      ensure (input.previousOutput ∉ seen)
        (.general "Duplicate sender contract for funding outpoint")
      checkDistinctOutpoints rest (input.previousOutput :: seen)

def cycleGet {α : Type} (keys : List α) (i : Nat) : Option α := keys[i % keys.length]?

/-- A check against the key of a contract; there is none without keys. -/
def checkNextKey (keys : List P.PublicKey) (i : Nat)
    (check : P.PublicKey → Except TakerError Unit) : Except TakerError Unit :=
  match cycleGet keys i with
  | none => .ok ()
  | some expected => check expected

def checkNextMultisig (redeemscript : Bytes) (expected : P.PublicKey) :
    Except TakerError Unit := do
  let (pubkey1, pubkey2) ←
    (readPubkeysFromMultisigRedeemscript P redeemscript).mapError TakerError.protocol
  ensure (pubkey1 = expected ∨ pubkey2 = expected)
    (.general "Sender contract multisig does not contain expected next-hop pubkey")

def checkNextHashlock (redeemscript : Bytes) (expected : P.PublicKey) :
    Except TakerError Unit := do
  let contractHashlock ← (readHashlockPubkeyFromContract P redeemscript).mapError
    fun _ => .general "Sender contract has unreadable hashlock pubkey"
  ensure (contractHashlock = expected)
    (.general "Sender contract hashlock pubkey does not match expected next-hop key")

def verifySenderContractInfo (terms : HopTerms)
    (nextMultisigPubkeys nextHashlockPubkeys : List P.PublicKey) (refundLocktime : Nat)
    (info : SenderContractTxInfo) (i : Nat) : Except TakerError Unit := do
  (checkRedeemscriptIsMultisig P info.multisigRedeemscript).mapError
    fun _ => .general "Sender contract has invalid multisig redeemscript"
  let input ← okOr info.contractTx.input.head?
    (.general "Sender contract contract_tx has no inputs")
  ensure (input.previousOutput.txid = P.txid info.fundingTx)
    (.general "Sender contract contract_tx references wrong funding tx")
  let fundingOutput ← okOr info.fundingTx.output[input.previousOutput.vout]?
    (.general "Sender contract references missing funding output")
  ensure (fundingOutput.scriptPubkey = redeemscriptToScriptpubkey P info.multisigRedeemscript)
    (.general "Sender contract funding output does not pay to advertised multisig")
  ensure (fundingOutput.value = info.fundingAmount)
    (.general "Sender contract funding output value does not match advertised amount")
  (validateContractTx P info.contractTx none info.contractRedeemscript).mapError
    fun _ => .general "Sender contract has invalid contract tx"
  let hashvalue ← (readHashvalueFromContract info.contractRedeemscript).mapError
    fun _ => .general "Sender contract has unreadable hashvalue"
  ensure (hashvalue = P.hash160 terms.preimage) (.general "Sender contract has wrong hashvalue")
  let locktime ← (readContractLocktime info.contractRedeemscript).mapError
    fun _ => .general "Sender contract has unreadable locktime"
  ensure (locktime ≠ 0) (.general "Sender contract has zero locktime")
  ensure (locktime = refundLocktime)
    (.general "Sender contract locktime does not match requested refund locktime")
  checkNextKey nextMultisigPubkeys i (checkNextMultisig info.multisigRedeemscript)
  checkNextKey nextHashlockPubkeys i (checkNextHashlock info.contractRedeemscript)

def fundingFees (maxInputBudget feerate : Nat) : List Nat → Nat → Option Nat
  | [], total => some total
  | inputs :: rest, total => do
    let fee ← fundingFeePolicySats inputs maxInputBudget feerate
    fundingFees maxInputBudget feerate rest (← checkedAdd64 total fee)

def expectedHopTotal (terms : HopTerms) (forwardable : Nat) : Except TakerError Nat := do
  let fundingFee ← okOr (fundingFees terms.maxInputBudget terms.swapFeerate terms.fundingSplits 0)
    (.general "Maker funding fee overflow")
  okOr (checkedSub forwardable fundingFee)
    (.general "Maker funding fee exceeds the forwardable amount")

/-- The contracts together carry what the declared plan leaves of the amount. -/
def checkHopTotal (terms : HopTerms) (sendersInfo : List SenderContractTxInfo) :
    Option Nat → Except TakerError Unit
  | none => .ok ()
  | some forwardable => do
    let expected ← expectedHopTotal terms forwardable
    let totalFunding ← (sumClaimedAmounts (sendersInfo.map (·.fundingAmount)) 0).mapError
      fun _ => .general "Maker sender contract claims above the 21M cap"
    ensure (totalFunding = expected)
      (.general "Maker sender contracts total funding does not match the negotiated hop total")

def verifyMakerSenderContracts (P : Prims) (terms : HopTerms)
    (sendersInfo : List SenderContractTxInfo)
    (nextMultisigPubkeys nextHashlockPubkeys : List P.PublicKey) (refundLocktime : UInt16)
    (expectedAmount : Option Nat) : Except TakerError Unit := do
  ensure (sendersInfo.length = terms.fundingSplits.length)
    (.general "Maker sent another number of sender contracts than its plan has splits")
  checkAll (fun (p : SenderContractTxInfo × Nat) =>
    ensure (p.2 ≤ p.1.fundingTx.input.length % 2 ^ 32)
      (TakerError.general "Maker funded a split with fewer inputs than its plan declared"))
    (sendersInfo.zip terms.fundingSplits)
  checkDistinctOutpoints sendersInfo []
  checkAll (fun p => verifySenderContractInfo terms nextMultisigPubkeys nextHashlockPubkeys
    refundLocktime.toNat p.1 p.2) sendersInfo.zipIdx
  checkHopTotal terms sendersInfo expectedAmount
  if terms.lastHop then checkAll (fun info => terms.screenFundingTx info.fundingTx) sendersInfo
  else .ok ()

/-! ## What acceptance establishes -/

structure AcceptedContract (P : Prims) (terms : HopTerms)
    (nextMultisigPubkeys nextHashlockPubkeys : List P.PublicKey) (refundLocktime : Nat)
    (info : SenderContractTxInfo) (i : Nat) (input : TxIn) (output fundingOutput : TxOut) :
    Prop where
  template : checkRedeemscriptIsMultisig P info.multisigRedeemscript = .ok ()
  inputs : info.contractTx.input = [input]
  outputs : info.contractTx.output = [output]
  fundingTxid : input.previousOutput.txid = P.txid info.fundingTx
  funding : info.fundingTx.output[input.previousOutput.vout]? = some fundingOutput
  fundingScript : fundingOutput.scriptPubkey = p2wsh P info.multisigRedeemscript
  fundingValue : fundingOutput.value = info.fundingAmount
  contractScript : output.scriptPubkey = p2wsh P info.contractRedeemscript
  hashvalue : readHashvalueFromContract info.contractRedeemscript = .ok (P.hash160 terms.preimage)
  locktime : readContractLocktime info.contractRedeemscript = .ok refundLocktime
  multisigKey : ∀ expected, cycleGet nextMultisigPubkeys i = some expected →
    ∃ pubkey1 pubkey2, readPubkeysFromMultisigRedeemscript P info.multisigRedeemscript
      = .ok (pubkey1, pubkey2) ∧ (pubkey1 = expected ∨ pubkey2 = expected)
  hashlockKey : ∀ expected, cycleGet nextHashlockPubkeys i = some expected →
    readHashlockPubkeyFromContract P info.contractRedeemscript = .ok expected

variable {i : Nat} {expected : P.PublicKey}
  {nextMultisigPubkeys nextHashlockPubkeys : List P.PublicKey} {info : SenderContractTxInfo}
  {script hashvalue : Bytes} {refundLocktime n : Nat} {α : Type} {terms : HopTerms} {keys : List α}
  {locktime : Nat}

theorem validateContractTx_ok {tx redeemscript}
    (h : validateContractTx P tx none redeemscript = .ok ()) :
    ∃ input output, tx.input = [input] ∧ tx.output = [output] ∧
      output.scriptPubkey = p2wsh P redeemscript := by
  unfold validateContractTx at h
  split at h
  · rename_i input output hin hout
    simp only [bind_ok_iff, ensure_eq_ok] at h
    obtain ⟨_, -, hscript⟩ := h
    exact ⟨input, output, hin, hout, hscript⟩
  · cases h

theorem checkNextKey_ok {keys} {check : P.PublicKey → Except TakerError Unit}
    (h : checkNextKey keys i check = .ok ()) (hkey : cycleGet keys i = some expected) :
    check expected = .ok () := by
  rwa [checkNextKey, hkey] at h

theorem verifySenderContractInfo_ok
    (h : verifySenderContractInfo terms nextMultisigPubkeys nextHashlockPubkeys refundLocktime info
      i = .ok ()) :
    ∃ input output fundingOutput, AcceptedContract P terms nextMultisigPubkeys nextHashlockPubkeys
      refundLocktime info i input output fundingOutput := by
  simp only [verifySenderContractInfo, bind_ok_iff, ensure_eq_ok, okOr_eq_ok, mapError_ok_iff] at h
  obtain ⟨_, htemplate, input, hinput, _, htxid, fundingOutput, hfunding, _, hspk, _, hvalue, _,
    htx, _, hhash, _, rfl, _, hlock, _, -, _, rfl, _, hmultisig, hhashlock⟩ := h
  obtain ⟨input', output, hin, hout, hscript⟩ := validateContractTx_ok htx
  obtain rfl : input' = input := by simpa [hin] using hinput
  refine ⟨input', output, fundingOutput, ⟨htemplate, hin, hout, htxid, hfunding, hspk, hvalue,
    hscript, hhash, hlock, fun expected hkey => ?_, fun expected hkey => ?_⟩⟩
  · have hcheck := checkNextKey_ok hmultisig hkey
    simp only [checkNextMultisig, bind_ok_iff, mapError_ok_iff, ensure_eq_ok] at hcheck
    obtain ⟨⟨pubkey1, pubkey2⟩, hread, hmem⟩ := hcheck
    exact ⟨pubkey1, pubkey2, hread, hmem⟩
  · have hcheck := checkNextKey_ok hhashlock hkey
    simp only [checkNextHashlock, bind_ok_iff, mapError_ok_iff, ensure_eq_ok] at hcheck
    obtain ⟨_, hread, rfl⟩ := hcheck
    exact hread

/-- **What the taker's check establishes** of every contract of an accepted list. -/
theorem verifyMakerSenderContracts_ok {sendersInfo refundLocktime expectedAmount}
    (h : verifyMakerSenderContracts P terms sendersInfo nextMultisigPubkeys nextHashlockPubkeys
      refundLocktime expectedAmount = .ok ()) (hinfo : sendersInfo[i]? = some info) :
    ∃ input output fundingOutput, AcceptedContract P terms nextMultisigPubkeys nextHashlockPubkeys
      refundLocktime.toNat info i input output fundingOutput := by
  simp only [verifyMakerSenderContracts, bind_ok_iff, checkAll_eq_ok] at h
  obtain ⟨_, -, _, -, _, -, _, hall, -⟩ := h
  exact verifySenderContractInfo_ok (hall (info, i) (mk_mem_zipIdx_iff_getElem?.mpr hinfo))

theorem ne_nil_of_cycleGet {key} (h : cycleGet keys i = some key) :
    keys ≠ [] := by
  rintro rfl
  simp [cycleGet] at h

theorem cycleGet_of_ne_nil (h : keys ≠ []) (i : Nat) :
    ∃ key, cycleGet keys i = some key :=
  ⟨_, getElem?_eq_getElem (Nat.mod_lt _ (length_pos_iff.mpr h))⟩

/-! ## Positional reads -/

theorem instrAt_of_instructions {is : List Instr} {instr : Instr}
    (h : instructions script = is.map .ok) (hn : is[n]? = some instr) :
    instrAt script n = .ok instr := by
  simp [instrAt, h, hn]

theorem readHashvalueFromContract_ok {hash} (h : readHashvalueFromContract script = .ok hash) :
    instrAt script 2 = .ok (.op Opcode.hash160) ∧ instrAt script 3 = .ok (.push hash) ∧
      hash.length = 20 := by
  simp only [readHashvalueFromContract, bind_ok_iff, ensure_eq_ok] at h
  obtain ⟨_, -, _, h2, _, rfl, i3, h3, h⟩ := h
  cases i3 with
  | op code => cases h
  | push data =>
    simp only [bind_ok_iff, ensure_eq_ok] at h
    obtain ⟨_, hlen, h⟩ := h
    cases h
    exact ⟨h2, h3, hlen⟩

theorem compressed_of_readHashlock {key} (h : readHashlockPubkeyFromContract P script = .ok key) :
    key.compressed = true := by
  simp only [readHashlockPubkeyFromContract, bind_ok_iff, okOr_eq_ok] at h
  obtain ⟨_, -, hparse⟩ := h
  exact Prims.PublicKey.compressed_of_fromSlice hparse

theorem readContractLocktime_intInstr {m} (hn : n < 2 ^ 32)
    (hi : instrAt script 12 = .ok (intInstr n)) (h : readContractLocktime script = .ok m) :
    m = n := by
  rw [readContractLocktime, hi] at h
  obtain ⟨_, heq, h⟩ := bind_ok_iff.mp h
  obtain rfl := Except.ok.inj heq
  unfold intInstr at h
  split_ifs at h with hsmall
  · dsimp only at h
    rw [Opcode.pushNum_ofNat hsmall.1 hsmall.2] at h
    simpa using h.symm
  · dsimp only at h
    have hval : leNat (scriptNum n) = n := leNat_scriptNum (by omega)
    split_ifs at h
    · cases h
      exact hval
    · simp only [bind_ok_iff, ensure_eq_ok] at h
      obtain ⟨_, hzero, h⟩ := h
      cases h
      rw [← leNat_eq_leNat_take hzero, hval]

/-! ## A last hop

The maker of `SampleSwap` forwards to a taker with the keys `11` and `12`. -/

namespace SampleSwap

def nextMultisig : Bytes := multisigScript (keyBytes 10) (keyBytes 12)

/-- The contract with another ending: the hashlock key is dropped and the signature is
checked under the maker's key `14`. -/
def stolenInstrs : List Instr :=
  (contractInstrs (keyBytes 11) (keyBytes 13) hash 20).dropLast ++
    [.op Opcode.drop, .push (keyBytes 13), .op Opcode.checkSig]
def stolenContract : Bytes := encode stolenInstrs
def stolenContractHash : Bytes :=
  natBe 32 0x4d91a4dc6d52261deaf175f0add266a7216c9af8050488fa6820a5938d0be64e

/-- The digest of the honest contract transaction, and its signatures by the taker's key
`11` and the maker's key `13`. -/
def contractDigest : Bytes :=
  natBe 32 0x6cb5d6b3c8aab7f511635363930258957bd0f4406c8ba5355a410a75d931c295
def takerSig : Bytes :=
  natBe 70 0x304402203954f3a32af17d81f0e799223b762bfb9404e9046f98c1b12c65f073aa8e0cf8022077cda2bb53594ccf8a512d69ab70ab9754e588bb58e538c1f96af5b0431180cc
def makerSig : Bytes :=
  natBe 71 0x3045022100e947e96985844915cc001d05b82463f10870601207a5d3424cc62cb933f59c4f022062cf6a03cd304c75531df0d824fc01b3b84dc6e0ad73cf5fd50b4e1310ab4f97

def takerTables : Tables :=
  { tables with
    sha256 := (nextMultisig, nextMultisigHash) :: (stolenContract, stolenContractHash) ::
      tables.sha256
    hash160 := [(List.replicate 32 0x11, hash)]
    sighash := [((nextContractTx nextFundingTxid1 1, 0, nextMultisig, nextValue 1, sighashAll),
      contractDigest)]
    signatures := [((10, contractDigest), takerSig), ((12, contractDigest), makerSig)] }

abbrev takerPrims : Prims := takerTables.prims

def hopTerms : HopTerms where
  fundingSplits := [1]
  preimage := List.replicate 32 0x11
  maxInputBudget := 1
  swapFeerate := 1
  lastHop := true
  screenFundingTx _ := .ok ()

def takerMultisigPubkey : takerPrims.PublicKey := Prims.publicKey (P := takerPrims) (10 : Fin 15)
def takerHashlockPubkey : takerPrims.PublicKey := Prims.publicKey (P := takerPrims) (11 : Fin 15)

/-- The maker's offer, for a contract script and a contract transaction. -/
def offered (contractRedeemscript : Bytes) (contractTx : Transaction) : SenderContractTxInfo where
  fundingTx := nextFundingTx 1
  contractTx := contractTx
  multisigRedeemscript := nextMultisig
  contractRedeemscript := contractRedeemscript
  fundingAmount := nextValue 1

def verifyOffer (info : SenderContractTxInfo) : Except TakerError Unit :=
  verifyMakerSenderContracts takerPrims hopTerms [info] [takerMultisigPubkey]
    [takerHashlockPubkey] 20 (some 98850)

/-- The offer of an honest maker, one with the other ending, and one whose contract
transaction leaves all but 1000 satoshi to the miners. -/
def honestOffer : SenderContractTxInfo := offered nextContract (nextContractTx nextFundingTxid1 1)
def stolenOffer : SenderContractTxInfo :=
  offered stolenContract (mkContractTx ⟨nextFundingTxid1, 0⟩ 98535 (scriptHash stolenContractHash))
def emptiedOffer : SenderContractTxInfo :=
  offered nextContract (mkContractTx ⟨nextFundingTxid1, 0⟩ 1000 (scriptHash nextContractHash))

theorem verify_honestOffer : verifyOffer honestOffer = .ok () := by decide +kernel

theorem stolenContract_spent {ctx sig preimage} (hhash : ctx.hash160 preimage = hash)
    (h : satisfies ctx stolenContract [sig, preimage]) :
    ctx.sigOk (keyBytes 13) sig = true := by
  have hinstrs : collect (instructions stolenContract) = .ok stolenInstrs := by decide +kernel
  have hrest : run ctx [.op Opcode.drop, .push (keyBytes 13), .op Opcode.checkSig] []
      [keyBytes 11, sig] = some [ofBool (ctx.sigOk (keyBytes 13) sig)] := rfl
  simp only [satisfies, hinstrs, stolenInstrs, reverse_cons, reverse_nil,
    nil_append, cons_append, Bool.and_eq_true] at h
  rw [run_contract_hash hhash, hrest] at h
  split_ifs at h
  · simpa using h.2
  · simp at h

end SampleSwap

/-! ## The script -/

def templateAround (op hash : Instr) (hashlockKey timelockKey : Bytes) (locktime : Nat) :
    List Instr :=
  [.op Opcode.size, .op Opcode.swap, op, hash, .op Opcode.equal,
    .op Opcode.opIf, .push hashlockKey, intInstr 32, intInstr 0,
    .op Opcode.opElse, .push timelockKey, intInstr 0, intInstr locktime, .op Opcode.opEndIf,
    .op Opcode.csv, .op Opcode.drop, .op Opcode.rot, .op Opcode.equalVerify,
    .op Opcode.checkSig]

/-- The script is the contract template, whatever stands at the positions the check
reads: the hash, the hashlock key and the locktime. -/
def FollowsTemplate (P : Prims) (script : Bytes) : Prop :=
  ∃ (op hash : Instr) (hashlockKey : Bytes) (timelockKey : P.PublicKey) (locktime : Nat),
    hashlockKey.length = 33 ∧ locktime < 2 ^ 32 ∧
    script = encode (templateAround op hash hashlockKey timelockKey.toBytes locktime) ∧
    instructions script =
      (templateAround op hash hashlockKey timelockKey.toBytes locktime).map .ok

theorem slice_hashlockKey {hashlockKey timelockKey} (hh : hashvalue.length = 20)
    (hk : hashlockKey.length = 33) :
    slice (encode (contractInstrs hashlockKey timelockKey hashvalue locktime)) 27 33 =
      hashlockKey := by
  simp only [contractInstrs, encode_cons, encodeInstr, pushSlice, hh, hk]
  simp [slice, drop_append, take_append, hh, hk]

theorem followsTemplate_of_contract {k} (hc : expected.compressed)
    (hh : hashvalue.length = 20) (hl : locktime < 2 ^ 32) :
    FollowsTemplate P (createContractRedeemscript expected k hashvalue locktime) :=
  ⟨.op Opcode.hash160, .push hashvalue, expected.toBytes, k, locktime,
    Prims.PublicKey.length_toBytes hc, hl, rfl,
    instructions_createContractRedeemscript (by omega) hl⟩

/-- The reads of the check pin every free position of the template. -/
theorem contract_of_followsTemplate (h : FollowsTemplate P script)
    (hhash : readHashvalueFromContract script = .ok hashvalue)
    (hlock : readContractLocktime script = .ok locktime)
    (hkey : readHashlockPubkeyFromContract P script = .ok expected) :
    ∃ k, script = createContractRedeemscript expected k hashvalue locktime := by
  obtain ⟨op, hash, hashlockKey, timelockKey, n, hlen, hn, hscript, hinstrs⟩ := h
  obtain ⟨h2, h3, h20⟩ := readHashvalueFromContract_ok hhash
  obtain rfl : op = .op Opcode.hash160 := by
    rw [instrAt_of_instructions hinstrs rfl] at h2
    cases h2
    rfl
  obtain rfl : hash = .push hashvalue := by
    rw [instrAt_of_instructions hinstrs rfl] at h3
    cases h3
    rfl
  obtain rfl := readContractLocktime_intInstr hn (instrAt_of_instructions hinstrs rfl) hlock
  simp only [readHashlockPubkeyFromContract, bind_ok_iff, ensure_eq_ok, okOr_eq_ok] at hkey
  obtain ⟨_, -, hparse⟩ := hkey
  have hslice : slice script 27 33 = hashlockKey := by
    rw [hscript]
    exact slice_hashlockKey h20 hlen
  rw [hslice] at hparse
  refine ⟨timelockKey, ?_⟩
  rw [createContractRedeemscript, Prims.PublicKey.toBytes_of_fromSlice hparse]
  exact hscript

/-- **The accepted scripts** are the agreed contract, up to the refund key, exactly when the taker
gave out a hashlock key and every script follows the template where the check does not read; its
hash branch then takes the taker's signature and preimage only. -/
theorem accepted_script_iff {terms : HopTerms} {sendersInfo : List SenderContractTxInfo}
    {nextMultisigPubkeys nextHashlockPubkeys : List P.PublicKey} {refundLocktime : UInt16}
    {expectedAmount : Option Nat}
    (h : verifyMakerSenderContracts P terms sendersInfo nextMultisigPubkeys nextHashlockPubkeys
      refundLocktime expectedAmount = .ok ()) :
    ((∀ i info, sendersInfo[i]? = some info →
      ∃ expected k, cycleGet nextHashlockPubkeys i = some expected ∧
        info.contractRedeemscript = createContractRedeemscript expected k
          (P.hash160 terms.preimage) refundLocktime.toNat) ↔
      ∀ info ∈ sendersInfo, nextHashlockPubkeys ≠ [] ∧
        FollowsTemplate P info.contractRedeemscript) ∧
    ∀ i info expected, sendersInfo[i]? = some info →
      cycleGet nextHashlockPubkeys i = some expected →
      FollowsTemplate P info.contractRedeemscript →
      ∀ (ctx : SpendCtx) (sig : Bytes), ctx.hash160 = P.hash160 →
        (satisfies ctx info.contractRedeemscript [sig, terms.preimage] = true ↔
          sig.length ≤ maxElementSize ∧ terms.preimage.length = 32 ∧ csvOk ctx [] = true ∧
            ctx.sigOk expected.toBytes sig = true) := by
  have hlt : refundLocktime.toNat < 2 ^ 32 := by
    have := refundLocktime.toNat_lt
    omega
  have hback : ∀ {i info expected}, sendersInfo[i]? = some info →
      cycleGet nextHashlockPubkeys i = some expected →
      FollowsTemplate P info.contractRedeemscript →
      ∃ k, info.contractRedeemscript = createContractRedeemscript expected k
        (P.hash160 terms.preimage) refundLocktime.toNat := by
    intro i info expected hinfo hkey htemplate
    obtain ⟨_, _, _, hacc⟩ := verifyMakerSenderContracts_ok h hinfo
    exact contract_of_followsTemplate htemplate hacc.hashvalue hacc.locktime
      (hacc.hashlockKey expected hkey)
  refine ⟨⟨fun hall info hmem => ?_, fun hall i info hinfo => ?_⟩,
    fun i info expected hinfo hkey htemplate ctx sig hctx => ?_⟩
  · obtain ⟨i, hinfo⟩ := getElem?_of_mem hmem
    obtain ⟨expected, k, hkey, hscript⟩ := hall i info hinfo
    obtain ⟨_, _, _, hacc⟩ := verifyMakerSenderContracts_ok h hinfo
    rw [hscript]
    exact ⟨ne_nil_of_cycleGet hkey, followsTemplate_of_contract
      (compressed_of_readHashlock (hacc.hashlockKey expected hkey)) (P.hash160_length _) hlt⟩
  · obtain ⟨hne, htemplate⟩ := hall info (mem_of_getElem? hinfo)
    obtain ⟨expected, hkey⟩ := cycleGet_of_ne_nil hne i
    obtain ⟨k, hscript⟩ := hback hinfo hkey htemplate
    exact ⟨expected, k, hkey, hscript⟩
  · obtain ⟨k, hscript⟩ := hback hinfo hkey htemplate
    have hlen := P.hash160_length terms.preimage
    have hinstrs : collect (instructions info.contractRedeemscript) = .ok (contractInstrs
        expected.toBytes k.toBytes (P.hash160 terms.preimage) refundLocktime.toNat) := by
      rw [hscript, instructions_createContractRedeemscript (by omega) hlt, collect_map_ok]
    exact satisfies_contract_hash hinstrs (by rw [hctx])

open SampleSwap in
/-- The honest offer is accepted, and its hash branch takes the taker's signature. -/
theorem accepted_script_honest :
    verifyOffer honestOffer = .ok () ∧
      ∀ (ctx : SpendCtx) (sig : Bytes), ctx.hash160 = takerPrims.hash160 →
        (satisfies ctx nextContract [sig, hopTerms.preimage] = true ↔
          sig.length ≤ maxElementSize ∧ hopTerms.preimage.length = 32 ∧
            csvOk ctx [] = true ∧ ctx.sigOk takerHashlockPubkey.toBytes sig = true) := by
  have htemplate : FollowsTemplate takerPrims (createContractRedeemscript
      takerHashlockPubkey (Prims.publicKey (P := takerPrims) (13 : Fin 15))
      hash 20) := followsTemplate_of_contract rfl (by decide) (by decide)
  exact ⟨verify_honestOffer, (accepted_script_iff verify_honestOffer).2 0
    honestOffer takerHashlockPubkey rfl rfl htemplate⟩

open SampleSwap in
/-- The contract with the other ending is accepted.  It is the agreed contract for no
refund key, and its hash branch pays the maker. -/
theorem stolen_contract_accepted :
    verifyOffer stolenOffer = .ok () ∧
      (∀ k : takerPrims.PublicKey, stolenOffer.contractRedeemscript ≠
        createContractRedeemscript takerHashlockPubkey k
          (takerPrims.hash160 hopTerms.preimage) 20) ∧
      ∀ (ctx : SpendCtx) (sig : Bytes), ctx.hash160 = takerPrims.hash160 →
        satisfies ctx stolenOffer.contractRedeemscript [sig, hopTerms.preimage] = true →
        ctx.sigOk (keyBytes 13) sig = true := by
  have hhash : takerPrims.hash160 hopTerms.preimage = hash := by
    decide +kernel
  refine ⟨by decide +kernel, fun k => ?_, fun ctx sig hctx hspend =>
    stolenContract_spent (by rw [hctx, hhash]) hspend⟩
  obtain ⟨compressed, point⟩ := k
  cases point with
  | unknown => cases compressed <;> decide +kernel
  | mul i => cases compressed <;> revert i <;> decide +kernel

/-! ## The transaction -/

/-- What the check leaves open of a contract transaction, as the taker would have
built it: the fee, and the fields that make the transaction final at once. -/
def BuiltAtRate (swapFeerate : Nat) (info : SenderContractTxInfo) : Prop :=
  ∃ fee, feeAtRateSats contractTxVsize swapFeerate = some fee ∧ fee + 330 ≤ info.fundingAmount ∧
    info.contractTx.version = 2 ∧ info.contractTx.lockTime = 0 ∧
    (∀ input ∈ info.contractTx.input,
      input.sequence = 0 ∧ input.scriptSig = [] ∧ input.witness = []) ∧
    ∀ output ∈ info.contractTx.output, output.value = info.fundingAmount - fee

/-- The transaction is the one built for its funding outpoint at the rate. -/
def IsSendersContractTx (P : Prims) (swapFeerate : Nat) (info : SenderContractTxInfo) : Prop :=
  ∃ input, info.contractTx.input.head? = some input ∧
    createSendersContractTx P input.previousOutput info.fundingAmount info.contractRedeemscript
      swapFeerate = .ok info.contractTx

theorem isSendersContractTx_iff {input output fundingOutput}
    (h : AcceptedContract P terms nextMultisigPubkeys nextHashlockPubkeys refundLocktime info i
      input output fundingOutput) {swapFeerate} :
    IsSendersContractTx P swapFeerate info ↔ BuiltAtRate swapFeerate info := by
  have hin := h.inputs
  have hout := h.outputs
  have hscript := h.contractScript
  rcases hinfo : info.contractTx with ⟨version, lockTime, inputs, outputs⟩
  rw [hinfo] at hin hout
  subst hin hout
  obtain ⟨value, script⟩ := output
  obtain ⟨prevout, scriptSig, sequence, witness⟩ := input
  subst hscript
  simp only [IsSendersContractTx, BuiltAtRate, hinfo, createSendersContractTx_ok, mkContractTx,
    head?_cons, Option.some.injEq, exists_eq_left', mem_singleton, forall_eq,
    Transaction.mk.injEq, List.cons.injEq, TxIn.mk.injEq, TxOut.mk.injEq, and_true, true_and]
  constructor
  · rintro ⟨fee, hfee, hle, rfl, rfl, ⟨rfl, rfl, rfl⟩, rfl⟩
    exact ⟨fee, hfee, hle, rfl, rfl, ⟨rfl, rfl, rfl⟩, rfl⟩
  · rintro ⟨fee, hfee, hle, rfl, rfl, ⟨rfl, rfl, rfl⟩, rfl⟩
    exact ⟨fee, hfee, hle, rfl, rfl, ⟨rfl, rfl, rfl⟩, rfl⟩

/-- **The accepted transactions** are the ones built for their funding outpoints exactly when the
maker kept to the fee and to the fields the check does not look at; every contract output then
pays the funding amount less one contract fee. -/
theorem accepted_contractTx_iff {terms : HopTerms} {sendersInfo : List SenderContractTxInfo}
    {nextMultisigPubkeys nextHashlockPubkeys : List P.PublicKey} {refundLocktime : UInt16}
    {expectedAmount : Option Nat}
    (h : verifyMakerSenderContracts P terms sendersInfo nextMultisigPubkeys nextHashlockPubkeys
      refundLocktime expectedAmount = .ok ()) :
    ((∀ info ∈ sendersInfo, IsSendersContractTx P terms.swapFeerate info) ↔
      ∀ info ∈ sendersInfo, BuiltAtRate terms.swapFeerate info) ∧
    ∀ info ∈ sendersInfo, IsSendersContractTx P terms.swapFeerate info →
      ∃ fee output, feeAtRateSats contractTxVsize terms.swapFeerate = some fee ∧
        info.contractTx.output = [output] ∧
        output.scriptPubkey = p2wsh P info.contractRedeemscript ∧
        output.value + fee = info.fundingAmount := by
  have hiff : ∀ info ∈ sendersInfo,
      (IsSendersContractTx P terms.swapFeerate info ↔ BuiltAtRate terms.swapFeerate info) := by
    intro info hmem
    obtain ⟨i, hinfo⟩ := getElem?_of_mem hmem
    obtain ⟨_, _, _, hacc⟩ := verifyMakerSenderContracts_ok h hinfo
    exact isSendersContractTx_iff hacc
  refine ⟨forall₂_congr hiff, ?_⟩
  rintro info - ⟨input, -, hbuilt⟩
  obtain ⟨fee, hfee, hle, htx⟩ := createSendersContractTx_ok.mp hbuilt
  refine ⟨fee, _, hfee, by rw [htx]; rfl, rfl, ?_⟩
  exact Nat.sub_add_cancel (by omega)

open SampleSwap in
/-- The honest offer leaves the taker the funding amount less the contract fee. -/
theorem accepted_contractTx_honest :
    verifyOffer honestOffer = .ok () ∧ IsSendersContractTx takerPrims 1 honestOffer := by
  have hbuilt : BuiltAtRate 1 honestOffer :=
    ⟨150, by decide +kernel, by decide, rfl, rfl, by decide, by decide⟩
  refine ⟨verify_honestOffer,
    (accepted_contractTx_iff verify_honestOffer).1.mpr ?_ _ (mem_singleton_self _)⟩
  intro info hinfo
  rwa [mem_singleton.mp hinfo]

open SampleSwap in
/-- A transaction that pays 1000 of 98685 satoshi to the contract is accepted. -/
theorem emptied_contract_accepted :
    verifyOffer emptiedOffer = .ok () ∧ ¬ IsSendersContractTx takerPrims hopTerms.swapFeerate
        emptiedOffer ∧
      emptiedOffer.fundingAmount = 98685 ∧
      emptiedOffer.contractTx.output.map (·.value) = [1000] := by
  refine ⟨by decide +kernel, ?_, by decide, by decide⟩
  rintro ⟨input, hinput, hbuilt⟩
  cases hinput
  revert hbuilt
  decide +kernel

end OpenSwap
