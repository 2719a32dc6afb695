import OpenSwap.Maker.Admission
import OpenSwap.Protocol.Contract2

/-!
# Taproot contract data at the maker

The maker's handler of `TaprootContractData`, from the script checks to the coins of
the next hop, and what an accepted message means on chain.

* `verifyTaprootContractData_ok` inverts the verification: which scripts and which
  lock values it lets through.
-/

namespace OpenSwap

open Btc Checked

/-! ## Messages -/

/-- The contract data a peer sends for one hop.  In Taproot the funding transaction
is the contract. -/
structure TaprootContractData (P : Prims) where
  id : String
  pubkeys : List P.PublicKey
  nextHopPoint : P.PublicKey
  internalKeys : List Bytes
  tapTweaks : List Bytes
  hashlockScript : Bytes
  timelockScripts : List Bytes
  contractTxs : List Transaction
  amounts : List Nat
  hashlockNonce : Option P.SecretKey
  nextHashlockNonce : Option P.SecretKey

variable {P : Prims}

/-! ## Verification -/

def curveOrder : Nat :=
  0xfffffffffffffffffffffffffffffffebaaedce6af48a03bbfd25e8cd0364141

def scalarFromBytes (b : Bytes) : Except ProtocolError Bytes := do
  ensure (b.length = 32) (.general "invalid scalar length")
  ensure (leNat b.reverse < curveOrder) (.general "invalid scalar value: out of range")
  .ok b

/-- The lock value at the head of a timelock leaf, read as an unsigned
little-endian number or as the number of its opcode. -/
def timelockValue : Instr → Except MakerError Nat
  | .push bytes => do
    ensure (bytes ≠ []) (.general "Taproot timelock script has empty locktime")
    ensure (bytes.length ≤ 4)
      (.general s!"Taproot timelock has unexpected byte length {bytes.length}")
    .ok (leNat bytes)
  | .op code =>
    match Opcode.pushNum code with
    | none => .error (.general "Taproot timelock script doesn't start with a locktime")
    | some n => do
      ensure (0 < n) (.general "Taproot timelock value is non-positive")
      .ok n.toNat

/-- The five instructions of a hashlock leaf, with 32-byte pushes. -/
def isHashlockTemplate : List Instr → Bool
  | [.op a, .push hash, .op b, .push pubkey, .op c] =>
    a = Opcode.sha256 && b = Opcode.equalVerify && c = Opcode.checkSig &&
      hash.length = 32 && pubkey.length = 32
  | _ => false

/-- The last four instructions of a timelock leaf, with a 32-byte key. -/
def isTimelockTemplate : List Instr → Bool
  | [_, .op a, .op b, .push pubkey, .op c] =>
    a = Opcode.cltv && b = Opcode.drop && c = Opcode.checkSig && pubkey.length = 32
  | _ => false

def orderedPair (a b : P.Point) : P.Point × P.Point :=
  if P.serialize b < P.serialize a then (b, a) else (a, b)

def parseScript (what : String) (script : Bytes) : Except MakerError (List Instr) :=
  match collect (instructions script) with
  | .ok is => .ok is
  | .error _ => .error (.general s!"Taproot {what} script parse error")

def verifyTimelockScript (i expectedTakerLocktime : Nat) (timelockScript : Bytes) :
    Except MakerError Unit := do
  let is ← parseScript "timelock" timelockScript
  ensure (is.length = 5)
    (.general s!"Taproot timelock script {i} has {is.length} instructions, expected 5")
  ensure (isTimelockTemplate is) (.general "Taproot timelock script has unexpected template")
  let first ← okOr is.head? (.general "Taproot timelock script is empty")
  let locktime ← timelockValue first
  ensure (locktime ≠ 0) (.general "Taproot timelock value is zero")
  ensure (locktime = expectedTakerLocktime)
    (.general s!"Taproot timelock value {locktime} does not match expected taker locktime")

def outOfBounds : MakerError := .general "index out of bounds"

def verifyContractAt (data : TaprootContractData P) (makerPubkey : P.PublicKey)
    (expectedTakerLocktime i : Nat) : Except MakerError Unit := do
  let pubkey ← okOr data.pubkeys[i]? outOfBounds
  let internalKey ← okOr data.internalKeys[i]? outOfBounds
  let timelockScript ← okOr data.timelockScripts[i]? outOfBounds
  let tapTweak ← okOr data.tapTweaks[i]? outOfBounds
  let amount ← okOr data.amounts[i]? outOfBounds
  let tx ← okOr data.contractTxs[i]? outOfBounds
  let ordered := orderedPair pubkey.inner makerPubkey.inner
  let expectedInternalKey ← okOr (P.aggregate ordered.1 ordered.2)
    (.general s!"Taproot internal key {i} aggregation failed")
  ensure (internalKey = expectedInternalKey)
    (.general "Taproot internal key does not match the expected MuSig2 aggregate")
  verifyTimelockScript i expectedTakerLocktime timelockScript
  let (outputKey, expectedTapTweak) ←
    okOr (P.taproot data.hashlockScript timelockScript internalKey)
      (.general "Taproot tree finalization failed")
  let scalar ← (scalarFromBytes tapTweak).mapError MakerError.protocol
  ensure (scalar = expectedTapTweak)
    (.general "Taproot tap tweak does not match internal key and script tree")
  ensure (tx.input ≠ []) (.general s!"Taproot contract tx {i} has no inputs")
  let out ← okOr tx.output.head? (.general s!"Taproot contract tx {i} has no outputs")
  ensure (amount = out.value)
    (.general s!"Taproot contract tx {i} amount does not match output value")
  ensure (out.scriptPubkey = p2tr outputKey)
    (.general s!"Taproot contract tx {i} output scriptpubkey does not match")

def verifyTaprootContractData (data : TaprootContractData P) (makerPubkey : P.PublicKey)
    (makerTimelock : Nat) : Except MakerError Unit := do
  let n := data.contractTxs.length
  ensure (data.contractTxs ≠ [])
    (.general "Taker sent empty Taproot contract data (no contract txs)")
  ensure (n = data.amounts.length)
    (.general s!"Taproot contract_txs count ({n}) doesn't match amounts count")
  let _ ← (extractHashFromHashlock data.hashlockScript).mapError MakerError.protocol
  let is ← parseScript "hashlock" data.hashlockScript
  ensure (is.length = 5)
    (.general s!"Taproot hashlock script has {is.length} instructions, expected 5")
  ensure (isHashlockTemplate is) (.general "Taproot hashlock script has unexpected template")
  ensure (data.timelockScripts.length = n ∧ data.internalKeys.length = n ∧
      data.tapTweaks.length = n ∧ data.pubkeys.length = n)
    (.general "Taproot per-contract vectors have inconsistent lengths")
  ensure (data.contractTxs.map P.txid).Nodup (.general "Duplicate Taproot contract outpoint")
  checkAll (verifyContractAt data makerPubkey (makerTimelock + refundLocktimeStep)) (List.range n)

/-! ## The handler -/

/-- What the handler asks of the server, the wallet and the chain.  The tip may
move between two reads, so `currentHeight` takes the number of the read. -/
structure TaprootEnv (P : Prims) where
  tweakablePrivkey : P.SecretKey
  currentHeight : Nat → Except MakerError Nat
  beginFunding : Except MakerError Unit
  claimIncomingContractTxids : List Bytes → Except MakerError Unit
  waitForTxsOnChain : List Bytes → Except MakerError Unit
  contractOutputUnspent : OutPoint → Except MakerError Bool
  contractTxidSeen : Bytes → Except MakerError Bool
  screenFundingTx : Transaction → Except MakerError Unit
  calculateSwapFee : (amount lockedBlocks : Nat) → Nat
  /-- the two secrets drawn for a split: the key nonce and the timelock key -/
  freshSecrets : Nat → P.SecretKey × P.SecretKey
  /-- the funding transactions of the frozen plan, with the position of the payment -/
  createFundingTransactions : Nat → List Bytes → Except MakerError (List (Transaction × Nat))
  /-- storing the state, arming the watches, saving the coins and broadcasting -/
  commit : List (IncomingSwapCoin P) → List (OutgoingSwapCoin P) → Except MakerError Unit

def checkSweepMargin (env : TaprootEnv P) (read timelock : Nat) : Except MakerError Unit := do
  let height ← env.currentHeight read
  ensure (leavesSweepMargin timelock height)
    (.general "Taproot contract data arrived too late to sweep safely")

def acceptContractAt (env : TaprootEnv P) (state : ConnectionState P)
    (data : TaprootContractData P) (hashlockPrivkey : P.SecretKey) (j : Nat) :
    Except MakerError (IncomingSwapCoin P) := do
  let tx ← okOr data.contractTxs[j]? outOfBounds
  let amount ← okOr data.amounts[j]? outOfBounds
  let timelockScript ← okOr data.timelockScripts[j]? outOfBounds
  let internalKey ← okOr data.internalKeys[j]? outOfBounds
  let tapTweak ← okOr data.tapTweaks[j]? outOfBounds
  ensure (← env.contractOutputUnspent ⟨P.txid tx, 0⟩)
    (.general "Taproot contract output already spent")
  ensure (!(← env.contractTxidSeen (P.txid tx)))
    (.general "Taproot contract txid already in use")
  checkSweepMargin env (j + 1) state.timelock
  env.screenFundingTx tx
  let scalar ← (scalarFromBytes tapTweak).mapError MakerError.protocol
  let coin := IncomingSwapCoin.newTaproot hashlockPrivkey data.hashlockScript timelockScript
    tx amount state.swapFeerate
  .ok { coin with
    swapId := some data.id
    myPrivkey := some env.tweakablePrivkey
    myPubkey := some (Prims.publicKey env.tweakablePrivkey)
    otherPubkey := some (data.pubkeys[j]?.getD data.nextHopPoint)
    internalKey := some internalKey
    tapTweak := some scalar }

structure ContractParams (P : Prims) where
  outgoingPrivkey : P.SecretKey
  internalKey : Bytes
  timelockPrivkey : P.SecretKey
  timelockScript : Bytes
  scriptPubkey : Bytes
  tapTweak : Bytes

def contractParamsAt (env : TaprootEnv P) (state : ConnectionState P)
    (data : TaprootContractData P) (hashlockScript : Bytes) (k : Nat) :
    Except MakerError (ContractParams P) := do
  let (outgoingNonce, timelockPrivkey) := env.freshSecrets k
  let outgoingPrivkey ← okOr (P.addTweak env.tweakablePrivkey outgoingNonce)
    (.general "Outgoing key derivation failed")
  let locktime ← okOr (lockTimeFromHeight state.timelock) (.general "Invalid locktime height")
  let timelockScript := createTimelockScript locktime (Prims.xOnly (P.pubOf timelockPrivkey))
  let ordered := orderedPair (P.pubOf outgoingPrivkey) data.nextHopPoint.inner
  let internalKey ← okOr (P.aggregate ordered.1 ordered.2)
    (.general "Failed to create aggregated pubkey")
  let (outputKey, tapTweak) ← okOr (P.taproot hashlockScript timelockScript internalKey)
    (.general "Failed to finalize taproot")
  .ok { outgoingPrivkey, internalKey, timelockPrivkey, timelockScript, tapTweak,
        scriptPubkey := p2tr outputKey }

def outgoingCoin (state : ConnectionState P) (data : TaprootContractData P)
    (hashlockScript : Bytes) (funded : (Transaction × Nat) × ContractParams P) :
    Except MakerError (OutgoingSwapCoin P) := do
  let ((tx, pos), params) := funded
  let out ← okOr tx.output[pos]? outOfBounds
  let coin := OutgoingSwapCoin.newTaproot params.timelockPrivkey hashlockScript
    params.timelockScript tx out.value state.swapFeerate
  .ok { coin with
    swapId := some data.id
    myPrivkey := some params.outgoingPrivkey
    myPubkey := some (Prims.publicKey params.outgoingPrivkey)
    otherPubkey := some data.nextHopPoint
    internalKey := some params.internalKey
    tapTweak := some params.tapTweak }

/-- `Amount::checked_add` over a list. -/
def sumAmounts : List Nat → Nat → Option Nat
  | [], total => some total
  | a :: rest, total => do sumAmounts rest (← checkedAdd64 total a)

variable {is : List Instr} {data : TaprootContractData P} {state : ConnectionState P}
  {script hashlockScript : Bytes} {u : Unit} {env : TaprootEnv P}

theorem sumAmounts_eq_some {amounts total sum} (h : sumAmounts amounts total = some sum) :
    total + amounts.sum = sum := by
  induction amounts generalizing total with
  | nil =>
    cases h
    rfl
  | cons amount rest ih =>
    simp only [sumAmounts, Option.bind_eq_bind, Option.bind_eq_some_iff, checkedAdd64_eq_some] at h
    obtain ⟨_, ⟨rfl, -⟩, h⟩ := h
    rw [List.sum_cons, ← Nat.add_assoc]
    exact ih h

/-- The next hop's hashlock key: tweaked when a nonce is given, else the point itself
(the last maker pays the taker). -/
def nextHopHashlockPubkey (data : TaprootContractData P) : Except MakerError P.PublicKey :=
  match data.nextHashlockNonce with
  | some nonce => (calculatePubkeyFromNonce data.nextHopPoint nonce).mapError MakerError.protocol
  | none => .ok data.nextHopPoint

section Handler

variable (env : TaprootEnv P) (state : ConnectionState P) (data : TaprootContractData P)

/-- The checks made before anything is claimed. -/
def checkTaprootContract : Except MakerError (P.SecretKey × Nat) := do
  state.expectPhase [.awaitingContractData]
  state.checkSwapId data.id
  let tweakablePubkey := Prims.publicKey env.tweakablePrivkey
  let hashlockNonce ← okOr data.hashlockNonce
    (.general "Missing hashlock_nonce in TaprootContractData")
  let hashlockPrivkey ← okOr (P.addTweak env.tweakablePrivkey hashlockNonce)
    (.general "Hashlock key derivation failed")
  (checkTaprootHashlockHasPubkey data.hashlockScript tweakablePubkey hashlockNonce).mapError
    MakerError.protocol
  verifyTaprootContractData data tweakablePubkey state.timelock
  ensure (data.contractTxs.length = state.incomingCount)
    (.general "Taproot contract count does not match the declared incoming count")
  let contractFloor ← okOr (minContractValueSats .taproot state.swapFeerate)
    (.general "Contract floor cannot be priced")
  ensure (∀ amount ∈ data.amounts, contractFloor ≤ amount)
    (.general "Taproot contract below the contract floor")
  let totalIncoming ← okOr (sumAmounts data.amounts 0)
    (.general "Taproot contract amounts overflow")
  ensure (totalIncoming = state.swapAmount)
    (.general "Taproot incoming amount does not match the negotiated swap amount")
  checkSweepMargin env 0 state.timelock
  .ok (hashlockPrivkey, totalIncoming)

/-- What the funding of the outgoing contracts is made from. -/
structure TaprootFunding (P : Prims) where
  incoming : List (IncomingSwapCoin P)
  forwardable : Nat
  hashlockScript : Bytes
  params : List (ContractParams P)

/-- The incoming coins, the amount to forward and the outgoing contracts. -/
def prepareTaproot (checked : P.SecretKey × Nat) : Except MakerError (TaprootFunding P) := do
  let n := data.contractTxs.length
  let incoming ← collectM (acceptContractAt env state data checked.1) (List.range n)
  let swapFee := env.calculateSwapFee checked.2 state.refundLocktimeOffset
  ensure (checked.2 ≠ 0) (.general "Incoming amount cannot be zero")
  let sweepFee ← okOr ((sweepFeePolicySats .taproot state.swapFeerate).bind (checkedMul64 · n))
    (.general "Sweep fee overflow")
  let forwardable ← okOr ((checkedSub checked.2 swapFee).bind (checkedSub · sweepFee))
    (.general "Fee exceeds incoming amount")
  let hash ← (extractHashFromHashlock data.hashlockScript).mapError MakerError.protocol
  let nextHop ← nextHopHashlockPubkey data
  let hashlockScript := createHashlockScript hash (Prims.xOnly nextHop.inner)
  let params ← collectM (contractParamsAt env state data hashlockScript)
    (List.range state.fundingPlan.length)
  .ok { incoming, forwardable, hashlockScript, params }

/-- Funds the outgoing contracts and makes their coins. -/
def taprootOutgoing (funding : TaprootFunding P) :
    Except MakerError (List (OutgoingSwapCoin P)) := do
  let funded ← env.createFundingTransactions funding.forwardable
    (funding.params.map (·.scriptPubkey))
  collectM (outgoingCoin state data funding.hashlockScript) (funded.zip funding.params)

def processTaprootContract :
    Except MakerError (List (IncomingSwapCoin P) × List (OutgoingSwapCoin P)) := do
  let checked ← checkTaprootContract env state data
  env.beginFunding
  env.claimIncomingContractTxids (data.contractTxs.map P.txid)
  env.waitForTxsOnChain (data.contractTxs.map P.txid)
  let funding ← prepareTaproot env state data checked
  let outgoing ← taprootOutgoing env state data funding
  env.commit funding.incoming outgoing
  .ok (funding.incoming, outgoing)

end Handler

theorem processTaprootContract_parts {incoming outgoing}
    (h : processTaprootContract env state data = .ok (incoming, outgoing)) :
    ∃ checked funding, checkTaprootContract env state data = .ok checked ∧
      prepareTaproot env state data checked = .ok funding ∧ incoming = funding.incoming ∧
      taprootOutgoing env state data funding = .ok outgoing := by
  simp only [processTaprootContract, bind_ok_iff] at h
  obtain ⟨checked, hchecked, _, -, _, -, _, -, funding, hfunding, _, hout, _, -, h⟩ := h
  cases h
  exact ⟨checked, funding, hchecked, hfunding, rfl, hout⟩

/-! ## What verification accepts -/

theorem isTimelockTemplate_iff :
    isTimelockTemplate is ↔ ∃ lock key, is = cltvLeaf lock key ∧ key.length = 32 := by
  constructor
  · intro h
    unfold isTimelockTemplate at h
    split at h
    · rename_i lock a b key c
      simp only [Bool.and_eq_true, decide_eq_true_eq] at h
      obtain ⟨⟨⟨rfl, rfl⟩, rfl⟩, hk⟩ := h
      exact ⟨lock, key, rfl, hk⟩
    · cases h
  · rintro ⟨lock, key, rfl, hk⟩
    simp [isTimelockTemplate, cltvLeaf, hk]

theorem isHashlockTemplate_iff :
    isHashlockTemplate is ↔
      ∃ hash key, is = hashLeaf hash key ∧ hash.length = 32 ∧ key.length = 32 := by
  constructor
  · intro h
    unfold isHashlockTemplate at h
    split at h
    · rename_i a hash b key c
      simp only [Bool.and_eq_true, decide_eq_true_eq] at h
      obtain ⟨⟨⟨⟨rfl, rfl⟩, rfl⟩, hh⟩, hk⟩ := h
      exact ⟨hash, key, rfl, hh, hk⟩
    · cases h
  · rintro ⟨hash, key, rfl, hh, hk⟩
    simp [isHashlockTemplate, hashLeaf, hh, hk]

theorem parseScript_ok {what} :
    parseScript what script = .ok is ↔ collect (instructions script) = .ok is := by
  unfold parseScript
  split <;> simp_all

theorem verifyTimelockScript_ok {i expected} (h : verifyTimelockScript i expected script = .ok u) :
    ∃ lock key, collect (instructions script) = .ok (cltvLeaf lock key) ∧ key.length = 32 ∧
      timelockValue lock = .ok expected ∧ expected ≠ 0 := by
  simp only [verifyTimelockScript, bind_ok_iff, parseScript_ok, ensure_eq_ok, okOr_eq_ok] at h
  obtain ⟨is, his, _, -, _, htemp, first, hfirst, locktime, hlock, _, hne, rfl⟩ := h
  obtain ⟨lock, key, rfl, hkey⟩ := isTimelockTemplate_iff.mp htemp
  cases hfirst
  exact ⟨first, key, his, hkey, hlock, hne⟩

theorem verifyTaprootContractData_ok {makerPubkey timelock}
    (h : verifyTaprootContractData data makerPubkey timelock = .ok u) :
    (∃ hash key, collect (instructions data.hashlockScript) = .ok (hashLeaf hash key) ∧
      hash.length = 32 ∧ key.length = 32) ∧
    data.timelockScripts ≠ [] ∧
    ∀ script ∈ data.timelockScripts,
      ∃ i, verifyTimelockScript i (timelock + refundLocktimeStep) script = .ok () := by
  simp only [verifyTaprootContractData, bind_ok_iff, parseScript_ok, ensure_eq_ok,
    checkAll_eq_ok, mapError_ok_iff] at h
  obtain ⟨_, hne, _, -, hash', -, is, his, _, -, _, htemp, _, ⟨hts, -⟩, _, -, hall⟩ := h
  refine ⟨?_, ?_, ?_⟩
  · obtain ⟨hash, key, rfl, hh, hk⟩ := isHashlockTemplate_iff.mp htemp
    exact ⟨hash, key, his, hh, hk⟩
  · intro hnil
    rw [hnil, List.length_nil, eq_comm, List.length_eq_zero_iff] at hts
    exact hne hts
  · intro script hmem
    obtain ⟨i, hi, rfl⟩ := List.getElem_of_mem hmem
    have hat := hall i (List.mem_range.mpr (hts ▸ hi))
    simp only [verifyContractAt, bind_ok_iff, okOr_eq_ok] at hat
    obtain ⟨_, -, _, -, script', hscript, _, -, _, -, _, -, _, -, _, -, _, hv, -⟩ := hat
    rw [List.getElem?_eq_getElem hi, Option.some.injEq] at hscript
    subst hscript
    exact ⟨i, hv⟩

/-! ## When an accepted timelock leaf opens -/

def isNegativeZeroLock : Instr → Bool
  | .push bytes => isNegativeZero bytes
  | .op _ => false

theorem numElem_pushNum {code n} (h : Opcode.pushNum code = some n) (hn : 0 < n) :
    (Instr.op code).pushes = some (scriptNum n.toNat) ∧ n.toNat ≤ 16 := by
  have hcode : 0x51 ≤ code.toNat ∧ code.toNat ≤ 0x60 ∧ n = code.toNat - 0x50 := by
    unfold Opcode.pushNum at h
    split_ifs at h with h1 h2
    · cases h; omega
    · cases h; exact ⟨h2.1, h2.2, rfl⟩
  obtain ⟨h1, h2, rfl⟩ := hcode
  have heq : (Instr.op code) = intInstr ((code.toNat : Int) - 0x50).toNat := by
    unfold intInstr
    rw [if_pos (by omega)]
    congr 1
    rw [← UInt8.toNat_inj, UInt8.toNat_ofNat']
    omega
  rw [heq]
  exact ⟨intInstr_pushes, by omega⟩

/-- **The consensus meaning of an accepted lock value.**  The leaf is a lock to at
least the value read exactly when the value is not a Unix time and not pushed as a
negative zero; from `2 ^ 31` on the operand is negative and the leaf is dead. -/
theorem timelockLeaf_onlyFrom_iff {key lock u}
    (hs : collect (instructions script) = .ok (cltvLeaf lock key)) (hv : timelockValue lock = .ok u)
    (hu : u ≠ 0) :
    OnlyFromHeight script u ↔
      ¬ (lockTimeThreshold ≤ u ∧ u < 2 ^ 31) ∧ isNegativeZeroLock lock = false := by
  have hpos : 0 < u := Nat.pos_of_ne_zero hu
  cases lock with
  | op code =>
    simp only [timelockValue] at hv
    split at hv
    · cases hv
    · rename_i n hn
      simp only [bind_ok_iff, ensure_eq_ok] at hv
      obtain ⟨_, hnpos, h⟩ := hv
      cases h
      obtain ⟨hpush, hle⟩ := numElem_pushNum hn hnpos
      have hdec := scriptNumDecode_scriptNum (n := n.toNat) (by omega)
      have hsmall : n.toNat < lockTimeThreshold := by
        unfold lockTimeThreshold
        omega
      refine iff_of_true (onlyFromHeight_of_height hs hpush hdec hsmall) ⟨by omega, rfl⟩
  | push bytes =>
    simp only [timelockValue, bind_ok_iff, ensure_eq_ok] at hv
    obtain ⟨_, hne, _, hlen, h⟩ := hv
    cases h
    have hpow : 256 ^ bytes.length ≤ 2 ^ 32 :=
      le_trans (Nat.pow_le_pow_right (by decide) hlen) (by decide)
    -- the three readings of the operand: unsigned, negative zero, negative
    rcases scriptNumDecode_cases hne with ⟨hz, hdec, hlt⟩ | ⟨hz, hdec⟩ | ⟨hz, hdec, hge⟩
    · by_cases htime : lockTimeThreshold ≤ leNat bytes
      · refine iff_of_false
          (not_onlyFromHeight_of_time hs rfl hdec (by omega) htime hpos) ?_
        rintro ⟨h, -⟩
        exact h ⟨htime, by omega⟩
      · exact iff_of_true (onlyFromHeight_of_height hs rfl hdec (by omega)) ⟨by omega, hz⟩
    · refine iff_of_false (not_onlyFromHeight_of_zero hs rfl hdec (by omega) hpos) ?_
      rintro ⟨-, h⟩
      exact absurd (hz.symm.trans h) (by decide)
    · refine iff_of_true (onlyFromHeight_of_neg hs rfl hdec) ⟨?_, hz⟩
      rintro ⟨htime, hlt31⟩
      -- a negative operand of fewer than four bytes is below the threshold
      have hlen4 : bytes.length = 4 := by
        by_contra hlen4
        have hpow3 : 256 ^ bytes.length ≤ 256 ^ 3 :=
          Nat.pow_le_pow_right (by decide) (by omega)
        have := leNat_lt bytes
        unfold lockTimeThreshold at htime
        omega
      rw [hlen4] at hge
      omega

/-! ## What the handler accepts -/

theorem acceptContractAt_ok {sk j c} (h : acceptContractAt env state data sk j = .ok c) :
    c.protocol = .taproot ∧ c.contractRedeemscript = none ∧
      c.hashlockScript = some data.hashlockScript ∧
      c.hashPreimage = none ∧ c.swapId = some data.id ∧
      data.contractTxs[j]? = some c.contractTx := by
  simp only [acceptContractAt, bind_ok_iff, okOr_eq_ok, ensure_eq_ok] at h
  obtain ⟨tx, htx, _, -, _, -, _, -, _, -, _, -, _, -, _, -, _, -, _, -, _, -, _, -, h⟩ := h
  cases h
  exact ⟨rfl, rfl, rfl, rfl, rfl, htx⟩

theorem contractParamsAt_ok {k c} (h : contractParamsAt env state data hashlockScript k = .ok c) :
    state.timelock < lockTimeThreshold ∧
      ∃ key, key.length = 32 ∧ c.timelockScript = createTimelockScript state.timelock key := by
  simp only [contractParamsAt, bind_ok_iff, okOr_eq_ok] at h
  obtain ⟨_, -, locktime, hlock, _, -, _, -, h⟩ := h
  cases h
  unfold lockTimeFromHeight at hlock
  split at hlock
  · rename_i hlt
    cases hlock
    exact ⟨hlt, _, Prims.length_xOnly _, rfl⟩
  · cases hlock

theorem outgoingCoin_ok {funded o} (h : outgoingCoin state data hashlockScript funded = .ok o) :
    o.protocol = .taproot ∧ o.hashlockScript = some hashlockScript ∧
      o.timelockScript = some funded.2.timelockScript ∧ o.contractTx = funded.1.1 := by
  simp only [outgoingCoin, bind_ok_iff] at h
  obtain ⟨_, -, h⟩ := h
  cases h
  exact ⟨rfl, rfl, rfl, rfl⟩

/-- **What an accepted message gives**: verified data, one incoming coin for every
contract, and outgoing coins locked to the same hash and to the swap's height. -/
theorem processTaprootContract_ok {incoming outgoing}
    (h : processTaprootContract env state data = .ok (incoming, outgoing)) :
    verifyTaprootContractData data (Prims.publicKey env.tweakablePrivkey) state.timelock
      = .ok () ∧
    (∀ c ∈ incoming, c.protocol = .taproot ∧ c.contractRedeemscript = none ∧
      c.hashlockScript = some data.hashlockScript ∧
      c.hashPreimage = none ∧ c.swapId = some data.id ∧ c.contractTx ∈ data.contractTxs) ∧
    ∃ hash hkey, extractHashFromHashlock data.hashlockScript = .ok hash ∧ hkey.length = 32 ∧
      ∀ o ∈ outgoing, o.protocol = .taproot ∧
        o.hashlockScript = some (createHashlockScript hash hkey) ∧
        state.timelock < lockTimeThreshold ∧
        ∃ key, key.length = 32 ∧
          o.timelockScript = some (createTimelockScript state.timelock key) := by
  obtain ⟨checked, funding, hchecked, hprepared, rfl, hout⟩ := processTaprootContract_parts h
  simp only [checkTaprootContract, bind_ok_iff] at hchecked
  obtain ⟨_, -, _, -, _, -, _, -, _, -, _, hverify, -⟩ := hchecked
  simp only [prepareTaproot, bind_ok_iff, mapError_ok_iff] at hprepared
  obtain ⟨inc, hinc, _, -, _, -, _, -, hash, hhash, next, -, params, hparams, h⟩ := hprepared
  cases h
  obtain ⟨funded, -, hout⟩ := bind_ok_iff.mp hout
  refine ⟨hverify, ?_, hash, _, hhash, Prims.length_xOnly next.inner, ?_⟩
  · intro c hc
    obtain ⟨j, -, hj⟩ := collectM_mem hinc hc
    obtain ⟨h1, h2, h3, h4, h5, h6⟩ := acceptContractAt_ok hj
    exact ⟨h1, h2, h3, h4, h5, List.mem_of_getElem? h6⟩
  · intro o ho
    obtain ⟨⟨tp, c⟩, hmem, hcoin⟩ := collectM_mem hout ho
    obtain ⟨h1, h2, h3, -⟩ := outgoingCoin_ok hcoin
    obtain ⟨k, -, hk⟩ := collectM_mem hparams (List.of_mem_zip hmem).2
    obtain ⟨hlt, key, hkey, hscript⟩ := contractParamsAt_ok hk
    exact ⟨h1, h2, hlt, key, hkey, by rw [h3, hscript]⟩

end OpenSwap
