import OpenSwap.Maker.Taproot

/-!
# The lock order of a Taproot hop

The maker may only lock its own coins until a height before the one at which its
sender can take the incoming contract back.  `timelock_leaves_iff` compares the
consensus meaning of the accepted incoming leaves with that of the outgoing ones.

* The outgoing leaf is always a height lock at the negotiated timelock.
* The incoming leaves are locked until one step later unless their value is a Unix
  time, or is pushed as a negative zero, which the verification reads unsigned.
-/

namespace OpenSwap

open Btc Checked

variable {P : Prims}

def locksByNegativeZero (script : Bytes) : Bool :=
  match instructions script with
  | .ok lock :: _ => isNegativeZeroLock lock
  | _ => false

theorem locksByNegativeZero_cltvLeaf {script key lock}
    (h : collect (instructions script) = .ok (cltvLeaf lock key)) :
    locksByNegativeZero script = isNegativeZeroLock lock := by
  rw [collect_eq_ok] at h
  rw [locksByNegativeZero, h]
  rfl

theorem onlyFromHeight_createTimelockScript {n key} (hn : n < lockTimeThreshold)
    (hk : key.length = 32) : OnlyFromHeight (createTimelockScript n key) n := by
  have hlt : n < 2 ^ 32 := lt_trans hn (by decide)
  exact onlyFromHeight_of_height (createTimelockScript_instructions hlt hk) intInstr_pushes
    (scriptNumDecode_scriptNum (by omega)) hn

/-! ## A run of the handler -/

def runHop (aenv : AdmissionEnv P) (state₀ : ConnectionState P) (d : SwapDetails)
    (env : TaprootEnv P) (data : TaprootContractData P) :
    Option (ConnectionState P × List (IncomingSwapCoin P) × List (OutgoingSwapCoin P)) :=
  match handleSwapDetails aenv state₀ d with
  | .ok (some _, state) =>
    match processTaprootContract env state data with
    | .ok coins => some (state, coins)
    | .error _ => none
  | _ => none

theorem runHop_isSome {aenv : AdmissionEnv P} {state₀ : ConnectionState P} {d : SwapDetails}
    {env : TaprootEnv P} {data : TaprootContractData P}
    (h : (runHop aenv state₀ d env data).isSome) :
    ∃ ack state coins, handleSwapDetails aenv state₀ d = .ok (some ack, state) ∧
      processTaprootContract env state data = .ok coins ∧
      runHop aenv state₀ d env data = some (state, coins) := by
  unfold runHop at h ⊢
  split at h
  · rename_i ack state hadm
    cases hp : processTaprootContract env state data with
    | error e =>
      rw [hp] at h
      cases h
    | ok coins => exact ⟨ack, state, coins, hadm, hp, rfl⟩
  · cases h

/-- A hop between the holders of the keys `5` (the sender), `1` (the maker) and `11`
(the next hop); the sender writes the lock of its timelock leaf with `lock`.  The
last six fields are the real commitments and identifiers of its two contracts. -/
structure SampleHop where
  timelock : UInt32
  lock : Bytes
  hash : Bytes
  outputKey : Bytes
  tapTweak : Bytes
  contractTxid : Bytes
  nextOutputKey : Bytes
  nextTapTweak : Bytes
  nextContractTxid : Bytes

namespace SampleHop

/-- A lock at height 900120, pushed as the builder pushes it. -/
def honest : SampleHop where
  timelock := 900100
  lock := [0x18, 0xbc, 0xd]
  hash := natBe 32 0x02d449a31fbb267c8f352e9968a79e3e5fc95c1bbeaa502fd6454ebde5a4bedc
  outputKey := natBe 32 0xd1e9cfad497088000ff98b863ba8abfa40ffc4ce6a93ba625eca93b4fdc82db4
  tapTweak := natBe 32 0xc435d25ced44d9e286da64e18dfff05cc0be4bf6c4b958e8aab1c45b6dd50a03
  contractTxid := natBe 32 0xf33d57643c04e0697d926c04f5bdb4f4367d424703deaf50d310bf53073e60d6
  nextOutputKey := natBe 32 0x0d1f054bace5baec66d48a02b76fe58cf18d3057eca42165b22667e50d2cbbb8
  nextTapTweak := natBe 32 0x3ea99d60aa9105e365faa8836e3e5ac783d184f9803debe94abad0114b22fc89
  nextContractTxid := natBe 32 0x2f1a505b42edf04f462564a455aa51be73bf0f402b8baf3145860a6570de4930

/-- A lock pushed as a negative zero; read unsigned it is 8388608. -/
def negativeZero : SampleHop where
  timelock := 8388588
  lock := [0x0, 0x0, 0x80]
  hash := natBe 32 0x02d449a31fbb267c8f352e9968a79e3e5fc95c1bbeaa502fd6454ebde5a4bedc
  outputKey := natBe 32 0xde3847f03d99916dd8e293844f3b4a8b8c55ecffa97b2784a8ec6d18cd8a624b
  tapTweak := natBe 32 0x44c54731bed6e5589ce5366b0e762cbc69076e92297d514bbbff61863d0c0f6b
  contractTxid := natBe 32 0x1101a9bcea7550eee8bb669b031ad9f3f663aedab396e6488c8cf6fb1d3a7caa
  nextOutputKey := natBe 32 0x6b3b1101cdaa5325989b43d038230333322f752521a12bd1d5edbc2acc554f90
  nextTapTweak := natBe 32 0x7cd7e9698273e8704770ab7ada2a1d1c71303cf71c89d8f33d0afaa2dca94383
  nextContractTxid := natBe 32 0xf1faf8380316643ba9e69e1e6b3c830562e1c450e64999dfc01f0f8cc1ee130c

/-- An honest lock, and the hash of 33 bytes. -/
def longPreimage : SampleHop where
  timelock := 900100
  lock := [0x18, 0xbc, 0xd]
  hash := natBe 32 0x5544a04dc597aa7606aeb6e21205e0ad3b928aec1c4aa25efe5a39fa8d5b76aa
  outputKey := natBe 32 0x3e221d2c75935c0103f92faac71abf0e06ce60a46568fad43174eeb364cdeb99
  tapTweak := natBe 32 0x7e596ce1b6b6301187c5cea838c66960838c582b668787f5fe9b093402a773b6
  contractTxid := natBe 32 0xb0556efa05534937cacd5d3097c979c436ee9ffd7f906f7686dcfe3ee8c88c69
  nextOutputKey := natBe 32 0xba0740d1a7d0a8cbbd88da217b3ea39271a6f8a1e53dd014a3592d8daf66fd2d
  nextTapTweak := natBe 32 0x21e556b403ffd545567708c42183948f31173ee997c9aaeda0115da112a7849a
  nextContractTxid := natBe 32 0x77ac696318806652a777b1dd66edff618b54391227d8d2f23417aed1f8beea98

def xKey (k : Fin 15) : Bytes := (TablePoint.serialize (.mul k)).drop 1

variable (s : SampleHop)

def hashlockScript : Bytes := createHashlockScript s.hash (xKey 2)

def timelockScript : Bytes :=
  encode [.push s.lock, .op Opcode.cltv, .op Opcode.drop, .push (xKey 6), .op Opcode.checkSig]

def internalKey : Bytes := natBe 32 0x477a89b7af06f8f3fd233dfeaac76bd14eeaf609706f5ce9194cecd9464db25d

def nextInternalKey : Bytes := natBe 32 0x3f9ef6e87f45b58772ce5c22cb6b70a89be0e16f34a5da29b6b157a0e6e759d1

def contractTx : Transaction where
  version := 2
  lockTime := 0
  input := [⟨⟨List.replicate 32 0xaa, 0⟩, [], 0xfffffffd, []⟩]
  output := [⟨100000, p2tr s.outputKey⟩]

def fundingTx (spk : Bytes) : Transaction where
  version := 2
  lockTime := 0
  input := [⟨⟨List.replicate 32 0xbb, 1⟩, [], 0xfffffffd, []⟩]
  output := [⟨99223, spk⟩]

def preimage : Bytes := List.replicate 32 0x11
def oversizedPreimage : Bytes := List.replicate 33 0x11

def hops : List SampleHop := [honest, negativeZero, longPreimage]

def tables : Tables :=
  { Tables.empty with
    sha256 := [(preimage, honest.hash), (oversizedPreimage, longPreimage.hash)]
    txid := hops.flatMap fun s => [(s.contractTx, s.contractTxid),
      (fundingTx (p2tr s.nextOutputKey), s.nextContractTxid)]
    aggregate := [((4, 0), internalKey), ((10, 5), nextInternalKey)]
    taproot := hops.flatMap fun s => [
      ((s.hashlockScript, s.timelockScript, internalKey), (s.outputKey, s.tapTweak)),
      ((createHashlockScript s.hash (xKey 10),
        createTimelockScript s.timelock.toNat (xKey 7), nextInternalKey),
        (s.nextOutputKey, s.nextTapTweak))] }

abbrev prims : Prims := tables.prims

def key (k : Fin 15) : prims.PublicKey := ⟨true, .mul k⟩

def details : SwapDetails where
  id := "00000000000000aa"
  features := ["taproot"]
  amount := 100000
  txCount := 1
  incomingCount := 1
  maxInputBudget := 1
  feerate := 1
  timelock := s.timelock
  refundLocktimeOffset := 20

def contractData : TaprootContractData prims where
  id := "00000000000000aa"
  pubkeys := [key 4]
  nextHopPoint := key 10
  internalKeys := [internalKey]
  tapTweaks := [s.tapTweak]
  hashlockScript := s.hashlockScript
  timelockScripts := [s.timelockScript]
  contractTxs := [s.contractTx]
  amounts := [100000]
  hashlockNonce := some (1 : Fin 15)
  nextHashlockNonce := none

def connection : ConnectionState prims :=
  { ConnectionState.new .legacy 0 with phase := .awaitingSwapDetails }

/-- A server at height 900000 that funds the hop from one coin. -/
def admission : AdmissionEnv prims where
  watchtowerAlive := true
  checkPins _ := .ok ()
  maxSwapAmount := 1000000
  currentHeight := .ok 900000
  now := 1
  calculateSwapFee _ _ := 500
  store _ state := .ok { state with fundingPlan := [⟨[⟨List.replicate 32 0xbb, 1⟩], 99223⟩] }
  tweakablePoint := key 0

/-- A server on which every call succeeds. -/
def serving {P : Prims} (tweakablePrivkey : P.SecretKey) (fee : Nat)
    (secrets : P.SecretKey × P.SecretKey) : TaprootEnv P where
  tweakablePrivkey := tweakablePrivkey
  currentHeight _ := .ok 900000
  beginFunding := .ok ()
  claimIncomingContractTxids _ := .ok ()
  waitForTxsOnChain _ := .ok ()
  contractOutputUnspent _ := .ok true
  contractTxidSeen _ := .ok false
  screenFundingTx _ := .ok ()
  calculateSwapFee _ _ := fee
  freshSecrets _ := secrets
  createFundingTransactions _ spks := .ok (spks.map fun spk => (fundingTx spk, 0))
  commit _ _ := .ok ()

def env : TaprootEnv prims := serving (0 : Fin 15) 500 ((4 : Fin 15), (7 : Fin 15))

def run (s : SampleHop) :=
  runHop admission connection s.details env s.contractData

end SampleHop

/-! ## The order of the locks -/

/-- **When the sender of an accepted hop can refund.**  The incoming leaves open only from
`timelock + 20` on exactly when that value is no Unix time and no leaf pushes it as a negative
zero; the outgoing leaves are height locks at `timelock`. -/
theorem timelock_leaves_iff {aenv : AdmissionEnv P} {state₀ state state' : ConnectionState P}
    {d : SwapDetails} {ack : P.PublicKey × List Nat} {env : TaprootEnv P}
    {data : TaprootContractData P} {incoming : List (IncomingSwapCoin P)}
    {outgoing : List (OutgoingSwapCoin P)}
    (hadm : handleSwapDetails aenv state₀ d = .ok (some ack, state))
    (hst : state'.timelock = state.timelock)
    (hacc : processTaprootContract env state' data = .ok (incoming, outgoing)) :
    ((∀ script ∈ data.timelockScripts,
        OnlyFromHeight script (d.timelock.toNat + refundLocktimeStep)) ↔
      ¬ (lockTimeThreshold ≤ d.timelock.toNat + refundLocktimeStep ∧
          d.timelock.toNat + refundLocktimeStep < 2 ^ 31) ∧
        ∀ script ∈ data.timelockScripts, locksByNegativeZero script = false) ∧
    ∀ o ∈ outgoing, ∃ script, o.timelockScript = some script ∧
      d.timelock.toNat < lockTimeThreshold ∧ OnlyFromHeight script d.timelock.toNat := by
  obtain ⟨_, _, -, -, -, htime, -⟩ := handleSwapDetails_accept hadm
  rw [htime] at hst
  obtain ⟨hverify, -, hash, hkey, -, -, hout⟩ := processTaprootContract_ok hacc
  obtain ⟨-, hne, hall⟩ := verifyTaprootContractData_ok hverify
  rw [hst] at hall hout
  have hleaf : ∀ script ∈ data.timelockScripts,
      (OnlyFromHeight script (d.timelock.toNat + refundLocktimeStep) ↔
        ¬ (lockTimeThreshold ≤ d.timelock.toNat + refundLocktimeStep ∧
          d.timelock.toNat + refundLocktimeStep < 2 ^ 31) ∧
          locksByNegativeZero script = false) := by
    intro script hmem
    obtain ⟨i, hi⟩ := hall script hmem
    obtain ⟨lock, key, his, -, hval, hpos⟩ := verifyTimelockScript_ok hi
    rw [locksByNegativeZero_cltvLeaf his]
    exact timelockLeaf_onlyFrom_iff his hval hpos
  refine ⟨⟨fun h => ⟨?_, fun script hmem => ((hleaf script hmem).mp (h script hmem)).2⟩,
    fun ⟨htime, hz⟩ script hmem => (hleaf script hmem).mpr ⟨htime, hz script hmem⟩⟩, ?_⟩
  · -- there is at least one leaf, and it carries the bound on the value
    obtain ⟨script, hmem⟩ := List.exists_mem_of_ne_nil _ hne
    exact ((hleaf script hmem).mp (h script hmem)).1
  · intro o ho
    obtain ⟨-, -, hlt, key, hkeylen, hscript⟩ := hout o ho
    exact ⟨_, hscript, hlt, onlyFromHeight_createTimelockScript hlt hkeylen⟩

open SampleHop in
/-- The honest hop is accepted and its leaf opens only from height 900120 on. -/
theorem timelock_leaves_honest :
    ∃ ack state coins, handleSwapDetails admission connection honest.details
        = .ok (some ack, state) ∧
      processTaprootContract env state honest.contractData = .ok coins ∧
      ∀ script ∈ honest.contractData.timelockScripts, OnlyFromHeight script 900120 := by
  obtain ⟨ack, state, coins, hadm, hacc, -⟩ :=
    runHop_isSome (show honest.run.isSome = true by decide +kernel)
  refine ⟨ack, state, coins, hadm, hacc, ?_⟩
  exact (timelock_leaves_iff hadm rfl hacc).1.mpr ⟨by decide, by decide +kernel⟩

open SampleHop in
/-- With the lock pushed as a negative zero the hop is accepted as well, for the
timelock 8388588, and the sender can refund it in the next block. -/
theorem negative_zero_lock_opens_early :
    ∃ ack state coins, handleSwapDetails admission connection negativeZero.details
        = .ok (some ack, state) ∧
      processTaprootContract env state negativeZero.contractData = .ok coins ∧
      ∃ script ∈ negativeZero.contractData.timelockScripts,
        ∃ (ctx : SpendCtx) (block : BlockTime) (witness : List Bytes),
          satisfies ctx script witness = true ∧ isFinalIn ctx block = true ∧
          block.height = 900001 ∧
          block.height < negativeZero.details.timelock.toNat + refundLocktimeStep := by
  obtain ⟨ack, state, coins, hadm, hacc, -⟩ :=
    runHop_isSome (show negativeZero.run.isSome = true by decide +kernel)
  refine ⟨ack, state, coins, hadm, hacc, _, List.mem_singleton.mpr rfl,
    { sha256 := id, hash160 := id, sigOk := fun _ _ => true, version := 2, lockTime := 0
      sequence := 0, otherSequences := [] }, ⟨900001, 1700000000⟩, [[]], ?_, ?_, rfl, ?_⟩
  · decide +kernel
  · decide
  · decide

end OpenSwap
