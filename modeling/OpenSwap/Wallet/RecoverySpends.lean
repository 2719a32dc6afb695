import OpenSwap.Base.Binary64
import OpenSwap.Btc.Taproot
import OpenSwap.Wallet.ContractSpends
import OpenSwap.Wallet.FundingPolicy

/-!
# Refunds and sweeps of contracts

The two transactions recovery makes of a contract: the sender's refund by the timelock
branch, and the receiver's sweep by the hash branch.

* `OutgoingSwapCoin.createTimelockRecoveryTx` — the refund, at the largest of some rates
  that leaves an output above dust.
* `IncomingSwapCoin.signSpendTransaction` — the sweep, at the negotiated rate.
-/

namespace OpenSwap

open Btc Checked Binary64 List

variable {P : Prims}

/-! ## Fees -/

def isWitnessProgram (spk : Bytes) : Bool :=
  match spk with
  | version :: len :: program =>
    (version = 0 || (0x51 ≤ version && version ≤ 0x60)) && len.toNat = program.length &&
      2 ≤ program.length && program.length ≤ 40
  | _ => false

def compactSizeLen (n : Nat) : Nat :=
  if n < 253 then 1 else if n < 2 ^ 16 then 3 else if n < 2 ^ 32 then 5 else 9

/-- `minimal_non_dust`: three satoshi for every byte of the output and of an input that
spends it. -/
def dustLimit (spk : Bytes) : Nat :=
  if spk.head? = some 0x6a then 0
  else 3 * ((if isWitnessProgram spk then 67 else 148) + 8 + compactSizeLen spk.length + spk.length)

/-- Fee for `vbytes` at a rate; a rate that is missing is no finite number. -/
def feeAtRate (vbytes : Nat) (rate : Option ℚ) : Option Nat := do
  let rate ← rate
  if rate < minRelayFeeRate then none
  else
    let fee := double (rate * double vbytes)
    if 2 ^ 64 ≤ fee then none else some ⌈fee⌉.toNat

/-- The largest fee of some rates that still leaves a relayable output. -/
def cappedFee (rates : List (Option ℚ)) (vsize value : Nat) (spk : Bytes) : Option Nat := do
  let maxFee ← checkedSub value (dustLimit spk)
  ((rates.filterMap (feeAtRate vsize)).filter (· ≤ maxFee)).max?

variable {value k n : Nat} {witness : List Bytes} {key : Bytes} {outpoint : OutPoint}
  {coin block : BlockTime}

theorem cappedFee_le {rates : List (Option ℚ)} {vsize fee : Nat} {spk : Bytes}
    (h : cappedFee rates vsize value spk = some fee) : fee + dustLimit spk ≤ value := by
  simp only [cappedFee, Option.bind_eq_bind, Option.bind_eq_some_iff, checkedSub_eq_some] at h
  obtain ⟨maxFee, hmax, h⟩ := h
  have hmem := max?_mem h
  have hle := of_decide_eq_true (mem_filter.mp hmem).2
  omega

def legacyTimelockVsize : Nat := 142
def taprootTimelockVsize : Nat := 140

def timelockVsize : ProtocolVersion → Nat
  | .legacy => legacyTimelockVsize
  | .taproot => taprootTimelockVsize

def contractSpendVsize (protocol : ProtocolVersion) (cooperative : Bool) : Nat :=
  match protocol, cooperative with
  | .legacy, _ => legacyContractSpendVsize
  | .taproot, true => taprootKeypathVsize
  | .taproot, false => taprootScriptpathVsize

/-! ## The refund -/

def sequenceRbfNoLocktime : Nat := 0xfffffffd

section Refund

variable (T : TapPrims P) (o : OutgoingSwapCoin P)

def withWitness (tx : Transaction) (witness : List Bytes) : Transaction :=
  Transaction.mapFirstInput (fun input => { input with witness := witness }) tx

def OutgoingSwapCoin.signTimelockRecovery (tx : Transaction) : Except WalletError Transaction := do
  let contractOutput ← okOr o.contractTx.output[o.contractOutputVout]?
    (.general "No output in contract tx")
  match o.protocol with
  | .taproot =>
    let timelockScript ← okOr o.timelockScript (.general "No timelock script for Taproot swapcoin")
    let internalKey ← okOr o.internalKey (.general "No internal key for Taproot swapcoin")
    let _ ← okOr o.tapTweak (.general "No tap tweak for Taproot swapcoin")
    let hashlockScript ← okOr o.hashlockScript (.general "No hashlock script for Taproot swapcoin")
    let sig := T.schnorrSign o.timelockPrivkey
      (T.leafSighash tx 0 [contractOutput] timelockScript 0)
    let _ ← okOr (P.taproot hashlockScript timelockScript internalKey)
      (.general "Failed to finalize TaprootBuilder")
    let control ← okOr (T.controlBlock hashlockScript timelockScript internalKey timelockScript)
      (.general "Failed to get control block for timelock script")
    .ok (withWitness tx [sig, timelockScript, control])
  | .legacy =>
    let redeemscript ← okOr o.contractRedeemscript (.general "No redeemscript for Legacy swapcoin")
    let sig : EcdsaSig :=
      ⟨P.sign o.timelockPrivkey (P.sighash tx 0 redeemscript contractOutput.value sighashAll),
        sighashAll⟩
    -- the empty element selects the timelock branch
    .ok (withWitness tx [sig.toBytes, [], redeemscript])

def refundLocks (protocol : ProtocolVersion) (timelock : Nat) : Nat × Nat :=
  match protocol with
  | .taproot => ((lockTimeFromHeight timelock).getD 0, sequenceRbfNoLocktime)
  | .legacy => (0, timelock % 2 ^ 16)

def OutgoingSwapCoin.createTimelockRecoveryTx (feeRates : List (Option ℚ)) (recoverySpk : Bytes) :
    Except WalletError Transaction := do
  let timelock ← okOr o.timelock (.general "Could not extract timelock from swapcoin")
  let contractOutput ← okOr o.contractTx.output[o.contractOutputVout]?
    (.general "No output in contract tx")
  let fee ← okOr (cappedFee feeRates (timelockVsize o.protocol) contractOutput.value recoverySpk)
    (.general "No feerate leaves a relayable output")
  let (lockTime, sequence) := refundLocks o.protocol timelock
  o.signTimelockRecovery T {
    version := 2
    lockTime := lockTime
    input := [⟨o.contractOutpoint, [], sequence, []⟩]
    output := [⟨contractOutput.value - fee, recoverySpk⟩] }

end Refund

/-! ## The sweep -/

section Sweep

variable (T : TapPrims P) (c : IncomingSwapCoin P)

def IncomingSwapCoin.spentOutpoint : Except WalletError OutPoint :=
  match c.protocol with
  | .legacy =>
    if c.otherPrivkey.isSome then
      okOr c.fundingOutpoint (.general "Contract tx has no input (funding outpoint)")
    else .ok ⟨P.txid c.contractTx, 0⟩
  | .taproot =>
    .ok ⟨P.txid c.contractTx,
      (c.contractTx.output.findIdx? (·.value = c.fundingAmount)).getD 0⟩

def IncomingSwapCoin.signLegacySpend (tx : Transaction) : Except WalletError Transaction :=
  match c.otherPrivkey, c.hashPreimage with
  | some otherPrivkey, _ => do
    let myPrivkey ← okOr c.myPrivkey (.general "Missing my_privkey for cooperative spend")
    let myPubkey ← okOr c.myPubkey (.general "Missing my_pubkey for cooperative spend")
    let otherPubkey ← okOr c.otherPubkey (.general "Missing other_pubkey for cooperative spend")
    let multisigRedeemscript ← okOr c.multisigRedeemscript
      (.general "Missing multisig_redeemscript for cooperative spend")
    let digest := P.sighash tx 0 multisigRedeemscript c.fundingAmount sighashAll
    .ok (Transaction.mapFirstInput (fun input =>
      applyTwoSignaturesTo2of2MultisigSpend myPubkey otherPubkey
        ⟨P.sign myPrivkey digest, sighashAll⟩ ⟨P.sign otherPrivkey digest, sighashAll⟩ input
        multisigRedeemscript) tx)
  | none, some preimage => do
    let contractRedeemscript ← okOr c.contractRedeemscript
      (.general "Missing contract_redeemscript for hashlock spend")
    let contractOutput ← okOr c.contractTx.output.head?
      (.general "Contract tx has no output for hashlock spend")
    let sig : EcdsaSig := ⟨P.sign c.hashlockPrivkey
      (P.sighash tx 0 contractRedeemscript contractOutput.value sighashAll), sighashAll⟩
    .ok (withWitness tx [sig.toBytes, preimage, contractRedeemscript])
  | none, none => .error (.general "Cannot spend: need either other_privkey or preimage")

/-- The two keys of a cooperative spend, with what else it needs. -/
def IncomingSwapCoin.signTaprootKeySpend (otherPrivkey : P.SecretKey) (tx : Transaction) :
    Except WalletError Transaction := do
  let myPrivkey ← okOr c.myPrivkey (.general "Missing my_privkey")
  let tapTweak ← okOr c.tapTweak (.general "Missing tap_tweak")
  let internalKey ← okOr c.internalKey (.general "Missing internal_key")
  let hashlockScript ← okOr c.hashlockScript (.general "Missing hashlock_script")
  let timelockScript ← okOr c.timelockScript (.general "Missing timelock_script")
  let digest ← okOr (T.keySighash tx c.fundingAmount hashlockScript timelockScript internalKey)
    (.general "Failed to calculate sighash")
  let sig ← okOr (T.musigSign myPrivkey otherPrivkey tapTweak digest)
    (.general "Failed to aggregate signatures")
  .ok (withWitness tx [sig])

def IncomingSwapCoin.signTaprootSpend (tx : Transaction) : Except WalletError Transaction :=
  match c.otherPrivkey, c.hashPreimage with
  | some otherPrivkey, _ => c.signTaprootKeySpend T otherPrivkey tx
  | none, some preimage => do
    let hashlockScript ← okOr c.hashlockScript
      (.general "Missing hashlock_script for taproot hashlock spend")
    let timelockScript ← okOr c.timelockScript
      (.general "Missing timelock_script for taproot hashlock spend")
    let internalKey ← okOr c.internalKey
      (.general "Missing internal_key for taproot hashlock spend")
    let _ ← okOr (P.taproot hashlockScript timelockScript internalKey)
      (.general "Failed to create taproot script")
    let control ← okOr (T.controlBlock hashlockScript timelockScript internalKey hashlockScript)
      (.general "Failed to get control block for hashlock script")
    let contractOutput ← okOr c.contractTx.output[c.contractOutputVout]?
      (.general "index out of bounds")
    let sig := T.schnorrSign c.hashlockPrivkey (T.leafSighash tx 0
      [⟨c.fundingAmount, contractOutput.scriptPubkey⟩] hashlockScript sighashAll)
    .ok (withWitness tx [sig ++ [sighashAll], preimage, hashlockScript, control])
  | none, none => .error
      (.general "Cannot spend: need other_privkey for cooperative spend or preimage for hashlock")

def IncomingSwapCoin.signSpendTransactionWithOutputValue (inputValue outputValue : Nat)
    (outputScript : Bytes) : Except WalletError Transaction := do
  ensure (outputValue < inputValue)
    (.general s!"Spend output {outputValue} leaves no fee from input {inputValue}")
  let previousOutput ← c.spentOutpoint
  -- the hash branch of a Legacy contract wants a relative lock of zero blocks
  let sequence := if c.otherPrivkey.isSome then sequenceRbfNoLocktime else 0
  let tx : Transaction :=
    ⟨2, 0, [⟨previousOutput, [], sequence, []⟩], [⟨outputValue, outputScript⟩]⟩
  match c.protocol with
  | .legacy => c.signLegacySpend tx
  | .taproot => c.signTaprootSpend T tx

def IncomingSwapCoin.signSpendTransaction (inputValue : Nat) (outputScript : Bytes)
    (feerate : Nat) : Except WalletError Transaction := do
  let fee ← okOr (feeAtRateSats (contractSpendVsize c.protocol c.otherPrivkey.isSome) feerate)
    (.general "unusable feerate")
  let outputValue ← okOr (checkedSub inputValue fee) (.general "Fee exceeds input value")
  c.signSpendTransactionWithOutputValue T inputValue outputValue outputScript

/-- Where the sweep of a coin goes: the receiver of a payment takes an exact amount, an
address of the wallet what the fee leaves. -/
inductive SweepTarget where
  | payment (amount : Nat) (spk : Bytes)
  | wallet (spk : Bytes)

def SweepTarget.spk : SweepTarget → Bytes
  | .payment _ spk => spk
  | .wallet spk => spk

def IncomingSwapCoin.inputValue : Option Nat :=
  match c.protocol with
  | .legacy =>
    if c.otherPrivkey.isSome then some c.fundingAmount
    else c.contractTx.output.head?.map (·.value)
  | .taproot => some c.fundingAmount

def IncomingSwapCoin.sweepRate : Nat := max (roundF64 c.negotiatedFeerate) minRelayFeeRate

/-- How `sweep_incoming_swapcoins` spends a coin that is on chain. -/
def IncomingSwapCoin.sweep (target : SweepTarget) : Except WalletError Transaction := do
  let inputValue ← okOr c.inputValue (.general "No output found in contract tx")
  match target with
  | .payment amount spk => c.signSpendTransactionWithOutputValue T inputValue amount spk
  | .wallet spk => c.signSpendTransaction T inputValue spk c.sweepRate

end Sweep

/-! ## The lock of a contract is read back -/

theorem readContractLocktime_createContractRedeemscript {pubHashlock pubTimelock : P.PublicKey}
    {hashvalue : Bytes} {locktime : Nat} (hhash : hashvalue.length = 20)
    (hlock : 1 ≤ locktime ∧ locktime ≤ 65535) :
    readContractLocktime
      (createContractRedeemscript pubHashlock pubTimelock hashvalue locktime) = .ok locktime := by
  have hinstrs : instructions
      (createContractRedeemscript pubHashlock pubTimelock hashvalue locktime) =
      (contractInstrs pubHashlock.toBytes pubTimelock.toBytes hashvalue locktime).map .ok :=
    instructions_createContractRedeemscript (by omega) (by omega)
  have hat : instrAt (createContractRedeemscript pubHashlock pubTimelock hashvalue locktime) 12 =
      .ok (intInstr locktime) := instrAt_of_instructions hinstrs rfl
  rw [readContractLocktime, hat, bind_ok_iff]
  refine ⟨_, rfl, ?_⟩
  unfold intInstr
  split_ifs with hsmall
  · dsimp only
    rw [Opcode.pushNum_ofNat hsmall.1 hsmall.2]
    simp
  · dsimp only
    have hval : leNat (scriptNum locktime) = locktime := leNat_scriptNum (by omega)
    have hlen : (scriptNum locktime).length ≤ 3 := length_scriptNum_le (j := 2) (by omega)
    -- a third byte can only be the empty sign
    have hrest : ((scriptNum locktime).drop 2).all (· = 0) = true := by
      rw [← leNat_eq_zero]
      by_contra hne
      have hsplit := leNat_append ((scriptNum locktime).take 2) ((scriptNum locktime).drop 2)
      rw [take_append_drop, hval, length_take] at hsplit
      have htwo : 2 ≤ (scriptNum locktime).length := by
        by_contra hshort
        rw [drop_eq_nil_of_le (by omega)] at hne
        exact hne rfl
      rw [Nat.min_eq_left htwo] at hsplit
      omega
    split_ifs with hone hmore
    · rw [hval]
    · rw [bind_ok_iff]
      refine ⟨(), ensure_eq_ok.mpr hrest, ?_⟩
      rw [← leNat_eq_leNat_take hrest, hval]
    · have hzero : scriptNum locktime = [] := length_eq_zero_iff.mp (by omega)
      rw [hzero, leNat] at hval
      omega

theorem length_scriptNumDigits_le_of_half {j : Nat} (h : n < 0x80 * 256 ^ j) :
    (scriptNumDigits k n).length ≤ j + 1 := by
  induction k generalizing j n with
  | zero => simp [scriptNumDigits]
  | succ k ih =>
    unfold scriptNumDigits
    split_ifs with h1 h2
    · simp
    · cases j with
      | zero => exact absurd h h1
      | succ j => simp
    · cases j with
      | zero => exact absurd h h1
      | succ j =>
        have hlt : n / 256 < 0x80 * 256 ^ j := by
          omega
        have hrest := ih hlt
        rw [length_cons]
        omega

theorem foldl_or_shiftLeft {bytes : Bytes} {acc : Nat} (hacc : acc < 2 ^ (8 * k))
    (hk : k + bytes.length ≤ 4) :
    (bytes.zipIdx k).foldl
        (fun locktime byte => locktime ||| byte.1.toNat <<< (8 * byte.2 % 32)) acc =
      acc + 2 ^ (8 * k) * leNat bytes := by
  induction bytes generalizing acc k with
  | nil => simp [leNat]
  | cons b bytes ih =>
    rw [length_cons] at hk
    have hb := b.toNat_lt
    have hor : acc ||| b.toNat <<< (8 * k % 32) = acc + 2 ^ (8 * k) * b.toNat := by
      rw [Nat.mod_eq_of_lt (by omega), Nat.or_comm, ← Nat.shiftLeft_add_eq_or_of_lt hacc,
        Nat.shiftLeft_eq]
      ring
    have hpow : 2 ^ (8 * (k + 1)) = 2 ^ (8 * k) * 256 := by
      rw [Nat.mul_succ, Nat.pow_add]
    have hnext : acc + 2 ^ (8 * k) * b.toNat < 2 ^ (8 * (k + 1)) := by
      have hmul : 2 ^ (8 * k) * (b.toNat + 1) ≤ 2 ^ (8 * k) * 256 :=
        Nat.mul_le_mul_left _ (by omega)
      rw [Nat.mul_succ] at hmul
      omega
    rw [zipIdx_cons, foldl_cons, hor, ih hnext (by omega), leNat, hpow]
    ring

theorem length_scriptNum_height (h : n < lockTimeThreshold) : (scriptNum n).length ≤ 4 := by
  rw [lockTimeThreshold] at h
  unfold scriptNum
  split_ifs
  · simp
  · exact length_scriptNumDigits_le_of_half (j := 3) (by omega)

theorem createTimelockScript_eq (hlow : 17 ≤ n) (hhigh : n < lockTimeThreshold) :
    createTimelockScript n key = UInt8.ofNat (scriptNum n).length :: (scriptNum n ++
      encode [.op Opcode.cltv, .op Opcode.drop, .push key, .op Opcode.checkSig]) := by
  have hlen := length_scriptNum_height hhigh
  have hint : intInstr n = .push (scriptNum n) := if_neg (by omega)
  rw [createTimelockScript, hint, encode_cons, encodeInstr, pushSlice, if_pos (by omega)]
  rfl

theorem taprootTimelock_createTimelockScript (hkey : key.length = 32) (hlow : 17 ≤ n)
    (hhigh : n < lockTimeThreshold) :
    taprootTimelock (createTimelockScript n key) = some n := by
  have hlen := length_scriptNum_height hhigh
  rw [createTimelockScript_eq hlow hhigh]
  rw [lockTimeThreshold] at hhigh
  have hval : leNat (scriptNum n) = n := leNat_scriptNum (by omega)
  have hpos : (scriptNum n).length ≠ 0 := by
    intro hzero
    rw [length_eq_zero_iff.mp hzero, leNat] at hval
    omega
  have hrest : 5 ≤ (encode [.op Opcode.cltv, .op Opcode.drop, .push key,
      .op Opcode.checkSig]).length := by
    simp [encode, encodeInstr, pushSlice, hkey]
  have hnat : (UInt8.ofNat (scriptNum n).length).toNat = (scriptNum n).length :=
    UInt8.toNat_ofNat_of_lt' (Nat.lt_of_le_of_lt hlen (by decide))
  rw [taprootTimelock, hnat, length_append, if_neg (by omega), take_left']
  · rw [foldl_or_shiftLeft (by decide) (by omega), hval]
    simp
  · rfl

/-- **A contract is read back** as it was built: the hashlock key, the hash and the lock of a
Legacy contract, and the height of a Taproot one, none of whose bytes is shifted out. -/
theorem contract_read_back {pubHashlock pubTimelock : P.PublicKey} {hashvalue : Bytes}
    {locktime : Nat} (hkey : pubHashlock.compressed) (hhash : hashvalue.length = 20)
    (hlock : 1 ≤ locktime ∧ locktime ≤ 65535) (redeemscript timelockScript : Option Bytes) :
    let script := createContractRedeemscript pubHashlock pubTimelock hashvalue locktime
    readHashlockPubkeyFromContract P script = .ok pubHashlock ∧
      readHashvalueFromContract script = .ok hashvalue ∧
      readContractLocktime script = .ok locktime ∧
      contractTimelock .legacy (some script) timelockScript = some locktime ∧
      ∀ n key, 17 ≤ n → n ≤ 499999999 → key.length = 32 →
        contractTimelock .taproot redeemscript (some (createTimelockScript n key)) = some n ∧
        ∀ len ∈ (createTimelockScript n key).head?, 8 * (len.toNat - 1) < 32 := by
  intro script
  have hk := Prims.PublicKey.length_toBytes hkey
  have hlong : 61 ≤ script.length := by
    simp only [script, createContractRedeemscript, contractInstrs, encode_cons, encodeInstr,
      pushSlice, hk, hhash]
    simp [hk, hhash]
    omega
  have hinstrs : instructions script =
      (contractInstrs pubHashlock.toBytes pubTimelock.toBytes hashvalue locktime).map .ok :=
    instructions_createContractRedeemscript (by omega) (by omega)
  have hread : readContractLocktime script = .ok locktime :=
    readContractLocktime_createContractRedeemscript hhash hlock
  refine ⟨?_, ?_, hread, ?_, ?_⟩
  · have hslice : slice script 27 33 = pubHashlock.toBytes := slice_hashlockKey hhash hk
    simp only [readHashlockPubkeyFromContract, bind_ok_iff, ensure_eq_ok, okOr_eq_ok, hslice]
    refine ⟨(), hlong, ?_⟩
    rw [Prims.PublicKey.fromSlice, Prims.PublicKey.parse_toBytes hkey, ← hkey]
    rfl
  · have hop : instrAt script 2 = .ok (.op Opcode.hash160) := instrAt_of_instructions hinstrs rfl
    have hpush : instrAt script 3 = .ok (.push hashvalue) := instrAt_of_instructions hinstrs rfl
    have hmin : minHashvLen ≤ script.length := Nat.le_trans (by decide) hlong
    simp [readHashvalueFromContract, hop, hpush, bind_ok_iff, ensure_eq_ok, hmin, hhash]
  · exact congrArg Except.toOption hread
  · intro n key hlow hhigh hlen
    have hheight : n < lockTimeThreshold := Nat.lt_succ_of_le hhigh
    refine ⟨taprootTimelock_createTimelockScript hlen hlow hheight, ?_⟩
    have hbytes := length_scriptNum_height hheight
    rw [createTimelockScript_eq hlow hheight]
    rintro _ ⟨⟩
    rw [UInt8.toNat_ofNat_of_lt' (Nat.lt_of_le_of_lt hbytes (by decide))]
    omega

theorem contract_read_back_signed :
    readContractLocktime (createContractRedeemscript
      (⟨true, TablePoint.mul 1⟩ : Tables.empty.prims.PublicKey) ⟨true, TablePoint.mul 2⟩
      (List.replicate 20 7) 0x8000) = .ok 0x8000 :=
  (contract_read_back rfl (by decide) (by decide) none none).2.2.1

/-- The numbers with an opcode of their own are not read back. -/
theorem taprootTimelock_small (h : n ≤ 16) :
    taprootTimelock (createTimelockScript n key) = none := by
  interval_cases n <;>
    simp [createTimelockScript, taprootTimelock, intInstr, encodeInstr, pushSlice, encode,
      scriptNum]

/-! ## Outgoing contracts -/

inductive ContractLock where
  | legacy (hashvalue : Bytes) (locktime : Nat)
  | taproot (height : Nat)

/-- The coin stands for a contract of this party with the lock, paid by an output. -/
inductive OutgoingSwapCoin.Contract (o : OutgoingSwapCoin P) (out : TxOut) : ContractLock → Prop
  | legacy {pubHashlock hashvalue script locktime} (hprotocol : o.protocol = .legacy)
      (hhash : hashvalue.length = 20) (hlock : 1 ≤ locktime ∧ locktime ≤ 65535)
      (hscript : script = createContractRedeemscript pubHashlock
        (Prims.publicKey o.timelockPrivkey) hashvalue locktime)
      (hcoin : o.contractRedeemscript = some script) (hout : o.contractTx.output[0]? = some out)
      (hspk : out.scriptPubkey = p2wsh P script) : o.Contract out (.legacy hashvalue locktime)
  | taproot {hashlockScript timelockScript internalKey outputKey tapTweak tweak height}
      (hprotocol : o.protocol = .taproot) (hheight : height < lockTimeThreshold)
      (hscript : timelockScript =
        createTimelockScript height (Prims.xOnly (P.pubOf o.timelockPrivkey)))
      (hhashlock : o.hashlockScript = some hashlockScript)
      (htimelock : o.timelockScript = some timelockScript)
      (hinternal : o.internalKey = some internalKey) (htweak : o.tapTweak = some tapTweak)
      (htaproot : P.taproot hashlockScript timelockScript internalKey = some (outputKey, tweak))
      (hout : o.contractTx.output[0]? = some out) (hspk : out.scriptPubkey = p2tr outputKey)
      (hamount : out.value = o.fundingAmount) : o.Contract out (.taproot height)

theorem findIdx_first {outputs : List TxOut} {out : TxOut} {amount : Nat}
    (hout : outputs[0]? = some out) (hamount : out.value = amount) :
    (outputs.findIdx? (·.value = amount)).getD 0 = 0 := by
  cases outputs with
  | nil => cases hout
  | cons first rest =>
    obtain rfl : first = out := by simpa using hout
    simp [findIdx?_cons, hamount]

namespace OutgoingSwapCoin

variable {o : OutgoingSwapCoin P} {out : TxOut} {lock : ContractLock}

theorem Contract.vout (h : o.Contract out lock) :
    o.contractOutputVout = 0 ∧ o.contractTx.output[0]? = some out := by
  cases h with
  | legacy hprotocol _ _ _ _ hout _ => exact ⟨by simp [contractOutputVout, hprotocol], hout⟩
  | taproot hprotocol _ _ _ _ _ _ _ hout _ hamount =>
    refine ⟨?_, hout⟩
    rw [contractOutputVout]
    split_ifs
    · exact findIdx_first hout hamount
    · rfl

end OutgoingSwapCoin

/-- The block the lock is reached in, and every later one. -/
def ContractLock.reached (coin block : BlockTime) : ContractLock → Prop
  | .legacy _ locktime => coin.height + locktime ≤ block.height
  | .taproot height => coin.height ≤ block.height ∧ height < block.height

def ContractLock.Refundable (P : Prims) : ContractLock → Prop
  | .legacy hashvalue _ => hashvalue ≠ P.hash160 []
  | .taproot height => 17 ≤ height

/-- The only input of the transaction is a valid spend of the output. -/
def spendsContract (T : TapPrims P) (protocol : ProtocolVersion) (tx : Transaction) (out : TxOut) :
    Bool :=
  match protocol with
  | .legacy => spendsScriptHash P tx 0 out
  | .taproot => spendsTaprootLeaf T tx 0 [out]

def unsignedSpend (lockTime sequence : Nat) (outpoint : OutPoint) (value : Nat) (spk : Bytes) :
    Transaction :=
  ⟨2, lockTime, [⟨outpoint, [], sequence, []⟩], [⟨value, spk⟩]⟩

theorem mayBeIn_blocksSpend {sequence : Nat} {spk : Bytes} (h : sequence < 2 ^ 16) :
    mayBeIn (withWitness (unsignedSpend 0 sequence outpoint value spk) witness) coin block ↔
      coin.height + sequence ≤ block.height :=
  @mayBeIn_relative _ ⟨outpoint, [], sequence, witness⟩ coin block rfl rfl rfl h

theorem mayBeIn_heightSpend {height : Nat} {spk : Bytes} (hzero : height ≠ 0)
    (hheight : height < lockTimeThreshold) :
    mayBeIn (withWitness (unsignedSpend height sequenceRbfNoLocktime outpoint value spk) witness)
        coin block ↔
      coin.height ≤ block.height ∧ height < block.height :=
  @mayBeIn_absolute (withWitness (unsignedSpend height sequenceRbfNoLocktime outpoint value spk)
    witness) ⟨outpoint, [], sequenceRbfNoLocktime, witness⟩ coin block rfl hzero hheight
    (show sequenceRbfNoLocktime.testBit 31 = true by decide)
    (show sequenceRbfNoLocktime ≠ sequenceFinal by decide)

section Valid

variable {T : TapPrims P} {sequence value : Nat} {outpoint : OutPoint} {out : TxOut}
  {spk script hashlockKey timelockKey hashvalue : Bytes} {locktime : Nat} {sk : P.SecretKey}
  {tx : Transaction}

theorem sighash_withWitness (tx : Transaction) (witness : List Bytes) :
    P.sighash (withWitness tx witness) = P.sighash tx :=
  sighash_mapFirstInput fun _ => rfl

theorem leafSighash_withWitness (tx : Transaction) (witness : List Bytes) :
    T.leafSighash (withWitness tx witness) = T.leafSighash tx := by
  rw [← T.leafSighash_stripWitness, ← T.leafSighash_stripWitness tx]
  unfold withWitness Transaction.mapFirstInput
  split
  · rfl
  · rename_i input rest hin
    simp [Transaction.stripWitness, hin]

theorem segwitSigOk_withWitness {sk : P.SecretKey} {tx : Transaction} {witness : List Bytes}
    {script : Bytes} {value : Nat} :
    segwitSigOk P (withWitness tx witness) 0 script value (Prims.publicKey sk).toBytes
      (⟨P.sign sk (P.sighash tx 0 script value sighashAll), sighashAll⟩ : EcdsaSig).toBytes =
      true := by
  have hkey : P.parse (Prims.publicKey sk).toBytes = some (P.pubOf sk) :=
    Prims.PublicKey.parse_toBytes rfl
  rw [segwitSigOk_toBytes hkey, sighash_withWitness]
  exact P.verify_sign sk _

theorem spends_legacyRefund (hinstrs : collect (instructions script) =
      .ok (contractInstrs hashlockKey (Prims.publicKey sk).toBytes hashvalue locktime))
    (hlock : locktime < 2 ^ 16) (hspk : out.scriptPubkey = p2wsh P script)
    (htx : tx = unsignedSpend 0 locktime outpoint value spk) :
    spendsScriptHash P (withWitness tx
        [(⟨P.sign sk (P.sighash tx 0 script out.value sighashAll), sighashAll⟩ : EcdsaSig).toBytes,
          [], script]) 0 out ↔
      hashvalue ≠ P.hash160 [] := by
  have hsig := fun witness => @segwitSigOk_withWitness P sk tx witness script out.value
  generalize hs : (⟨P.sign sk (P.sighash tx 0 script out.value sighashAll), sighashAll⟩ :
    EcdsaSig).toBytes = sig at hsig ⊢
  have hbit : ∀ i, 16 ≤ i → locktime.testBit i = false := fun i hi =>
    Nat.testBit_lt_two_pow (hlock.trans_le (Nat.pow_le_pow_right (by decide) hi))
  subst htx
  have hin : (withWitness (unsignedSpend 0 locktime outpoint value spk)
      [sig, [], script]).input[0]? = some ⟨outpoint, [], locktime, [sig, []] ++ [script]⟩ := rfl
  rw [spendsScriptHash_iff hin rfl, satisfies_contract hinstrs hlock]
  constructor
  · rintro ⟨-, -, -, _, _, hstack, -, hbranch⟩
    cases hstack
    rcases hbranch with hbranch | hbranch
    · exact absurd hbranch.length (by decide)
    · exact Ne.symm hbranch.hash
  · intro hne
    refine ⟨rfl, hspk, le_rfl, sig, [], rfl, ?_, .inr ⟨Ne.symm hne, rfl, hsig _,
      hbit 31 (by decide), hbit 22 (by decide), (Nat.mod_eq_of_lt hlock).ge⟩⟩
    exact (length_of_segwitSigOk (hsig [])).trans (by decide)

theorem spends_legacySweep {x : Bytes} (hinstrs : collect (instructions script) =
      .ok (contractInstrs (Prims.publicKey sk).toBytes timelockKey (P.hash160 x) locktime))
    (hx : x.length = 32) (hspk : out.scriptPubkey = p2wsh P script)
    (htx : tx = unsignedSpend 0 0 outpoint value spk) :
    spendsScriptHash P (withWitness tx
      [(⟨P.sign sk (P.sighash tx 0 script out.value sighashAll), sighashAll⟩ : EcdsaSig).toBytes,
        x, script]) 0 out = true := by
  have hsig := fun witness => @segwitSigOk_withWitness P sk tx witness script out.value
  generalize hs : (⟨P.sign sk (P.sighash tx 0 script out.value sighashAll), sighashAll⟩ :
    EcdsaSig).toBytes = sig at hsig ⊢
  subst htx
  have hin : (withWitness (unsignedSpend 0 0 outpoint value spk)
      [sig, x, script]).input[0]? = some ⟨outpoint, [], 0, [sig, x] ++ [script]⟩ := rfl
  rw [spendsScriptHash_iff hin rfl, satisfies_contract_hash hinstrs rfl]
  refine ⟨rfl, hspk, (length_of_segwitSigOk (hsig [])).trans (by decide), hx, ?_, hsig _⟩
  exact (csvOk_scriptNum (n := 0) (by decide)).mpr
    ⟨le_rfl, Nat.zero_testBit 31, Nat.zero_testBit 22, le_rfl⟩

theorem head_ne_annex {version : UInt8} {path : Bytes} (h : version &&& 0xfe = 0xc0) :
    (version :: path).head? ≠ some 0x50 := by
  rintro heq
  obtain rfl : version = 0x50 := by simpa using heq
  exact absurd h (by decide)

section Leaf

variable {leaf outputKey path : Bytes} {version : UInt8} (hspk : out.scriptPubkey = p2tr outputKey)
  (hkey : outputKey.length = 32) (hversion : version &&& 0xfe = 0xc0)
  (hcommits : T.commits outputKey leaf (version :: path) = true)

include hspk hkey hversion hcommits

theorem spendsTaprootLeaf_of_satisfies {lockTime : Nat} (stack : List Bytes)
    (htx : tx = unsignedSpend lockTime sequence outpoint value spk)
    (h : satisfies (tapCtx T (withWitness tx (stack ++ [leaf, version :: path])) 0
      ⟨outpoint, [], sequence, stack ++ [leaf, version :: path]⟩ [out] leaf) leaf stack) :
    spendsTaprootLeaf T (withWitness tx (stack ++ [leaf, version :: path])) 0 [out] = true := by
  have hout : [out][0]? = some ⟨out.value, p2tr outputKey⟩ := by
    rw [← hspk]
    rfl
  subst htx
  exact (spendsTaprootLeaf_iff rfl hout hkey rfl).mpr ⟨rfl, head_ne_annex hversion, hcommits, h⟩

theorem spends_taprootRefund {height : Nat}
    (hleaf : leaf = createTimelockScript height (Prims.xOnly (P.pubOf sk)))
    (hheight : height < lockTimeThreshold)
    (htx : tx = unsignedSpend height sequenceRbfNoLocktime outpoint value spk) :
    spendsTaprootLeaf T (withWitness tx
      [T.schnorrSign sk (T.leafSighash tx 0 [out] leaf 0), leaf, version :: path]) 0 [out] =
      true := by
  have hinstrs : collect (instructions leaf) =
      .ok (cltvLeaf (intInstr height) (Prims.xOnly (P.pubOf sk))) := by
    rw [lockTimeThreshold] at hheight
    exact hleaf ▸ createTimelockScript_instructions (by omega) (Prims.length_xOnly _)
  apply spendsTaprootLeaf_of_satisfies hspk hkey hversion hcommits [_] htx
  rw [satisfies_cltvLeaf hinstrs intInstr_pushes]
  refine ⟨_, rfl, by rw [T.length_schnorrSign]; decide, ?_, ?_⟩
  · exact cltvOk_height hheight (by rw [htx]; rfl) (show sequenceRbfNoLocktime ≠ _ by decide)
  · have hsig := @tapSigOk_default P T (withWitness tx [T.schnorrSign sk
      (T.leafSighash tx 0 [out] leaf 0), leaf, version :: path]) 0 [out] leaf sk
    rwa [leafSighash_withWitness] at hsig

theorem spends_taprootSweep {x : Bytes} (hinstrs : collect (instructions leaf) =
      .ok (hashLeaf (P.sha256 x) (Prims.xOnly (P.pubOf sk)))) (hx : x.length ≤ maxElementSize)
    (htx : tx = unsignedSpend 0 0 outpoint value spk) :
    spendsTaprootLeaf T (withWitness tx
      [T.schnorrSign sk (T.leafSighash tx 0 [out] leaf sighashAll) ++ [sighashAll], x, leaf,
        version :: path]) 0 [out] = true := by
  apply spendsTaprootLeaf_of_satisfies hspk hkey hversion hcommits [_, x] htx
  rw [satisfies_hashLeaf hinstrs]
  refine ⟨_, x, rfl, ?_, hx, rfl, ?_⟩
  · rw [length_append, T.length_schnorrSign]
    decide
  · have hsig := @tapSigOk_named P T (withWitness tx [T.schnorrSign sk
      (T.leafSighash tx 0 [out] leaf sighashAll) ++ [sighashAll], x, leaf, version :: path]) 0 [out]
      leaf sk sighashAll (by decide)
    rwa [leafSighash_withWitness] at hsig

end Leaf

end Valid

/-! ## Refunds -/

/-- What is asked of the refund of a contract at some fee: its only output keeps the rest and
is no dust, it takes the timelock branch, and the blocks it may be in are those from the one
the lock is reached in. -/
structure OutgoingSwapCoin.Refunds (T : TapPrims P) (o : OutgoingSwapCoin P) (out : TxOut)
    (lock : ContractLock) (fee : Nat) (spk : Bytes) (tx : Transaction) : Prop where
  output : tx.output = [⟨out.value - fee, spk⟩]
  relayable : fee + dustLimit spk ≤ out.value
  timelockBranch : o.isOwnTimelockSpend tx
  valid : ∀ coin block, (spendsContract T o.protocol tx out ∧ mayBeIn tx coin block) ↔
    lock.reached coin block

section Refunds

variable {T : TapPrims P} {o : OutgoingSwapCoin P} {out : TxOut} {rates : List (Option ℚ)}
  {spk : Bytes} {fee : Nat}
  (hfee : cappedFee rates (timelockVsize o.protocol) out.value spk = some fee)

include hfee

theorem createTimelockRecoveryTx_ok {timelock : Nat} {tx : Transaction}
    (htimelock : o.timelock = some timelock)
    (hout : o.contractTx.output[o.contractOutputVout]? = some out) :
    o.createTimelockRecoveryTx T rates spk = .ok tx ↔
      o.signTimelockRecovery T (unsignedSpend (refundLocks o.protocol timelock).1
        (refundLocks o.protocol timelock).2 o.contractOutpoint (out.value - fee) spk) = .ok tx := by
  simp [OutgoingSwapCoin.createTimelockRecoveryTx, htimelock, hout, hfee, bind_ok_iff, okOr_eq_ok,
    unsignedSpend]

theorem refunds_legacy {hashvalue : Bytes} {locktime : Nat}
    (h : o.Contract out (.legacy hashvalue locktime)) :
    (∃ tx, o.createTimelockRecoveryTx T rates spk = .ok tx ∧
      o.Refunds T out (.legacy hashvalue locktime) fee spk tx) ↔ hashvalue ≠ P.hash160 [] := by
  obtain ⟨hvout, hout⟩ := h.vout
  obtain @⟨pubHashlock, _, script, _, hprotocol, hhash, hlock, hscript, hcoin, -, hspk⟩ := h
  have hlt : locktime < 2 ^ 16 := by omega
  have htimelock : o.timelock = some locktime := by
    simp [OutgoingSwapCoin.timelock, contractTimelock, hprotocol, hcoin, hscript,
      readContractLocktime_createContractRedeemscript hhash hlock, Except.toOption]
  have hinstrs : collect (instructions script) = .ok (contractInstrs pubHashlock.toBytes
      (Prims.publicKey o.timelockPrivkey).toBytes hashvalue locktime) := by
    rw [hscript, instructions_createContractRedeemscript (by omega) (by omega), collect_map_ok]
  -- the transaction the function returns
  obtain ⟨unsigned, hunsigned⟩ : ∃ unsigned, unsigned =
    unsignedSpend 0 locktime o.contractOutpoint (out.value - fee) spk := ⟨_, rfl⟩
  have hspends := spends_legacyRefund (P := P) hinstrs hlt hspk hunsigned
  have htx : ∀ tx, o.createTimelockRecoveryTx T rates spk = .ok tx ↔ withWitness unsigned
      [(⟨P.sign o.timelockPrivkey (P.sighash unsigned 0 script out.value sighashAll),
        sighashAll⟩ : EcdsaSig).toBytes, [], script] = tx := by
    intro tx
    have hlocks : refundLocks o.protocol locktime = (0, locktime) := by
      rw [hprotocol, refundLocks, Nat.mod_eq_of_lt hlt]
    rw [createTimelockRecoveryTx_ok hfee htimelock (by rw [hvout]; exact hout), hlocks, ← hunsigned]
    simp [hprotocol, OutgoingSwapCoin.signTimelockRecovery, hvout, hout, hcoin, bind_ok_iff,
      okOr_eq_ok]
  simp only [htx, exists_eq_left']
  rw [← hspends]
  constructor
  · intro h
    -- a block far enough from the coin's
    have hvalid := (h.valid ⟨0, 0⟩ ⟨locktime, 0⟩).mpr (by simp [ContractLock.reached])
    simpa [spendsContract, hprotocol] using hvalid.1
  · intro h
    rw [hunsigned] at h ⊢
    refine ⟨rfl, cappedFee_le hfee, ?_, fun coin block => ?_⟩
    · simp [OutgoingSwapCoin.isOwnTimelockSpend, isTimelockSpend, hprotocol, hcoin, withWitness,
        Transaction.mapFirstInput, unsignedSpend]
    · rw [mayBeIn_blocksSpend hlt]
      simp [spendsContract, hprotocol, h, ContractLock.reached]

omit hfee in
theorem taprootLeafScript_eq_some {version : UInt8} {path sig leaf : Bytes}
    (h : version &&& 0xfe = 0xc0) :
    taprootLeafScript [sig, leaf, version :: path] = some (tapscriptLeafVersion, leaf) := by
  have hannex : version ≠ 0x50 := fun heq =>
    @head_ne_annex version path h (congrArg some heq)
  unfold taprootLeafScript
  split
  · rename_i heq
    simp_all
  · simp [h, tapscriptLeafVersion]

theorem refunds_taproot {height : Nat} (h : o.Contract out (.taproot height)) :
    (∃ tx, o.createTimelockRecoveryTx T rates spk = .ok tx ∧
      o.Refunds T out (.taproot height) fee spk tx) ↔ 17 ≤ height := by
  obtain ⟨hvout, hout⟩ := h.vout
  obtain _ | @⟨_, timelockScript, _, _, _, _, _, hprotocol, hheight, hscript, hhashlock,
    htimelockScript, hinternal, htweak, htaproot, -, hspk⟩ := h
  have htimelock : o.timelock = taprootTimelock timelockScript := by
    simp [OutgoingSwapCoin.timelock, contractTimelock, hprotocol, htimelockScript]
  constructor
  · rintro ⟨tx, htx, -⟩
    by_contra hsmall
    rw [hscript, taprootTimelock_small (by omega)] at htimelock
    simp [OutgoingSwapCoin.createTimelockRecoveryTx, htimelock, bind_ok_iff, okOr_eq_ok] at htx
  · intro hlow
    rw [hscript, taprootTimelock_createTimelockScript (Prims.length_xOnly _) hlow hheight]
      at htimelock
    obtain ⟨version, path, hcontrol, hversion, hcommits⟩ :=
      T.exists_controlBlock htaproot (.inr rfl)
    obtain ⟨unsigned, hunsigned⟩ : ∃ unsigned, unsigned = unsignedSpend height
      sequenceRbfNoLocktime o.contractOutpoint (out.value - fee) spk := ⟨_, rfl⟩
    have hspends := spends_taprootRefund hspk (T.length_outputKey htaproot) hversion hcommits
      hscript hheight hunsigned
    have hlocks : refundLocks o.protocol height = (height, sequenceRbfNoLocktime) := by
      simp [hprotocol, refundLocks, lockTimeFromHeight, hheight]
    refine ⟨withWitness unsigned [T.schnorrSign o.timelockPrivkey
      (T.leafSighash unsigned 0 [out] timelockScript 0), timelockScript, version :: path], ?_, ?_⟩
    · rw [createTimelockRecoveryTx_ok hfee htimelock (by rw [hvout]; exact hout), hlocks,
        ← hunsigned]
      simp [hprotocol, OutgoingSwapCoin.signTimelockRecovery, hvout, hout, hhashlock,
        htimelockScript, hinternal, htweak, htaproot, hcontrol, bind_ok_iff, okOr_eq_ok]
    · rw [hunsigned] at hspends ⊢
      refine ⟨rfl, cappedFee_le hfee, ?_, fun coin block => ?_⟩
      · simp [OutgoingSwapCoin.isOwnTimelockSpend, isTimelockSpend, hprotocol, htimelockScript,
          withWitness, Transaction.mapFirstInput, unsignedSpend, taprootLeafScript_eq_some hversion,
          tapscriptLeafVersion]
      · have hzero : height ≠ 0 := by omega
        rw [mayBeIn_heightSpend hzero hheight]
        simp only [spendsContract, hprotocol, hspends, true_and]
        rfl

/-- **A refund is the spend it should be** exactly for the contracts that are refundable. -/
theorem refunds_iff {lock : ContractLock} (h : o.Contract out lock) :
    (∃ tx, o.createTimelockRecoveryTx T rates spk = .ok tx ∧ o.Refunds T out lock fee spk tx) ↔
      lock.Refundable P := by
  cases lock with
  | legacy hashvalue locktime => exact refunds_legacy hfee h
  | taproot height => exact refunds_taproot hfee h

end Refunds

/-! ## Sweeps -/

/-- The coin stands for a contract whose hash branch is this party's, and holds its
preimage. -/
inductive IncomingSwapCoin.Claimable (c : IncomingSwapCoin P) (out : TxOut) : Prop
  | legacy {x script timelockKey locktime} (hprotocol : c.protocol = .legacy)
      (hother : c.otherPrivkey = none) (hpreimage : c.hashPreimage = some x) (hx : x.length = 32)
      (hcoin : c.contractRedeemscript = some script)
      (hscript : collect (instructions script) = .ok (contractInstrs
        (Prims.publicKey c.hashlockPrivkey).toBytes timelockKey (P.hash160 x) locktime))
      (hout : c.contractTx.output[0]? = some out) (hspk : out.scriptPubkey = p2wsh P script) :
      c.Claimable out
  | taproot {x hashlockScript timelockScript internalKey outputKey tweak}
      (hprotocol : c.protocol = .taproot) (hother : c.otherPrivkey = none)
      (hpreimage : c.hashPreimage = some x) (hx : x.length = 32)
      (hhashlock : c.hashlockScript = some hashlockScript)
      (hscript : collect (instructions hashlockScript) =
        .ok (hashLeaf (P.sha256 x) (Prims.xOnly (P.pubOf c.hashlockPrivkey))))
      (htimelock : c.timelockScript = some timelockScript)
      (hinternal : c.internalKey = some internalKey)
      (htaproot : P.taproot hashlockScript timelockScript internalKey = some (outputKey, tweak))
      (hout : c.contractTx.output[0]? = some out) (hspk : out.scriptPubkey = p2tr outputKey)
      (hamount : out.value = c.fundingAmount) : c.Claimable out

/-- What is asked of the sweep of a contract at some fee: its only output keeps the rest, and it
may be in every block from the coin's on. -/
structure IncomingSwapCoin.Sweeps (T : TapPrims P) (c : IncomingSwapCoin P) (out : TxOut)
    (fee : Nat) (spk : Bytes) (tx : Transaction) : Prop where
  output : tx.output = [⟨out.value - fee, spk⟩]
  fits : fee ≤ out.value
  valid : ∀ coin block, (spendsContract T c.protocol tx out ∧ mayBeIn tx coin block) ↔
    coin.height ≤ block.height

/-- What a sweep to the target leaves for its fee, where the code builds one: what an exact payment
does not take, or the fee at the coin's rate. -/
def SweepTarget.fee (c : IncomingSwapCoin P) (value : Nat) : SweepTarget → Option Nat
  | .payment amount _ => if amount < value then some (value - amount) else none
  | .wallet _ =>
    (feeAtRateSats (contractSpendVsize c.protocol false) c.sweepRate).filter (· ≤ value)

section Sweeps

variable {T : TapPrims P} {c : IncomingSwapCoin P} {out : TxOut}

theorem IncomingSwapCoin.Claimable.otherPrivkey (h : c.Claimable out) : c.otherPrivkey = none := by
  cases h with
  | legacy _ hother => exact hother
  | taproot _ hother => exact hother

theorem IncomingSwapCoin.Claimable.inputValue (h : c.Claimable out) :
    c.inputValue = some out.value := by
  cases h with
  | legacy hprotocol hother _ _ _ _ hout =>
    simp [IncomingSwapCoin.inputValue, hprotocol, hother, head?_eq_getElem?, hout]
  | taproot hprotocol _ _ _ _ _ _ _ _ _ _ hamount =>
    simp [IncomingSwapCoin.inputValue, hprotocol, hamount]

theorem sweeps_of_witness {inputValue : Nat} {spk : Bytes}
    (hsign : c.signSpendTransactionWithOutputValue T inputValue value spk =
      .ok (withWitness (unsignedSpend 0 0 outpoint value spk) witness))
    (hspends : spendsContract T c.protocol
      (withWitness (unsignedSpend 0 0 outpoint value spk) witness) out) :
    ∃ tx, c.signSpendTransactionWithOutputValue T inputValue value spk = .ok tx ∧
      tx.output = [⟨value, spk⟩] ∧
      ∀ coin block, (spendsContract T c.protocol tx out ∧ mayBeIn tx coin block) ↔
        coin.height ≤ block.height :=
  ⟨_, hsign, rfl, fun _ _ => by rw [mayBeIn_blocksSpend (by decide)]; simp [hspends]⟩

theorem sweeps_value (h : c.Claimable out) (hvalue : value < out.value) (spk : Bytes) :
    ∃ tx, c.signSpendTransactionWithOutputValue T out.value value spk = .ok tx ∧
      tx.output = [⟨value, spk⟩] ∧
      ∀ coin block, (spendsContract T c.protocol tx out ∧ mayBeIn tx coin block) ↔
        coin.height ≤ block.height := by
  cases h with
  | @legacy x script _ _ hprotocol hother hpreimage hx hcoin hscript hout hspk =>
    have hspends : spendsContract T .legacy (withWitness (unsignedSpend 0 0
        ⟨P.txid c.contractTx, 0⟩ value spk) [_, x, script]) out = true :=
      spends_legacySweep hscript hx hspk rfl
    rw [← hprotocol] at hspends
    refine sweeps_of_witness ?_ hspends
    simp [IncomingSwapCoin.signSpendTransactionWithOutputValue, hvalue,
      IncomingSwapCoin.spentOutpoint, IncomingSwapCoin.signLegacySpend, hprotocol, hother,
      hpreimage, hcoin, head?_eq_getElem?, hout, bind_ok_iff, okOr_eq_ok, ensure_eq_ok,
      unsignedSpend]
  | @taproot x hashlockScript timelockScript internalKey outputKey _ hprotocol hother hpreimage
      hx hhashlock hscript htimelock hinternal htaproot hout hspk hamount =>
    obtain ⟨version, path, hcontrol, hversion, hcommits⟩ :=
      T.exists_controlBlock htaproot (.inl rfl)
    have hspends : spendsContract T .taproot (withWitness (unsignedSpend 0 0
        ⟨P.txid c.contractTx, 0⟩ value spk) [_, x, hashlockScript, version :: path]) out = true :=
      spends_taprootSweep hspk (T.length_outputKey htaproot) hversion hcommits hscript
        (by rw [hx]; decide) rfl
    rw [← hprotocol] at hspends
    refine sweeps_of_witness ?_ hspends
    have hvout : c.contractOutputVout = 0 := by
      rw [IncomingSwapCoin.contractOutputVout]
      split_ifs
      · exact findIdx_first hout hamount
      · rfl
    have hspent : (⟨c.fundingAmount, p2tr outputKey⟩ : TxOut) = out := by
      rw [← hamount, ← hspk]
    simp [IncomingSwapCoin.signSpendTransactionWithOutputValue, hvalue,
      IncomingSwapCoin.spentOutpoint, IncomingSwapCoin.signTaprootSpend, hprotocol, hother,
      hpreimage, hhashlock, htimelock, hinternal, htaproot, hcontrol, hvout, hout, hspk, hspent,
      findIdx_first hout hamount, bind_ok_iff, okOr_eq_ok, ensure_eq_ok, unsignedSpend]

theorem sweeps_value_iff (h : c.Claimable out) {spk : Bytes} {fee : Nat} :
    (∃ tx, c.signSpendTransactionWithOutputValue T out.value value spk = .ok tx ∧
      c.Sweeps T out fee spk tx) ↔ value < out.value ∧ value + fee = out.value := by
  constructor
  · rintro ⟨tx, htx, hsweeps⟩
    have hlt : value < out.value := by
      simp only [IncomingSwapCoin.signSpendTransactionWithOutputValue, bind_ok_iff,
        ensure_eq_ok] at htx
      exact htx.choose_spec.1
    obtain ⟨tx', htx', hout, -⟩ := sweeps_value (T := T) h hlt spk
    obtain rfl : tx' = tx := by simpa [htx'] using htx
    have hvalue : value = out.value - fee := by simpa [hout] using hsweeps.output
    have hfits := hsweeps.fits
    omega
  · rintro ⟨hlt, hfee⟩
    obtain ⟨tx, htx, hout, hvalid⟩ := sweeps_value (T := T) h hlt spk
    refine ⟨tx, htx, ?_, by omega, hvalid⟩
    rw [hout, show out.value - fee = value by omega]

/-- **A sweep is the spend it should be**, at the fee its target leaves. -/
theorem sweeps_iff (h : c.Claimable out) {target : SweepTarget} {fee : Nat} :
    (∃ tx, c.sweep T target = .ok tx ∧ c.Sweeps T out fee target.spk tx) ↔
      target.fee c out.value = some fee := by
  cases target with
  | payment amount spk =>
    have hsweep : c.sweep T (.payment amount spk) =
        c.signSpendTransactionWithOutputValue T out.value amount spk := by
      rw [IncomingSwapCoin.sweep, h.inputValue]
      rfl
    rw [hsweep, SweepTarget.spk, sweeps_value_iff h, SweepTarget.fee,
      Option.ite_none_right_eq_some, Option.some.injEq]
    omega
  | wallet spk =>
    have hsweep : ∀ tx, c.sweep T (.wallet spk) = .ok tx ↔
        ∃ priced, feeAtRateSats (contractSpendVsize c.protocol false) c.sweepRate = some priced ∧
          priced ≤ out.value ∧
          c.signSpendTransactionWithOutputValue T out.value (out.value - priced) spk = .ok tx := by
      intro tx
      simp only [IncomingSwapCoin.sweep, h.inputValue, IncomingSwapCoin.signSpendTransaction,
        h.otherPrivkey, Option.isSome_none, bind_ok_iff, okOr_eq_ok, checkedSub_eq_some,
        Option.some.injEq, exists_eq_left']
      constructor
      · rintro ⟨priced, hpriced, value, hvalue, hsign⟩
        obtain rfl : value = out.value - priced := by omega
        exact ⟨priced, hpriced, by omega, hsign⟩
      · rintro ⟨priced, hpriced, hle, hsign⟩
        exact ⟨priced, hpriced, _, by omega, hsign⟩
    have hvsize : 0 < contractSpendVsize c.protocol false := by cases c.protocol <;> decide
    simp only [hsweep, SweepTarget.fee, Option.filter_eq_some_iff, decide_eq_true_eq]
    constructor
    · rintro ⟨tx, ⟨priced, hpriced, hle, hsign⟩, hsweeps⟩
      obtain ⟨hlt, hsum⟩ := (sweeps_value_iff h).mp ⟨tx, hsign, hsweeps⟩
      obtain rfl : priced = fee := by omega
      exact ⟨hpriced, hle⟩
    · rintro ⟨hpriced, hle⟩
      have hpos := feeAtRateSats_pos hvsize hpriced
      obtain ⟨tx, hsign, hsweeps⟩ := (sweeps_value_iff (T := T) h).mpr
        (show out.value - fee < out.value ∧ out.value - fee + fee = out.value by omega)
      exact ⟨tx, ⟨fee, hpriced, hle, hsign⟩, hsweeps⟩

end Sweeps

end OpenSwap
