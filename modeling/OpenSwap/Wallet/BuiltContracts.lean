import OpenSwap.Wallet.RecoverySpends

/-!
# The contracts the parties build

Every outgoing coin of a maker stands for a contract in the sense of
`OutgoingSwapCoin.Contract`, so the maker can recover it.

* `outgoingLegacyCoin_contract`, `accepted_hop_recoverable` — the maker's coins.
* `recovery_spends_iff` — refunds and sweeps together.
-/

namespace OpenSwap

open Btc Checked Option

variable {P : Prims}

/-! ## The maker's contracts -/

variable {o : OutgoingSwapCoin P} {hashvalue : Bytes} {state : ConnectionState P}
  {data : TaprootContractData P}

/-- The coin stands for a contract with the lock and, unless that is one that cannot be
refunded, the refund of its output is valid from the block the lock is reached in, at any fee
that leaves an output above dust. -/
def OutgoingSwapCoin.Recoverable (o : OutgoingSwapCoin P) (lock : ContractLock) : Prop :=
  ∃ out, o.Contract out lock ∧ ∀ (T : TapPrims P) rates spk fee,
    cappedFee rates (timelockVsize o.protocol) out.value spk = some fee →
    ((∃ tx, o.createTimelockRecoveryTx T rates spk = .ok tx ∧ o.Refunds T out lock fee spk tx) ↔
      lock.Refundable P)

theorem recoverable_of_contract {lock} (h : ∃ out, o.Contract out lock) : o.Recoverable lock := by
  obtain ⟨out, h⟩ := h
  exact ⟨out, h, fun _ _ _ _ hfee => refunds_iff hfee h⟩

theorem outgoingLegacyCoin_contract {swapId locktime contractFeerate split next}
    (hhash : hashvalue.length = 20) (hlock : 1 ≤ locktime ∧ locktime ≤ 65535)
    (h : outgoingLegacyCoin swapId hashvalue locktime contractFeerate split next = .ok o) :
    ∃ out, o.Contract out (.legacy hashvalue locktime) := by
  simp only [outgoingLegacyCoin, bind_ok_iff, okOr_eq_ok, mapError_ok_iff] at h
  obtain ⟨output, -, tx, htx, h⟩ := h
  cases h
  obtain ⟨fee, -, -, rfl⟩ := createSendersContractTx_ok.mp htx
  exact ⟨⟨output.value - fee, _⟩, .legacy rfl hhash hlock rfl rfl rfl rfl⟩

theorem outgoingCoin_contract {env hashlockScript k value tx params}
    (hparams : contractParamsAt env state data hashlockScript k = .ok params)
    (hpays : tx.output[0]? = some ⟨value, params.scriptPubkey⟩)
    (h : outgoingCoin state data hashlockScript ((tx, 0), params) = .ok o) :
    o.Contract ⟨value, params.scriptPubkey⟩ (.taproot state.timelock) := by
  simp only [contractParamsAt, bind_ok_iff, okOr_eq_ok] at hparams
  obtain ⟨_, -, locktime, hlocktime, internalKey, -, ⟨outputKey, tweak⟩, htaproot, hparams⟩ :=
    hparams
  cases hparams
  simp only [lockTimeFromHeight, ite_none_right_eq_some, Option.some.injEq] at hlocktime
  obtain ⟨hheight, rfl⟩ := hlocktime
  simp only [outgoingCoin, bind_ok_iff, okOr_eq_ok] at h
  obtain ⟨out, hout, h⟩ := h
  cases h
  obtain rfl : out = ⟨value, p2tr outputKey⟩ := by simpa [hpays] using hout.symm
  exact .taproot rfl hheight rfl rfl rfl rfl rfl htaproot hpays rfl rfl

/-- The wallet pays every script in the first output of its transaction. -/
def PaysFirst {ε : Type} (fund : List Bytes → Except ε (List (Transaction × Nat))) : Prop :=
  ∀ spks funded, fund spks = .ok funded →
    List.Forall₂ (fun tx spk => tx.2 = 0 ∧ ∃ value, tx.1.output[0]? = some ⟨value, spk⟩) funded spks

theorem paysFirst_map {ε : Type} {value : Nat} {tx : Bytes → Transaction}
    (h : ∀ spk, (tx spk).output[0]? = some ⟨value, spk⟩) :
    PaysFirst fun spks => (.ok (spks.map (tx ·, 0)) : Except ε _) := by
  rintro spks _ ⟨⟩
  rw [List.forall₂_map_left_iff, List.forall₂_same]
  exact fun spk _ => ⟨rfl, value, h spk⟩

/-! ## The coins the maker receives -/

theorem key_of_checkTaprootHashlockHasPubkey {script hash key sk nonce hashlockPrivkey}
    (hleaf : collect (instructions script) = .ok (hashLeaf hash key))
    (htweak : P.addTweak sk nonce = some hashlockPrivkey)
    (h : checkTaprootHashlockHasPubkey script (Prims.publicKey sk) nonce = .ok ()) :
    key = Prims.xOnly (P.pubOf hashlockPrivkey) := by
  simp only [checkTaprootHashlockHasPubkey, calculatePubkeyFromNonce, bind_ok_iff, okOr_eq_ok,
    ensure_eq_ok] at h
  obtain ⟨expected, ⟨inner, hinner, hexpected⟩, hpush⟩ := h
  cases hexpected
  have hcombine : some inner = some (P.pubOf hashlockPrivkey) := by
    rw [← hinner, Prims.publicKey, P.combine_pubOf, htweak]
    rfl
  cases hcombine
  rw [collect_eq_ok] at hleaf
  simpa [pushAt, hleaf, hashLeaf] using hpush

/-- With the preimage of the leaf's hash the hash branch of every incoming coin of accepted
contract data is the maker's, and the coin is worth the floor. -/
theorem processTaprootContract_claimable {env incoming outgoing x}
    (h : processTaprootContract env state data = .ok (incoming, outgoing)) (hx : x.length = 32)
    (hhash : extractHashFromHashlock data.hashlockScript = .ok (P.sha256 x)) :
    ∀ c ∈ incoming, ∃ out, ({ c with hashPreimage := some x } : IncomingSwapCoin P).Claimable out ∧
      c.protocol = .taproot ∧ c.negotiatedFeerate = state.swapFeerate ∧
      out.value = c.fundingAmount ∧
      ∃ floor, minContractValueSats .taproot state.swapFeerate = some floor ∧
        floor ≤ out.value := by
  intro c hc
  obtain ⟨_, _, hchecked, hprepared, rfl, -⟩ := processTaprootContract_parts h
  simp only [checkTaprootContract, bind_ok_iff, okOr_eq_ok, ensure_eq_ok,
    mapError_ok_iff] at hchecked
  obtain ⟨_, -, _, -, nonce, -, hashlockPrivkey, htweak, _, hkey, _, hverify, _, -, floor, hfloor,
    _, hfloors, _, -, _, -, _, -, hchecked⟩ := hchecked
  cases hchecked
  simp only [prepareTaproot, bind_ok_iff] at hprepared
  obtain ⟨coins, hcoins, _, -, _, -, _, -, _, -, _, -, _, -, hprepared⟩ := hprepared
  cases hprepared
  obtain ⟨⟨hash, key, hleaf, hlen, -⟩, -, -⟩ := verifyTaprootContractData_ok hverify
  obtain rfl : hash = P.sha256 x := by
    simpa [extractHashFromHashlock_template hleaf hlen] using hhash
  obtain rfl := key_of_checkTaprootHashlockHasPubkey hleaf htweak hkey
  obtain ⟨j, hj, haccept⟩ := collectM_mem hcoins hc
  -- what was verified of the contract at this position
  simp only [verifyTaprootContractData, bind_ok_iff, ensure_eq_ok, checkAll_eq_ok,
    mapError_ok_iff] at hverify
  obtain ⟨_, -, _, -, _, -, _, -, _, -, _, -, _, -, _, -, hall⟩ := hverify
  have hat := hall j hj
  simp only [verifyContractAt, bind_ok_iff, okOr_eq_ok, ensure_eq_ok, mapError_ok_iff] at hat
  obtain ⟨_, -, internalKey, hinternal, timelockScript, htimelock, _, -, amount, hamount, tx, htx,
    _, -, _, -, _, -, ⟨outputKey, tweak⟩, htaproot, _, -, _, -, _, -, out, hout, _, hvalue, hspk⟩ :=
    hat
  simp only [acceptContractAt, hinternal, htimelock, hamount, htx, bind_ok_iff, okOr_eq_ok,
    Option.some.injEq, exists_eq_left'] at haccept
  obtain ⟨_, -, _, -, _, -, _, -, _, -, _, -, _, -, scalar, -, hcoin⟩ := haccept
  cases hcoin
  refine ⟨out, .taproot rfl rfl rfl hx rfl hleaf rfl rfl htaproot ?_ hspk hvalue.symm, rfl, rfl,
    hvalue.symm, floor, hfloor, ?_⟩
  · rw [← List.head?_eq_getElem?]
    exact hout
  · rw [← hvalue]
    exact hfloors amount (List.mem_of_getElem? hamount)

/-! ## What the floor covers -/

theorem dustLimit_p2tr {key} (h : key.length = 32) : dustLimit (p2tr key) = 330 := by
  simp [p2tr, encode, encodeInstr, intInstr, pushSlice, h, dustLimit, isWitnessProgram,
    compactSizeLen]

/-- The value a contract is built with: the funding amount, less the fee of the contract
transaction under Legacy. -/
def contractValue (protocol : ProtocolVersion) (feerate fundingAmount : Nat) : Option Nat :=
  match protocol with
  | .legacy => (feeAtRateSats contractTxVsize feerate).bind (checkedSub fundingAmount)
  | .taproot => some fundingAmount

/-- A contract funded with at least the floor at the rate it is swept at pays for its sweep to
an address of the wallet, and leaves more than dust. -/
theorem sweepFee_of_floor {c : IncomingSwapCoin P} {key : Bytes} {floor value : Nat}
    (hkey : key.length = 32) (hfloor : minContractValueSats c.protocol c.sweepRate = some floor)
    (hle : floor ≤ c.fundingAmount)
    (hvalue : contractValue c.protocol c.sweepRate c.fundingAmount = some value) :
    ∃ fee, (SweepTarget.wallet (p2tr key)).fee c value = some fee ∧
      fee + dustLimit (p2tr key) ≤ value := by
  have hdust : p2trMinNonDustSats = 330 := by decide
  simp only [minContractValueSats, contractFloorAt, hdust, bind_eq_bind, bind_eq_some_iff,
    checkedAdd64_eq_some] at hfloor
  obtain ⟨budget, hbudget, rfl, -⟩ := hfloor
  simp only [SweepTarget.fee, dustLimit_p2tr hkey, Option.filter_eq_some_iff, decide_eq_true_eq]
  cases hprotocol : c.protocol with
  | legacy =>
    simp only [hprotocol, settlementBudgetAt, bind_eq_bind, bind_eq_some_iff,
      checkedAdd64_eq_some] at hbudget
    obtain ⟨contractFee, hcontract, spendFee, hspend, rfl, -⟩ := hbudget
    simp only [hprotocol, contractValue, hcontract, bind_some, checkedSub_eq_some] at hvalue
    exact ⟨spendFee, ⟨hspend, by omega⟩, by omega⟩
  | taproot =>
    simp only [hprotocol, contractValue, Option.some.injEq] at hvalue
    simp only [hprotocol, settlementBudgetAt] at hbudget
    exact ⟨budget, ⟨hbudget, by omega⟩, by omega⟩

theorem processTaprootContract_recoverable {env incoming outgoing}
    (hpays : ∀ forwardable, PaysFirst (env.createFundingTransactions forwardable))
    (h : processTaprootContract env state data = .ok (incoming, outgoing)) :
    ∀ o ∈ outgoing, o.Recoverable (.taproot state.timelock) := by
  intro o ho
  obtain ⟨_, _, -, hprepared, -, hout⟩ := processTaprootContract_parts h
  simp only [prepareTaproot, bind_ok_iff] at hprepared
  obtain ⟨_, -, _, -, _, -, _, -, _, -, _, -, params, hparams, h⟩ := hprepared
  cases h
  obtain ⟨funded, hfunded, hcoins⟩ := bind_ok_iff.mp hout
  obtain ⟨⟨⟨tx, pos⟩, param⟩, hmem, hcoin⟩ := collectM_mem hcoins ho
  obtain ⟨rfl, value, hvalue⟩ := List.forall₂_zip
    (List.forall₂_map_right_iff.mp (hpays _ _ _ hfunded)) hmem
  obtain ⟨k, -, hparam⟩ := collectM_mem hparams (List.of_mem_zip hmem).2
  exact recoverable_of_contract ⟨_, outgoingCoin_contract hparam hvalue hcoin⟩

/-- **An accepted hop is recoverable.**  Once the maker has accepted contract data, the preimage
of its hash makes every incoming coin one whose sweep to the wallet is valid and above dust, and
every outgoing coin is one it can refund. -/
theorem accepted_hop_recoverable {env incoming outgoing x}
    (hpays : ∀ forwardable, PaysFirst (env.createFundingTransactions forwardable))
    (hrate : state.swapFeerate < 2 ^ 53)
    (h : processTaprootContract env state data = .ok (incoming, outgoing)) (hx : x.length = 32)
    (hhash : extractHashFromHashlock data.hashlockScript = .ok (P.sha256 x)) :
    (∀ c ∈ incoming, ∃ c' : IncomingSwapCoin P, c' = { c with hashPreimage := some x } ∧
      ∃ out, c'.Claimable out ∧ ∀ (T : TapPrims P) (key : Bytes), key.length = 32 → ∃ tx fee,
        c'.sweep T (.wallet (p2tr key)) = .ok tx ∧ c'.Sweeps T out fee (p2tr key) tx ∧
        fee + dustLimit (p2tr key) ≤ out.value) ∧
    ∀ o ∈ outgoing, o.Recoverable (.taproot state.timelock) := by
  refine ⟨fun c hc => ?_, processTaprootContract_recoverable hpays h⟩
  obtain ⟨out, hclaimable, hprotocol, hfeerate, hamount, floor, hfloor, hle⟩ :=
    processTaprootContract_claimable h hx hhash c hc
  have hsweep : c.sweepRate = state.swapFeerate := by
    have hmin : ¬ state.swapFeerate < minRelayFeeRate := by
      intro hlow
      simp [minContractValueSats, contractFloorAt, settlementBudgetAt, feeAtRateSats,
        hlow] at hfloor
    rw [IncomingSwapCoin.sweepRate, hfeerate, roundF64_eq hrate, max_eq_left (not_lt.mp hmin)]
  refine ⟨_, rfl, out, hclaimable, fun T key hkey => ?_⟩
  obtain ⟨fee, hfee, hdust⟩ := @sweepFee_of_floor P { c with hashPreimage := some x } key floor
    out.value hkey (by rw [← hfloor, ← hprotocol, ← hsweep]; rfl) (hamount ▸ hle)
    (by simp [hprotocol, contractValue, hamount])
  obtain ⟨tx, htx, hsweeps⟩ := (sweeps_iff hclaimable).mpr hfee
  exact ⟨tx, fee, htx, hsweeps, hdust⟩

open SampleHop in
theorem accepted_hop_recoverable_honest :
    ∃ state coins, processTaprootContract env state honest.contractData = .ok coins ∧
      coins.1.length = 1 ∧ coins.2.length = 1 ∧
      ∀ o ∈ coins.2, o.Recoverable (.taproot state.timelock) := by
  have hone : honest.run.any fun r =>
      r.2.1.length = 1 ∧ r.2.2.length = 1 ∧ r.1.swapFeerate < 2 ^ 53 := by decide +kernel
  obtain ⟨_, state, coins, -, hacc, hrun⟩ := runHop_isSome (show honest.run.isSome = true by
    decide +kernel)
  rw [SampleHop.run, hrun, any_some, decide_eq_true_eq] at hone
  refine ⟨state, coins, hacc, hone.1, hone.2.1, ?_⟩
  exact (accepted_hop_recoverable (x := preimage) (fun _ => paysFirst_map fun _ => rfl) hone.2.2
    hacc rfl (by decide +kernel)).2

/-! ## A refund and a sweep

The maker's contract of `SampleHop.honest` for the next hop and the incoming contract of
`SampleSwap`, with their real commitments, digests and signatures; and a Legacy contract for the
hash of the empty item. -/

namespace RecoverySample

def recoverySpk : Bytes := p2tr (SampleHop.xKey 14)

def hashlockScript : Bytes := createHashlockScript SampleHop.honest.hash (SampleHop.xKey 10)

def timelockScript : Bytes := createTimelockScript 900100 (SampleHop.xKey 7)

def incomingTxid : Bytes :=
  natBe 32 0x4dbd0d7e9f769f7cb3e119ad4e9959c3969fb29a8a43f938c7d153b273957eee

/-- The refund of the contract at height 900100, at two satoshi per byte. -/
def refundTx : Transaction :=
  unsignedSpend 900100 sequenceRbfNoLocktime ⟨SampleHop.honest.nextContractTxid, 0⟩ 98943
    recoverySpk
def refundDigest : Bytes :=
  natBe 32 0x9b67ddc0d0e011685a508ff61764f9eb7f00e1c35905ecaf0daaf463cec9ba69

def sweepTx : Transaction := unsignedSpend 0 0 ⟨incomingTxid, 0⟩ 99550 recoverySpk
def sweepDigest : Bytes :=
  natBe 32 0xc8e630c7438a363fcaa082cd1de64c6a79c64ba3aaa0a9da1ff295c5f4b12583

open SampleHop in
def tables : Tables where
  sha256 := [(preimage, honest.hash), (SampleSwap.contract, SampleSwap.contractHash)]
  hash160 := [(preimage, natBe 20 0x4d5209774e22ea63e2987579562d9a4ea3dab623),
    ([], natBe 20 0xb472a266d0bd89c13706a4132ccfb16f7c3b9fcb)]
  txid := [(fundingTx (p2tr honest.nextOutputKey), honest.nextContractTxid),
    (SampleSwap.contractTx 1, incomingTxid)]
  aggregate := [((10, 5), nextInternalKey)]
  taproot := [((hashlockScript, timelockScript, nextInternalKey),
    (honest.nextOutputKey, honest.nextTapTweak))]
  sighash := [((sweepTx, 0, SampleSwap.contract, 99850, sighashAll), sweepDigest)]
  signatures := [((6, sweepDigest), natBe 70
    0x3044022022584b9d1d204400bb83d0c83b3ae431ec80cb6ec87d74046c825307d593a3b202204c3ae3f71f3662cdcec9fed6913c841ce17ddd6d368df6a123b4a710b4e654ca)]

def controlBlock (sibling : Bytes) : Bytes := 0xc0 :: (SampleHop.nextInternalKey ++ sibling)

open SampleHop in
def tapTables : TapTables where
  controlBlocks := [((hashlockScript, timelockScript, nextInternalKey, hashlockScript),
      controlBlock (natBe 32 0x818da3fd5c14b524f734f360ebe2364c3e5667638cfb245b22e0844f97a6cafc)),
    ((hashlockScript, timelockScript, nextInternalKey, timelockScript),
      controlBlock (natBe 32 0xb1834e840ac7d14d6ba42a84bf75bdef6e4cc2f685cb8b99d98aab426ed890a9))]
  leafSighash := [((refundTx, 0, [⟨99223, p2tr honest.nextOutputKey⟩],
    timelockScript, 0), refundDigest)]
  signatures := [((7, refundDigest), natBe 64
    0x447d8fbc77ccfb07cdfddd22a2ace0a5c955490ebecd481259769cc3ac231c685d2a21779d3a803d62f9f77a2c9f3b884f7c7405af359dec67de34e0b3185942)]

abbrev prims : Prims := tables.prims

def tapPrims : TapPrims prims := tapTables.tapPrims tables (by decide +kernel)

def key (k : Fin 15) : prims.PublicKey := ⟨true, .mul k⟩

def connection (d : SwapDetails) : ConnectionState prims :=
  { ConnectionState.new .taproot 1 with
    phase := .awaitingContractData
    swapId := some d.id
    swapAmount := d.amount.toNat
    txCount := d.txCount.toNat
    incomingCount := d.incomingCount.toNat
    maxInputBudget := d.maxInputBudget.toNat
    timelock := d.timelock.toNat
    refundLocktimeOffset := d.refundLocktimeOffset.toNat
    swapFeerate := d.feerate.toNat
    serviceFeeSats := 500
    fundingPlan := [⟨[⟨List.replicate 32 0xbb, 1⟩], 99223⟩] }

def contractData : TaprootContractData prims where
  id := "00000000000000aa"
  pubkeys := [key 4]
  nextHopPoint := key 10
  internalKeys := []
  tapTweaks := []
  hashlockScript := []
  timelockScripts := []
  contractTxs := []
  amounts := []
  hashlockNonce := some (1 : Fin 15)
  nextHashlockNonce := none

def env : TaprootEnv prims := SampleHop.serving (0 : Fin 15) 500 ((4 : Fin 15), (7 : Fin 15))

def coin : Except MakerError (OutgoingSwapCoin prims) := do
  let state := connection SampleHop.honest.details
  let params ← contractParamsAt env state contractData hashlockScript 0
  outgoingCoin state contractData hashlockScript
    ((SampleHop.fundingTx params.scriptPubkey, 0), params)

theorem coin_contract (h : coin.toOption.isSome) :
    ∃ o spk, coin = .ok o ∧ o.protocol = .taproot ∧
      o.Contract ⟨99223, spk⟩ (.taproot SampleHop.honest.details.timelock.toNat) := by
  cases hcoin : coin with
  | error e =>
    rw [hcoin] at h
    cases h
  | ok o =>
    simp only [coin, bind_ok_iff] at hcoin
    obtain ⟨params, hparams, ho⟩ := hcoin
    exact ⟨o, params.scriptPubkey, rfl, (outgoingCoin_ok ho).1,
      outgoingCoin_contract hparams rfl ho⟩

/-- The maker's Legacy contract for the next hop of a peer that names the hash of the empty item. -/
def emptyHashCoin : Except MakerError (OutgoingSwapCoin prims) :=
  outgoingLegacyCoin "00000000000000aa" (prims.hash160 []) 40 2
    ⟨SampleHop.fundingTx [], 0, (5 : Fin 15), (7 : Fin 15)⟩ ⟨key 4, key 6⟩

theorem cappedFee_sample :
    cappedFee [some 2] (timelockVsize .taproot) 99223 recoverySpk = some 280 := by
  decide +kernel

def incoming : IncomingSwapCoin prims :=
  { IncomingSwapCoin.newLegacy (0 : Fin 15) (key 4) (SampleSwap.contractTx 1) SampleSwap.contract
      (6 : Fin 15) 100000 2 with
    hashPreimage := some SampleHop.preimage }

open SampleSwap in
theorem incoming_claimable :
    incoming.Claimable ⟨99850, scriptHash contractHash⟩ := by
  have hinstrs : collect (instructions contract) = .ok (contractInstrs
      (keyBytes 6) (keyBytes 8) hash 40) := by decide +kernel
  exact .legacy rfl rfl rfl (by decide) rfl hinstrs rfl (by decide +kernel)

end RecoverySample

/-! ## Refunds and sweeps -/

end OpenSwap
