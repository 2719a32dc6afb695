import OpenSwap.Base.Decimal
import OpenSwap.Btc.Interp
import OpenSwap.Wallet.SpendCoins
import OpenSwap.WatchTower.MakerAddress

/-!
# Fidelity announcements

The transaction of a fidelity bond announces its maker: an `OP_RETURN` output carries the label
of the maker's address and the height the bond expires at.  Every watcher reads the
announcements of confirmed transactions.

* `announcement_parsed_iff` — the texts that are read are the texts of announcements.
* `bond_announced` — a bond the wallet makes is read as the maker's announcement exactly if
  it is large enough and confirms in time.
-/

namespace OpenSwap

open Btc Checked List

def minFidelityTimelock : Nat := 12960

def maxFidelityTimelock : Nat := 25920

def minFidelityBondAmountSats : Nat := 10000

def maxFidelityAnnouncementBytes : Nat := 67

structure FidelityAnnouncement where
  onion : Bytes
  expiresAtHeight : Nat

/-! ## The maker -/

/-- `#` and the digits of a height. -/
def heightText (height : Nat) : Bytes := 35 :: (Decimal.text height).map UInt8.ofNat

/-- `strip_suffix(".onion").unwrap_or(onion)` -/
def stripOnion (onion : Bytes) : Bytes :=
  if onionSuffix <:+ onion then onion.take (onion.length - onionSuffix.length) else onion

def encodeFidelityOpReturn (onion : Bytes) (locktime : Nat) : Except WalletError Bytes := do
  ensure (locktime < lockTimeThreshold) (.general "fidelity locktime must be height-based")
  .ok (stripOnion onion ++ heightText locktime)

/-- `create_fidelity` up to the transaction it sends. -/
def createFidelity (env : SpendEnv) (fees : FeeRate) (coins : List Coin) (bond : TxOut)
    (locktime : Nat) (makerAddress : Option Bytes) (changeAddressType : AddressType) :
    Except WalletError Transaction :=
  match makerAddress with
  | none => spendCoinsTo env fees coins (.multi [bond] none changeAddressType)
  | some onion => do
    let data ← encodeFidelityOpReturn onion locktime
    spendCoinsTo env fees coins (.multi [bond] (some data) changeAddressType)

/-! ## The watcher -/

def extractOpReturnData : Bytes → Option Bytes
  | code :: len :: data =>
    if code = 0x6a ∧ 1 ≤ len.toNat ∧ len.toNat ≤ maxFidelityAnnouncementBytes ∧
      data.length = len.toNat then some data else none
  | _ => none

section

variable (sha3 : Bytes → List.Vector UInt8 32)

def normalizeOnionAddress (s : Bytes) : Option Bytes :=
  if onionSuffix <:+ s then none
  else if isValidMakerAddress sha3 (s ++ onionSuffix) then some (s ++ onionSuffix) else none

def parseFidelityOpReturn (data : Bytes) : Option FidelityAnnouncement := do
  guard (ByteArray.IsValidUTF8 data.toByteArray ∧ 35 ∈ data)
  let endpoint := data.takeWhile (· ≠ 35)
  let locktime := (data.dropWhile (· ≠ 35)).tail.map UInt8.toNat
  guard (¬ (1 < locktime.length ∧ locktime.head? = some 48))
  let expiresAtHeight ← Decimal.parse (2 ^ 32) locktime
  let onion ← normalizeOnionAddress sha3 endpoint
  some ⟨onion, expiresAtHeight⟩

def isP2wsh (script : Bytes) : Bool := script.length = 34 && script.take 2 = [0, 32]

def processFidelity (tx : Transaction) (confirmationHeight : Nat) :
    Option FidelityAnnouncement := do
  guard (confirmationHeight < 2 ^ 32)
  guard (tx.lockTime ≠ 0 ∧ tx.lockTime < lockTimeThreshold)
  guard ((∃ input ∈ tx.input, input.sequence ≠ sequenceFinal) ∧
    2 ≤ tx.output.length ∧ tx.output.length ≤ 3)
  let bond ← tx.output[0]?
  guard (isP2wsh bond.scriptPubkey ∧ minFidelityBondAmountSats ≤ bond.value)
  let announcementOutput ← tx.output[1]?
  guard (announcementOutput.value = 0)
  let data ← extractOpReturnData announcementOutput.scriptPubkey
  let announcement ← parseFidelityOpReturn sha3 data
  let relativeTimelock ← checkedSub announcement.expiresAtHeight confirmationHeight
  guard (minFidelityTimelock ≤ relativeTimelock ∧ relativeTimelock ≤ maxFidelityTimelock)
  some announcement

end

/-! ## Texts -/

variable {sha3 : Bytes → List.Vector UInt8 32} {data label : Bytes} {height : Nat}

theorem isValidUTF8_of_ascii (h : ∀ b ∈ data, b.toNat < 128) :
    ByteArray.IsValidUTF8 data.toByteArray := by
  refine ⟨data.map fun b => Char.ofNat b.toNat, congrArg _ ?_⟩
  rw [flatMap_map]
  calc data = data.flatMap fun b => [b] := by simp
    _ = data.flatMap fun b => String.utf8EncodeChar (Char.ofNat b.toNat) := by
      apply flatMap_congr
      intro b hb
      have hlt := h b hb
      have hvalid : b.toNat.isValidChar := by unfold Nat.isValidChar; omega
      have hval : (Char.ofNat b.toNat).val.toNat = b.toNat := by
        simp [hvalid]
      simp [String.utf8EncodeChar, hval, show b.toNat ≤ 127 by omega]

theorem mem_base32 {b} (h : b ∈ base32 data) : b.toNat < 128 ∧ b ≠ 35 ∧ b ≠ 46 := by
  obtain ⟨digit, hdigit, rfl⟩ := mem_map.mp h
  have hlt := Nat.lt_of_mem_digitsAppend (by norm_num) _ digit (mem_reverse.mp hdigit)
  have hchar : ∀ digit < 32, (base32Char digit).toNat < 128 ∧ base32Char digit ≠ 35 ∧
      base32Char digit ≠ 46 := by decide
  exact hchar digit hlt

theorem toNat_heightText : (heightText height).tail.map UInt8.toNat = Decimal.text height := by
  rw [heightText, tail_cons, map_map]
  calc (Decimal.text height).map (UInt8.toNat ∘ UInt8.ofNat) = (Decimal.text height).map id :=
        map_congr_left fun c hc => by
          have hdigit := Decimal.isDigit_of_mem_text hc
          simp only [Decimal.isDigit, Bool.and_eq_true, decide_eq_true_eq] at hdigit
          simp only [Function.comp_apply, UInt8.toNat_ofNat', id]
          omega
    _ = Decimal.text height := map_id _

theorem heightText_inj {text : Bytes} (h : text.map UInt8.toNat = Decimal.text height) :
    35 :: text = heightText height := by
  rw [← toNat_heightText] at h
  rw [map_injective_iff.mpr (fun _ _ => UInt8.toNat_inj.mp) h]
  rfl

theorem ascii_heightText {b} (h : b ∈ heightText height) : b.toNat < 128 := by
  rcases mem_cons.mp h with rfl | h
  · decide
  · have hmem : b.toNat ∈ Decimal.text height := by
      rw [← toNat_heightText]
      exact mem_map_of_mem h
    have hdigit := Decimal.isDigit_of_mem_text hmem
    simp only [Decimal.isDigit, Bool.and_eq_true, decide_eq_true_eq] at hdigit
    omega

@[simp] theorem stripOnion_append : stripOnion (label ++ onionSuffix) = label := by
  simp [stripOnion]

theorem normalizeOnionAddress_eq_some {onion} : normalizeOnionAddress sha3 label = some onion ↔
    isValidMakerAddress sha3 onion ∧ label = stripOnion onion := by
  simp only [normalizeOnionAddress, Option.ite_none_left_eq_some, Option.ite_none_right_eq_some,
    Option.some.injEq]
  constructor
  · rintro ⟨-, hvalid, rfl⟩
    exact ⟨hvalid, stripOnion_append.symm⟩
  · rintro ⟨hvalid, rfl⟩
    obtain ⟨key, rfl⟩ := isValidMakerAddress_iff.mp hvalid
    rw [stripOnion_append]
    refine ⟨fun hsuffix => ?_, hvalid, rfl⟩
    exact (mem_base32 (hsuffix.subset (a := 46) (by decide))).2.2 rfl

/-- The text of an announcement. -/
def FidelityAnnouncement.text (a : FidelityAnnouncement) : Bytes :=
  stripOnion a.onion ++ heightText a.expiresAtHeight

theorem split_at_hash {rest : Bytes} (h : 35 ∉ label) :
    (label ++ 35 :: rest).takeWhile (· ≠ 35) = label ∧
      ((label ++ 35 :: rest).dropWhile (· ≠ 35)).tail = rest := by
  have hlabel : ∀ b ∈ label, decide (b ≠ 35) := by
    intro b hb
    simpa using ne_of_mem_of_not_mem hb h
  rw [takeWhile_append_of_pos hlabel, dropWhile_append_of_pos hlabel]
  simp

theorem parseFidelityOpReturn_eq_some {a} : parseFidelityOpReturn sha3 data = some a ↔
    isValidMakerAddress sha3 a.onion ∧ a.expiresAtHeight < 2 ^ 32 ∧ data = a.text := by
  obtain ⟨onion, height⟩ := a
  simp only [parseFidelityOpReturn, Option.bind_eq_bind, Option.bind_eq_some_iff,
    Option.guard_eq_some', normalizeOnionAddress_eq_some]
  constructor
  · rintro ⟨-, ⟨-, hmem⟩, -, hzero, _, hparse, _, ⟨hvalid, hlabel⟩, heq⟩
    cases heq
    obtain ⟨label, rest, rfl, hnot⟩ := eq_append_cons_of_mem hmem
    obtain ⟨htake, hdrop⟩ := @split_at_hash label rest hnot
    rw [htake] at hlabel
    rw [hdrop] at hzero hparse
    have halone : (rest.map UInt8.toNat).head? = some 48 → rest.map UInt8.toNat = [48] := by
      rcases rest with _ | ⟨c, _ | ⟨d, rest⟩⟩ <;> simp_all
    obtain ⟨hlt, htext⟩ := (Decimal.parse_eq_some halone).mp hparse
    refine ⟨hvalid, hlt, ?_⟩
    rw [FidelityAnnouncement.text, ← hlabel, ← heightText_inj htext]
  · rintro ⟨hvalid, hlt, rfl⟩
    obtain ⟨key, rfl⟩ := isValidMakerAddress_iff.mp hvalid
    set label := base32 (onionPayload sha3 key)
    have htext : FidelityAnnouncement.text ⟨label ++ onionSuffix, height⟩ =
        label ++ 35 :: (heightText height).tail := by
      rw [FidelityAnnouncement.text, stripOnion_append]
      rfl
    have hascii : ∀ b ∈ label ++ heightText height, b.toNat < 128 := by
      rw [forall_mem_append]
      exact ⟨fun b hb => (mem_base32 hb).1, fun b hb => ascii_heightText hb⟩
    obtain ⟨htake, hdrop⟩ := @split_at_hash label (heightText height).tail fun h =>
      (mem_base32 h).2.1 rfl
    rw [htext, htake, hdrop, toNat_heightText]
    refine ⟨(), ⟨isValidUTF8_of_ascii hascii, by simp⟩, (), ?_, height,
      (Decimal.parse_eq_some Decimal.text_of_head).mpr ⟨hlt, rfl⟩, _,
      ⟨hvalid, stripOnion_append.symm⟩, rfl⟩
    rintro ⟨hlong, hhead⟩
    simp [Decimal.text_of_head hhead] at hlong

theorem extractOpReturnData_eq_some {script : Bytes} : extractOpReturnData script = some data ↔
    1 ≤ data.length ∧ data.length ≤ maxFidelityAnnouncementBytes ∧
      script = opReturnScript data := by
  have hscript (h : data.length ≤ maxFidelityAnnouncementBytes) :
      opReturnScript data = 0x6a :: UInt8.ofNat data.length :: data := by
    rw [opReturnScript, pushSlice, if_pos (h.trans (by decide))]
  constructor
  · intro h
    unfold extractOpReturnData at h
    split at h
    · simp only [Option.ite_none_right_eq_some, Option.some.injEq] at h
      obtain ⟨⟨rfl, hpos, hmax, hlen⟩, rfl⟩ := h
      rw [← hlen] at hpos hmax
      exact ⟨hpos, hmax, by rw [hscript hmax, hlen, UInt8.ofNat_toNat]⟩
    · cases h
  · rintro ⟨hpos, hmax, rfl⟩
    have hlen : (UInt8.ofNat data.length).toNat = data.length := by
      rw [UInt8.toNat_ofNat', Nat.mod_eq_of_lt (hmax.trans_lt (by decide))]
    rw [hscript hmax, extractOpReturnData, if_pos ⟨rfl, by omega, by omega, by omega⟩]

theorem length_text {a : FidelityAnnouncement} (hvalid : isValidMakerAddress sha3 a.onion)
    (hlt : a.expiresAtHeight < 2 ^ 32) :
    1 ≤ a.text.length ∧ a.text.length ≤ maxFidelityAnnouncementBytes := by
  obtain ⟨key, honion⟩ := isValidMakerAddress_iff.mp hvalid
  have hdigits := @Decimal.length_text_le a.expiresAtHeight 10 (by norm_num) (by omega)
  have hlabel := length_base32 ((@checked_iff _ sha3).mpr ⟨key, rfl⟩).1
  simp only [FidelityAnnouncement.text, honion, stripOnion_append, heightText, length_append,
    length_cons, length_map, hlabel, maxFidelityAnnouncementBytes]
  omega

/-- **The texts of announcements.**  What is read are the texts of the announcements of valid
addresses; and the text of a bond the wallet makes fits its output and is read back. -/
theorem announcement_parsed_iff (sha3 : Bytes → List.Vector UInt8 32) :
    (∀ data a, parseFidelityOpReturn sha3 data = some a ↔
      isValidMakerAddress sha3 a.onion ∧ a.expiresAtHeight < 2 ^ 32 ∧ data = a.text) ∧
    ∀ onion locktime, isValidMakerAddress sha3 onion → locktime < lockTimeThreshold →
      ∃ data, encodeFidelityOpReturn onion locktime = .ok data ∧
        extractOpReturnData (opReturnScript data) = some data ∧
        parseFidelityOpReturn sha3 data = some ⟨onion, locktime⟩ := by
  refine ⟨fun _ _ => parseFidelityOpReturn_eq_some, fun onion locktime hvalid hlt => ?_⟩
  have hlt' : locktime < 2 ^ 32 := hlt.trans (by decide)
  obtain ⟨hpos, hmax⟩ := @length_text sha3 ⟨onion, locktime⟩ hvalid hlt'
  refine ⟨FidelityAnnouncement.text ⟨onion, locktime⟩, ?_,
    extractOpReturnData_eq_some.mpr ⟨hpos, hmax, rfl⟩,
    parseFidelityOpReturn_eq_some.mpr ⟨hvalid, hlt', rfl⟩⟩
  simp [encodeFidelityOpReturn, bind_ok_iff, hlt, FidelityAnnouncement.text]

/-! ## Bonds -/

theorem processFidelity_eq_some {tx : Transaction} {a} :
    processFidelity sha3 tx height = some a ↔
      height < 2 ^ 32 ∧ (tx.lockTime ≠ 0 ∧ tx.lockTime < lockTimeThreshold) ∧
      (∃ input ∈ tx.input, input.sequence ≠ sequenceFinal) ∧
      (isValidMakerAddress sha3 a.onion ∧ a.expiresAtHeight < 2 ^ 32) ∧
      (height + minFidelityTimelock ≤ a.expiresAtHeight ∧
        a.expiresAtHeight ≤ height + maxFidelityTimelock) ∧
      ∃ bond rest, tx.output = bond :: ⟨0, opReturnScript a.text⟩ :: rest ∧ rest.length ≤ 1 ∧
        isP2wsh bond.scriptPubkey ∧ minFidelityBondAmountSats ≤ bond.value := by
  simp only [processFidelity, Option.bind_eq_bind, Option.bind_eq_some_iff, Option.guard_eq_some',
    extractOpReturnData_eq_some, parseFidelityOpReturn_eq_some, checkedSub_eq_some]
  constructor
  · rintro ⟨-, hheight, -, hlock, -, ⟨hinput, hcount⟩, bond, hbond, -, hbondOk, out, hout, -, hzero,
      data, ⟨-, -, hscript⟩, a', ⟨hvalid, hlt, rfl⟩, left, hleft, -, hrange, heq⟩
    cases heq
    rcases houtput : tx.output with _ | ⟨b, _ | ⟨o, rest⟩⟩
    · simp [houtput] at hcount
    · simp [houtput] at hcount
    · obtain ⟨value, script⟩ := out
      simp only [houtput, getElem?_cons_zero, getElem?_cons_succ, Option.some.injEq] at hbond hout
      simp only [houtput, length_cons] at hcount
      cases hbond
      cases hout
      cases hzero
      cases hscript
      exact ⟨hheight, hlock, hinput, ⟨hvalid, hlt⟩, by omega, _, rest, rfl, by omega, hbondOk⟩
  · rintro ⟨hheight, hlock, hinput, ⟨hvalid, hlt⟩, hrange, bond, rest, houtput, hrest, hbondOk⟩
    obtain ⟨hpos, hmax⟩ := length_text hvalid hlt
    refine ⟨(), hheight, (), hlock, (), ⟨hinput, by simp [houtput]; omega⟩, bond, by simp [houtput],
      (), hbondOk, _, by rw [houtput]; rfl, (), rfl, _, ⟨hpos, hmax, rfl⟩, a, ⟨hvalid, hlt, rfl⟩,
      a.expiresAtHeight - height, by omega, (), by omega, rfl⟩

variable {env : SpendEnv} {fees : FeeRate} {coins : List Coin} {bond : TxOut} {locktime : Nat}
  {onion : Bytes} {changeType : AddressType} {tx tx' : Transaction}

theorem addPaymentOutputs_ok {totalInput witnessSize outputs opReturnData}
    (h : addPaymentOutputs env fees tx totalInput witnessSize outputs opReturnData changeType =
      .ok tx') :
    tx'.lockTime = tx.lockTime ∧ tx'.input = tx.input ∧ ∃ change : List TxOut, change.length ≤ 1 ∧
      tx'.output = outputs ++ opReturnData.toList.map (⟨0, opReturnScript ·⟩) ++ change := by
  simp only [addPaymentOutputs, bind_ok_iff, Except.ok.injEq] at h
  obtain ⟨-, -, -, -, script, -, -, -, remaining, -, rfl⟩ := h
  split
  · exact ⟨rfl, rfl, [⟨remaining, script⟩], by simp, rfl⟩
  · exact ⟨rfl, rfl, [], by simp, by simp⟩

theorem createFidelity_ok (hsigns : env.Signs)
    (hplain : ∀ coin ∈ coins, coin.spendInfo.isSeedCoin || coin.spendInfo.isSweptCoin)
    (h : createFidelity env fees coins bond locktime (some onion) changeType = .ok tx) :
    env.lockTime = .ok tx.lockTime ∧ tx.input.map (·.sequence) = coins.map (fun _ => 0) ∧
      locktime < lockTimeThreshold ∧ ∃ change : List TxOut, change.length ≤ 1 ∧ tx.output =
        bond :: ⟨0, opReturnScript (FidelityAnnouncement.text ⟨onion, locktime⟩)⟩ :: change := by
  simp only [createFidelity, encodeFidelityOpReturn, spendCoinsTo, addOutputs,
    collectM_plain_ok hplain, bind_ok_iff, ensure_eq_ok, Except.ok.injEq] at h
  obtain ⟨_, ⟨-, hlt, rfl⟩, lockTime, hlock, _, rfl, _, -, -, -, paid, hpaid, signed, hsign, -, -,
    rfl⟩ := h
  obtain ⟨hlock', hinput, change, hchange, houtput⟩ := addPaymentOutputs_ok hpaid
  have hstrip := hsigns _ _ _ hsign
  have hlockTime : signed.stripWitness.lockTime = paid.stripWitness.lockTime := congrArg _ hstrip
  have hsequence := congrArg (fun tx : Transaction => tx.input.map (·.sequence)) hstrip
  simp only [Transaction.stripWitness, map_map, hinput] at hsequence
  refine ⟨?_, hsequence, hlt, change, hchange, (eq_of_stripWitness_eq hstrip).2.trans houtput⟩
  exact hlock.trans (congrArg _ (hlockTime.trans hlock').symm)

/-- **A bond is announced**: the transaction the wallet makes for a bond is read as the
announcement of its maker, at the height it confirms, exactly if the bond is large enough and
the height leaves the lock within its bounds. -/
theorem bond_announced (sha3 : Bytes → List.Vector UInt8 32) (hsigns : env.Signs)
    (hlock : ∀ height, env.lockTime = .ok height → 0 < height ∧ height < lockTimeThreshold)
    (hplain : ∀ coin ∈ coins, coin.spendInfo.isSeedCoin || coin.spendInfo.isSweptCoin)
    (hcoins : coins ≠ []) (hbond : isP2wsh bond.scriptPubkey)
    (hvalid : isValidMakerAddress sha3 onion)
    (h : createFidelity env fees coins bond locktime (some onion) changeType = .ok tx)
    (height : Nat) (a : FidelityAnnouncement) :
    processFidelity sha3 tx height = some a ↔ a = ⟨onion, locktime⟩ ∧
      minFidelityBondAmountSats ≤ bond.value ∧ height + minFidelityTimelock ≤ locktime ∧
      locktime ≤ height + maxFidelityTimelock := by
  obtain ⟨hheight, hsequence, hlt, change, hchange, houtput⟩ := createFidelity_ok hsigns hplain h
  have hlt' : locktime < 2 ^ 32 := hlt.trans (by decide)
  have hread {a} (hvalid : isValidMakerAddress sha3 a.onion) (hlt : a.expiresAtHeight < 2 ^ 32) :
      (extractOpReturnData (opReturnScript a.text)).bind (parseFidelityOpReturn sha3) = some a := by
    obtain ⟨hpos, hmax⟩ := length_text hvalid hlt
    rw [extractOpReturnData_eq_some.mpr ⟨hpos, hmax, rfl⟩]
    exact parseFidelityOpReturn_eq_some.mpr ⟨hvalid, hlt, rfl⟩
  rw [processFidelity_eq_some, houtput]
  constructor
  · rintro ⟨-, -, -, ⟨hvalid', hlt''⟩, hrange, _, _, heq, -, -, hvalue⟩
    obtain ⟨rfl, heq, -⟩ : _ ∧ _ ∧ _ := by simpa using heq
    have hsame := hread hvalid' hlt''
    rw [← heq, @hread ⟨onion, locktime⟩ hvalid hlt'] at hsame
    obtain rfl := Option.some.inj hsame
    exact ⟨rfl, hvalue, hrange⟩
  · rintro ⟨rfl, hvalue, hrange⟩
    have hopen : ∃ input ∈ tx.input, input.sequence ≠ sequenceFinal := by
      obtain ⟨coin, rest, rfl⟩ := exists_cons_of_ne_nil hcoins
      have hfirst : 0 ∈ tx.input.map (·.sequence) := by rw [hsequence]; exact mem_cons_self
      obtain ⟨input, hmem, hzero⟩ := mem_map.mp hfirst
      exact ⟨input, hmem, by rw [hzero]; decide⟩
    have := hlock _ hheight
    exact ⟨by omega, by omega, hopen, ⟨hvalid, hlt'⟩, hrange, bond, change,
      rfl, hchange, hbond, hvalue⟩

/-- A wallet that signs with empty witnesses, at height 100. -/
def bondWallet : SpendEnv where
  lockTime := .ok 100
  fidelityBond _ := .error (.general "no bond")
  findOutgoingSwapcoin _ := none
  findIncomingSwapcoin _ := none
  nextInternalScript _ := .ok (0 :: 20 :: replicate 20 7)
  sign tx _ := .ok tx

/-- A bond of 20000 sats from one coin, seen one block later. -/
theorem bond_announced_sample :
    ∃ (sha3 : Bytes → List.Vector UInt8 32) (coin : Coin) (onion : Bytes) (tx : Transaction),
      createFidelity bondWallet (.whole 1) [coin] ⟨20000, 0 :: 32 :: replicate 32 5⟩ 15000
        (some onion) .p2wpkh = .ok tx ∧
      processFidelity sha3 tx 101 = some ⟨onion, 15000⟩ := by
  let sha3 : Bytes → List.Vector UInt8 32 := fun _ => .replicate 32 0
  let onion : Bytes := replicate 55 97 ++ 100 :: onionSuffix
  let coin : Coin := ⟨⟨[1], 0⟩, ⟨none, [], 50000⟩, .seedCoin .p2wpkh⟩
  obtain ⟨tx, h, -⟩ : ∃ tx, createFidelity bondWallet (.whole 1) [coin]
      ⟨20000, 0 :: 32 :: replicate 32 5⟩ 15000 (some onion) .p2wpkh = .ok tx ∧
      tx.output.length = 3 := exists_ok_of_any (by decide +kernel)
  refine ⟨sha3, coin, onion, tx, h, ?_⟩
  refine (bond_announced sha3 ?_ ?_ ?_ (by simp) (by decide) (by decide +kernel) h 101 _).mpr
    ⟨rfl, by decide, by decide, by decide⟩
  · rintro tx _ _ ⟨⟩
    rfl
  · rintro _ ⟨⟩
    decide
  · intro c hc
    cases mem_singleton.mp hc
    rfl

end OpenSwap
