import OpenSwap.Wallet.SpendCoins

/-!
# Selecting coins

`coinSelect` picks the coins of a payment: the coins the user forces, then the coins of
reused addresses, and only then what a selection library picks from the rest.

* The library, the text of a script and the order of a hash map are parameters
  (`SelectEnv`).
* `firstOffer` — the selection the pools offer first, without the loops.
* `coinSelect_eq_ok` — that selection is the result.
* `accepted_selection_builds_iff` — an accepted selection can be built exactly if it also
  pays for change; selection prices the transaction without it.
* `accepted_selection_refused` — a coin worth the amount and the fee without change.
-/

namespace OpenSwap

open Btc Checked List

/-! ## The selection library -/

structure OutputGroup where
  value : Nat
  weight : Nat
  inputCount : Nat
deriving DecidableEq

structure CoinSelectionOpt where
  targetValue : Nat
  targetFeerate : ℚ
  longTermFeerate : ℚ
  minAbsoluteFee : Nat
  baseWeight : Nat
  changeWeight : Nat
  changeCost : Nat
  minChangeValue : Nat

structure SelectEnv where
  calculateFee : Nat → ℚ → Nat
  /-- the inputs of the first solution, as positions of groups -/
  selectCoin : List OutputGroup → CoinSelectionOpt → Except SelectionError (List Nat)
  scriptText : Bytes → String
  hashOrder : List (List Coin) → List (List Coin)
  hashOrder_perm : ∀ groups, (hashOrder groups).Perm groups

/-! ## Weights -/

/-- Version, lock time, both counts, marker and flag. -/
def baseTxnOnlyWeight : Nat := 42

def inputBaseWeight : Nat := (32 + 4 + 4 + 1) * 4

def AddressType.scriptPubkeySize : AddressType → Nat
  | .p2wpkh => 22
  | .p2tr => 34

def outputWeight (addressType : AddressType) : Nat := (8 + 1 + addressType.scriptPubkeySize) * 4

def inputWeight (coin : Coin) : Nat := inputBaseWeight + coin.spendInfo.estimateWitnessSize

def longTermFeerate : ℚ := 10

def totalSats (coins : List Coin) : Nat := (coins.map (·.entry.amount)).foldl wrapAdd64 0

def totalWeight (coins : List Coin) : Nat := (coins.map inputWeight).sum

/-! ## One pool -/

structure SelectAsk where
  target : Nat
  feerate : ℚ
  outputType : AddressType

section Pool

variable (env : SelectEnv) (ask : SelectAsk)

def txWeight (selectedWeight : Nat) : Nat :=
  baseTxnOnlyWeight + selectedWeight + outputWeight ask.outputType

def requiredTotal (selectedWeight : Nat) : Nat :=
  wrapAdd64 ask.target (env.calculateFee (txWeight ask selectedWeight) (ask.feerate / 4))

def costOfChange : Nat :=
  wrapAdd64 (env.calculateFee ((outputWeight .p2tr + 3) / 4) ask.feerate)
    (env.calculateFee ((inputBaseWeight + 66 + 3) / 4) longTermFeerate)

def addressKey (coin : Coin) : String :=
  coin.entry.address.getD ("script_" ++ env.scriptText coin.entry.scriptPubKey)

def addressGroups (coins : List Coin) : List (List Coin) :=
  ((coins.map (addressKey env)).dedup).map fun key =>
    coins.filter fun coin => addressKey env coin = key

def sortGroups (groups : List (List Coin)) : List (List Coin) :=
  groups.insertionSort fun a b => totalSats a ≤ totalSats b

structure Tally where
  coins : List Coin
  total : Nat
  weight : Nat

def Tally.add (tally : Tally) (group : List Coin) : Tally where
  coins := tally.coins ++ group
  total := wrapAdd64 tally.total (totalSats group)
  weight := tally.weight + totalWeight group

def Tally.of (coins : List Coin) : Tally := ⟨coins, totalSats coins, totalWeight coins⟩

/-- Add groups until the selection covers the target: the selection, or, if it never does,
everything that was added. -/
def addGroups (required : Nat → Nat) : Tally → List (List Coin) → Except Tally (List Coin)
  | tally, [] => if required tally.weight ≤ tally.total then .ok tally.coins else .error tally
  | tally, group :: rest =>
    if required tally.weight ≤ tally.total then .ok tally.coins
    else addGroups required (tally.add group) rest

def outputGroup (group : List Coin) : OutputGroup :=
  ⟨totalSats group, totalWeight group, group.length⟩

def coinSelectionOpt (tally : Tally) : CoinSelectionOpt where
  targetValue := max (ask.target - tally.total) 1
  targetFeerate := ask.feerate / 4
  longTermFeerate := longTermFeerate
  minAbsoluteFee := 0
  baseWeight := txWeight ask tally.weight
  changeWeight := outputWeight .p2tr
  changeCost := costOfChange env ask
  minChangeValue := 330

/-- The library's pick from the other coins, with what is selected already.  Its figures do
not count that, so it is added to them. -/
def pickFrom (tally : Tally) (singles : List (List Coin)) : Except SelectionError (List Coin) :=
  match env.selectCoin (singles.map outputGroup) (coinSelectionOpt env ask tally) with
  | .ok picked => .ok (tally.coins ++ picked.flatMap fun i => singles.getD i [])
  | .error (.insufficientFunds available required) =>
    .error (.insufficientFunds (wrapAdd64 available tally.total) (wrapAdd64 required tally.total))
  | .error e => .error e

variable (manual : List OutPoint) (pool : List Coin)

def forcedCoins : List Coin := pool.filter fun coin => coin.1 ∈ manual

/-- The groups of the coins that are not forced, reused addresses or not. -/
def poolGroups (reused : Bool) : List (List Coin) :=
  sortGroups ((env.hashOrder (addressGroups env (pool.filter fun coin => coin.1 ∉ manual))).filter
    fun group => decide (1 < group.length) = reused)

def selectFromPool : Except SelectionError (List Coin) :=
  match addGroups (requiredTotal env ask) (.of (forcedCoins manual pool))
      (poolGroups env manual pool true) with
  | .ok coins => .ok coins
  | .error tally => pickFrom env ask tally (poolGroups env manual pool false)

end Pool

/-! ## All pools -/

def closerShortfall (previous : Option (Nat × Nat)) (available required : Nat) : Nat × Nat :=
  match previous with
  | none => (available, required)
  | some (prevAvail, prevReq) =>
    if required - available < prevReq - prevAvail then (available, required)
    else (prevAvail, prevReq)

def tryPools (env : SelectEnv) (ask : SelectAsk) (manual : List OutPoint) :
    List (List Coin) → (insufficientFunds : Option (Nat × Nat)) →
      (otherSelectionError : Option SelectionError) → Except WalletError (List Coin)
  | [], some (available, required), _ => .error (.insufficientFund available required)
  | [], none, some e => .error (.selection e)
  | [], none, none => .error (.general "coin selection failed without returning an error")
  | pool :: rest, insufficientFunds, otherSelectionError =>
    match selectFromPool env ask manual pool with
    | .ok coins => .ok coins
    | .error (.insufficientFunds available required) =>
      tryPools env ask manual rest (some (closerShortfall insufficientFunds available required))
        otherSelectionError
    | .error e => tryPools env ask manual rest insufficientFunds (some e)

/-- The pools to try: the one the forced coins are in, or both. -/
def poolsToTry (regular swap : List Coin) (manual : List OutPoint) :
    Except WalletError (List (List Coin)) :=
  if manual = [] then .ok [regular, swap]
  else do
    let matchedRegular := forcedCoins manual regular
    let matchedSwap := forcedCoins manual swap
    ensure (matchedRegular.length + matchedSwap.length = manual.dedup.length)
      (.general "Some manually selected UTXOs are unavailable, locked, or excluded")
    ensure (¬ (matchedRegular ≠ [] ∧ matchedSwap ≠ []))
      (.general "Cannot mix regular and swap UTXOs in manual selection")
    .ok [if matchedRegular ≠ [] then regular else swap]

def CoinStore.selectable (w : CoinStore) (excluded : List OutPoint) (listing : List Coin) :
    List Coin :=
  listing.filter fun coin => w.isFree coin.1 && decide (coin.1 ∉ excluded)

def coinSelect (env : SelectEnv) (w : CoinStore) (amount : Nat) (feerate : ℚ)
    (outputType : AddressType) (manual excluded : Option (List OutPoint)) :
    Except WalletError (List Coin) := do
  ensure (amount ≤ maxMoney) (.general "Amount is above the 21M BTC cap")
  let regular := w.selectable (excluded.getD []) w.listDescriptorUtxoSpendInfo
  let swap := w.selectable (excluded.getD []) w.listSweptIncomingSwapUtxos
  let pools ← poolsToTry regular swap (manual.getD [])
  tryPools env ⟨amount, feerate, outputType⟩ (manual.getD []) pools none none

/-! ## The first offer -/

section Offers

variable (env : SelectEnv) (ask : SelectAsk) (manual : List OutPoint) (coins : List Coin)

/-- Coins worth the target and the fee of a transaction without change. -/
def CoversTarget : Prop :=
  requiredTotal env ask (totalWeight coins) ≤ totalSats coins

instance : DecidablePred (CoversTarget env ask) := fun coins => by
  unfold CoversTarget
  infer_instance

/-- The forced coins, and with them ever more of the reused addresses. -/
def candidates (pool : List Coin) : List (List Coin) :=
  (poolGroups env manual pool true).inits.map fun taken => forcedCoins manual pool ++ taken.flatten

/-- What a pool offers: the first candidate that covers the target, or else the pick. -/
def poolOffer (pool : List Coin) : Option (List Coin) :=
  ((candidates env manual pool).find? (CoversTarget env ask ·)).or
    (pickFrom env ask
      (.of (forcedCoins manual pool ++ (poolGroups env manual pool true).flatten))
      (poolGroups env manual pool false)).toOption

def firstOffer (pools : List (List Coin)) : Option (List Coin) :=
  pools.findSome? (poolOffer env ask manual)

variable {env ask manual}

theorem totalSats_eq : totalSats coins = (coins.map (·.entry.amount)).sum % 2 ^ 64 := by
  simpa [totalSats] using foldl_wrapAdd64_mod (coins.map (·.entry.amount)) 0

theorem totalSats_append (group : List Coin) :
    totalSats (coins ++ group) = wrapAdd64 (totalSats coins) (totalSats group) := by
  rw [totalSats_eq, totalSats_eq, totalSats_eq, wrapAdd64, map_append, sum_append, ← Nat.add_mod]

theorem Tally.of_add (group : List Coin) :
    (Tally.of coins).add group = Tally.of (coins ++ group) := by
  simp only [Tally.add, Tally.of, totalSats_append, totalWeight, map_append, sum_append]

theorem addGroups_eq (groups : List (List Coin)) :
    addGroups (requiredTotal env ask) (.of coins) groups =
      match (groups.inits.map fun taken => coins ++ taken.flatten).find?
          (CoversTarget env ask ·) with
      | some found => .ok found
      | none => .error (.of (coins ++ groups.flatten)) := by
  have hcheck (coins : List Coin) : (requiredTotal env ask (Tally.of coins).weight ≤
      (Tally.of coins).total) = CoversTarget env ask coins := rfl
  induction groups generalizing coins with
  | nil =>
    simp only [addGroups, hcheck]
    by_cases hcovers : CoversTarget env ask coins <;> simp [hcovers, Tally.of]
  | cons group rest ih =>
    simp only [addGroups, hcheck]
    by_cases hcovers : CoversTarget env ask coins
    · simp [hcovers, Tally.of]
    · rw [if_neg hcovers, Tally.of_add, ih]
      simp [hcovers, append_assoc, Function.comp_def]

theorem selectFromPool_toOption (pool : List Coin) :
    (selectFromPool env ask manual pool).toOption = poolOffer env ask manual pool := by
  rw [selectFromPool, addGroups_eq, poolOffer, candidates]
  cases List.find? _ _ with
  | some found => rfl
  | none => rfl

/-- Whatever the earlier pools have reported, the loop returns the first offer. -/
theorem tryPools_eq_ok {pools insufficient other coins} :
    tryPools env ask manual pools insufficient other = .ok coins ↔
      firstOffer env ask manual pools = some coins := by
  induction pools generalizing insufficient other with
  | nil =>
    rcases insufficient with _ | ⟨_, _⟩ <;> rcases other with _ | _ <;>
      simp [tryPools, firstOffer]
  | cons pool rest ih =>
    have hoffer : (selectFromPool env ask manual pool).toOption = poolOffer env ask manual pool :=
      selectFromPool_toOption pool
    rw [firstOffer, findSome?_cons, ← hoffer, tryPools]
    cases hselect : selectFromPool env ask manual pool with
    | ok found => simp [Except.toOption]
    | error e =>
      cases e with
      | insufficientFunds available required => exact ih
      | other name => exact ih

end Offers

variable {w : CoinStore} {amount : Nat} {outputType : AddressType} {manual : List OutPoint}
  {feerate : ℚ} {coins pool : List Coin} {ask : SelectAsk} {pools : List (List Coin)}
  {script : Bytes} {fees : FeeRate}

theorem coinSelect_eq_ok {env manual excluded} :
    coinSelect env w amount feerate outputType manual excluded = .ok coins ↔
      amount ≤ maxMoney ∧ ∃ pools,
        poolsToTry (w.selectable (excluded.getD []) w.listDescriptorUtxoSpendInfo)
          (w.selectable (excluded.getD []) w.listSweptIncomingSwapUtxos) (manual.getD []) =
            .ok pools ∧
        firstOffer env ⟨amount, feerate, outputType⟩ (manual.getD []) pools = some coins := by
  simp only [coinSelect, bind_ok_iff, ensure_eq_ok, tryPools_eq_ok]
  constructor
  · rintro ⟨_, hmax, pools, hpools, hoffer⟩
    exact ⟨hmax, pools, hpools, hoffer⟩
  · rintro ⟨hmax, pools, hpools, hoffer⟩
    exact ⟨(), hmax, pools, hpools, hoffer⟩

/-! ## Selected coins are spendable as they stand -/

theorem mem_of_mem_poolGroups {env group reused} (h : group ∈ poolGroups env manual pool reused)
    {coin} (hcoin : coin ∈ group) :
    coin ∈ pool := by
  have hgroup := (mem_filter.mp ((mem_insertionSort _).mp h)).1
  obtain ⟨key, -, rfl⟩ := mem_map.mp ((env.hashOrder_perm _).mem_iff.mp hgroup)
  exact (mem_filter.mp (mem_filter.mp hcoin).1).1

/-- The exits of a pool: forced coins and some reused addresses that cover the target, or
all of these and the library's pick. -/
theorem poolOffer_cases {env} (h : poolOffer env ask manual pool = some coins) :
    (∃ taken, taken <+: poolGroups env manual pool true ∧
      coins = forcedCoins manual pool ++ taken.flatten ∧ CoversTarget env ask coins) ∨
    ∃ picked, env.selectCoin ((poolGroups env manual pool false).map outputGroup)
        (coinSelectionOpt env ask
          (.of (forcedCoins manual pool ++ (poolGroups env manual pool true).flatten))) =
          .ok picked ∧
      coins = forcedCoins manual pool ++ (poolGroups env manual pool true).flatten ++
        picked.flatMap fun i => (poolGroups env manual pool false).getD i [] := by
  rw [poolOffer, Option.or_eq_some_iff] at h
  rcases h with h | ⟨-, h⟩
  · obtain ⟨taken, htaken, rfl⟩ := mem_map.mp (mem_of_find?_eq_some h)
    exact .inl ⟨taken, (mem_inits _ _).mp htaken, rfl, by simpa using find?_some h⟩
  · unfold pickFrom at h
    split at h
    · rename_i picked hpicked
      cases h
      exact .inr ⟨picked, hpicked, rfl⟩
    · cases h
    · cases h

theorem mem_of_poolOffer {env} (h : poolOffer env ask manual pool = some coins) {coin}
    (hcoin : coin ∈ coins) :
    coin ∈ pool := by
  have hforced : coin ∈ forcedCoins manual pool → coin ∈ pool := mem_of_mem_filter
  have hgroups : ∀ groups reused, groups ⊆ poolGroups env manual pool reused →
      coin ∈ groups.flatten → coin ∈ pool := by
    intro groups reused hsub hcoin
    obtain ⟨group, hgroup, hcoin⟩ := mem_flatten.mp hcoin
    exact mem_of_mem_poolGroups (hsub hgroup) hcoin
  rcases poolOffer_cases h with ⟨taken, htaken, rfl, -⟩ | ⟨picked, -, rfl⟩
  · exact (mem_append.mp hcoin).elim hforced (hgroups _ _ htaken.subset)
  · rcases mem_append.mp hcoin with hcoin | hcoin
    · exact (mem_append.mp hcoin).elim hforced (hgroups _ _ fun _ h => h)
    · obtain ⟨i, -, hcoin⟩ := mem_flatMap.mp hcoin
      rw [getD_eq_getElem?_getD] at hcoin
      cases hgroup : (poolGroups env manual pool false)[i]? with
      | none => simp [hgroup] at hcoin
      | some group =>
        rw [hgroup] at hcoin
        exact mem_of_mem_poolGroups (mem_of_getElem? hgroup) hcoin

theorem of_poolsToTry {regular swap} (h : poolsToTry regular swap manual = .ok pools) :
    ∀ pool ∈ pools,
      (pool = regular ∨ pool = swap) ∧
        (forcedCoins manual pool).length = manual.dedup.length := by
  unfold poolsToTry at h
  split at h
  · rename_i hmanual
    cases h
    simp only [forcedCoins, hmanual, not_mem_nil, decide_false, filter_false,
      length_nil, mem_cons, or_false]
    exact fun pool hpool => ⟨hpool, rfl⟩
  · simp only [bind_ok_iff, ensure_eq_ok] at h
    obtain ⟨_, hcount, _, hone, h⟩ := h
    cases h
    rw [forall_mem_singleton]
    split
    · have hswap : forcedCoins manual swap = [] := by
        by_contra hne
        exact hone ⟨‹_›, hne⟩
      exact ⟨.inl rfl, by rw [← hcount, hswap, length_nil, Nat.add_zero]⟩
    · rename_i hempty
      have hregular : forcedCoins manual regular = [] := not_not.mp hempty
      exact ⟨.inr rfl, by rw [← hcount, hregular, length_nil, Nat.zero_add]⟩

theorem plain_of_poolsToTry {excluded}
    (h : poolsToTry (w.selectable excluded w.listDescriptorUtxoSpendInfo)
      (w.selectable excluded w.listSweptIncomingSwapUtxos) manual = .ok pools) :
    ∀ pool ∈ pools, ∀ coin ∈ pool, coin.spendInfo.isSeedCoin || coin.spendInfo.isSweptCoin := by
  intro pool hpool coin hcoin
  rcases (of_poolsToTry h pool hpool).1 with rfl | rfl
  all_goals
    have hkind := (mem_filter.mp (mem_filter.mp hcoin).1).2
    simp [Coin.spendInfo, hkind]

theorem plain_of_coinSelect {env manual excluded}
    (h : coinSelect env w amount feerate outputType manual excluded = .ok coins) :
    ∀ coin ∈ coins, coin.spendInfo.isSeedCoin || coin.spendInfo.isSweptCoin := by
  obtain ⟨-, pools, hpools, hoffer⟩ := coinSelect_eq_ok.mp h
  obtain ⟨pool, hpool, hoffer⟩ := exists_of_findSome?_eq_some hoffer
  intro coin hcoin
  exact plain_of_poolsToTry hpools pool hpool coin (mem_of_poolOffer hoffer hcoin)

/-! ## Building the payment -/

def paymentVsize (coins : List Coin) (outputType : AddressType) : Nat :=
  ((4 + (varIntLen coins.length + 41 * coins.length) +
      (1 + (9 + outputType.scriptPubkeySize + 43)) + 4) * 4 +
    (coins.map (·.spendInfo.estimateWitnessSize)).sum + 2 + 3) / 4

/-- Coins worth an amount and the fee of a payment with change, where both can be told. -/
def CoversChange (fees : FeeRate) (amount : Nat) (outputType : AddressType) (coins : List Coin) :
    Prop :=
  (coins.map (·.entry.amount)).sum < 2 ^ 64 → ∀ fee ∈ fees.price (paymentVsize coins outputType),
    amount + fee ≤ (coins.map (·.entry.amount)).sum

/-- What the wallet answers a payment: a height, a P2TR script for the change, and
signatures or an error of its own. -/
structure SpendEnv.Ready (env : SpendEnv) : Prop where
  lockTime : ∃ height, env.lockTime = .ok height
  change : ∃ key : Bytes, key.length = 32 ∧ env.nextInternalScript .p2tr = .ok (Btc.p2tr key)
  sign : ∀ tx infos available required,
    env.sign tx infos ≠ .error (.insufficientFund available required)

theorem estimatedVsize_payment {key} (hscript : script.length = outputType.scriptPubkeySize)
    (hkey : key.length = 32) (version lockTime : Nat) :
    estimatedVsize ⟨version, lockTime, coins.map fun coin => ⟨coin.1, [], 0, []⟩,
        [⟨amount, script⟩, ⟨0, Btc.p2tr key⟩]⟩
      (coins.map (·.spendInfo.estimateWitnessSize)).sum = paymentVsize coins outputType := by
  have hp2tr : (Btc.p2tr key).length = 34 := by
    simp [Btc.p2tr, encode, encodeInstr, intInstr, pushSlice, hkey]
  have hinputs : ((coins.map fun coin => (⟨coin.1, [], 0, []⟩ : TxIn)).map inputBaseSize).sum =
      41 * coins.length := by
    have hinput : inputBaseSize ∘ (fun coin : Coin => (⟨coin.1, [], 0, []⟩ : TxIn)) =
        fun _ => 41 := rfl
    rw [map_map, hinput, map_const', sum_replicate_nat, Nat.mul_comm]
  have hpaid : outputSize ⟨amount, script⟩ = 9 + outputType.scriptPubkeySize := by
    rw [outputSize, hscript]
    cases outputType <;> rfl
  have hchange : outputSize ⟨0, Btc.p2tr key⟩ = 43 := by
    rw [outputSize, hp2tr]
    rfl
  have hcount : varIntLen 2 = 1 := rfl
  simp only [estimatedVsize, baseSize, length_map, hinputs, map_cons, map_nil,
    sum_cons, sum_nil, hpaid, hchange, length_cons, length_nil, paymentVsize,
    Nat.zero_add, Nat.reduceAdd, hcount, Nat.add_zero]

/-- The outputs of a payment fail for insufficient funds if the fee with change is missing. -/
theorem addPaymentOutputs_insufficient_iff
    {env fees tx totalInput totalWitnessSize amount vsize script change}
    (hchange : env.nextInternalScript .p2tr = .ok change) (hamount : amount ≤ maxMoney)
    (hvsize : estimatedVsize { tx with output := [⟨amount, script⟩, ⟨0, change⟩] }
      totalWitnessSize = vsize) :
    (∃ available required, addPaymentOutputs env fees tx totalInput totalWitnessSize
        [⟨amount, script⟩] none .p2tr = .error (.insufficientFund available required)) ↔
      ∃ fee ∈ fees.price vsize, totalInput < amount + fee := by
  have hpaid : addAmounts [amount] 0 = .ok amount :=
    addAmounts_eq_ok.mpr ⟨by simp, fun _ => hamount.trans_lt (by decide)⟩
  have hdata : ensure (∀ data ∈ (none : Option Bytes), data.length < 2 ^ 32)
      (WalletError.general "Failed to add OP_RETURN data to transaction output") = .ok () :=
    ensure_eq_ok.mpr nofun
  simp only [addPaymentOutputs, map_cons, map_nil, hpaid, hdata, hchange,
    Option.toList_none, append_nil, singleton_append, bind, Except.bind]
  rw [hvsize]
  cases hprice : fees.price vsize with
  | none => simp [okOr, feeOverflow]
  | some fee =>
    by_cases hcovers : amount + fee ≤ totalInput
    · have hleft : (checkedSub totalInput amount).bind (checkedSub · fee) =
          some (totalInput - amount - fee) := by
        rw [checkedSub, if_pos (by omega), Option.bind_some, checkedSub, if_pos (by omega)]
      simp [okOr, hleft, hcovers]
    · have hleft : (checkedSub totalInput amount).bind (checkedSub · fee) = none := by
        rw [Option.bind_eq_none_iff]
        intro rest hrest
        rw [checkedSub_eq_some] at hrest
        rw [checkedSub, if_neg (by omega)]
      simp [okOr, hleft, Nat.lt_of_not_le hcovers]

theorem spendCoinsTo_plain {env height} (hheight : env.lockTime = .ok height)
    (husable : fees.usable)
    (hplain : ∀ coin ∈ coins, coin.spendInfo.isSeedCoin || coin.spendInfo.isSweptCoin)
    (target : SpendTarget) :
    spendCoinsTo env fees coins target = (do
      let totalInput ← addAmounts (coins.map (·.entry.amount)) 0
      let tx ← addOutputs env fees ⟨2, height, coins.map fun coin => ⟨coin.1, [], 0, []⟩, []⟩
        totalInput (coins.map (·.spendInfo.estimateWitnessSize)).sum target
      let signed ← env.sign tx (coins.map (·.spendInfo))
      checkSpendFee fees target (totalInput - (signed.output.map (·.value)).sum) (vbytes signed)
      .ok signed) := by
  have hworth : ((coins.map fun coin => ((⟨coin.1, [], 0, []⟩ : TxIn), coin.entry.amount)).map
      Prod.snd) = coins.map (·.entry.amount) := by
    rw [map_map]
    rfl
  have hinputs : ((coins.map fun coin => ((⟨coin.1, [], 0, []⟩ : TxIn), coin.entry.amount)).map
      Prod.fst) = coins.map fun coin => ⟨coin.1, [], 0, []⟩ := by
    rw [map_map]
    rfl
  unfold spendCoinsTo
  rw [hheight, collectM_plain_ok hplain]
  simp only [bind, Except.bind, hworth, hinputs, ensure, husable, if_true]

theorem payment_insufficient_iff {env} (henv : env.Ready) (husable : fees.usable)
    (hscript : script.length = outputType.scriptPubkeySize) (hamount : amount ≤ maxMoney)
    (hplain : ∀ coin ∈ coins, coin.spendInfo.isSeedCoin || coin.spendInfo.isSweptCoin) :
    (∃ available required, spendCoinsTo env fees coins (.multi [⟨amount, script⟩] none .p2tr) =
      .error (.insufficientFund available required)) ↔
      ¬ CoversChange fees amount outputType coins := by
  obtain ⟨height, hheight⟩ := henv.lockTime
  obtain ⟨key, hkey, hchange⟩ := henv.change
  let unpaid : Transaction := ⟨2, height, coins.map fun coin => ⟨coin.1, [], 0, []⟩, []⟩
  have hvsize : estimatedVsize { unpaid with output := [⟨amount, script⟩, ⟨0, Btc.p2tr key⟩] }
      (coins.map (·.spendInfo.estimateWitnessSize)).sum = paymentVsize coins outputType :=
    estimatedVsize_payment hscript hkey 2 height
  have houtputs := @addPaymentOutputs_insufficient_iff env fees unpaid
    (coins.map (·.entry.amount)).sum _ amount _ script _ hchange hamount hvsize
  rw [spendCoinsTo_plain hheight husable hplain]
  simp only [bind_error_iff, addOutputs, addAmounts_eq_ok]
  constructor
  · rintro ⟨available, required,
      h | ⟨total, ⟨rfl, hfits⟩, h | ⟨tx, -, h | ⟨signed, -, h | h⟩⟩⟩⟩ hcovers
    · cases addAmounts_error h
    · rw [Nat.zero_add] at h hfits
      obtain ⟨fee, hfee, hshort⟩ := houtputs.mp ⟨available, required, h⟩
      have hsum : (coins.map (·.entry.amount)).sum < 2 ^ 64 := by
        rcases eq_or_ne coins [] with rfl | hne
        · simp
        · exact hfits (by simpa using hne)
      have := hcovers hsum fee hfee
      omega
    · exact henv.sign _ _ _ _ h
    · cases h
    · obtain ⟨_, -, h⟩ := h
      cases h
  · intro hshort
    simp only [CoversChange, not_forall, not_le] at hshort
    obtain ⟨hsum, fee, hfee, hshort⟩ := hshort
    obtain ⟨available, required, h⟩ := houtputs.mpr ⟨fee, hfee, hshort⟩
    refine ⟨available, required, .inr ⟨_, ⟨rfl, fun _ => ?_⟩, .inl ?_⟩⟩
    · rwa [Nat.zero_add]
    · rwa [Nat.zero_add]

/-! ## Accepted selections -/

def FeeRate.exact (feerate : ℚ) (text : String) : FeeRate where
  usable := decide (minRelayFeeRate ≤ feerate)
  price vbytes := Doubles.exact.feeAtRateSats vbytes feerate
  text := text

/-- The first selection on offer, if any, also pays for a change output. -/
def OfferCoversChange (select : SelectEnv) (fees : FeeRate) (w : CoinStore) (ask : SelectAsk)
    (manual excluded : List OutPoint) : Prop :=
  ask.target ≤ maxMoney → ∀ pools,
    poolsToTry (w.selectable excluded w.listDescriptorUtxoSpendInfo)
      (w.selectable excluded w.listSweptIncomingSwapUtxos) manual = .ok pools →
    ∀ coins ∈ firstOffer select ask manual pools,
      CoversChange fees ask.target ask.outputType coins

/-- **An accepted selection can be built exactly if it pays for change**: exactly if the first
selection on offer, which had to cover the fee without change, covers the fee with change as well.
-/
theorem accepted_selection_builds_iff (select : SelectEnv) (w : CoinStore) (amount : Nat)
    {feerate : ℚ} (hrate : minRelayFeeRate ≤ feerate) (text : String) (outputType : AddressType)
    (manual excluded : Option (List OutPoint)) {env : SpendEnv} (henv : env.Ready) {script : Bytes}
    (hscript : script.length = outputType.scriptPubkeySize) :
    (∀ coins, coinSelect select w amount feerate outputType manual excluded = .ok coins →
      ∀ available required, spendCoinsTo env (.exact feerate text) coins
        (.multi [⟨amount, script⟩] none .p2tr) ≠ .error (.insufficientFund available required)) ↔
      OfferCoversChange select (.exact feerate text) w ⟨amount, feerate, outputType⟩
        (manual.getD []) (excluded.getD []) := by
  have husable : (FeeRate.exact feerate text).usable = true := decide_eq_true hrate
  constructor
  · intro h hamount pools hpools coins hoffer
    have hselect := coinSelect_eq_ok.mpr ⟨hamount, pools, hpools, hoffer⟩
    by_contra hshort
    obtain ⟨available, required, hfails⟩ := (payment_insufficient_iff henv husable hscript hamount
      (plain_of_coinSelect hselect)).mpr hshort
    exact h coins hselect available required hfails
  · intro h coins hselect available required hfails
    obtain ⟨hamount, pools, hpools, hoffer⟩ := coinSelect_eq_ok.mp hselect
    exact (payment_insufficient_iff henv husable hscript hamount (plain_of_coinSelect hselect)).mp
      ⟨available, required, hfails⟩ (h hamount pools hpools coins hoffer)

namespace SampleSelect

/-- Exact fees, rounded up; a library that finds nothing. -/
def select : SelectEnv where
  calculateFee weight rate := min ⌈weight * rate⌉.toNat (2 ^ 64 - 1)
  selectCoin _ _ := .error (.other "NoSolutionFound")
  scriptText := hexString
  hashOrder := id
  hashOrder_perm _ := .refl _

def env : SpendEnv where
  lockTime := .ok 900000
  fidelityBond _ := .error .io
  findOutgoingSwapcoin _ := none
  findIncomingSwapcoin _ := none
  nextInternalScript _ := .ok (p2tr (List.replicate 32 0))
  sign tx _ := .ok tx

def outpoint : OutPoint := ⟨List.replicate 32 0xbb, 1⟩

def store (amount : Nat) : CoinStore where
  utxoCache := AList.singleton outpoint (⟨none, [], amount⟩, .seedCoin .p2tr)
  lockedUtxos := []
  swapLocks := ∅

def coin (amount : Nat) : Coin := ⟨outpoint, ⟨none, [], amount⟩, .seedCoin .p2tr⟩

theorem env_ready : env.Ready where
  lockTime := ⟨_, rfl⟩
  change := ⟨_, length_replicate, rfl⟩
  sign := nofun

end SampleSelect

open SampleSelect in
theorem accepted_selection_builds_sample :
    coinSelect select (store 200000) 100000 1 .p2tr (some [outpoint]) none = .ok [coin 200000] ∧
      ∀ available required, spendCoinsTo env (.exact 1 "1") [coin 200000]
        (.multi [⟨100000, p2tr (List.replicate 32 1)⟩] none .p2tr) ≠
          .error (.insufficientFund available required) := by
  have hselect : coinSelect select (store 200000) 100000 1 .p2tr (some [outpoint]) none =
      .ok [coin 200000] := by decide +kernel
  have hprice : (FeeRate.exact 1 "1").price (paymentVsize [coin 200000] .p2tr) = some 154 := by
    decide +kernel
  refine ⟨hselect, (accepted_selection_builds_iff select (store 200000) 100000 (by decide +kernel)
    "1" .p2tr (some [outpoint]) none env_ready (by decide)).mpr ?_ _ hselect⟩
  intro hamount pools hpools coins hoffer
  obtain rfl : [coin 200000] = coins :=
    Except.ok.inj (hselect.symm.trans (coinSelect_eq_ok.mpr ⟨hamount, pools, hpools, hoffer⟩))
  intro _ fee hfee
  obtain rfl : 154 = fee := Option.some.inj (hprice.symm.trans hfee)
  decide

open SampleSelect in
/-- A coin of 100111 sats is accepted for 100000 sats at one sat per byte: the transaction
without change costs 111.  Building it asks for the 154 sats of one with change. -/
theorem accepted_selection_refused :
    coinSelect select (store 100111) 100000 1 .p2tr (some [outpoint]) none = .ok [coin 100111] ∧
      spendCoinsTo env (.exact 1 "1") [coin 100111]
        (.multi [⟨100000, p2tr (List.replicate 32 1)⟩] none .p2tr) =
          .error (.insufficientFund 100111 100154) := by
  decide +kernel

end OpenSwap
