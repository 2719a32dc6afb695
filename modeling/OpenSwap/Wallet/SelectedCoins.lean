import OpenSwap.Wallet.CoinSelect

/-!
# What a selection is worth

What `coinSelect` hands out and what its refusals mean, for a selection library that keeps
its word.

* `SelectEnv.Sound` and `SelectEnv.Complete` — exact fees, and what is asked of the library.
-/

namespace OpenSwap

open Btc Checked List

def coinsWorth (coins : List Coin) : Nat := (coins.map (·.entry.amount)).sum

def exactFee (weight : Nat) (rate : ℚ) : Nat := ⌈weight * rate⌉.toNat

/-- The coins are worth the target and the fee of spending them to it. -/
def PaysTarget (ask : SelectAsk) (coins : List Coin) : Prop :=
  ask.target + exactFee (txWeight ask (totalWeight coins)) (ask.feerate / 4) ≤ coinsWorth coins

def pickedGroups (groups : List OutputGroup) (picked : List Nat) : List OutputGroup :=
  picked.map (groups.getD · ⟨0, 0, 0⟩)

namespace SelectEnv

/-- The groups cover the target of an option and the fee of its base with them. -/
def Meets (env : SelectEnv) (opt : CoinSelectionOpt) (groups : List OutputGroup) : Prop :=
  opt.targetValue + env.calculateFee (opt.baseWeight + (groups.map (·.weight)).sum)
    opt.targetFeerate ≤ (groups.map (·.value)).sum

def ExactFees (env : SelectEnv) : Prop :=
  ∀ weight rate, exactFee weight rate < 2 ^ 64 → env.calculateFee weight rate = exactFee weight rate

/-- The library's solutions are distinct groups that meet what is asked. -/
structure Sound (env : SelectEnv) : Prop where
  fees : env.ExactFees
  picks : ∀ {groups opt picked}, env.selectCoin groups opt = .ok picked →
    picked.Nodup ∧ (∀ i ∈ picked, i < groups.length) ∧ env.Meets opt (pickedGroups groups picked)

/-- The library fails only when no set of its groups meets what is asked. -/
structure Complete (env : SelectEnv) : Prop where
  fees : env.ExactFees
  fails : ∀ {groups opt e}, env.selectCoin groups opt = .error e →
    ∀ taken, taken.Sublist groups → ¬ env.Meets opt taken

end SelectEnv

variable {env : SelectEnv} {ask : SelectAsk} {w : CoinStore} {manual excluded : List OutPoint}
  {pool coins : List Coin}

/-! ## Totals -/

variable {groups : List (List Coin)} {α : Type}

theorem coinsWorth_append (coins group : List Coin) :
    coinsWorth (coins ++ group) = coinsWorth coins + coinsWorth group := by
  simp [coinsWorth]

theorem totalWeight_append (coins group : List Coin) :
    totalWeight (coins ++ group) = totalWeight coins + totalWeight group := by
  simp [totalWeight]

theorem totalSats_le (coins : List Coin) : totalSats coins ≤ coinsWorth coins := by
  rw [totalSats_eq]
  exact Nat.mod_le ..

theorem totalSats_of_lt (h : coinsWorth coins < 2 ^ 64) : totalSats coins = coinsWorth coins := by
  rw [totalSats_eq]
  exact Nat.mod_eq_of_lt h

theorem totalWeight_flatten (groups : List (List Coin)) :
    totalWeight groups.flatten = ((groups.map outputGroup).map (·.weight)).sum := by
  induction groups with
  | nil => rfl
  | cons group rest ih =>
    rw [flatten_cons, totalWeight_append, ih]
    rfl

theorem sum_value_le (groups : List (List Coin)) :
    ((groups.map outputGroup).map (·.value)).sum ≤ coinsWorth groups.flatten := by
  induction groups with
  | nil => exact Nat.zero_le _
  | cons group rest ih =>
    rw [flatten_cons, coinsWorth_append]
    exact Nat.add_le_add (totalSats_le group) ih

theorem sum_value_of_lt (h : coinsWorth groups.flatten < 2 ^ 64) :
    ((groups.map outputGroup).map (·.value)).sum = coinsWorth groups.flatten := by
  induction groups with
  | nil => rfl
  | cons group rest ih =>
    rw [flatten_cons, coinsWorth_append] at h ⊢
    have hgroup : totalSats group = coinsWorth group := totalSats_of_lt (by omega)
    rw [← ih (by omega), ← hgroup]
    rfl

theorem pickedGroups_map (singles : List (List Coin)) (picked : List Nat) :
    pickedGroups (singles.map outputGroup) picked =
      (picked.map (singles.getD · [])).map outputGroup := by
  rw [pickedGroups, map_map]
  refine map_congr_left fun i _ => ?_
  exact getD_map singles [] outputGroup

theorem meets_iff {selected} :
    env.Meets (coinSelectionOpt env ask (.of selected)) (groups.map outputGroup) ↔
      max (ask.target - totalSats selected) 1 +
        env.calculateFee (txWeight ask (totalWeight (selected ++ groups.flatten)))
          (ask.feerate / 4) ≤ ((groups.map outputGroup).map (·.value)).sum := by
  have hweight : txWeight ask (totalWeight (selected ++ groups.flatten)) =
      txWeight ask (totalWeight selected) + ((groups.map outputGroup).map (·.weight)).sum := by
    rw [totalWeight_append, totalWeight_flatten, txWeight, txWeight]
    omega
  rw [hweight]
  rfl

/-! ## Where the coins come from -/

theorem map_getD_range (groups : List α) (d : α) :
    (List.range groups.length).map (groups.getD · d) = groups := by
  refine ext_getElem (by simp) fun i hi hi' => ?_
  simp [getElem?_eq_getElem hi']

theorem addressGroups_perm (h : pool.Nodup) : (addressGroups env pool).flatten.Perm pool := by
  have hnodup : (addressGroups env pool).flatten.Nodup := by
    rw [nodup_flatten, addressGroups]
    constructor
    · intro group hgroup
      obtain ⟨key, -, rfl⟩ := mem_map.mp hgroup
      exact h.filter _
    · rw [pairwise_map]
      refine (nodup_dedup _).imp fun hne coin hcoin hcoin' => hne ?_
      simp only [mem_filter, decide_eq_true_eq] at hcoin hcoin'
      exact hcoin.2.symm.trans hcoin'.2
  rw [perm_ext_iff_of_nodup hnodup h]
  intro coin
  rw [mem_flatten]
  constructor
  · rintro ⟨group, hgroup, hcoin⟩
    obtain ⟨key, -, rfl⟩ := mem_map.mp hgroup
    exact mem_of_mem_filter hcoin
  · intro hcoin
    refine ⟨_, mem_map.mpr ⟨addressKey env coin, ?_, rfl⟩, mem_filter.mpr ⟨hcoin, ?_⟩⟩
    · exact mem_dedup.mpr (mem_map_of_mem hcoin)
    · exact decide_eq_true rfl

theorem parts_perm (h : pool.Nodup) :
    (forcedCoins manual pool ++ (poolGroups env manual pool true).flatten ++
      (poolGroups env manual pool false).flatten).Perm pool := by
  let rest := pool.filter fun coin => coin.1 ∉ manual
  have hsplit : (poolGroups env manual pool true ++ poolGroups env manual pool false).Perm
      (addressGroups env rest) := by
    refine ((perm_insertionSort _ _).append (perm_insertionSort _ _)).trans ?_
    refine .trans ?_ (env.hashOrder_perm (addressGroups env rest))
    convert filter_append_perm (fun group : List Coin => decide (1 < group.length)) _ using 3
    all_goals
      funext group
      cases decide (1 < group.length) <;> rfl
  rw [append_assoc, ← flatten_append]
  refine (((hsplit.flatten.trans (addressGroups_perm (h.filter _))).append_left _)).trans ?_
  have hrest : rest = pool.filter fun coin => !decide (coin.1 ∈ manual) := by simp [rest]
  rw [hrest]
  exact filter_append_perm ..

theorem exists_sublist_of_positions {groups : List α} {picked : List Nat} {d : α}
    (hnodup : picked.Nodup) (hlt : ∀ i ∈ picked, i < groups.length) :
    ∃ taken : List α, taken.Sublist groups ∧ taken.Perm (picked.map (groups.getD · d)) := by
  obtain ⟨sorted, hperm, hsub⟩ : picked.Subperm (List.range groups.length) :=
    subperm_of_subset hnodup fun i hi => mem_range.mpr (hlt i hi)
  have hmap := hsub.map (groups.getD · d)
  rw [map_getD_range] at hmap
  exact ⟨_, hmap, hperm.map _⟩

theorem poolOffer_nodup (hlib : env.Sound) (hpool : pool.Nodup)
    (h : poolOffer env ask manual pool = some coins) : coins.Nodup := by
  have hparts := (@parts_perm env manual pool hpool).nodup_iff.mpr hpool
  rcases poolOffer_cases h with ⟨taken, htaken, rfl, -⟩ | ⟨picked, hpicked, rfl⟩
  · refine hparts.sublist (((List.Sublist.refl _).append ?_).trans (sublist_append_left ..))
    exact htaken.sublist.flatten
  · obtain ⟨hnodup, hlt, -⟩ := hlib.picks hpicked
    obtain ⟨taken, htaken, hperm⟩ := exists_sublist_of_positions hnodup (by simpa using hlt)
    rw [flatMap_def, ((hperm.flatten.symm).append_left _).nodup_iff]
    exact hparts.sublist ((List.Sublist.refl _).append htaken.flatten)

theorem forcedCoins_complete (hpool : (pool.map Sigma.fst).Nodup)
    (hcount : (forcedCoins manual pool).length = manual.dedup.length) :
    ∀ o ∈ manual, ∃ coin ∈ forcedCoins manual pool, coin.1 = o := by
  intro o ho
  have hsub : ((forcedCoins manual pool).map Sigma.fst).Subperm manual.dedup := by
    refine subperm_of_subset (hpool.sublist (filter_sublist.map _)) ?_
    intro o' ho'
    obtain ⟨coin, hcoin, rfl⟩ := mem_map.mp ho'
    simpa using (mem_filter.mp hcoin).2
  have hperm := hsub.perm_of_length_le (by rw [length_map, hcount])
  exact mem_map.mp (hperm.mem_iff.mpr (mem_dedup.mpr ho))

/-! ## Selections -/

theorem poolOffer_covers (hlib : env.Sound) (h : poolOffer env ask manual pool = some coins)
    (hfits : ask.target + exactFee (txWeight ask (totalWeight coins)) (ask.feerate / 4) < 2 ^ 64) :
    PaysTarget ask coins := by
  have hfee := hlib.fees (txWeight ask (totalWeight coins)) (ask.feerate / 4) (by omega)
  rcases poolOffer_cases h with ⟨taken, -, -, hcovers⟩ | ⟨picked, hpicked, rfl⟩
  · rw [CoversTarget, requiredTotal, wrapAdd64, hfee, Nat.mod_eq_of_lt hfits] at hcovers
    exact hcovers.trans (totalSats_le coins)
  · obtain ⟨-, -, hmeets⟩ := hlib.picks hpicked
    rw [pickedGroups_map, meets_iff, ← flatMap_def, hfee] at hmeets
    have hvalue := sum_value_le (picked.map ((poolGroups env manual pool false).getD · []))
    rw [← flatMap_def] at hvalue
    have hselected := totalSats_le
      (forcedCoins manual pool ++ (poolGroups env manual pool true).flatten)
    rw [PaysTarget, coinsWorth_append]
    omega

def oneOutputWeight (coins : List Coin) (outputType : AddressType) : Nat :=
  (4 + (varIntLen coins.length + 41 * coins.length) + (1 + (9 + outputType.scriptPubkeySize)) + 4) *
    4 + (coins.map (·.spendInfo.estimateWitnessSize)).sum + 2

theorem txWeight_eq (hfew : coins.length < 253) :
    txWeight ask (totalWeight coins) = oneOutputWeight coins ask.outputType := by
  have hinputs : totalWeight coins =
      164 * coins.length + (coins.map (·.spendInfo.estimateWitnessSize)).sum := by
    have hsum := sum_map_add (l := coins) (f := fun _ => inputBaseWeight)
      (g := fun coin => coin.spendInfo.estimateWitnessSize)
    rw [map_const', sum_replicate_nat] at hsum
    rw [totalWeight, Nat.mul_comm]
    exact hsum
  have hcount : varIntLen coins.length = 1 := by
    rw [varIntLen, if_pos hfew]
  rw [txWeight, oneOutputWeight, hinputs, hcount, baseTxnOnlyWeight, outputWeight]
  omega

structure SoundSelection (w : CoinStore) (ask : SelectAsk) (manual excluded : List OutPoint)
    (coins : List Coin) : Prop where
  manual : ∀ o ∈ manual, ∃ coin ∈ coins, coin.1 = o
  distinct : (coins.map Sigma.fst).Nodup
  onePool : (∀ coin ∈ coins, coin ∈ w.listDescriptorUtxoSpendInfo) ∨
    ∀ coin ∈ coins, coin ∈ w.listSweptIncomingSwapUtxos
  free : ∀ coin ∈ coins,
    coin.1 ∉ w.lockedUtxos ∧ w.isSwapReserved coin.1 = false ∧ coin.1 ∉ excluded
  covers : ask.target + exactFee (txWeight ask (totalWeight coins)) (ask.feerate / 4) < 2 ^ 64 →
    PaysTarget ask coins
  weight : coins.length < 253 → txWeight ask (totalWeight coins) =
    oneOutputWeight coins ask.outputType

namespace SampleSelect

instance (env : SelectEnv) (opt : CoinSelectionOpt) : DecidablePred (env.Meets opt) :=
  fun groups => inferInstanceAs (Decidable (_ ≤ (groups.map (·.value)).sum))

/-- A library that tries every set of groups. -/
def exhaustive : SelectEnv where
  __ := select
  selectCoin groups opt :=
    okOr ((List.range groups.length).sublists.find? fun picked =>
      select.Meets opt (pickedGroups groups picked)) (.insufficientFunds 0 opt.targetValue)

theorem exhaustive_fees : exhaustive.ExactFees := by
  intro weight rate hfits
  exact Nat.min_eq_left (Nat.le_sub_one_of_lt hfits)

theorem exhaustive_sound : exhaustive.Sound where
  fees := exhaustive_fees
  picks := by
    intro groups opt picked h
    have hfound := okOr_eq_ok.mp h
    have hsub := mem_sublists.mp (mem_of_find?_eq_some hfound)
    refine ⟨nodup_range.sublist hsub, fun i hi => mem_range.mp (hsub.subset hi), ?_⟩
    exact of_decide_eq_true (find?_some hfound :)

theorem exhaustive_complete : exhaustive.Complete where
  fees := exhaustive_fees
  fails := by
    intro groups opt e h taken htaken
    have hnone := (okOr_eq_error.mp h).1
    rw [← map_getD_range groups ⟨0, 0, 0⟩] at htaken
    obtain ⟨picked, hpicked, rfl⟩ := sublist_map_iff.mp htaken
    have := find?_eq_none.mp hnone picked (mem_sublists.mpr hpicked)
    exact fun hmeets => this (decide_eq_true hmeets)

/-- A wallet whose coins all stand at one address. -/
def reused (count amount : Nat) : CoinStore where
  utxoCache := ⟨(List.range count).map fun vout =>
    ⟨⟨[], vout⟩, ⟨some "reused", [], amount⟩, .seedCoin .p2tr⟩, by
      rw [List.NodupKeys, List.keys, map_map]
      exact nodup_range.map fun a b h => by simpa using h⟩
  lockedUtxos := []
  swapLocks := ∅

def reusedCoins (count amount : Nat) : List Coin := (reused count amount).utxoCache.entries

/-- The wallet with one more coin, at an address of its own. -/
def withSingle (w : CoinStore) (amount : Nat) : CoinStore :=
  { w with utxoCache := w.utxoCache.insert outpoint (⟨none, [], amount⟩, .seedCoin .p2tr) }

end SampleSelect

def CoinStore.triedPools (w : CoinStore) (manual excluded : List OutPoint) :
    Except WalletError (List (List Coin)) :=
  poolsToTry (w.selectable excluded w.listDescriptorUtxoSpendInfo)
    (w.selectable excluded w.listSweptIncomingSwapUtxos) manual

theorem firstOffer_of_error {amount feerate} {outputType : AddressType}
    {manual excluded available required}
    (h : coinSelect env w amount feerate outputType manual excluded =
      .error (.insufficientFund available required)) :
    ∃ pools, w.triedPools (manual.getD []) (excluded.getD []) = .ok pools ∧
      ∀ pool ∈ pools, poolOffer env ⟨amount, feerate, outputType⟩ (manual.getD []) pool = none := by
  rcases bind_error_iff.mp h with h | ⟨_, -, h⟩
  · cases (ensure_eq_error.mp h).2
  · rcases bind_error_iff.mp h with h | ⟨pools, hpools, h⟩
    · unfold poolsToTry at h
      split at h
      · cases h
      · simp only [bind_error_iff, ensure_eq_error] at h
        rcases h with ⟨-, h⟩ | ⟨_, -, ⟨-, h⟩ | ⟨_, -, h⟩⟩ <;> cases h
    · refine ⟨pools, hpools, fun pool hpool => ?_⟩
      by_contra hoffer
      obtain ⟨coins, hcoins⟩ := Option.ne_none_iff_exists'.mp hoffer
      have hfirst : (firstOffer env ⟨amount, feerate, outputType⟩ (manual.getD []) pools).isSome :=
        findSome?_isSome_iff.mpr ⟨pool, hpool, by rw [hcoins]; rfl⟩
      obtain ⟨found, hfound⟩ := Option.isSome_iff_exists.mp hfirst
      rw [tryPools_eq_ok.mpr hfound] at h
      cases h

/-- What a pool cannot pay when it reports missing funds: the target, with the forced coins
and some reused addresses; nor, where all of them are worth less than it, with all of them and
any of the other coins. -/
structure CannotPay (env : SelectEnv) (ask : SelectAsk) (manual : List OutPoint)
    (pool : List Coin) : Prop where
  reused : ∀ taken, taken <+: poolGroups env manual pool true →
    ¬ PaysTarget ask (forcedCoins manual pool ++ taken.flatten)
  others : ∀ taken : List (List Coin), taken.Sublist (poolGroups env manual pool false) →
    let selected := forcedCoins manual pool ++ (poolGroups env manual pool true).flatten
    coinsWorth selected < ask.target → ¬ PaysTarget ask (selected ++ taken.flatten)

theorem cannotPay_of_poolOffer (hlib : env.Complete) (hnodup : pool.Nodup)
    (hpool : coinsWorth pool < 2 ^ 64) (h : poolOffer env ask manual pool = none) :
    CannotPay env ask manual pool := by
  have hparts {coins : List Coin} (hsub : coins.Sublist (forcedCoins manual pool ++
      (poolGroups env manual pool true).flatten ++ (poolGroups env manual pool false).flatten)) :
      coinsWorth coins < 2 ^ 64 := by
    have hle := (hsub.map (·.entry.amount)).sum_le_sum fun _ _ => Nat.zero_le _
    have heq := ((@parts_perm env manual pool hnodup).map (·.entry.amount)).sum_eq
    rw [coinsWorth] at hpool ⊢
    omega
  rw [poolOffer, Option.or_eq_none_iff] at h
  obtain ⟨hcandidates, hpick⟩ := h
  constructor
  · intro taken htaken hpays
    have hworth := @hparts (forcedCoins manual pool ++ taken.flatten)
      (((List.Sublist.refl _).append htaken.sublist.flatten).trans (sublist_append_left ..))
    refine find?_eq_none.mp hcandidates _
      (mem_map.mpr ⟨taken, (mem_inits _ _).mpr htaken, rfl⟩) (decide_eq_true ?_)
    rw [PaysTarget] at hpays
    rw [CoversTarget, requiredTotal, wrapAdd64, hlib.fees _ _ (by omega),
      Nat.mod_eq_of_lt (by omega), totalSats_of_lt hworth]
    exact hpays
  · intro taken htaken selected hshort hpays
    have hworth := @hparts (selected ++ taken.flatten)
      ((List.Sublist.refl _).append htaken.flatten)
    have hsum := coinsWorth_append selected taken.flatten
    rw [PaysTarget] at hpays
    obtain ⟨e, he⟩ : ∃ e, env.selectCoin ((poolGroups env manual pool false).map outputGroup)
        (coinSelectionOpt env ask (.of selected)) = .error e := by
      unfold pickFrom at hpick
      cases hselect : env.selectCoin ((poolGroups env manual pool false).map outputGroup)
        (coinSelectionOpt env ask (.of selected)) with
      | ok picked =>
        rw [hselect] at hpick
        cases hpick
      | error e => exact ⟨e, rfl⟩
    refine hlib.fails he _ (htaken.map outputGroup) (meets_iff.mpr ?_)
    rw [hlib.fees _ _ (by omega), totalSats_of_lt (by omega), sum_value_of_lt (by omega)]
    omega

/-- **What missing funds mean**: no pool that was tried can pay with its forced coins, the reused
addresses and any of the other coins, if the library fails only where no set of its groups would
do. -/
theorem insufficient_funds_means (hlib : env.Complete) (w : CoinStore)
    (hworth : coinsWorth w.utxoCache.entries < 2 ^ 64) (amount : Nat) (feerate : ℚ)
    (outputType : AddressType) (manual excluded : Option (List OutPoint)) {available required : Nat}
    (h : coinSelect env w amount feerate outputType manual excluded =
      .error (.insufficientFund available required)) :
    ∃ pools, w.triedPools (manual.getD []) (excluded.getD []) = .ok pools ∧
      ∀ pool ∈ pools, CannotPay env ⟨amount, feerate, outputType⟩ (manual.getD []) pool := by
  obtain ⟨pools, hpools, hnone⟩ := firstOffer_of_error h
  refine ⟨pools, hpools, fun pool hpool => ?_⟩
  have hsub : pool.Sublist w.utxoCache.entries := by
    rcases (of_poolsToTry hpools pool hpool).1 with rfl | rfl
    all_goals exact filter_sublist.trans filter_sublist
  have hle := (hsub.map (·.entry.amount)).sum_le_sum fun _ _ => Nat.zero_le _
  exact cannotPay_of_poolOffer hlib ((List.Nodup.of_map _ w.utxoCache.nodupKeys).sublist hsub)
    (hle.trans_lt hworth) (hnone pool hpool)

open SampleSelect in
theorem insufficient_funds_sample :
    coinsWorth (withSingle (reused 2 1) 100111).utxoCache.entries < 2 ^ 64 ∧
      ∃ pools, (withSingle (reused 2 1) 100111).triedPools [] [] = .ok pools ∧
        ∀ pool ∈ pools, CannotPay exhaustive ⟨100000, 1, .p2tr⟩ [] pool := by
  have hworth : coinsWorth (withSingle (reused 2 1) 100111).utxoCache.entries < 2 ^ 64 := by
    decide +kernel
  exact ⟨hworth, insufficient_funds_means exhaustive_complete _ hworth 100000 1 .p2tr none none
    (by decide +kernel : coinSelect exhaustive (withSingle (reused 2 1) 100111) 100000 1 .p2tr
      none none = .error (.insufficientFund 2 100000))⟩

open SampleSelect in
/-- A coin that pays 100000 sats and the fee alone is refused for two coins of one sat at a
reused address: they come first, and cost more than they are worth. -/
theorem uneconomic_group_spent :
    coinSelect exhaustive (withSingle (reused 2 1) 100111) 100000 1 .p2tr none none =
        .error (.insufficientFund 2 100000) ∧
      [coin 100111] ∈ addressGroups exhaustive (withSingle (reused 2 1) 100111).utxoCache.entries ∧
      PaysTarget ⟨100000, 1, .p2tr⟩ [coin 100111] := by
  rw [PaysTarget]
  decide +kernel

end OpenSwap
