import OpenSwap.Base.Pairing
import OpenSwap.Wallet.FundingPolicy
import OpenSwap.Wallet.FundingSearch

/-!
# Plans fitted to a declared shape

A maker that plans again was already priced on the input counts of its old plan.
`fitDeclaredShape` gives every declared count a split of the new plan, by rank, and pads
a split that is short with spare coins of its own pool that pay for their own input.
-/

namespace OpenSwap

open Btc Checked Selection Pairing List

variable {split : SplitPlan} {pairs : List (SplitPlan × Nat)} {pool : List PoolCoin}
  {used : List OutPoint} {inputFee : Nat} {declared priced : List Nat} {pools : Pools}
  {plan fresh pairing net : List SplitPlan}
  {budget sum fee swapFeeSats minSplit maxInputBudget : Nat} {protocol : ProtocolVersion}
  {extra : List OutPoint}

/-! ## Fitting -/

structure Spare where
  regular : List OutPoint
  swept : List OutPoint

def Spare.side (spare : Spare) (fromSwept : Bool) : List OutPoint :=
  if fromSwept then spare.swept else spare.regular

def Spare.drop (spare : Spare) (fromSwept : Bool) (n : Nat) : Spare :=
  if fromSwept then { spare with swept := spare.swept.drop n }
  else { spare with regular := spare.regular.drop n }

def SplitPlan.fromSwept (swept : List OutPoint) (split : SplitPlan) : Bool :=
  split.utxos.head?.any fun utxo => decide (utxo ∈ swept)

def tooFewSpares : WalletError :=
  .general "too few spare coins to keep a split's declared input count"

def padSplits (swept : List OutPoint) :
    List (SplitPlan × Nat) → Spare → Except WalletError (List SplitPlan)
  | [], _ => .ok []
  | (split, inputs) :: rest, spare => do
    let short := inputs - split.utxos.length
    let pool := spare.side (split.fromSwept swept)
    ensure (short ≤ pool.length) tooFewSpares
    let padded ← padSplits swept rest (spare.drop (split.fromSwept swept) short)
    .ok ({ split with utxos := split.utxos ++ pool.take short } :: padded)

/-- Coins no split uses that pay for their own input, the smallest first. -/
def spareCoins (used : List OutPoint) (inputFee : Nat) (pool : List PoolCoin) : List PoolCoin :=
  (pool.filter fun coin => coin.1 ∉ used ∧ inputFee ≤ coin.2).insertionSort fun a b => a.2 ≤ b.2

/-- The splits of a plan, by rank, for the declared counts. -/
def pairSplits (fresh : List SplitPlan) (declared : List Nat) : List SplitPlan :=
  pairByRank (fresh.insertionSort fun a b => a.utxos.length ≤ b.utxos.length) ⟨[], 0⟩ declared

def fitDeclaredShape (price : Nat → Option Nat) (fresh : List SplitPlan) (declared : List Nat)
    (pools : Pools) (maxInputBudget swapFeeSats : Nat) (protocol : ProtocolVersion) :
    Except WalletError (List SplitPlan) := do
  ensure (fresh.length = declared.length) (.general "re-plan has a different split count")
  let fitted := pairSplits fresh declared
  let used := fitted.flatMap (·.utxos)
  let inputFee ← okOr (price (fundingTxVsize 2 - fundingTxVsize 1))
    (.general "input fee arithmetic overflow")
  let spare : Spare := ⟨(spareCoins used inputFee pools.regular).map Prod.fst,
    (spareCoins used inputFee pools.swept).map Prod.fst⟩
  let padded ← padSplits (pools.swept.map Prod.fst) (fitted.zip declared) spare
  checkOverBudgetSpendAt price padded (some declared) maxInputBudget swapFeeSats
  netPolicyFeesAt price padded declared maxInputBudget protocol

/-! ## What the padding does -/

/-- Coins a pairing takes above those its splits have. -/
def coinsNeeded (pairs : List (SplitPlan × Nat)) : Nat :=
  total (fun split inputs => inputs - split.utxos.length) pairs

@[simp] theorem coinsNeeded_cons {inputs rest} :
    coinsNeeded ((split, inputs) :: rest) = inputs - split.utxos.length + coinsNeeded rest :=
  total_cons

def padFrom : List (SplitPlan × Nat) → List OutPoint → List SplitPlan
  | [], _ => []
  | (split, inputs) :: rest, pool =>
    { split with utxos := split.utxos ++ pool.take (inputs - split.utxos.length) } ::
      padFrom rest (pool.drop (inputs - split.utxos.length))

@[simp] theorem Spare.side_drop (spare : Spare) (fromSwept : Bool) (n : Nat) :
    (spare.drop fromSwept n).side fromSwept = (spare.side fromSwept).drop n := by
  cases fromSwept <;> rfl

/-- **Splits of one pool are padded in turn, and refused exactly if the coins run out.** -/
theorem padSplits_eq {swept fromSwept spare} (h : ∀ p ∈ pairs, p.1.fromSwept swept = fromSwept) :
    padSplits swept pairs spare =
      if coinsNeeded pairs ≤ (spare.side fromSwept).length then
        .ok (padFrom pairs (spare.side fromSwept))
      else .error tooFewSpares := by
  induction pairs generalizing spare with
  | nil => simp [padSplits, padFrom, coinsNeeded, total]
  | cons p rest ih =>
    obtain ⟨split, inputs⟩ := p
    have hside : split.fromSwept swept = fromSwept := h _ mem_cons_self
    have hrest := @ih (spare.drop fromSwept (inputs - split.utxos.length))
      fun p hp => h p (mem_cons_of_mem _ hp)
    rw [Spare.side_drop, length_drop] at hrest
    rw [padSplits, hside, hrest, coinsNeeded_cons, padFrom]
    by_cases hshort : inputs - split.utxos.length ≤ (spare.side fromSwept).length
    · rw [ensure, if_pos hshort]
      by_cases hlater : coinsNeeded rest ≤
          (spare.side fromSwept).length - (inputs - split.utxos.length)
      · rw [if_pos hlater, if_pos (by omega)]
        rfl
      · rw [if_neg hlater, if_neg (by omega)]
        rfl
    · have hmore : ¬ inputs - split.utxos.length + coinsNeeded rest ≤
          (spare.side fromSwept).length := by omega
      rw [ensure, if_neg hshort, if_neg hmore]
      rfl

/-- What padding makes of a split: it gains spare coins, up to the declared count. -/
structure Padded (pool : List OutPoint) (p : SplitPlan × Nat) (split : SplitPlan) : Prop where
  value : split.value = p.1.value
  coins : ∃ extra ⊆ pool, split.utxos = p.1.utxos ++ extra ∧
    extra.length = p.2 - p.1.utxos.length

theorem padFrom_padded {pool} (h : coinsNeeded pairs ≤ pool.length) :
    List.Forall₂ (Padded pool) pairs (padFrom pairs pool) := by
  induction pairs generalizing pool with
  | nil => exact .nil
  | cons p rest ih =>
    obtain ⟨split, inputs⟩ := p
    rw [coinsNeeded_cons] at h
    have hrest := @ih (pool.drop (inputs - split.utxos.length)) (by rw [length_drop]; omega)
    refine .cons ⟨rfl, _, take_subset _ _, rfl, ?_⟩ (hrest.imp fun _ _ hp => ?_)
    · rw [length_take]
      dsimp only
      omega
    · obtain ⟨hvalue, extra, hextra, hutxos, hlen⟩ := hp
      exact ⟨hvalue, extra, List.Subset.trans hextra (drop_subset _ _), hutxos, hlen⟩

theorem padFrom_values (pairs : List (SplitPlan × Nat)) (pool : List OutPoint) :
    (padFrom pairs pool).map (·.value) = (pairs.map Prod.fst).map (·.value) := by
  induction pairs generalizing pool with
  | nil => rfl
  | cons p rest ih => rw [padFrom, map_cons, ih, map_cons, map_cons]

theorem padFrom_utxos_perm (pairs : List (SplitPlan × Nat)) (pool : List OutPoint) :
    ((padFrom pairs pool).flatMap (·.utxos)).Perm
      ((pairs.map Prod.fst).flatMap (·.utxos) ++ pool.take (coinsNeeded pairs)) := by
  induction pairs generalizing pool with
  | nil => simp [padFrom, coinsNeeded, total]
  | cons p rest ih =>
    obtain ⟨split, inputs⟩ := p
    rw [padFrom, flatMap_cons, map_cons, flatMap_cons, coinsNeeded_cons, take_add]
    have hstep := (ih (pool.drop (inputs - split.utxos.length))).append_left
      (split.utxos ++ pool.take (inputs - split.utxos.length))
    refine hstep.trans ?_
    simp only [append_assoc]
    refine List.Perm.append_left _ ?_
    rw [← append_assoc, ← append_assoc]
    exact perm_append_comm.append_right _

/-! ## The pools -/

theorem DrawnFrom.fromSwept_eq {fromSwept} (hdistinct : pools.Distinct)
    (h : DrawnFrom (pools.side fromSwept) plan) (hs : split ∈ plan) :
    split.fromSwept (pools.swept.map Prod.fst) = fromSwept := by
  obtain ⟨utxo, rest, hutxos⟩ := exists_cons_of_ne_nil (h.splits split hs)
  have hmem := h.fromPool split hs utxo (by simp [hutxos])
  rw [SplitPlan.fromSwept, hutxos, head?_cons, Option.any_some]
  cases fromSwept
  · rw [Pools.Distinct, map_append, nodup_append] at hdistinct
    exact decide_eq_false fun hswept => hdistinct.2.2 _ hmem _ hswept rfl
  · exact decide_eq_true hmem

theorem DrawnFrom.perm {plan'} (h : DrawnFrom pool plan) (hperm : plan'.Perm plan) :
    DrawnFrom pool plan' :=
  ⟨fun s hs => h.splits s (hperm.mem_iff.mp hs), fun s hs => h.fromPool s (hperm.mem_iff.mp hs),
    (hperm.flatMap_right _).nodup_iff.mpr h.distinct⟩

theorem mem_spareCoins {coin} :
    coin ∈ spareCoins used inputFee pool ↔ coin ∈ pool ∧ coin.1 ∉ used ∧ inputFee ≤ coin.2 := by
  rw [spareCoins, (perm_insertionSort _ _).mem_iff]
  simp

theorem spare_side (used : List OutPoint) (inputFee : Nat) (pools : Pools) (fromSwept : Bool) :
    (Spare.mk ((spareCoins used inputFee pools.regular).map Prod.fst)
      ((spareCoins used inputFee pools.swept).map Prod.fst)).side fromSwept =
      (spareCoins used inputFee (pools.side fromSwept)).map Prod.fst := by
  cases fromSwept <;> rfl

theorem pairSplits_perm (hlen : fresh.length = declared.length) :
    (pairSplits fresh declared).Perm fresh :=
  (pairByRank_fst_perm (by rw [length_insertionSort, hlen])).trans
    (perm_insertionSort _ _)

/-! ## No other pairing needs fewer coins -/

/-- A pairing can be padded from the unused coins of a pool that pay for their own input. -/
def Paddable (price : Nat → Option Nat) (pool : List PoolCoin) (pairing : List SplitPlan)
    (declared : List Nat) : Prop :=
  ∃ inputFee, price (fundingTxVsize 2 - fundingTxVsize 1) = some inputFee ∧
    ∃ extras : List (List OutPoint),
      List.Forall₂ (fun p extra => p.2 ≤ p.1.utxos.length + extra.length)
        (pairing.zip declared) extras ∧
      extras.flatten.Nodup ∧
      ∀ utxo ∈ extras.flatten, utxo ∉ pairing.flatMap (·.utxos) ∧
        ∃ amount, (utxo, amount) ∈ pool ∧ inputFee ≤ amount

theorem coinsNeeded_le {extras : List (List OutPoint)}
    (h : List.Forall₂ (fun p extra => p.2 ≤ p.1.utxos.length + extra.length) pairs extras) :
    coinsNeeded pairs ≤ extras.flatten.length := by
  induction h with
  | nil => exact Nat.zero_le _
  | @cons p extra _ _ hle _ ih =>
    obtain ⟨split, inputs⟩ := p
    rw [coinsNeeded_cons, flatten_cons, length_append]
    dsimp only at hle
    omega

theorem coinsNeeded_pairSplits_le (hlen : fresh.length = declared.length)
    (hpairing : pairing.Perm fresh) :
    coinsNeeded ((pairSplits fresh declared).zip declared) ≤
      coinsNeeded (pairing.zip declared) := by
  let count (split : SplitPlan) : Nat := split.utxos.length
  let sorted := fresh.insertionSort fun a b => count a ≤ count b
  let keys := (orderOf declared).map fun i => declared.getD i 0
  have hsorted : sorted.Perm fresh := perm_insertionSort _ _
  have hcost : ∀ (splits : List SplitPlan) (inputs : List Nat),
      coinsNeeded (splits.zip inputs) =
        total (fun held inputs => inputs - held) ((splits.map count).zip inputs) := by
    intro splits inputs
    rw [← map_id inputs, zip_map, map_id, coinsNeeded, total, total, map_map]
    rfl
  have hkeys : declared.Perm keys := by
    have hrange : (List.range declared.length).map (fun i => declared.getD i 0) = declared := by
      refine ext_getElem (by simp) fun i _ hi => ?_
      simp [hi]
    exact (List.Perm.of_eq hrange.symm).trans ((orderOf_perm declared).symm.map _)
  have hrank : coinsNeeded ((pairSplits fresh declared).zip declared) =
      coinsNeeded (sorted.zip keys) :=
    total_perm (pairByRank_perm (by rw [length_insertionSort, hlen]))
  have hcounts : (sorted.map count).Pairwise (· ≤ ·) := by
    rw [pairwise_map]
    exact pairwise_insertionSort _ _
  have hlen' : (pairing.map count).length = declared.length := by
    rw [length_map, hpairing.length_eq, hlen]
  rw [hrank, hcost, hcost]
  -- two splits that swap their counts never need fewer coins
  refine total_zip_le (fun a a' b b' _ _ => ?_) hcounts (orderOf_sorted declared) ?_ ?_
  · omega
  · rw [map_fst_zip hlen'.le]
    exact (hpairing.trans hsorted.symm).map count
  · rw [map_snd_zip hlen'.ge]
    exact hkeys

/-! ## Which check refuses -/

variable {price : Nat → Option Nat}

theorem overBudgetAt_not_tooFew {pairs} :
    overBudgetAt price budget pairs sum ≠ .error tooFewSpares := by
  induction pairs generalizing sum with
  | nil => exact nofun
  | cons pair rest ih =>
    intro h
    simp only [overBudgetAt, fundingFeeAt, bind_error_iff, okOr_eq_error] at h
    rcases h with ⟨-, h⟩ | ⟨_, -, ⟨-, h⟩ | ⟨_, -, ⟨-, h⟩ | ⟨_, -, ⟨-, h⟩ | ⟨_, -, h⟩⟩⟩⟩
    · exact absurd h (by decide)
    · exact absurd h (by decide)
    · exact absurd h (by decide)
    · exact absurd h (by decide)
    · exact ih h

theorem checkOverBudgetSpendAt_not_tooFew {declared} :
    checkOverBudgetSpendAt price plan declared budget fee ≠ .error tooFewSpares := by
  intro h
  simp only [checkOverBudgetSpendAt, bind_error_iff, ensure_eq_error] at h
  rcases h with ⟨-, h⟩ | ⟨_, -, h | ⟨_, -, -, h⟩⟩
  · exact absurd h (by decide)
  · exact overBudgetAt_not_tooFew h
  · have htext := congrArg String.toList (WalletError.general.inj h)
    simp [toString] at htext

theorem netPolicyFeesAt_not_tooFew :
    netPolicyFeesAt price plan priced budget protocol ≠ .error tooFewSpares := by
  intro h
  simp only [netPolicyFeesAt, bind_error_iff, ensure_eq_error, okOr_eq_error] at h
  rcases h with ⟨-, h⟩ | ⟨_, -, ⟨-, h⟩ | ⟨_, -, h⟩⟩
  · exact absurd h (by decide)
  · exact absurd h (by decide)
  · obtain ⟨p, -, h⟩ := collectM_error h
    simp only [netSplitAt, bind_error_iff, okOr_eq_error] at h
    rcases h with ⟨-, h⟩ | ⟨_, -, ⟨-, h⟩ | ⟨_, -, h⟩⟩
    · exact absurd h (by decide)
    · exact absurd h (by decide)
    · cases h

theorem padSplits_pairSplits {fromSwept} (hdistinct : pools.Distinct)
    (hdrawn : DrawnFrom (pools.side fromSwept) fresh) (hlen : fresh.length = declared.length) :
    padSplits (pools.swept.map Prod.fst) ((pairSplits fresh declared).zip declared)
        ⟨(spareCoins used inputFee pools.regular).map Prod.fst,
          (spareCoins used inputFee pools.swept).map Prod.fst⟩ =
      if coinsNeeded ((pairSplits fresh declared).zip declared) ≤
          (spareCoins used inputFee (pools.side fromSwept)).length then
        .ok (padFrom ((pairSplits fresh declared).zip declared)
          ((spareCoins used inputFee (pools.side fromSwept)).map Prod.fst))
      else .error tooFewSpares := by
  have hside : ∀ p ∈ (pairSplits fresh declared).zip declared,
      p.1.fromSwept (pools.swept.map Prod.fst) = fromSwept := fun p hp =>
    hdrawn.fromSwept_eq hdistinct ((pairSplits_perm hlen).mem_iff.mp (of_mem_zip hp).1)
  rw [padSplits_eq hside, spare_side, length_map]

theorem Paddable.coinsNeeded_le (h : Paddable price pool pairing declared)
    (hfee : price (fundingTxVsize 2 - fundingTxVsize 1) = some inputFee)
    (hused : used.Perm (pairing.flatMap (·.utxos))) :
    coinsNeeded (pairing.zip declared) ≤ (spareCoins used inputFee pool).length := by
  obtain ⟨inputFee', hfee', extras, hpads, hnodup, hspare⟩ := h
  obtain rfl : inputFee' = inputFee := Option.some.inj (hfee'.symm.trans hfee)
  have hsub : extras.flatten ⊆ (spareCoins used inputFee' pool).map Prod.fst := by
    intro utxo hutxo
    obtain ⟨hfree, amount, hmem, hle⟩ := hspare utxo hutxo
    refine mem_map.mpr ⟨(utxo, amount), mem_spareCoins.mpr ⟨hmem, ?_, hle⟩, rfl⟩
    exact fun h => hfree (hused.mem_iff.mp h)
  have hle := (hnodup.subperm hsub).length_le
  rw [length_map] at hle
  exact (OpenSwap.coinsNeeded_le hpads).trans hle

/-- **A plan is refused for too few spare coins only if no pairing of its splits with the
declared counts could be padded**, since pairing by rank needs the fewest coins. -/
theorem refused_only_if_unpaddable {price : Nat → Option Nat} {pools : Pools} {fromSwept : Bool}
    {fresh : List SplitPlan} {declared : List Nat} {maxInputBudget swapFeeSats : Nat}
    {protocol : ProtocolVersion} (hdistinct : pools.Distinct)
    (hdrawn : DrawnFrom (pools.side fromSwept) fresh) :
    (fitDeclaredShape price fresh declared pools maxInputBudget swapFeeSats protocol =
        .error tooFewSpares →
      ∀ pairing : List SplitPlan, pairing.Perm fresh →
        ¬ Paddable price (pools.side fromSwept) pairing declared) ∧
    (fresh.length = declared.length → ∀ pairing : List SplitPlan, pairing.Perm fresh →
      coinsNeeded ((pairSplits fresh declared).zip declared) ≤
        coinsNeeded (pairing.zip declared)) := by
  refine ⟨fun hrefused pairing hpairing hpads => ?_, fun hlen _ => coinsNeeded_pairSplits_le hlen⟩
  simp only [fitDeclaredShape, bind_error_iff, ensure_eq_error, ensure_eq_ok, okOr_eq_error,
    okOr_eq_ok] at hrefused
  rcases hrefused with ⟨-, h⟩ | ⟨_, hlen, ⟨-, h⟩ | ⟨inputFee, hfee, hrest⟩⟩
  · exact absurd h (by decide)
  · exact absurd h (by decide)
  · rw [padSplits_pairSplits hdistinct hdrawn hlen] at hrest
    have hperm := pairSplits_perm hlen
    have hneeded := hpads.coinsNeeded_le hfee ((hperm.trans hpairing.symm).flatMap_right _)
    rw [if_pos ((coinsNeeded_pairSplits_le hlen hpairing).trans hneeded)] at hrest
    rcases hrest with h | ⟨_, -, h | ⟨_, -, h⟩⟩
    · cases h
    · exact checkOverBudgetSpendAt_not_tooFew h
    · exact netPolicyFeesAt_not_tooFew h

def twoOfThree : Pools × List SplitPlan :=
  let coin (vout : Nat) : PoolCoin := (⟨[], vout⟩, 5000)
  (⟨[coin 0, coin 1, coin 2], []⟩, [⟨[⟨[], 0⟩], 4000⟩, ⟨[⟨[], 1⟩], 4000⟩])

/-- One spare coin cannot give both splits a second one. -/
theorem refused_only_if_unpaddable_sample :
    fitDeclaredShape (feeAtRateSats · 1) twoOfThree.2 [2, 2] twoOfThree.1 10 1000 .taproot =
        .error tooFewSpares ∧
      ¬ Paddable (feeAtRateSats · 1) twoOfThree.1.regular twoOfThree.2 [2, 2] := by
  have hrefused : fitDeclaredShape (feeAtRateSats · 1) twoOfThree.2 [2, 2] twoOfThree.1 10 1000
      .taproot = .error tooFewSpares := by decide +kernel
  have hdistinct : twoOfThree.1.Distinct := by decide +kernel
  have hdrawn : DrawnFrom (twoOfThree.1.side false) twoOfThree.2 :=
    ⟨by decide +kernel, by decide +kernel, by decide +kernel⟩
  exact ⟨hrefused, (refused_only_if_unpaddable hdistinct hdrawn).1 hrefused _ (.refl _)⟩

/-! ## What the guard and the netting establish -/

theorem overBudgetAt_ok {pairs out} (h : overBudgetAt price budget pairs sum = .ok out) :
    ∃ real reimbursed : List Nat,
      (pairs.map Prod.fst).map (fun inputs => price (fundingTxVsize inputs)) = real.map some ∧
      (pairs.map Prod.snd).map
          (fun declared => price (fundingTxVsize (max 1 (min declared (max budget 1))))) =
        reimbursed.map some ∧
      sum + real.sum = out + reimbursed.sum := by
  induction pairs generalizing sum with
  | nil =>
    cases h
    exact ⟨[], [], rfl, rfl, rfl⟩
  | cons pair rest ih =>
    simp only [overBudgetAt, fundingFeeAt, bind_ok_iff, okOr_eq_ok, checkedSub_eq_some] at h
    obtain ⟨paid, hpaid, priced, hpriced, extra, hextra, sum', hsum, h⟩ := h
    obtain ⟨real, reimbursed, hreal, hreimbursed, hrest⟩ := ih h
    have hsum : sum' = sum + extra := by
      simp only [checkedAdd64, Option.ite_none_right_eq_some, Option.some.injEq] at hsum
      exact hsum.2.symm
    refine ⟨paid :: real, priced :: reimbursed, ?_, ?_, ?_⟩
    · rw [map_cons, map_cons, hpaid, hreal, map_cons]
    · rw [map_cons, map_cons, hpriced, hreimbursed, map_cons]
    · rw [sum_cons, sum_cons]
      omega

/-- **A plan that passes the guard costs at most what is reimbursed and the service fee.** -/
theorem checkOverBudgetSpendAt_ok {declared u} (hbudget : 0 < budget)
    (h : checkOverBudgetSpendAt price plan declared budget swapFeeSats = .ok u) :
    ∃ real policy : List Nat,
      plan.map (fun s => price (fundingTxVsize s.utxos.length)) = real.map some ∧
      (declared.getD (plan.map (·.utxos.length))).map (policyFeeAt price · budget) =
        policy.map some ∧
      real.sum ≤ policy.sum + swapFeeSats := by
  simp only [checkOverBudgetSpendAt, bind_ok_iff, ensure_eq_ok] at h
  obtain ⟨_, hlen, overspend, hover, hle⟩ := h
  obtain ⟨real, policy, hreal, hpolicy, hsum⟩ := overBudgetAt_ok hover
  have hlen' : (declared.getD (plan.map (·.utxos.length))).length = plan.length := by
    cases declared with
    | none => exact length_map _
    | some counts => exact hlen counts rfl
  rw [map_fst_zip (by rw [length_map, hlen']), map_map] at hreal
  rw [map_snd_zip (by rw [length_map, hlen'])] at hpolicy
  refine ⟨real, policy, hreal, ?_, by omega⟩
  rw [← hpolicy]
  refine map_congr_left fun inputs _ => ?_
  rw [policyFeeAt]
  congr 2
  omega

theorem nettedAt_spec (hlen : priced.length = plan.length)
    (h : List.Forall₂ (NettedAt price minSplit budget) (plan.zip priced) net) :
    net.map (·.utxos) = plan.map (·.utxos) ∧
      ∃ policy : List Nat, priced.map (policyFeeAt price · budget) = policy.map some ∧
        List.zipWith (· + ·) (net.map (·.value)) policy = plan.map (·.value) ∧
        (net.map (·.value)).sum + policy.sum = (plan.map (·.value)).sum := by
  induction plan generalizing priced net with
  | nil =>
    obtain rfl := length_eq_zero_iff.mp hlen
    cases h
    exact ⟨rfl, [], rfl, rfl, rfl⟩
  | cons split rest ih =>
    obtain ⟨inputs, priced, rfl⟩ := exists_cons_of_length_eq_add_one hlen
    obtain ⟨first, later, hfirst, hlater, rfl⟩ := forall₂_cons_left_iff.mp h
    obtain ⟨fee, hfee, hvalue⟩ := hfirst.value
    obtain ⟨hutxos, policy, hpolicy, hzip, hsum⟩ := ih (by simpa using hlen) hlater
    refine ⟨by rw [map_cons, map_cons, hfirst.utxos, hutxos], fee :: policy, ?_, ?_, ?_⟩
    · rw [map_cons, hfee, hpolicy, map_cons]
    · rw [map_cons, zipWith_cons_cons, hzip, map_cons, ← hvalue, Nat.add_comm]
    · simp only [map_cons, sum_cons]
      dsimp only at hvalue
      omega

/-! ## What a fitted plan costs -/

theorem worthOf_le (pool : List PoolCoin) (utxos : List OutPoint) :
    worthOf pool utxos ≤ worth Prod.snd pool := worth_le_of_sublist filter_sublist

theorem worthOf_append {utxos} (h : utxos.Disjoint extra) (pool : List PoolCoin) :
    worthOf pool (utxos ++ extra) = worthOf pool utxos + worthOf pool extra := by
  induction pool with
  | nil => rfl
  | cons coin rest ih =>
    unfold worthOf at ih ⊢
    by_cases hutxo : coin.1 ∈ utxos
    · have hextra : coin.1 ∉ extra := fun hextra => h hutxo hextra
      simp_all [Nat.add_assoc]
    · by_cases hextra : coin.1 ∈ extra
      · simp_all [Nat.add_left_comm]
      · simp_all

theorem mul_le_worthOf (hpool : (pool.map Prod.fst).Nodup) (hnodup : extra.Nodup)
    (hspare : extra ⊆ (spareCoins used inputFee pool).map Prod.fst) :
    extra.length * inputFee ≤ worthOf pool extra := by
  let coins := pool.filter fun coin => coin.1 ∈ extra
  have hworth : ∀ amount ∈ coins.map Prod.snd, inputFee ≤ amount := by
    intro amount hamount
    obtain ⟨coin, hcoin, rfl⟩ := mem_map.mp hamount
    obtain ⟨hmem, hextra⟩ := mem_filter.mp hcoin
    obtain ⟨spare, hspare, heq⟩ := mem_map.mp (hspare (of_decide_eq_true hextra))
    obtain ⟨hmem', -, hle⟩ := mem_spareCoins.mp hspare
    rwa [inj_on_of_nodup_map hpool hmem hmem' heq.symm]
  have hsub : extra ⊆ coins.map Prod.fst := by
    intro utxo hutxo
    obtain ⟨coin, hcoin, rfl⟩ := mem_map.mp (hspare hutxo)
    exact mem_map_of_mem (mem_filter.mpr
      ⟨(mem_spareCoins.mp hcoin).1, decide_eq_true hutxo⟩)
  have hlen : extra.length ≤ coins.length := by
    simpa using (hnodup.subperm hsub).length_le
  calc extra.length * inputFee ≤ coins.length * inputFee := Nat.mul_le_mul_right _ hlen
    _ ≤ (coins.map Prod.snd).sum := by
      simpa using card_nsmul_le_sum (coins.map Prod.snd) inputFee hworth

theorem forall₂_zip_trans {α β γ δ : Type} {R : α × γ → β → Prop} {S : β × γ → δ → Prop}
    {as : List α} {bs : List β} {cs : List γ} {ds : List δ} (hR : List.Forall₂ R (as.zip cs) bs)
    (hS : List.Forall₂ S (bs.zip cs) ds) (hlen : as.length = cs.length) :
    List.Forall₂ (fun p d => ∃ b, R p b ∧ S (b, p.2) d) (as.zip cs) ds := by
  induction as generalizing bs cs ds with
  | nil =>
    cases hR
    cases hS
    exact .nil
  | cons a as ih =>
    obtain ⟨c, cs, rfl⟩ := exists_cons_of_length_eq_add_one hlen.symm
    obtain ⟨b, bs, hb, hbs, rfl⟩ := forall₂_cons_left_iff.mp hR
    obtain ⟨d, ds, hd, hds, rfl⟩ := forall₂_cons_left_iff.mp hS
    exact .cons ⟨b, hb, hd⟩ (ih hbs hds (by simpa using hlen))

/-- What holds of the plan `net` that `fresh` was fitted to. -/
structure Fitted (price : Nat → Option Nat) (pool : List PoolCoin) (fresh : List SplitPlan)
    (declared : List Nat) (maxInputBudget swapFeeSats : Nat) (protocol : ProtocolVersion)
    (net : List SplitPlan) : Prop where
  counts : List.Forall₂ (fun inputs split => inputs ≤ split.utxos.length) declared net
  distinct : (net.flatMap (·.utxos)).Nodup
  fromPool : ∀ split ∈ net, ∀ utxo ∈ split.utxos, utxo ∈ pool.map Prod.fst
  floor : ∃ minSplit, contractFloorAt price protocol = some minSplit ∧
    ∀ split ∈ net, minSplit ≤ split.value
  covers : ∀ split ∈ net, ∃ fee, price (fundingTxVsize split.utxos.length) = some fee ∧
    split.value + fee ≤ worthOf pool split.utxos
  accounts : ∃ real policy : List Nat,
    net.map (fun split => price (fundingTxVsize split.utxos.length)) = real.map some ∧
    declared.map (policyFeeAt price · maxInputBudget) = policy.map some ∧
    (net.map (·.value)).sum + policy.sum = (fresh.map (·.value)).sum ∧
    real.sum ≤ policy.sum + swapFeeSats

theorem padFrom_distinct (hpool : (pool.map Prod.fst).Nodup) (hdrawn : DrawnFrom pool plan)
    (hlen : plan.length = declared.length) :
    ((padFrom (plan.zip declared)
      ((spareCoins (plan.flatMap (·.utxos)) inputFee pool).map Prod.fst)).flatMap
        (·.utxos)).Nodup := by
  rw [(padFrom_utxos_perm _ _).nodup_iff, map_fst_zip hlen.le, nodup_append]
  have hspare : ((spareCoins (plan.flatMap (·.utxos)) inputFee pool).map Prod.fst).Nodup := by
    rw [spareCoins, ((perm_insertionSort _ _).map _).nodup_iff]
    exact hpool.sublist (filter_sublist.map _)
  refine ⟨hdrawn.distinct, hspare.sublist (take_sublist _ _), ?_⟩
  rintro utxo hused _ hextra rfl
  obtain ⟨coin, hcoin, rfl⟩ := mem_map.mp (mem_of_mem_take hextra)
  exact (mem_spareCoins.mp hcoin).2.1 hused

/-- The coins a split ends with pay what it then sends and its own fee. -/
theorem covers_of_padded {D : Doubles} {rate : ℚ} {p : SplitPlan × Nat} {net : SplitPlan}
    (hpool : (pool.map Prod.fst).Nodup) (hsupply : worth Prod.snd pool ≤ maxMoney)
    (heach : D.feeAtRateSats (fundingTxVsize 2 - fundingTxVsize 1) rate = some inputFee)
    (hfunded : ∃ paid, D.fundingFee rate p.1.utxos.length = some paid ∧
      p.1.value + paid ≤ worthOf pool p.1.utxos) (hused : p.1.utxos ⊆ used)
    (hpadded : Padded ((spareCoins used inputFee pool).map Prod.fst) p split)
    (hnet : NettedAt (D.feeAtRateSats · rate) minSplit maxInputBudget (split, p.2) net)
    (hnodup : net.utxos.Nodup) (hfee : D.fundingFee rate net.utxos.length = some fee) :
    net.value + fee ≤ worthOf pool net.utxos := by
  obtain ⟨paid, hpaid, hcovers⟩ := hfunded
  obtain ⟨extra, hextra, hutxos, -⟩ := hpadded.coins
  obtain ⟨policy, hpolicy, hvalue⟩ := hnet.value
  have hnetUtxos : net.utxos = p.1.utxos ++ extra := hnet.utxos.trans hutxos
  have hdisjoint : p.1.utxos.Disjoint extra := by
    intro utxo hutxo hspare
    obtain ⟨coin, hcoin, rfl⟩ := mem_map.mp (hextra hspare)
    exact (mem_spareCoins.mp hcoin).2.1 (hused hutxo)
  rw [hnetUtxos] at hnodup hfee ⊢
  rw [worthOf_append hdisjoint]
  rw [length_append] at hfee
  have hspare := mul_le_worthOf hpool (nodup_append.mp hnodup).2.1 hextra
  have hkept := worthOf_le pool p.1.utxos
  have hkept' := worthOf_le pool extra
  have hvalue' : policy + net.value = p.1.value := hvalue.trans hpadded.value
  have hgrow := Doubles.fee_of_added_inputs hpaid heach hpolicy hfee (by omega) (by omega)
  omega

/-- What a split of the pairing becomes: padded to `padding`, then netted to `split`. -/
def FitsTo (price : Nat → Option Nat) (spares : List OutPoint) (minSplit maxInputBudget : Nat)
    (p : SplitPlan × Nat) (split : SplitPlan) : Prop :=
  ∃ padding, Padded spares p padding ∧ NettedAt price minSplit maxInputBudget (padding, p.2) split

theorem fitDeclaredShape_steps {fromSwept} (hdistinct : pools.Distinct)
    (hdrawn : DrawnFrom (pools.side fromSwept) fresh) (hbudget : 0 < maxInputBudget)
    (h : fitDeclaredShape price fresh declared pools maxInputBudget swapFeeSats protocol =
      .ok net) :
    ∃ (fitted : List SplitPlan) (inputFee minSplit : Nat), fitted.Perm fresh ∧
      fitted.length = declared.length ∧
      price (fundingTxVsize 2 - fundingTxVsize 1) = some inputFee ∧
      contractFloorAt price protocol = some minSplit ∧
      List.Forall₂ (FitsTo price ((spareCoins (fitted.flatMap (·.utxos)) inputFee
        (pools.side fromSwept)).map Prod.fst) minSplit maxInputBudget) (fitted.zip declared) net ∧
      (net.flatMap (·.utxos)).Nodup ∧
      ∃ real policy : List Nat,
        net.map (fun split => price (fundingTxVsize split.utxos.length)) = real.map some ∧
        declared.map (policyFeeAt price · maxInputBudget) = policy.map some ∧
        (net.map (·.value)).sum + policy.sum = (fresh.map (·.value)).sum ∧
        real.sum ≤ policy.sum + swapFeeSats := by
  simp only [fitDeclaredShape, bind_ok_iff, ensure_eq_ok, okOr_eq_ok] at h
  obtain ⟨_, hlen, inputFee, hfee, padded, hpad, _, hguard, hnet⟩ := h
  rw [padSplits_pairSplits hdistinct hdrawn hlen] at hpad
  have hperm := pairSplits_perm hlen
  have hlen' : (pairSplits fresh declared).length = declared.length := hperm.length_eq.trans hlen
  generalize pairSplits fresh declared = fitted at *
  split at hpad
  case isFalse => cases hpad
  case isTrue henough =>
    cases hpad
    let spares :=
      (spareCoins (fitted.flatMap (·.utxos)) inputFee (pools.side fromSwept)).map Prod.fst
    have hpadded : List.Forall₂ (Padded spares) _ _ :=
      padFrom_padded (by rwa [length_map])
    have hnodup : ((padFrom (fitted.zip declared) spares).flatMap (·.utxos)).Nodup :=
      padFrom_distinct (hdistinct.side fromSwept) (hdrawn.perm hperm) hlen'
    have hvalues := padFrom_values (fitted.zip declared) spares
    rw [map_fst_zip hlen'.le] at hvalues
    obtain ⟨hcount, minSplit, hmin, hnetted⟩ := netPolicyFeesAt_ok hnet
    obtain ⟨hutxos, policy, hpolicy, -, hsum⟩ := nettedAt_spec hcount hnetted
    obtain ⟨real, policy', hreal, hpolicy', hle⟩ := checkOverBudgetSpendAt_ok hbudget hguard
    obtain rfl : policy' = policy :=
      map_injective_iff.mpr (Option.some_injective _) (hpolicy'.symm.trans hpolicy)
    have hreal' := congrArg (List.map fun utxos : List OutPoint =>
      price (fundingTxVsize utxos.length)) hutxos
    rw [map_map, map_map] at hreal'
    refine ⟨fitted, inputFee, minSplit, hperm, hlen', hfee, hmin,
      forall₂_zip_trans hpadded hnetted hlen', ?_, real, policy', hreal'.trans hreal, hpolicy, ?_,
      hle⟩
    · rwa [flatMap_def, hutxos, ← flatMap_def]
    · rw [hsum, hvalues]
      exact (hperm.map _).sum_eq

/-- **A fitted plan keeps the declared shape and pays for it.** -/
theorem fitted_shape_kept (D : Doubles) {rate : ℚ} {pools : Pools} {fromSwept : Bool}
    {fresh net : List SplitPlan} {declared : List Nat} {maxInputBudget swapFeeSats : Nat}
    {protocol : ProtocolVersion} (hdistinct : pools.Distinct)
    (hsupply : worth Prod.snd (pools.side fromSwept) ≤ maxMoney)
    (hfunded : Funded (D.fundingFee rate) (pools.side fromSwept) fresh)
    (hbudget : 0 < maxInputBudget)
    (h : fitDeclaredShape (D.feeAtRateSats · rate) fresh declared pools maxInputBudget swapFeeSats
      protocol = .ok net) :
    Fitted (D.feeAtRateSats · rate) (pools.side fromSwept) fresh declared maxInputBudget
      swapFeeSats protocol net := by
  obtain ⟨fitted, inputFee, minSplit, hperm, hlen, hfee, hmin, hsteps, hnodup, hsums⟩ :=
    fitDeclaredShape_steps hdistinct hfunded.toDrawnFrom hbudget h
  refine ⟨?_, hnodup, ?_, ⟨minSplit, hmin, ?_⟩, ?_, hsums⟩
  · have hcounts : List.Forall₂ (fun inputs split => inputs ≤ split.utxos.length)
        ((fitted.zip declared).map Prod.snd) net := by
      refine forall₂_map_left_iff.mpr (hsteps.imp fun p split hp => ?_)
      obtain ⟨_, ⟨-, extra, -, hextra, hshort⟩, hsplit⟩ := hp
      rw [hsplit.utxos, hextra, length_append]
      omega
    rwa [map_snd_zip hlen.ge] at hcounts
  · intro split hs utxo hutxo
    obtain ⟨p, hp, _, ⟨-, extra, hsub, hextra, -⟩, hsplit⟩ := exists_of_forall₂ hsteps hs
    rw [hsplit.utxos, hextra] at hutxo
    rcases mem_append.mp hutxo with hkept | hspare
    · exact hfunded.fromPool p.1 (hperm.mem_iff.mp (of_mem_zip hp).1) utxo hkept
    · obtain ⟨coin, hcoin, rfl⟩ := mem_map.mp (hsub hspare)
      exact mem_map_of_mem (mem_spareCoins.mp hcoin).1
  · intro split hs
    obtain ⟨_, -, _, -, hsplit⟩ := exists_of_forall₂ hsteps hs
    exact hsplit.floor
  · intro split hs
    obtain ⟨p, hp, padding, hpad, hsplit⟩ := exists_of_forall₂ hsteps hs
    have hp : p.1 ∈ fitted := (of_mem_zip hp).1
    obtain ⟨real, _, hreal, -⟩ := hsums
    have hpriced := hreal ▸ mem_map_of_mem hs
    obtain ⟨fee, -, hfee'⟩ := mem_map.mp hpriced
    refine ⟨fee, hfee'.symm, ?_⟩
    exact covers_of_padded (hdistinct.side fromSwept) hsupply hfee
      (hfunded.covers p.1 (hperm.mem_iff.mp hp))
      (fun utxo hutxo => mem_flatMap.mpr ⟨p.1, hp, hutxo⟩) hpad hsplit
      ((nodup_flatMap.mp hnodup).1 split hs) hfee'.symm

def oneAndSpare : Pools × List SplitPlan :=
  (⟨[(⟨[], 0⟩, 6000), (⟨[], 1⟩, 500)], []⟩, [⟨[⟨[], 0⟩], 5000⟩])

theorem oneAndSpare_funded :
    Funded (Doubles.exact.fundingFee 1) (oneAndSpare.1.side false) oneAndSpare.2 := by
  refine ⟨⟨by decide +kernel, by decide +kernel, by decide +kernel⟩, ?_⟩
  intro s hs
  obtain rfl := mem_singleton.mp hs
  exact ⟨165, by decide +kernel, by decide +kernel⟩

/-- Fitted to two inputs, the split takes the spare coin and sends its value less their fee. -/
theorem fitted_shape_kept_sample :
    Fitted (Doubles.exact.feeAtRateSats · 1) (oneAndSpare.1.side false) oneAndSpare.2 [2] 10 0
      .taproot [⟨[⟨[], 0⟩, ⟨[], 1⟩], 4767⟩] :=
  fitted_shape_kept Doubles.exact (by decide +kernel) (by decide +kernel) oneAndSpare_funded
    (by decide) (by decide +kernel)

end OpenSwap
