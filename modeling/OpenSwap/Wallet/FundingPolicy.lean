import OpenSwap.Base.Checked
import OpenSwap.Wallet.Funding

/-!
# Funding policy

What the wallet does around `planFundingSplits` when it plans a spend.

* `planFunding` plans from the regular pool, else from the swept-swap pool; the two
  never mix, and a plan that costs more above the input budget than the hop earns is
  refused.
* `netPolicyFees` takes the fee the taker reimburses out of every split.

Every plan sends exactly the amount it was asked for (`planFunding_meets`), and the
netting takes the policy fee of each split out of its value (`netPolicyFeesAt_ok`).
-/

namespace OpenSwap

open Btc Checked Selection List

/-! ## The guard and the netting -/

section Price

variable (price : Nat → Option Nat)

def fundingFeeAt (inputs : Nat) : Except WalletError Nat :=
  okOr (price (fundingTxVsize inputs)) (.general "funding fee arithmetic overflow")

/-- The fees above the reimbursed ones, for pairs of an input count and the declared one. -/
def overBudgetAt (maxInputBudget : Nat) : List (Nat × Nat) → Nat → Except WalletError Nat
  | [], total => .ok total
  | (inputs, declared) :: rest, total => do
    let priced := max 1 (min declared (max maxInputBudget 1))
    let paid ← fundingFeeAt price inputs
    let reimbursed ← fundingFeeAt price priced
    let extra ← okOr (checkedSub paid reimbursed) (.general "funding fee arithmetic underflow")
    let total ← okOr (checkedAdd64 total extra) (.general "funding fee arithmetic overflow")
    overBudgetAt maxInputBudget rest total

/-- The guard of a hop: what a plan costs above the input budget is no more than the hop earns. -/
def checkOverBudgetSpendAt (plan : List SplitPlan) (declared : Option (List Nat))
    (maxInputBudget swapFeeSats : Nat) : Except WalletError Unit := do
  ensure (∀ counts ∈ declared, counts.length = plan.length)
    (.general "the guard needs one declared input count per split")
  let inputs := plan.map (·.utxos.length)
  let overspend ← overBudgetAt price maxInputBudget (inputs.zip (declared.getD inputs)) 0
  ensure (overspend ≤ swapFeeSats) (.general
    s!"funding plan spends {overspend} sats above the taker's input budget, exceeding the {swapFeeSats} sats this hop earns")

def netSplitAt (minSplit maxInputBudget : Nat) (p : SplitPlan × Nat) :
    Except WalletError SplitPlan := do
  let fee ← okOr (policyFeeAt price p.2 maxInputBudget) (.general "funding fee arithmetic overflow")
  let value ← okOr ((checkedSub p.1.value fee).filter fun value => decide (minSplit ≤ value))
    (.general "funding fee pushes a split below the minimum")
  .ok { p.1 with value := value }

/-- Takes the fee the taker reimburses out of every split. -/
def netPolicyFeesAt (plan : List SplitPlan) (pricedInputs : List Nat) (maxInputBudget : Nat)
    (protocol : ProtocolVersion) : Except WalletError (List SplitPlan) := do
  ensure (pricedInputs.length = plan.length)
    (.general "netting needs one priced input count per split")
  let minSplit ← okOr (contractFloorAt price protocol) (.general "contract floor cannot be priced")
  collectM (netSplitAt price minSplit maxInputBudget) (plan.zip pricedInputs)

end Price

def checkOverBudgetSpend (plan : List SplitPlan) (declared : Option (List Nat))
    (maxInputBudget feerate swapFeeSats : Nat) : Except WalletError Unit :=
  checkOverBudgetSpendAt (feeAtRateSats · feerate) plan declared maxInputBudget swapFeeSats

def netPolicyFees (plan : List SplitPlan) (pricedInputs : List Nat)
    (maxInputBudget feerate : Nat) (protocol : ProtocolVersion) :
    Except WalletError (List SplitPlan) :=
  netPolicyFeesAt (feeAtRateSats · feerate) plan pricedInputs maxInputBudget protocol

/-! ## The pools -/

structure Pools where
  regular : List PoolCoin
  swept : List PoolCoin

def poolSum (pool : List PoolCoin) : Nat := (pool.map Prod.snd).foldl wrapAdd64 0

def Pools.plannableBalance (pools : Pools) : Nat :=
  max (poolSum pools.regular) (poolSum pools.swept)

def Pools.side (pools : Pools) (fromSwept : Bool) : List PoolCoin :=
  if fromSwept then pools.swept else pools.regular

def Pools.Distinct (pools : Pools) : Prop := ((pools.regular ++ pools.swept).map Prod.fst).Nodup

instance (pools : Pools) : Decidable pools.Distinct := inferInstanceAs (Decidable (List.Nodup _))

variable {pool : List PoolCoin} {minSplit : Nat} {exactChange swapFeeSats : Option Nat}
  {manual excluded : List OutPoint} {margin fee : Nat → Option Nat}
  {required maxInputBudget feerate : Nat} {pools : Pools} {plan : List SplitPlan}
  {protocol : ProtocolVersion} {total maxSplits : Nat}

theorem Pools.Distinct.side (h : pools.Distinct) (fromSwept : Bool) :
    ((pools.side fromSwept).map Prod.fst).Nodup := by
  rw [Distinct, map_append, nodup_append] at h
  cases fromSwept
  · exact h.1
  · exact h.2.1

structure FundingAsk where
  total : Nat
  maxSplits : Nat
  feerate : Nat
  maxInputBudget : Nat
  /-- what the hop earns, when a maker forwards it -/
  swapFeeSats : Option Nat
  minSplit : Nat
  exactChange : Option Nat

def FundingAsk.splits (ask : FundingAsk) (pool : List PoolCoin) : List SplitPlan :=
  planFundingSplits pool ask.total ask.maxSplits ask.maxInputBudget
    (fun inputs => feeAtRateSats (fundingTxVsize inputs) ask.feerate) ask.minSplit ask.exactChange

/-- The guard of a maker's hop; the taker's own hop has none. -/
def FundingAsk.guard (ask : FundingAsk) (plan : List SplitPlan) : Except WalletError Unit :=
  match ask.swapFeeSats with
  | some swapFeeSats => checkOverBudgetSpend plan none ask.maxInputBudget ask.feerate swapFeeSats
  | none => .ok ()

/-- The loop over the pools: an empty plan or a refused one falls through to the next
pool, and the first refusal is kept. -/
def planFromPools (ask : FundingAsk) (required : Nat) :
    List (List PoolCoin) → Option WalletError → Except WalletError (Option (List SplitPlan))
  | [], none => .ok none
  | [], some e => .error e
  | pool :: rest, guardError =>
    if poolSum pool < required ∨ ask.splits pool = [] then
      planFromPools ask required rest guardError
    else
      match ask.guard (ask.splits pool) with
      | .ok _ => .ok (some (ask.splits pool))
      | .error e => planFromPools ask required rest (guardError.or (some e))

/-- The coins of a manual selection, which may not mix the pools. -/
def manualPool (pools : Pools) (manual : List OutPoint) : Except WalletError (List PoolCoin) := do
  let regular := pools.regular.filter fun coin => coin.1 ∈ manual
  let swept := pools.swept.filter fun coin => coin.1 ∈ manual
  ensure (regular.length + swept.length = manual.dedup.length)
    (.general "Some manually selected UTXOs are unavailable, locked, or excluded")
  ensure (regular = [] ∨ swept = [])
    (.general "Cannot mix regular and swap UTXOs in manual selection")
  .ok (if regular = [] then swept else regular)

def planManual (ask : FundingAsk) (required : Nat) (pool : List PoolCoin) :
    Except WalletError (List SplitPlan) := do
  ensure (ask.splits pool ≠ []) (.insufficientFund (poolSum pool) required)
  ask.guard (ask.splits pool)
  .ok (ask.splits pool)

def planFundingWithChange (pools : Pools) (total maxSplits feerate maxInputBudget : Nat)
    (swapFeeSats : Option Nat) (manual excluded : List OutPoint) (protocol : ProtocolVersion)
    (exactChange : Option Nat) : Except WalletError (List SplitPlan) := do
  let minSplit ← okOr (minContractValueSats protocol feerate)
    (.general "contract floor cannot be priced")
  ensure (minSplit ≤ total)
    (.general s!"Amount {total} sats is below the {minSplit} sat contract floor")
  let pools : Pools :=
    ⟨pools.regular.filter fun coin => coin.1 ∉ excluded,
      pools.swept.filter fun coin => coin.1 ∉ excluded⟩
  let margin ← match exactChange with
    | some change => .ok change
    | none => fundingFeeAt (feeAtRateSats · feerate) 1
  let required ← okOr (checkedAdd64 total margin) (.general "funding threshold overflow")
  let ask : FundingAsk :=
    { total, maxSplits, feerate, maxInputBudget, swapFeeSats, minSplit, exactChange }
  if manual = [] then
    let plan ← planFromPools ask required [pools.regular, pools.swept] none
    okOr plan (.insufficientFund (wrapAdd64 (poolSum pools.regular) (poolSum pools.swept)) required)
  else do
    let pool ← manualPool pools manual
    planManual ask required pool

def planFunding (pools : Pools) (total maxSplits feerate maxInputBudget : Nat)
    (swapFeeSats : Option Nat) (manual excluded : List OutPoint) (protocol : ProtocolVersion) :
    Except WalletError (List SplitPlan) :=
  planFundingWithChange pools total maxSplits feerate maxInputBudget swapFeeSats manual excluded
    protocol none

/-! ## What a plan sends -/

variable {ask : FundingAsk}

theorem fillSplits_total {k left assigned remaining}
    (h : fillSplits total k maxInputBudget margin left assigned remaining = some plan)
    (hleft : 0 < left) :
    plan.length = left ∧ (plan.map (·.value)).sum = total - assigned := by
  induction left generalizing assigned remaining plan with
  | zero => omega
  | succ left ih =>
    obtain ⟨positions, -, h⟩ := Option.bind_eq_some_iff.mp h
    obtain ⟨plans, hplans, h⟩ := Option.bind_eq_some_iff.mp h
    obtain rfl := Option.some.inj h
    rw [length_cons, map_cons, sum_cons]
    rcases Nat.eq_zero_or_pos left with rfl | hpos
    · -- the last split takes all that is left
      obtain rfl := Option.some.inj hplans
      exact ⟨rfl, by simp⟩
    · obtain ⟨hlen, hsum⟩ := ih hplans hpos
      have hle : (total - assigned) / (left + 1) ≤ total - assigned := Nat.div_le_self _ _
      dsimp only
      generalize (total - assigned) / (left + 1) = share at *
      exact ⟨by omega, by omega⟩

theorem planFundingSplits_total
    (h : planFundingSplits pool total maxSplits maxInputBudget fee minSplit exactChange ≠ []) :
    let plan := planFundingSplits pool total maxSplits maxInputBudget fee minSplit exactChange
    plan.length ≤ maxSplits ∧ (plan.map (·.value)).sum = total := by
  obtain ⟨k, hk, hkn, heq⟩ := firstPlan_eq h
  dsimp only [planWithK] at heq
  split at heq
  · cases heq
  · obtain ⟨hlen, hsum⟩ := fillSplits_total heq (by omega)
    exact ⟨hlen.trans_le hkn, hsum⟩

/-- What is asked of every plan: it has splits, not too many, and they send the total. -/
structure FundingAsk.Meets (ask : FundingAsk) (plan : List SplitPlan) : Prop where
  splits : plan ≠ []
  count : plan.length ≤ ask.maxSplits
  total : (plan.map (·.value)).sum = ask.total

theorem FundingAsk.meets_splits (h : ask.splits pool ≠ []) :
    ask.Meets (ask.splits pool) :=
  ⟨h, (planFundingSplits_total h).1, (planFundingSplits_total h).2⟩

/-! ## What a plan draws on -/

/-- The splits take distinct coins of one pool, at least one each. -/
structure DrawnFrom (pool : List PoolCoin) (plan : List SplitPlan) : Prop where
  splits : ∀ s ∈ plan, s.utxos ≠ []
  fromPool : ∀ s ∈ plan, ∀ utxo ∈ s.utxos, utxo ∈ pool.map Prod.fst
  distinct : (plan.flatMap (·.utxos)).Nodup

theorem DrawnFrom.of_utxos {plan'} (h : DrawnFrom pool plan)
    (heq : plan'.map (·.utxos) = plan.map (·.utxos)) :
    DrawnFrom pool plan' := by
  have hsplit : ∀ s ∈ plan', ∃ s' ∈ plan, s'.utxos = s.utxos := by
    intro s hs
    exact mem_map.mp (heq ▸ mem_map_of_mem hs)
  refine ⟨fun s hs => ?_, fun s hs => ?_, ?_⟩
  · obtain ⟨s', hs', hutxos⟩ := hsplit s hs
    exact hutxos ▸ h.splits s' hs'
  · obtain ⟨s', hs', hutxos⟩ := hsplit s hs
    exact hutxos ▸ h.fromPool s' hs'
  · rw [flatMap_def, heq, ← flatMap_def]
    exact h.distinct

/-- The coins of every split also pay what the split sends and its margin. -/
structure Funded (margin : Nat → Option Nat) (pool : List PoolCoin) (plan : List SplitPlan) : Prop
    extends DrawnFrom pool plan where
  covers : ∀ s ∈ plan, ∃ price, margin s.utxos.length = some price ∧
    s.value + price ≤ worthOf pool s.utxos

theorem planFundingSplits_funded (hgrows : FeeGrows fee) (hpool : (pool.map Prod.fst).Nodup)
    (hpos : ∀ inputs price, marginOf fee exactChange inputs = some price → 0 < price) :
    Funded (marginOf fee exactChange) pool
      (planFundingSplits pool total maxSplits maxInputBudget fee minSplit exactChange) := by
  generalize hplan : planFundingSplits _ _ _ _ _ _ _ = plan
  rcases eq_or_ne plan [] with rfl | hne
  · exact ⟨⟨nofun, nofun, nodup_nil⟩, nofun⟩
  obtain ⟨k, -, -, -, hfills⟩ := planFundingSplits_fills hgrows hplan hne
  have hsorted : (pool.insertionSort plansBefore).Perm pool := perm_insertionSort _ _
  obtain ⟨coins, rest, hperm, hcoins⟩ := hfills.coins
  have hfst : (pool.map Prod.fst).Perm (coins.map Prod.fst ++ rest.map Prod.fst) := by
    simpa using (hsorted.symm.trans hperm).map Prod.fst
  have hcovers : ∀ s ∈ plan, ∃ price, marginOf fee exactChange s.utxos.length = some price ∧
      s.value + price ≤ worthOf pool s.utxos := by
    intro s hs
    obtain ⟨price, hprice, hle⟩ := hfills.covers s hs
    exact ⟨price, hprice, worthOf_perm hsorted _ ▸ hle⟩
  refine ⟨⟨?_, ?_, ?_⟩, hcovers⟩
  · -- no coins are worth nothing, and the margin is not nothing
    intro s hs hnil
    obtain ⟨price, hprice, hle⟩ := hcovers s hs
    have hprice := hpos _ _ hprice
    rw [hnil, worthOf] at hle
    simp only [not_mem_nil, decide_false, filter_false, worth_nil] at hle
    omega
  · intro s hs utxo hutxo
    have hmem : utxo ∈ plan.flatMap (·.utxos) := mem_flatMap.mpr ⟨s, hs, hutxo⟩
    exact hfst.mem_iff.mpr (mem_append_left _ (hcoins ▸ hmem))
  · rw [hcoins]
    exact (nodup_append.mp (hfst.nodup_iff.mp hpool)).1

theorem Funded.sublist {pool'} (h : Funded margin pool plan) (hsub : pool.Sublist pool') :
    Funded margin pool' plan := by
  refine ⟨⟨h.splits, fun s hs utxo hutxo => ?_, h.distinct⟩, fun s hs => ?_⟩
  · exact (hsub.map _).subset (h.fromPool s hs utxo hutxo)
  · obtain ⟨price, hprice, hle⟩ := h.covers s hs
    exact ⟨price, hprice, hle.trans (worthOf_mono hsub _)⟩

theorem planFromPools_ok {pools guardError}
    (h : planFromPools ask required pools guardError = .ok (some plan)) :
    ∃ pool ∈ pools, plan = ask.splits pool ∧ plan ≠ [] ∧ ask.guard plan = .ok () := by
  induction pools generalizing guardError with
  | nil => cases guardError <;> cases h
  | cons pool rest ih =>
    have hlater (error : Option WalletError)
        (h : planFromPools ask required rest error = .ok (some plan)) :
        ∃ source ∈ pool :: rest, plan = ask.splits source ∧ plan ≠ [] ∧
          ask.guard plan = .ok () := by
      obtain ⟨source, hmem, hsource⟩ := ih h
      exact ⟨source, mem_cons_of_mem _ hmem, hsource⟩
    rw [planFromPools] at h
    split at h
    · exact hlater _ h
    · rename_i hpool
      split at h
      · rename_i hguard
        cases h
        exact ⟨pool, mem_cons_self, rfl, fun hnil => hpool (.inr hnil), hguard⟩
      · exact hlater _ h

theorem manualPool_ok (h : manualPool pools manual = .ok pool) :
    ∃ fromSwept, pool = (pools.side fromSwept).filter fun coin => coin.1 ∈ manual := by
  simp only [manualPool, bind_ok_iff] at h
  obtain ⟨_, -, _, -, h⟩ := h
  cases h
  split
  · exact ⟨true, rfl⟩
  · exact ⟨false, rfl⟩

/-- A plan has the splits of one pool, of coins it may use, and passed the guard. -/
def PlannedFrom (pools : Pools) (ask : FundingAsk) (manual excluded : List OutPoint)
    (plan : List SplitPlan) : Prop :=
  ∃ fromSwept, ∃ pool : List PoolCoin, pool.Sublist (pools.side fromSwept) ∧
    (∀ coin ∈ pool, coin.1 ∉ excluded ∧ (manual ≠ [] → coin.1 ∈ manual)) ∧
    plan = ask.splits pool ∧ plan ≠ [] ∧ ask.guard plan = .ok ()

theorem plannedFrom_of_ok {e} (h : (if manual = [] then do
        let plan ← planFromPools ask required [pools.regular.filter fun coin => coin.1 ∉ excluded,
          pools.swept.filter fun coin => coin.1 ∉ excluded] none
        okOr plan e
      else do
        let pool ← manualPool ⟨pools.regular.filter fun coin => coin.1 ∉ excluded,
          pools.swept.filter fun coin => coin.1 ∉ excluded⟩ manual
        planManual ask required pool) = .ok plan) :
    PlannedFrom pools ask manual excluded plan := by
  split at h
  · rename_i hmanual
    simp only [bind_ok_iff, okOr_eq_ok] at h
    obtain ⟨_, hplan, rfl⟩ := h
    obtain ⟨pool, hmem, hpool⟩ := planFromPools_ok hplan
    have hside : ∃ fromSwept,
        pool = (pools.side fromSwept).filter fun coin => coin.1 ∉ excluded := by
      simp only [mem_cons, not_mem_nil, or_false] at hmem
      rcases hmem with rfl | rfl
      · exact ⟨false, rfl⟩
      · exact ⟨true, rfl⟩
    obtain ⟨fromSwept, rfl⟩ := hside
    refine ⟨fromSwept, _, filter_sublist, fun coin hcoin => ?_, hpool⟩
    exact ⟨by simpa using (mem_filter.mp hcoin).2, fun hne => absurd hmanual hne⟩
  · simp only [bind_ok_iff, planManual, ensure_eq_ok] at h
    obtain ⟨pool, hpool, _, hne, _, hguard, heq⟩ := h
    cases heq
    obtain ⟨fromSwept, rfl⟩ := manualPool_ok hpool
    have hside : (Pools.mk (pools.regular.filter fun coin => coin.1 ∉ excluded)
        (pools.swept.filter fun coin => coin.1 ∉ excluded)).side fromSwept =
          (pools.side fromSwept).filter fun coin => coin.1 ∉ excluded := by
      cases fromSwept <;> rfl
    rw [hside] at hne hguard ⊢
    refine ⟨fromSwept, _, filter_sublist.trans filter_sublist, fun coin hcoin => ?_, rfl,
      hne, hguard⟩
    obtain ⟨hcoin, hmanual⟩ := mem_filter.mp hcoin
    exact ⟨by simpa using (mem_filter.mp hcoin).2, fun _ => of_decide_eq_true hmanual⟩

section PlannedWithChange

variable {pools : Pools} {total maxSplits feerate maxInputBudget : Nat}
  {protocol : ProtocolVersion} {plan : List SplitPlan}
  (h : planFundingWithChange pools total maxSplits feerate maxInputBudget swapFeeSats manual
    excluded protocol exactChange = .ok plan)

include h

theorem planFundingWithChange_ok :
    ∃ minSplit, minContractValueSats protocol feerate = some minSplit ∧ minSplit ≤ total ∧
      PlannedFrom pools
        ⟨total, maxSplits, feerate, maxInputBudget, swapFeeSats, minSplit, exactChange⟩
        manual excluded plan := by
  simp only [planFundingWithChange, bind_ok_iff, okOr_eq_ok, ensure_eq_ok] at h
  obtain ⟨minSplit, hmin, _, hle, h⟩ := h
  refine ⟨minSplit, hmin, hle, ?_⟩
  cases exactChange with
  | none =>
    obtain ⟨margin, -, h⟩ := bind_ok_iff.mp h
    obtain ⟨required, -, h⟩ := bind_ok_iff.mp h
    exact plannedFrom_of_ok h
  | some change =>
    obtain ⟨margin, -, h⟩ := bind_ok_iff.mp h
    obtain ⟨required, -, h⟩ := bind_ok_iff.mp h
    exact plannedFrom_of_ok h

/-- A planned amount fits 64 bits, with room for what has to be left over. -/
theorem planFundingWithChange_lt : total < 2 ^ 64 := by
  have hfits : ∀ {margin required : Nat} {e : WalletError},
      okOr (checkedAdd64 total margin) e = .ok required → total < 2 ^ 64 := by
    intro margin required e hrequired
    have := checkedAdd64_eq_some.mp (okOr_eq_ok.mp hrequired)
    omega
  simp only [planFundingWithChange, bind_ok_iff, okOr_eq_ok] at h
  obtain ⟨_, -, _, -, h⟩ := h
  cases exactChange with
  | none =>
    obtain ⟨margin, -, h⟩ := bind_ok_iff.mp h
    obtain ⟨required, hrequired, -⟩ := bind_ok_iff.mp h
    exact hfits hrequired
  | some change =>
    obtain ⟨margin, -, h⟩ := bind_ok_iff.mp h
    obtain ⟨required, hrequired, -⟩ := bind_ok_iff.mp h
    exact hfits hrequired

/-- **A plan sends exactly what it was asked for**, in at most as many splits. -/
theorem planFundingWithChange_meets :
    plan ≠ [] ∧ plan.length ≤ maxSplits ∧ (plan.map (·.value)).sum = total := by
  obtain ⟨minSplit, -, -, _, pool, -, -, rfl, hne, -⟩ := planFundingWithChange_ok h
  have hmeets := FundingAsk.meets_splits hne
  exact ⟨hmeets.splits, hmeets.count, hmeets.total⟩

end PlannedWithChange

theorem planFunding_meets
    (h : planFunding pools total maxSplits feerate maxInputBudget swapFeeSats manual excluded
      protocol = .ok plan) :
    plan ≠ [] ∧ plan.length ≤ maxSplits ∧ (plan.map (·.value)).sum = total :=
  planFundingWithChange_meets h

theorem feeGrows_feeAtRateSats (feerate : Nat) :
    FeeGrows fun inputs => feeAtRateSats (fundingTxVsize inputs) feerate := by
  intro m n f hmn hf
  refine feeAtRateSats_le ?_ hf
  unfold fundingTxVsize
  omega

theorem PlannedFrom.funded {pools ask plan} (h : PlannedFrom pools ask manual excluded plan)
    (hdistinct : pools.Distinct) (hchange : ask.exactChange ≠ some 0) :
    ∃ fromSwept, Funded (marginOf
        (fun inputs => feeAtRateSats (fundingTxVsize inputs) ask.feerate) ask.exactChange)
      (pools.side fromSwept) plan := by
  obtain ⟨fromSwept, pool, hsub, -, rfl, -, -⟩ := h
  refine ⟨fromSwept, Funded.sublist (planFundingSplits_funded
    (feeGrows_feeAtRateSats ask.feerate) ?_ fun inputs price hprice => ?_) hsub⟩
  · exact (hdistinct.side fromSwept).sublist (hsub.map _)
  · unfold marginOf at hprice
    split at hprice
    · rename_i change hexact
      obtain rfl : change = price := Option.some.inj hprice
      exact Nat.pos_of_ne_zero fun hzero => hchange (hexact.trans (congrArg some hzero))
    · exact feeAtRateSats_pos (by unfold fundingTxVsize; omega) hprice

/-! ## What the netting moves -/

theorem checkedSub_eq_some {a b c} : checkedSub a b = some c ↔ b + c = a := by
  simp only [checkedSub, Option.ite_none_right_eq_some, Option.some.injEq]
  omega

/-- A split with the policy fee of its priced inputs taken out of its value. -/
structure NettedAt (price : Nat → Option Nat) (minSplit budget : Nat) (p : SplitPlan × Nat)
    (net : SplitPlan) : Prop where
  utxos : net.utxos = p.1.utxos
  value : ∃ fee, policyFeeAt price p.2 budget = some fee ∧ fee + net.value = p.1.value
  floor : minSplit ≤ net.value

theorem netPolicyFeesAt_ok {price priced net}
    (h : netPolicyFeesAt price plan priced maxInputBudget protocol = .ok net) :
    priced.length = plan.length ∧ ∃ minSplit, contractFloorAt price protocol = some minSplit ∧
      List.Forall₂ (NettedAt price minSplit maxInputBudget) (plan.zip priced) net := by
  simp only [netPolicyFeesAt, bind_ok_iff, ensure_eq_ok, okOr_eq_ok] at h
  obtain ⟨_, hlen, minSplit, hmin, h⟩ := h
  refine ⟨hlen, minSplit, hmin, (collectM_eq_ok.mp h).imp fun p split hsplit => ?_⟩
  simp only [netSplitAt, bind_ok_iff, okOr_eq_ok, Option.filter_eq_some_iff, checkedSub_eq_some,
    decide_eq_true_eq] at hsplit
  obtain ⟨fee, hfee, value, ⟨hvalue, hfloor⟩, hsplit⟩ := hsplit
  cases hsplit
  exact ⟨rfl, ⟨fee, hfee, hvalue⟩, hfloor⟩

end OpenSwap
