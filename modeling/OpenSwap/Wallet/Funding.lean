import OpenSwap.Base.Selection
import OpenSwap.Protocol.Common

/-!
# Funding plans

How the wallet splits a spend over funding transactions: `planFundingSplits`
tries the split counts from the highest down, `planWithK` fills the splits of
one count in turn, and `smallestCover` chooses the coins of one split.

* Amounts are naturals; an unchecked `u64` operation wraps, as in a build
  without overflow checks.
-/

namespace OpenSwap

open Btc Selection List

/-! ## Choosing the coins of a split -/

abbrev PoolCoin := OutPoint × Nat

def valueAt (pool : List PoolCoin) (i : Nat) : Nat := worthAt Prod.snd pool i

def outpointLe (a b : OutPoint) : Bool :=
  decide (a.txid < b.txid) || (a.txid == b.txid && decide (a.vout ≤ b.vout))

/-- The order of planning: by value, then by outpoint, both falling. -/
def plansBefore (a b : PoolCoin) : Prop :=
  b.2 < a.2 ∨ (b.2 = a.2 ∧ outpointLe b.1 a.1 = true)

instance : DecidableRel plansBefore := fun _ _ => inferInstanceAs (Decidable (_ ∨ _))

/-- The two-pointer walk over rising values: `lo` and `hi = lo + gap` close in on
each other, and the best pair so far is kept with its sum. -/
def twoPointer (value : Nat → Nat) (need : Nat) :
    Nat → Nat → Option (Nat × Nat × Nat) → Option (Nat × Nat × Nat)
  | 0, _, best => best
  | gap + 1, lo, best =>
    let hi := lo + (gap + 1)
    let sum := wrapAdd64 (value lo) (value hi)
    if need ≤ sum then
      let best := if best.all fun b => decide (sum < b.1) then some (sum, lo, hi) else best
      twoPointer value need gap lo best
    else twoPointer value need gap (lo + 1) best

/-- One greedy pick: the largest free coin within the deficit, else the smallest above it. -/
def greedyPick (pool : List PoolCoin) (taken : List Nat) (deficit : Nat) : Option Nat :=
  let free := (List.range pool.length).filter fun i => !taken.contains i
  (free.find? fun i => decide (valueAt pool i ≤ deficit)).or
    (free.reverse.find? fun i => decide (deficit < valueAt pool i))

def greedyFill (pool : List PoolCoin) (need : Nat) : Nat → List Nat → Nat → Option (List Nat)
  | 0, _, _ => none
  | picks + 1, chosen, covered => do
    let pick ← greedyPick pool chosen (need - covered)
    let covered := wrapAdd64 covered (valueAt pool pick)
    if need ≤ covered then some (chosen ++ [pick])
    else greedyFill pool need picks (chosen ++ [pick]) covered

/-- Positions of `n` coins whose total is as small as possible and covers `need`,
in a pool sorted by falling value: exact for one and two coins, greedy above. -/
def smallestCover (pool : List PoolCoin) (n need : Nat) : Option (List Nat) :=
  let m := pool.length
  if m < n then none
  else if n = 1 then
    ((List.range m).reverse.find? fun i => decide (need ≤ valueAt pool i)).map fun i => [i]
  else if n = 2 then
    (twoPointer (fun i => valueAt pool (m - 1 - i)) need (m - 1) 0 none).map
      fun best => [m - 1 - best.2.1, m - 1 - best.2.2]
  else greedyFill pool need n [] 0

/-- What the coins of a split must be worth beyond its value: the fee of its inputs,
or the change margin of an exact spend. -/
def marginOf (fee : Nat → Option Nat) (exactChange : Option Nat) (inputs : Nat) : Option Nat :=
  match exactChange with
  | some change => some change
  | none => fee inputs

def needFor (margin : Nat → Option Nat) (target inputs : Nat) : Option Nat := do
  checkedAdd64 target (← margin inputs)

/-- The running sum of the `n` largest coins. -/
def topSum (remaining : List PoolCoin) (n : Nat) : Nat :=
  ((remaining.take n).map Prod.snd).foldl satAdd64 0

/-- A cover by `n` coins, not searched for where the `n` largest fall short. -/
def coverWith (need : Nat → Option Nat) (remaining : List PoolCoin) (n : Nat) :
    Option (List Nat) := do
  let needed ← need n
  if topSum remaining n < needed then none else smallestCover remaining n needed

/-- The over-budget fallback: the largest coins in turn until they cover their own need. -/
def largestFirst (need : Nat → Option Nat) : List PoolCoin → Nat → List Nat → Option (List Nat)
  | rest, covered, positions => do
    let needed ← need positions.length
    if needed ≤ covered then some positions
    else
      match rest with
      | [] => none
      | coin :: rest =>
        largestFirst need rest (wrapAdd64 covered coin.2) (positions ++ [positions.length])

def pickPositions (k maxInputBudget : Nat) (need : Nat → Option Nat) (remaining : List PoolCoin) :
    Option (List Nat) :=
  let budget := min maxInputBudget remaining.length
  match (List.range' 1 budget).findSome? (coverWith need remaining) with
  | some positions => some positions
  | none => if k = 1 then largestFirst need remaining 0 [] else none

/-! ## Filling the splits -/

/-- The loop over the splits: each takes an equal share of what is not yet assigned. -/
def fillSplits (total k maxInputBudget : Nat) (margin : Nat → Option Nat) :
    Nat → Nat → List PoolCoin → Option (List SplitPlan)
  | 0, _, _ => some []
  | left + 1, assigned, remaining => do
    let target := (total - assigned) / (left + 1)
    let positions ← pickPositions k maxInputBudget (needFor margin target) remaining
    -- the highest position goes first, so the lower ones stay valid
    let taken := removeAt (positions.insertionSort (· ≤ ·)).reverse remaining
    let plans ← fillSplits total k maxInputBudget margin left (assigned + target) taken.2
    some ({ utxos := taken.1.map Prod.fst, value := target } :: plans)

def planWithK (pool : List PoolCoin) (total k maxInputBudget : Nat) (fee : Nat → Option Nat)
    (minSplit : Nat) (exactChange : Option Nat) : Option (List SplitPlan) :=
  if k = 0 ∨ total < wrapMul64 k minSplit then none
  else fillSplits total k maxInputBudget (marginOf fee exactChange) k 0 pool

/-- The first plan from `k` splits down, or the empty plan. -/
def firstPlan (plan : Nat → Option (List SplitPlan)) : Nat → List SplitPlan
  | 0 => []
  | k + 1 => (plan (k + 1)).getD (firstPlan plan k)

/-- Split a spend over at most `maxSplits` funding transactions. -/
def planFundingSplits (pool : List PoolCoin) (total maxSplits maxInputBudget : Nat)
    (fee : Nat → Option Nat) (minSplit : Nat) (exactChange : Option Nat) : List SplitPlan :=
  let sorted := pool.insertionSort plansBefore
  firstPlan (fun k => planWithK sorted total k maxInputBudget fee minSplit exactChange) maxSplits

/-! ## Fees -/

/-- Double arithmetic as the fee formula uses it: products rounded to a double. -/
structure Doubles where
  round : ℚ → ℚ
  mono : Monotone round
  /-- half a unit in the last of 53 binary places -/
  close : ∀ x, 1 ≤ x → x ≤ 2 ^ 128 → |round x - x| ≤ x / 2 ^ 53

/-- `fee_at_rate_sats` at any finite rate a double can hold. -/
def Doubles.feeAtRateSats (D : Doubles) (vbytes : Nat) (rate : ℚ) : Option Nat :=
  if rate < minRelayFeeRate then none
  else
    let fee := D.round (rate * D.round vbytes)
    if 2 ^ 64 ≤ fee then none else some ⌈fee⌉.toNat

def Doubles.fundingFee (D : Doubles) (rate : ℚ) (inputs : Nat) : Option Nat :=
  D.feeAtRateSats (fundingTxVsize inputs) rate

variable {fee margin : Nat → Option Nat} {target needed need n : Nat} {pool : List PoolCoin}
  {positions : List Nat} {i minSplit : Nat} {exactChange : Option Nat}
  {covered k maxInputBudget total maxSplits : Nat} {remaining : List PoolCoin}
  {plan : List SplitPlan}

theorem Doubles.feeAtRateSats_natCast {D : Doubles} (hround : ∀ n : Nat, D.round n = roundF64 n)
    (vbytes rate : Nat) : D.feeAtRateSats vbytes rate = OpenSwap.feeAtRateSats vbytes rate := by
  have hfee : D.round (rate * D.round vbytes) = (roundF64 (rate * roundF64 vbytes) : Nat) := by
    rw [hround vbytes, ← Nat.cast_mul, hround]
  have hbig : ((2 : ℚ) ^ 64 ≤ (roundF64 (rate * roundF64 vbytes) : Nat)) ↔
      2 ^ 64 ≤ roundF64 (rate * roundF64 vbytes) := by
    exact_mod_cast Iff.rfl
  simp only [Doubles.feeAtRateSats, OpenSwap.feeAtRateSats, hfee, hbig, Nat.cast_lt,
    Int.ceil_natCast, Int.toNat_natCast]

/-- A longer transaction never costs less, and is not priced where a shorter one is not. -/
def FeeGrows (fee : Nat → Option Nat) : Prop :=
  ∀ ⦃m n f⦄, m ≤ n → fee n = some f → ∃ g ≤ f, fee m = some g

theorem Doubles.feeGrows (D : Doubles) (rate : ℚ) : FeeGrows (D.fundingFee rate) := by
  intro m n f hmn hf
  have hsize : ((fundingTxVsize m : Nat) : ℚ) ≤ (fundingTxVsize n : Nat) := by
    have : fundingTxVsize m ≤ fundingTxVsize n := by unfold fundingTxVsize; omega
    exact_mod_cast this
  simp only [fundingFee, Doubles.feeAtRateSats] at hf ⊢
  split at hf
  · exact absurd hf nofun
  next hrate =>
    have hpos : (0 : ℚ) ≤ rate := le_trans (by simp) (not_lt.mp hrate)
    have hle : D.round (rate * D.round (fundingTxVsize m : Nat)) ≤
        D.round (rate * D.round (fundingTxVsize n : Nat)) :=
      D.mono (mul_le_mul_of_nonneg_left (D.mono hsize) hpos)
    split at hf
    · exact absurd hf nofun
    next hfee =>
      have hfee' : ¬ 2 ^ 64 ≤ D.round (rate * D.round (fundingTxVsize m : Nat)) := fun h =>
        hfee (h.trans hle)
      refine ⟨_, ?_, by rw [if_neg hrate, if_neg hfee']⟩
      rw [← Option.some.inj hf]
      exact Int.toNat_le_toNat (Int.ceil_le_ceil hle)

theorem FeeGrows.marginOf (h : FeeGrows fee) (exactChange : Option Nat) :
    FeeGrows (marginOf fee exactChange) := by
  cases exactChange with
  | none => exact h
  | some change =>
    intro m n f _ hf
    exact ⟨f, le_rfl, hf⟩

/-! ## What a choice of coins covers -/

/-- Positions of distinct coins, at most `n` of them, that are worth `need`. -/
structure Covers (pool : List PoolCoin) (n need : Nat) (positions : List Nat) : Prop where
  nodup : positions.Nodup
  inRange : ∀ i ∈ positions, i < pool.length
  count : positions.length ≤ n
  worth : need ≤ (positions.map (valueAt pool)).sum

theorem needFor_eq_some {inputs} :
    needFor margin target inputs = some needed ↔
      ∃ price, margin inputs = some price ∧ target + price = needed ∧ needed < 2 ^ 64 := by
  simp [needFor, Option.bind_eq_some_iff, checkedAdd64_eq_some]

theorem wrapAdd64_le (a b : Nat) : wrapAdd64 a b ≤ a + b := Nat.mod_le _ _

theorem twoPointer_sound {value : Nat → Nat} {top best gap lo} (htop : lo + gap ≤ top)
    (hbest : ∀ b ∈ best, b.2.1 < b.2.2 ∧ b.2.2 ≤ top ∧
      b.1 = wrapAdd64 (value b.2.1) (value b.2.2) ∧ need ≤ b.1) :
    ∀ b ∈ twoPointer value need gap lo best, b.2.1 < b.2.2 ∧ b.2.2 ≤ top ∧
      b.1 = wrapAdd64 (value b.2.1) (value b.2.2) ∧ need ≤ b.1 := by
  induction gap generalizing lo best with
  | zero => exact hbest
  | succ gap ih =>
    rw [twoPointer]
    split
    next hneed =>
      refine ih (by omega) fun b hb => ?_
      split at hb
      · obtain rfl := Option.some.inj hb
        exact ⟨by dsimp; omega, htop, rfl, hneed⟩
      · exact hbest b hb
    · exact ih (by omega) hbest

theorem greedyPick_free {taken deficit} (h : greedyPick pool taken deficit = some i) :
    i < pool.length ∧ i ∉ taken := by
  have hmem : i ∈ (List.range pool.length).filter fun i => !taken.contains i := by
    rcases Option.or_eq_some_iff.mp h with h | ⟨_, h⟩
    · exact mem_of_find?_eq_some h
    · exact mem_reverse.mp (mem_of_find?_eq_some h)
  simpa using hmem

/-- The greedy fill only ever extends what is chosen by free coins. -/
theorem greedyFill_covers {picks chosen} (hn : chosen.Nodup) (hr : ∀ i ∈ chosen, i < pool.length)
    (hc : covered ≤ (chosen.map (valueAt pool)).sum)
    (h : greedyFill pool need picks chosen covered = some positions) :
    Covers pool (chosen.length + picks) need positions := by
  induction picks generalizing chosen covered with
  | zero => exact absurd h nofun
  | succ picks ih =>
    obtain ⟨pick, hpick, h⟩ := Option.bind_eq_some_iff.mp h
    obtain ⟨hlt, hfree⟩ := greedyPick_free hpick
    have hn' : (chosen ++ [pick]).Nodup := nodup_append.mpr
      ⟨hn, nodup_singleton _, fun a ha b hb hab => by simp_all⟩
    have hr' : ∀ i ∈ chosen ++ [pick], i < pool.length := by
      intro i hi
      rcases mem_append.mp hi with hi | hi
      · exact hr i hi
      · exact mem_singleton.mp hi ▸ hlt
    have hc' : wrapAdd64 covered (valueAt pool pick) ≤
        ((chosen ++ [pick]).map (valueAt pool)).sum := by
      have := wrapAdd64_le covered (valueAt pool pick)
      simp only [map_append, map_cons, map_nil, sum_append, sum_cons, sum_nil]
      omega
    dsimp only at h
    split at h
    next hneed =>
      obtain rfl := Option.some.inj h
      exact ⟨hn', hr', by simp, hneed.trans hc'⟩
    · have hcov := ih hn' hr' hc' h
      have hlen : (chosen ++ [pick]).length + picks = chosen.length + (picks + 1) := by
        rw [length_append, length_singleton, Nat.add_assoc, Nat.add_comm 1]
      exact hlen ▸ hcov

theorem smallestCover_covers (h : smallestCover pool n need = some positions) :
    Covers pool n need positions := by
  rw [smallestCover] at h
  split at h
  · exact absurd h nofun
  split at h
  · next hn =>
    obtain ⟨i, hi, rfl⟩ := Option.map_eq_some_iff.mp h
    have hmem := mem_range.mp (mem_reverse.mp (mem_of_find?_eq_some hi))
    have hneed : need ≤ valueAt pool i := by simpa using find?_some hi
    exact ⟨nodup_singleton _, by simpa using hmem, by simp [hn], by simpa using hneed⟩
  split at h
  · next hlen _ hn =>
    obtain ⟨best, hbest, rfl⟩ := Option.map_eq_some_iff.mp h
    obtain ⟨hlt, hle, hsum, hneed⟩ := twoPointer_sound (Nat.zero_add _).le (by simp) best hbest
    refine ⟨?_, ?_, by simp [hn], by simpa using (hsum ▸ hneed).trans (wrapAdd64_le _ _)⟩
    · simp only [nodup_cons, mem_singleton, not_mem_nil, not_false_eq_true, nodup_nil, and_true]
      omega
    · intro i hi
      simp only [mem_cons, not_mem_nil, or_false] at hi
      omega
  · have := greedyFill_covers nodup_nil (by simp) (by simp) h
    simpa using this

/-- A number of largest coins that cover their own need, and the least such number
unless the pool is worth more than an amount can hold. -/
structure LeastTop (need : Nat → Option Nat) (pool : List PoolCoin) (start n : Nat) : Prop where
  le : n ≤ pool.length
  covers : ∃ needed, need n = some needed ∧ needed ≤ worth Prod.snd (pool.take n)
  least : worth Prod.snd pool < 2 ^ 64 → ∀ m needed, start ≤ m → m < n → need m = some needed →
    worth Prod.snd (pool.take m) < needed

theorem largestFirst_leastTop {need : Nat → Option Nat} {count result} (hle : count ≤ pool.length)
    (hcov : covered ≤ worth Prod.snd (pool.take count))
    (hexact : worth Prod.snd pool < 2 ^ 64 → covered = worth Prod.snd (pool.take count))
    (h : largestFirst need (pool.drop count) covered (List.range count) = some result) :
    ∃ n, result = List.range n ∧ LeastTop need pool count n := by
  induction hgap : pool.length - count generalizing count covered with
  | zero =>
    rw [drop_eq_nil_of_le (by omega), largestFirst, length_range] at h
    obtain ⟨needed, hneed, h⟩ := Option.bind_eq_some_iff.mp h
    split at h
    next hcovers =>
      obtain rfl := Option.some.inj h
      exact ⟨count, rfl, hle, ⟨needed, hneed, hcovers.trans hcov⟩, fun _ m _ _ _ => by omega⟩
    next => exact absurd h nofun
  | succ gap ih =>
    have hlt : count < pool.length := by omega
    rw [drop_eq_getElem_cons hlt, largestFirst, length_range, ← range_succ] at h
    obtain ⟨needed, hneed, h⟩ := Option.bind_eq_some_iff.mp h
    split at h
    next hcovers =>
      obtain rfl := Option.some.inj h
      exact ⟨count, rfl, hle, ⟨needed, hneed, hcovers.trans hcov⟩, fun _ m _ _ _ => by omega⟩
    next hshort =>
      have htake : worth Prod.snd (pool.take (count + 1)) = _ := worth_take_add_one hlt
      have hwrap := wrapAdd64_le covered pool[count].2
      have hlt' : count + 1 ≤ pool.length := hlt
      have hexact' : worth Prod.snd pool < 2 ^ 64 →
          wrapAdd64 covered pool[count].2 = worth Prod.snd (pool.take (count + 1)) := by
        intro hsmall
        have hbound : worth Prod.snd (pool.take (count + 1)) ≤ worth Prod.snd pool :=
          worth_le_of_sublist (take_sublist _ _)
        rw [htake, ← hexact hsmall] at hbound ⊢
        exact Nat.mod_eq_of_lt (hbound.trans_lt hsmall)
      obtain ⟨n, rfl, hn⟩ := ih hlt' (by omega) hexact' h (by omega)
      refine ⟨n, rfl, hn.le, hn.covers, fun hsmall m needed' hm hmn hneed' => ?_⟩
      rcases Nat.lt_or_ge count m with hcm | hcm
      · exact hn.least hsmall m needed' hcm hmn hneed'
      · obtain rfl : m = count := by omega
        obtain rfl : needed' = needed := Option.some.inj (hneed'.symm.trans hneed)
        omega

theorem coverWith_covers {need : Nat → Option Nat}
    (h : coverWith need remaining n = some positions) :
    ∃ needed, need n = some needed ∧ Covers remaining n needed positions := by
  obtain ⟨needed, hneed, h⟩ := Option.bind_eq_some_iff.mp h
  split at h
  · exact absurd h nofun
  · exact ⟨needed, hneed, smallestCover_covers h⟩

/-- The coins of a split cover what their own number needs, and exceed the budget
only in a plan of one split. -/
theorem pickPositions_covers (hgrows : FeeGrows margin)
    (h : pickPositions k maxInputBudget (needFor margin target) remaining = some positions) :
    (∃ price, margin positions.length = some price ∧
      Covers remaining positions.length (target + price) positions) ∧
    (k ≠ 1 → positions.length ≤ maxInputBudget) := by
  rw [pickPositions] at h
  split at h
  next found hsearch =>
    obtain rfl := Option.some.inj h
    obtain ⟨n, -, hn, hcover, -⟩ := findSome_range_eq_some hsearch
    obtain ⟨needed, hneed, hc⟩ := coverWith_covers hcover
    obtain ⟨price, hprice, rfl, -⟩ := needFor_eq_some.mp hneed
    obtain ⟨price', hle, hprice'⟩ := hgrows hc.count hprice
    have hworth := hc.worth
    refine ⟨⟨price', hprice', hc.nodup, hc.inRange, le_rfl, by omega⟩, fun _ => ?_⟩
    have := hc.count
    omega
  next =>
    split at h
    next hk =>
      obtain ⟨n, rfl, hn⟩ :=
        largestFirst_leastTop (Nat.zero_le remaining.length) (Nat.zero_le _) (fun _ => rfl) h
      obtain ⟨needed, hneed, hworth⟩ := hn.covers
      obtain ⟨price, hprice, rfl, -⟩ := needFor_eq_some.mp hneed
      rw [length_range]
      refine ⟨⟨price, hprice, nodup_range, ?_, by simp, ?_⟩, fun hk' => absurd hk hk'⟩
      · intro i hi
        exact (mem_range.mp hi).trans_le hn.le
      · exact hworth.trans_eq (sum_worthAt_range hn.le).symm
    next => exact absurd h nofun

theorem pickPositions_le {k maxInputBudget} {need : Nat → Option Nat} {remaining n} (hn : 1 ≤ n)
    (hb : n ≤ maxInputBudget) (hlen : n ≤ remaining.length)
    (h : (coverWith need remaining n).isSome) :
    ∃ positions, pickPositions k maxInputBudget need remaining = some positions ∧
      positions.length ≤ n := by
  have hfound : ((List.range' 1 (min maxInputBudget remaining.length)).findSome?
      (coverWith need remaining)).isSome :=
    findSome?_isSome_iff.mpr ⟨n, mem_range'_1.mpr ⟨hn, by omega⟩, h⟩
  obtain ⟨positions, hpositions⟩ := Option.isSome_iff_exists.mp hfound
  obtain ⟨m, -, -, hm, hleast⟩ := findSome_range_eq_some hpositions
  obtain ⟨needed, -, hcovers⟩ := coverWith_covers hm
  refine ⟨positions, by simp [pickPositions, hpositions], hcovers.count.trans ?_⟩
  by_contra hlt
  rw [hleast n hn (by omega)] at h
  exact absurd h nofun

/-! ## Searches that succeed -/

theorem foldl_satAdd64 {a : Nat} {l : List Nat} (h : a ≤ 2 ^ 64 - 1) :
    l.foldl satAdd64 a = min (a + l.sum) (2 ^ 64 - 1) := by
  induction l generalizing a with
  | nil => simpa using h
  | cons b l ih =>
    rw [foldl_cons, satAdd64, ih (Nat.min_le_right _ _), sum_cons]
    omega

theorem le_topSum (hlt : needed < 2 ^ 64) (h : needed ≤ worth Prod.snd (remaining.take n)) :
    needed ≤ topSum remaining n := by
  rw [topSum, foldl_satAdd64 (Nat.zero_le _), Nat.zero_add]
  rw [worth] at h
  omega

theorem valueAt_eq (h : i < pool.length) :
    valueAt pool i = pool[i].2 := by
  simp [valueAt, worthAt, getElem?_eq_getElem h]

/-! ## What the loop over the splits does -/

/-- The splits of a plan with the coins each one takes from what the earlier ones left;
`due` is what the splits still left have to send together. -/
inductive Fills (k maxInputBudget : Nat) (margin : Nat → Option Nat) :
    Nat → Nat → List PoolCoin → List SplitPlan → Prop
  | done {due remaining} : Fills k maxInputBudget margin 0 due remaining []
  | split {left due price remaining coins rest positions plans}
      (pick : pickPositions k maxInputBudget (needFor margin (due / (left + 1))) remaining =
        some positions) (count : coins.length = positions.length)
      (perm : remaining.Perm (coins ++ rest)) (kept : rest.Sublist remaining)
      (priced : margin coins.length = some price)
      (covers : due / (left + 1) + price ≤ worth Prod.snd coins)
      (budget : k ≠ 1 → coins.length ≤ maxInputBudget)
      (tail : Fills k maxInputBudget margin left (due - due / (left + 1)) rest plans) :
      Fills k maxInputBudget margin (left + 1) due remaining
        ({ utxos := coins.map Prod.fst, value := due / (left + 1) } :: plans)

/-- Sorted and reversed, the positions of a choice can be removed one by one. -/
theorem Covers.removed {pool n need positions} (h : Covers pool n need positions) :
    Removed Prod.snd (positions.insertionSort (· ≤ ·)).reverse pool := by
  have hperm : (positions.insertionSort (· ≤ ·)).Perm positions := perm_insertionSort _ _
  refine removeAt_removed ?_ fun i hi => h.inRange i (hperm.mem_iff.mp (mem_reverse.mp hi))
  have hsorted := pairwise_insertionSort (· ≤ ·) positions
  have hnodup : (positions.insertionSort (· ≤ ·)).Nodup := hperm.nodup_iff.mpr h.nodup
  rw [pairwise_reverse]
  exact hsorted.imp₂ (fun _ _ hle hne => lt_of_le_of_ne hle hne) hnodup

theorem fillSplits_fills {left assigned} (hgrows : FeeGrows margin)
    (h : fillSplits total k maxInputBudget margin left assigned remaining = some plan) :
    Fills k maxInputBudget margin left (total - assigned) remaining plan := by
  induction left generalizing assigned remaining plan with
  | zero =>
    obtain rfl := Option.some.inj h
    exact .done
  | succ left ih =>
    obtain ⟨positions, hpick, h⟩ := Option.bind_eq_some_iff.mp h
    obtain ⟨plans, hplans, h⟩ := Option.bind_eq_some_iff.mp h
    obtain rfl := Option.some.inj h
    obtain ⟨⟨price, hprice, hcovers⟩, hbudget⟩ := pickPositions_covers hgrows hpick
    have hremoved := hcovers.removed
    have hperm : (positions.insertionSort (· ≤ ·)).reverse.Perm positions :=
      (reverse_perm _).trans (perm_insertionSort _ _)
    have hlen := hremoved.length.trans hperm.length_eq
    have hworth := hremoved.worth.trans (hperm.map _).sum_eq
    refine .split hpick hlen hremoved.perm hremoved.rest (hlen ▸ hprice) ?_ (hlen ▸ hbudget) ?_
    · exact hcovers.worth.trans_eq hworth.symm
    · exact Nat.sub_sub total assigned _ ▸ ih hplans

section Fills

variable {k maxInputBudget left due : Nat} {margin : Nat → Option Nat} {remaining : List PoolCoin}
  {plan : List SplitPlan} {q : Nat} {pool' : List PoolCoin}

theorem Fills.length (h : Fills k maxInputBudget margin left due remaining plan) :
    plan.length = left := by
  induction h with
  | done => rfl
  | split _ _ _ _ _ _ _ _ ih => simp [ih]

theorem share_in_range (hlow : q * (left + 1) ≤ due) (hhigh : due ≤ (q + 1) * (left + 1)) :
    (q ≤ due / (left + 1) ∧ due / (left + 1) ≤ q + 1) ∧
      q * left ≤ due - due / (left + 1) ∧ due - due / (left + 1) ≤ (q + 1) * left := by
  have hpos : 0 < left + 1 := Nat.succ_pos _
  have hdiv := Nat.div_add_mod due (left + 1)
  have hlt := Nat.mod_lt due hpos
  have hq : q ≤ due / (left + 1) := (Nat.le_div_iff_mul_le hpos).mpr hlow
  have hq' : due / (left + 1) ≤ q + 1 := Nat.div_le_of_le_mul (Nat.mul_comm _ _ ▸ hhigh)
  generalize due / (left + 1) = share at *
  rw [Nat.mul_succ] at hlow hhigh
  rw [Nat.succ_mul, Nat.mul_comm left] at hdiv
  obtain rfl | rfl : share = q ∨ share = q + 1 := by omega
  · rw [Nat.succ_mul]
    omega
  · rw [Nat.succ_mul] at hdiv hhigh ⊢
    omega

/-- Shares of what is left are equal up to one satoshi, and nothing stays unassigned. -/
theorem Fills.values (h : Fills k maxInputBudget margin left due remaining plan)
    (hlow : q * left ≤ due) (hhigh : due ≤ (q + 1) * left) :
    (∀ s ∈ plan, q ≤ s.value ∧ s.value ≤ q + 1) ∧ (plan.map (·.value)).sum = due := by
  induction h with
  | done => exact ⟨by simp, by simp at hhigh ⊢; omega⟩
  | split _ _ _ _ _ _ _ _ ih =>
    obtain ⟨hfirst, hlow', hhigh'⟩ := share_in_range hlow hhigh
    obtain ⟨hvalues, hsum⟩ := ih hlow' hhigh'
    constructor
    · intro s hs
      rcases mem_cons.mp hs with rfl | hs
      · exact hfirst
      · exact hvalues s hs
    · rw [map_cons, sum_cons, hsum]
      exact Nat.add_sub_of_le (Nat.div_le_self _ _)

theorem Fills.coins (h : Fills k maxInputBudget margin left due remaining plan) :
    ∃ coins rest, remaining.Perm (coins ++ rest) ∧ plan.flatMap (·.utxos) = coins.map Prod.fst := by
  induction h with
  | @done _ remaining => exact ⟨[], remaining, .refl _, rfl⟩
  | @split _ _ _ _ coins _ _ _ _ _ hperm _ _ _ _ _ ih =>
    obtain ⟨later, rest, hrest, heq⟩ := ih
    refine ⟨coins ++ later, rest, ?_, by simp [heq]⟩
    rw [append_assoc]
    exact hperm.trans (hrest.append_left coins)

def worthOf (pool : List PoolCoin) (utxos : List OutPoint) : Nat :=
  worth Prod.snd (pool.filter fun coin => coin.1 ∈ utxos)

theorem worthOf_perm (h : pool.Perm pool') (utxos : List OutPoint) :
    worthOf pool utxos = worthOf pool' utxos := worth_perm (h.filter _)

theorem worthOf_mono (h : pool.Sublist pool') (utxos : List OutPoint) :
    worthOf pool utxos ≤ worthOf pool' utxos :=
  worth_le_of_sublist (h.filter _)

theorem worth_le_worthOf {coins rest} (h : pool.Perm (coins ++ rest)) :
    worth Prod.snd coins ≤ worthOf pool (coins.map Prod.fst) := by
  have hself : coins.filter (fun coin => coin.1 ∈ coins.map Prod.fst) = coins :=
    filter_eq_self.mpr fun coin hcoin => by simpa using ⟨_, hcoin⟩
  rw [worthOf_perm h, worthOf, filter_append, hself, worth_append]
  exact Nat.le_add_right _ _

theorem Fills.covers (h : Fills k maxInputBudget margin left due remaining plan) :
    ∀ s ∈ plan, ∃ price, margin s.utxos.length = some price ∧
      s.value + price ≤ worthOf remaining s.utxos := by
  induction h with
  | done => simp
  | split _ _ hperm hkept hpriced hcovers _ _ ih =>
    intro s hs
    rcases mem_cons.mp hs with rfl | hs
    · exact ⟨_, by simpa using hpriced, hcovers.trans (worth_le_worthOf hperm)⟩
    · obtain ⟨price, hprice, hle⟩ := ih s hs
      exact ⟨price, hprice, hle.trans (worthOf_mono hkept _)⟩

/-- The coins a plan takes are worth what it sends. -/
theorem Fills.due_le (h : Fills k maxInputBudget margin left due remaining plan)
    (hleft : left = 0 → due = 0) : due ≤ worth Prod.snd remaining := by
  induction h with
  | done =>
    rw [hleft rfl]
    exact Nat.zero_le _
  | split _ _ hperm _ _ hcovers _ _ ih =>
    have hrest := ih fun h0 => by simp [h0]
    rw [worth_perm hperm, worth_append]
    omega

theorem Fills.budget (h : Fills k maxInputBudget margin left due remaining plan) (hk : k ≠ 1) :
    ∀ s ∈ plan, s.utxos.length ≤ maxInputBudget := by
  induction h with
  | done => simp
  | split _ _ _ _ _ _ hbudget _ ih =>
    intro s hs
    rcases mem_cons.mp hs with rfl | hs
    · simpa using hbudget hk
    · exact ih s hs

end Fills

/-! ## Plans -/

theorem firstPlan_eq {f : Nat → Option (List SplitPlan)} (h : firstPlan f n ≠ []) :
    ∃ k, 1 ≤ k ∧ k ≤ n ∧ f k = some (firstPlan f n) := by
  induction n with
  | zero => exact absurd rfl h
  | succ n ih =>
    rw [firstPlan] at h ⊢
    cases hf : f (n + 1) with
    | some plan => exact ⟨n + 1, by omega, le_rfl, by simpa using hf⟩
    | none =>
      rw [hf, Option.getD_none] at h
      obtain ⟨k, hk, hkn, heq⟩ := ih h
      exact ⟨k, hk, by omega, by simpa using heq⟩

theorem descending_sorted (pool : List PoolCoin) :
    Descending Prod.snd (pool.insertionSort plansBefore) := by
  refine descending_insertionSort ?_ ?_ pool
  · rintro a b (h | h) <;> omega
  · intro a b h
    have : ¬ b.2 < a.2 := fun hlt => h (.inl hlt)
    omega

theorem planFundingSplits_fills (hgrows : FeeGrows fee)
    (hplan : planFundingSplits pool total maxSplits maxInputBudget fee minSplit exactChange = plan)
    (h : plan ≠ []) :
    ∃ k, 1 ≤ k ∧ k ≤ maxSplits ∧ wrapMul64 k minSplit ≤ total ∧
      Fills k maxInputBudget (marginOf fee exactChange) k total
        (pool.insertionSort plansBefore) plan := by
  subst hplan
  obtain ⟨k, hk, hkn, heq⟩ := firstPlan_eq h
  dsimp only [planWithK] at heq
  split at heq
  · exact absurd heq nofun
  next hfloor =>
    refine ⟨k, hk, hkn, by omega, ?_⟩
    exact fillSplits_fills (hgrows.marginOf _) heq

structure PlanFits (pool : List PoolCoin) (total maxSplits maxInputBudget : Nat)
    (fee : Nat → Option Nat) (minSplit : Nat) (exactChange : Option Nat) (plan : List SplitPlan) :
    Prop where
  count : plan.length ≤ maxSplits
  total : (plan.map (·.value)).sum = total
  floor : ∀ s ∈ plan, minSplit ≤ s.value
  balanced : ∀ s ∈ plan, ∀ t ∈ plan, s.value ≤ t.value + 1
  fromPool : ∀ s ∈ plan, ∀ utxo ∈ s.utxos, utxo ∈ pool.map Prod.fst
  distinct : (plan.flatMap (·.utxos)).Nodup
  covers : ∀ s ∈ plan, ∃ margin, marginOf fee exactChange s.utxos.length = some margin ∧
    s.value + margin ≤ worthOf pool s.utxos
  budget : plan.length ≠ 1 → ∀ s ∈ plan, s.utxos.length ≤ maxInputBudget

theorem planFundingSplits_fits (hfloor : maxSplits * minSplit < 2 ^ 64) (hgrows : FeeGrows fee)
    (hpool : (pool.map Prod.fst).Nodup)
    (hplan : planFundingSplits pool total maxSplits maxInputBudget fee minSplit exactChange = plan)
    (h : plan ≠ []) :
    PlanFits pool total maxSplits maxInputBudget fee minSplit exactChange plan := by
  obtain ⟨k, hk, hkn, hmin, hfills⟩ := planFundingSplits_fills hgrows hplan h
  have hsorted : (pool.insertionSort plansBefore).Perm pool := perm_insertionSort _ _
  have hmul : k * minSplit ≤ total := by
    have : k * minSplit < 2 ^ 64 := (Nat.mul_le_mul_right _ hkn).trans_lt hfloor
    rwa [wrapMul64, Nat.mod_eq_of_lt this] at hmin
  have hmod := Nat.div_add_mod total k
  have hlt := Nat.mod_lt total hk
  have hq : minSplit ≤ total / k := (Nat.le_div_iff_mul_le hk).mpr (by rwa [Nat.mul_comm])
  obtain ⟨hvalues, hsum⟩ := hfills.values (q := total / k) (Nat.div_mul_le_self _ _)
    (by rw [Nat.succ_mul, Nat.mul_comm]; omega)
  obtain ⟨coins, rest, hperm, hcoins⟩ := hfills.coins
  have hfst : (pool.map Prod.fst).Perm (coins.map Prod.fst ++ rest.map Prod.fst) := by
    simpa using (hsorted.symm.trans hperm).map Prod.fst
  refine ⟨hfills.length.trans_le hkn, hsum, fun s hs => hq.trans (hvalues s hs).1, ?_, ?_, ?_, ?_,
    ?_⟩
  · intro s hs t ht
    have := hvalues s hs
    have := hvalues t ht
    omega
  · intro s hs utxo hutxo
    have hmem : utxo ∈ plan.flatMap (·.utxos) := mem_flatMap.mpr ⟨s, hs, hutxo⟩
    exact hfst.mem_iff.mpr (mem_append_left _ (hcoins ▸ hmem))
  · rw [hcoins]
    exact (nodup_append.mp (hfst.nodup_iff.mp hpool)).1
  · intro s hs
    obtain ⟨margin, hmargin, hle⟩ := hfills.covers s hs
    exact ⟨margin, hmargin, worthOf_perm hsorted _ ▸ hle⟩
  · exact fun hne => hfills.budget (hfills.length ▸ hne)

/-- Doubles that never round: exact on every product below 53 bits. -/
def Doubles.exact : Doubles where
  round := id
  mono := monotone_id
  close := by
    intro x hx _
    simp only [id_eq, sub_self, abs_zero]
    positivity

/-- **A plan keeps its promises**: for coins that can exist, a spend no smaller than one split
and as many splits as a swap may have. -/
theorem plans_fit (D : Doubles) (rate : ℚ) {pool : List PoolCoin}
    {total maxSplits maxInputBudget minSplit : Nat} {exactChange : Option Nat}
    {plan : List SplitPlan} (hpool : (pool.map Prod.fst).Nodup)
    (hsupply : worth Prod.snd pool ≤ maxMoney) (hmin : minSplit ≤ total)
    (hsplits : maxSplits ≤ maxTxCount)
    (hplan : planFundingSplits pool total maxSplits maxInputBudget (D.fundingFee rate) minSplit
      exactChange = plan) (hne : plan ≠ []) :
    PlanFits pool total maxSplits maxInputBudget (D.fundingFee rate) minSplit exactChange plan := by
  have hsorted : (pool.insertionSort plansBefore).Perm pool := perm_insertionSort _ _
  obtain ⟨k, hk, -, -, hfills⟩ := planFundingSplits_fills (D.feeGrows rate) hplan hne
  have htotal : total ≤ worth Prod.snd pool :=
    worth_perm hsorted ▸ hfills.due_le fun h0 => absurd h0 (by omega)
  -- the product of the guard is at most that of ten splits of all the coins there are
  have hfloor : maxSplits * minSplit < 2 ^ 64 :=
    calc maxSplits * minSplit ≤ maxTxCount * maxMoney :=
          Nat.mul_le_mul hsplits (hmin.trans (htotal.trans hsupply))
      _ < 2 ^ 64 := by decide
  exact planFundingSplits_fits hfloor (D.feeGrows rate) hpool hplan hne

/-- Two coins of 60000 pay 100000 in two splits. -/
theorem plans_fit_sample :
    PlanFits [(⟨[1], 0⟩, 60000), (⟨[2], 0⟩, 60000)] 100000 2 4 (Doubles.exact.fundingFee 1) 1000
      none [⟨[⟨[1], 0⟩], 50000⟩, ⟨[⟨[2], 0⟩], 50000⟩] :=
  plans_fit Doubles.exact 1 (by decide) (by decide) (by decide) (by decide) (by decide +kernel)
    (by decide)

end OpenSwap
