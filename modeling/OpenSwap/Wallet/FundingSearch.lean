import OpenSwap.Wallet.Funding

/-!
# Which spends a funding plan refuses, and how few coins it takes

The cover search is exact for one and two coins and greedy above; the fallback
of a plan of one split takes the largest coins.

All coins together are worth at most the money supply, so sums of coins and the
fees they pay stay far below 64 bits and a double is exact to a few satoshis.
-/

namespace OpenSwap

open Btc Selection List Option

/-! ## Fees of joined inputs -/

section fees

variable {rate : ℚ} {v : ℚ} {D : Doubles} {vbytes f : Nat}

theorem Doubles.round_mul_rel (D : Doubles) (hrate : 1 ≤ rate) (hv : 2 ≤ v)
    (hle : rate * v ≤ 2 ^ 55) : |D.round (rate * D.round v) - rate * v| ≤ rate * v / 2 ^ 51 := by
  have hv' : v ≤ 2 ^ 55 := le_trans (le_mul_of_one_le_left (by linarith) hrate) hle
  have hclose := D.close v (by linarith) (hv'.trans (by norm_num))
  have hprodpos : 0 ≤ rate * v := mul_nonneg (by linarith) (by linarith)
  have hmul : |rate * D.round v - rate * v| ≤ rate * v / 2 ^ 53 := by
    rw [← mul_sub, abs_mul, abs_of_nonneg (by linarith : (0 : ℚ) ≤ rate)]
    calc rate * |D.round v - v| ≤ rate * (v / 2 ^ 53) :=
          mul_le_mul_of_nonneg_left hclose (by linarith)
      _ = rate * v / 2 ^ 53 := by ring
  have hone : 1 ≤ D.round v := by
    have := (abs_le.mp hclose).1
    linarith
  have hprod : rate * D.round v ≤ 2 * (rate * v) := by
    have := (abs_le.mp hmul).2
    linarith
  have hpos : 1 ≤ rate * D.round v := by
    nlinarith
  have hlast := D.close _ hpos (by linarith)
  rw [abs_le] at hlast hmul ⊢
  constructor <;> linarith [hlast.1, hlast.2, hmul.1, hmul.2]

/-- A product within 55 bits is off by a few units at most. -/
theorem Doubles.round_mul_close (D : Doubles) (hrate : 1 ≤ rate) (hv : 2 ≤ v)
    (hle : rate * v ≤ 2 ^ 55) : |D.round (rate * D.round v) - rate * v| ≤ 16 := by
  refine (D.round_mul_rel hrate hv hle).trans ?_
  linarith

theorem two_le_fundingTxVsize (inputs : Nat) : (2 : ℚ) ≤ (fundingTxVsize inputs : Nat) := by
  have : 2 ≤ fundingTxVsize inputs := by unfold fundingTxVsize; omega
  exact_mod_cast this

theorem Doubles.feeAtRateSats_eq_some :
    D.feeAtRateSats vbytes rate = some f ↔
      1 ≤ rate ∧ D.round (rate * D.round vbytes) < 2 ^ 64 ∧
        ⌈D.round (rate * D.round vbytes)⌉.toNat = f := by
  have hmin : ((minRelayFeeRate : Nat) : ℚ) = 1 := by norm_num [minRelayFeeRate]
  simp only [Doubles.feeAtRateSats, hmin]
  split
  next h => simp [h]
  next h =>
    split
    next h' => simp [h']
    next h' => simp [not_lt.mp h, not_le.mp h']

theorem Doubles.round_le_fee (h : D.feeAtRateSats vbytes rate = some f) :
    D.round (rate * D.round vbytes) ≤ f := by
  obtain ⟨-, -, rfl⟩ := feeAtRateSats_eq_some.mp h
  exact (Int.le_ceil _).trans (by exact_mod_cast Int.self_le_toNat _)

theorem Doubles.product_le_of_fee_le (hv : (2 : ℚ) ≤ vbytes)
    (h : D.feeAtRateSats vbytes rate = some f) (hf : f ≤ maxMoney) :
    rate * vbytes ≤ 2 ^ 53 := by
  obtain ⟨hrate, -, -⟩ := feeAtRateSats_eq_some.mp h
  have hfee : D.round (rate * D.round vbytes) ≤ (2 : ℚ) ^ 51 := by
    have hmoney : (f : ℚ) ≤ (maxMoney : Nat) := by exact_mod_cast hf
    exact ((round_le_fee h).trans hmoney).trans (by norm_num [maxMoney])
  generalize (vbytes : ℚ) = v at *
  -- rounding keeps order, so a larger product would show in the fee
  have hlarge : ∀ x : ℚ, 2 ^ 52 ≤ x → 2 ^ 51 < D.round x := by
    intro x hx
    have hclose := (abs_le.mp (D.close (2 ^ 52) (by norm_num) (by norm_num))).1
    have hmono := D.mono hx
    norm_num at hclose hmono ⊢
    linarith
  have hprod : rate * D.round v < 2 ^ 52 := by
    by_contra hge
    exact absurd hfee (not_le.mpr (hlarge _ (not_lt.mp hge)))
  rcases le_total v (2 ^ 128) with hle | hge
  · have hclose := (abs_le.mp (D.close v (by linarith) hle)).1
    have hhalf : v / 2 ≤ D.round v := by
      linarith
    have := mul_le_mul_of_nonneg_left hhalf (by linarith : 0 ≤ rate)
    linarith
  · have hclose := (abs_le.mp (D.close (2 ^ 128) (by norm_num) le_rfl)).1
    have hround : 2 ^ 127 ≤ D.round v := by
      have hmono := D.mono hge
      norm_num at hclose hmono ⊢
      linarith
    have : D.round v ≤ rate * D.round v := le_mul_of_one_le_left (by linarith) hrate
    linarith

/-- Two transactions never cost less than the one that joins their inputs. -/
theorem Doubles.fundingFee_join {a b fa fb} (ha : D.fundingFee rate a = some fa)
    (hb : D.fundingFee rate b = some fb) (hsum : fa + fb ≤ maxMoney) :
    ∃ f ≤ fa + fb, D.fundingFee rate (a + b) = some f := by
  have hpa := product_le_of_fee_le (two_le_fundingTxVsize a) ha (by omega)
  have hpb := product_le_of_fee_le (two_le_fundingTxVsize b) hb (by omega)
  obtain ⟨hrate, -, -⟩ := feeAtRateSats_eq_some.mp ha
  have hsize : ((fundingTxVsize (a + b) : Nat) : ℚ) + 97 =
      (fundingTxVsize a : Nat) + (fundingTxVsize b : Nat) := by
    have : fundingTxVsize (a + b) + 97 = fundingTxVsize a + fundingTxVsize b := by
      unfold fundingTxVsize; omega
    exact_mod_cast this
  have hjoin : rate * (fundingTxVsize (a + b) : Nat) + 97 ≤
      rate * (fundingTxVsize a : Nat) + rate * (fundingTxVsize b : Nat) := by
    rw [← mul_add, ← hsize, mul_add]
    linarith
  have hea := (abs_le.mp (D.round_mul_close hrate (two_le_fundingTxVsize a) (by linarith))).1
  have heb := (abs_le.mp (D.round_mul_close hrate (two_le_fundingTxVsize b) (by linarith))).1
  have hej := (abs_le.mp (D.round_mul_close hrate (two_le_fundingTxVsize (a + b)) (by linarith))).2
  have hfa : D.round (rate * D.round (fundingTxVsize a : Nat)) ≤ fa := round_le_fee ha
  have hfb : D.round (rate * D.round (fundingTxVsize b : Nat)) ≤ fb := round_le_fee hb
  have hle : D.round (rate * D.round (fundingTxVsize (a + b) : Nat)) ≤ ((fa + fb : Nat) : ℚ) := by
    push_cast
    linarith
  have hmoney : ((fa + fb : Nat) : ℚ) ≤ (maxMoney : Nat) := by exact_mod_cast hsum
  refine ⟨_, ?_, feeAtRateSats_eq_some.mpr ⟨hrate, ?_, rfl⟩⟩
  · exact Int.toNat_le.mpr (Int.ceil_le.mpr (by exact_mod_cast hle))
  · exact (hle.trans hmoney).trans_lt (by norm_num [maxMoney])

/-- Added inputs raise the fee by no more than each alone, up to a rounding that the
price of one funding transaction absorbs. -/
theorem Doubles.fee_of_added_inputs {inputs added priced paid each policy total}
    (hpaid : D.fundingFee rate inputs = some paid)
    (heach : D.feeAtRateSats (fundingTxVsize 2 - fundingTxVsize 1) rate = some each)
    (hpolicy : D.fundingFee rate priced = some policy)
    (htotal : D.fundingFee rate (inputs + added) = some total) (hpaidLe : paid ≤ maxMoney)
    (haddedLe : added * each ≤ maxMoney) (hpolicyLe : policy ≤ maxMoney) :
    total ≤ paid + added * each + policy := by
  rcases Nat.eq_zero_or_pos added with rfl | hadded
  · obtain rfl : paid = total := Option.some.inj (hpaid.symm.trans htotal)
    omega
  obtain ⟨hrate, -, rfl⟩ := feeAtRateSats_eq_some.mp htotal
  have heachLe : each ≤ maxMoney := (Nat.le_mul_of_pos_left each hadded).trans haddedLe
  have hpaidProduct := product_le_of_fee_le (two_le_fundingTxVsize inputs) hpaid hpaidLe
  have hpolicyProduct := product_le_of_fee_le (two_le_fundingTxVsize priced) hpolicy hpolicyLe
  have heachProduct := product_le_of_fee_le (by norm_num [fundingTxVsize]) heach heachLe
  have hpaidRound := (abs_le.mp (D.round_mul_close hrate (two_le_fundingTxVsize inputs)
    (by linarith))).1
  have hpolicyRound := (abs_le.mp (D.round_mul_close hrate (two_le_fundingTxVsize priced)
    (by linarith))).1
  have heachRound := (abs_le.mp (D.round_mul_rel hrate (by norm_num [fundingTxVsize])
    (by linarith : rate * ((fundingTxVsize 2 - fundingTxVsize 1 : Nat) : ℚ) ≤ 2 ^ 55))).1
  have hpaidFee : D.round (rate * D.round (fundingTxVsize inputs : Nat)) ≤ paid :=
    round_le_fee hpaid
  have hpolicyFee : D.round (rate * D.round (fundingTxVsize priced : Nat)) ≤ policy :=
    round_le_fee hpolicy
  have heachFee := round_le_fee heach
  have hone : ((fundingTxVsize 2 - fundingTxVsize 1 : Nat) : ℚ) = 68 := by norm_num [fundingTxVsize]
  rw [hone] at heachRound heachFee
  have hsize : ((fundingTxVsize (inputs + added) : Nat) : ℚ) =
      (fundingTxVsize inputs : Nat) + 68 * added := by
    have : fundingTxVsize (inputs + added) = fundingTxVsize inputs + 68 * added := by
      unfold fundingTxVsize
      omega
    exact_mod_cast this
  have hpriced : (97 : ℚ) ≤ rate * (fundingTxVsize priced : Nat) := by
    have : 97 ≤ fundingTxVsize priced := by
      unfold fundingTxVsize
      omega
    have : (97 : ℚ) ≤ (fundingTxVsize priced : Nat) := by exact_mod_cast this
    exact this.trans (le_mul_of_one_le_left (by linarith) hrate)
  -- the added inputs together: their fees bound their product, so what is lost is small
  have hinputs : (added : ℚ) * (rate * 68 - rate * 68 / 2 ^ 51) ≤ ((added * each : Nat) : ℚ) := by
    push_cast
    exact mul_le_mul_of_nonneg_left (by linarith) (by positivity)
  have hinputsLe : ((added * each : Nat) : ℚ) ≤ 2 ^ 51 := by
    have : ((added * each : Nat) : ℚ) ≤ (maxMoney : Nat) := by exact_mod_cast haddedLe
    exact this.trans (by norm_num [maxMoney])
  have htotalRound := (abs_le.mp (D.round_mul_close hrate (two_le_fundingTxVsize (inputs + added))
    (by rw [hsize]; linarith))).2
  rw [hsize] at htotalRound
  have hle : D.round (rate * D.round (fundingTxVsize (inputs + added) : Nat)) ≤
      ((paid + added * each + policy : Nat) : ℚ) := by
    rw [hsize]
    push_cast at hinputs hinputsLe ⊢
    linarith
  exact Int.toNat_le.mpr (Int.ceil_le.mpr (by exact_mod_cast hle))

end fees

/-! ## Sums of coins within the money supply -/

/-- What one larger transaction costs compared with several smaller ones. -/
def FeeJoins (margin : Nat → Option Nat) : Prop :=
  ∀ ⦃a b pa pb⦄, margin a = some pa → margin b = some pb → pa + pb ≤ maxMoney →
    ∃ p ≤ pa + pb, margin (a + b) = some p

variable {k maxInputBudget n : Nat} {margin : Nat → Option Nat} {pool : List PoolCoin}
  {left due needed : Nat} {need fee : Nat → Option Nat} {exactChange : Option Nat}
  {remaining : List PoolCoin} {plan : List SplitPlan} {total minSplit : Nat}

theorem Doubles.marginOf_joins (D : Doubles) (rate : ℚ) (exactChange : Option Nat) :
    FeeJoins (marginOf (D.fundingFee rate) exactChange) := by
  cases exactChange with
  | none => exact fun _ _ _ _ ha hb hsum => Doubles.fundingFee_join ha hb hsum
  | some change =>
    intro a b pa pb ha hb _
    exact ⟨pa, Nat.le_add_right _ _, ha⟩

/-- The coins of all splits together pay the whole spend with one fee. -/
theorem Fills.covered (hjoins : FeeJoins margin)
    (h : Fills k maxInputBudget margin left due remaining plan) (hleft : left ≠ 0)
    (hsupply : worth Prod.snd remaining ≤ maxMoney) :
    ∃ coins price, coins.Subperm remaining ∧ margin coins.length = some price ∧
      due + price ≤ worth Prod.snd coins := by
  induction h with
  | done => exact absurd rfl hleft
  | @split left due price remaining coins rest _ _ _ _ hperm hkept hpriced hcovers _ htail ih =>
    have hworth : worth Prod.snd remaining = _ := worth_perm hperm
    rw [worth_append] at hworth
    rcases Nat.eq_zero_or_pos left with rfl | hpos
    · refine ⟨coins, price, ?_, hpriced, by simpa using hcovers⟩
      exact (sublist_append_left coins rest).subperm.trans hperm.symm.subperm
    · obtain ⟨later, price', hlater, hprice', hle⟩ := ih hpos.ne' (by omega)
      have hlater' : worth Prod.snd later ≤ worth Prod.snd rest := worth_le_of_subperm hlater
      obtain ⟨joined, hjoined, hpriced'⟩ := hjoins hpriced hprice' (by omega)
      refine ⟨coins ++ later, joined, ?_, by rwa [length_append], ?_⟩
      · exact ((subperm_append_left coins).mpr hlater).trans hperm.symm.subperm
      · rw [worth_append]
        omega

/-- The fallback finds any number of largest coins that cover their need. -/
theorem largestFirst_isSome {count covered} (hsupply : worth Prod.snd pool ≤ maxMoney)
    (hn : count ≤ n) (hlen : n ≤ pool.length) (hcov : covered = worth Prod.snd (pool.take count))
    (hpriced : ∀ m ≤ n, (need m).isSome) (hneed : need n = some needed)
    (hcovers : needed ≤ worth Prod.snd (pool.take n)) :
    (largestFirst need (pool.drop count) covered (List.range count)).isSome := by
  induction hgap : n - count generalizing count covered with
  | zero =>
    obtain rfl : n = count := by omega
    rw [largestFirst.eq_def]
    simp [hneed, hcov ▸ hcovers]
  | succ gap ih =>
    have hlt : count < pool.length := by omega
    obtain ⟨needed', hneed'⟩ := isSome_iff_exists.mp (hpriced count hn)
    have hbound : worth Prod.snd (pool.take (count + 1)) ≤ worth Prod.snd pool :=
      worth_le_of_sublist (take_sublist _ _)
    rw [drop_eq_getElem_cons hlt, largestFirst, length_range, ← range_succ, hneed',
      bind_eq_bind, bind_some]
    split
    · rfl
    · refine ih (by omega) ?_ (by omega)
      rw [worth_take_add_one hlt] at hbound ⊢
      rw [hcov, wrapAdd64, Nat.mod_eq_of_lt]
      have : maxMoney < 2 ^ 64 := by decide
      omega

theorem pickPositions_isSome {maxInputBudget} {need : Nat → Option Nat} {remaining}
    (h : (largestFirst need remaining 0 []).isSome) :
    (pickPositions 1 maxInputBudget need remaining).isSome := by
  rw [pickPositions]
  split
  · rfl
  · rwa [if_pos rfl]

/-! ## Refusals -/

def largestSum (pool : List PoolCoin) (n : Nat) : Nat :=
  (((pool.map Prod.snd).insertionSort (· ≥ ·)).take n).sum

theorem worth_take_sorted (pool : List PoolCoin) (n : Nat) :
    worth Prod.snd ((pool.insertionSort plansBefore).take n) = largestSum pool n := by
  have hmap := map_eq_insertionSort (descending_sorted pool) (perm_insertionSort _ pool)
  rw [worth, map_take, hmap, largestSum]

theorem firstPlan_eq_nil {f : Nat → Option (List SplitPlan)}
    (hne : ∀ k plan, 1 ≤ k → f k = some plan → plan ≠ []) (h : firstPlan f n = []) :
    ∀ k, 1 ≤ k → k ≤ n → f k = none := by
  induction n with
  | zero => intro k hk hkn; omega
  | succ n ih =>
    intro k hk hkn
    rw [firstPlan] at h
    cases hf : f (n + 1) with
    | some plan =>
      rw [hf, getD_some] at h
      exact absurd h (hne _ plan (by omega) hf)
    | none =>
      rw [hf, getD_none] at h
      rcases (by omega : k = n + 1 ∨ k ≤ n) with rfl | hkn
      · exact hf
      · exact ih h k hk hkn

theorem planWithK_ne_nil (hgrows : FeeGrows fee) (hk : 1 ≤ k)
    (h : planWithK pool total k maxInputBudget fee minSplit exactChange = some plan) :
    plan ≠ [] := by
  rw [planWithK] at h
  split at h
  · cases h
  · have hlen := (fillSplits_fills (hgrows.marginOf _) h).length
    rintro rfl
    rw [length_nil] at hlen
    omega

/-- A refusal means that no number of largest coins covers the spend: the plan of one
split would have taken them. -/
theorem uncovered_of_no_plan {maxSplits} (hgrows : FeeGrows fee)
    (hsupply : worth Prod.snd pool ≤ maxMoney) (hmin : minSplit ≤ total) (hsplits : 1 ≤ maxSplits)
    (h : planFundingSplits pool total maxSplits maxInputBudget fee minSplit exactChange = [])
    {price} (hn : n ≤ pool.length) (hprice : marginOf fee exactChange n = some price) :
    largestSum pool n < total + price := by
  have hsorted : (pool.insertionSort plansBefore).Perm pool := perm_insertionSort _ _
  have hnone := firstPlan_eq_nil (fun _ _ hk => planWithK_ne_nil hgrows hk) h 1 le_rfl hsplits
  by_contra hcover
  rw [Nat.not_lt, ← worth_take_sorted] at hcover
  have hsupply' : worth Prod.snd (pool.insertionSort plansBefore) ≤ maxMoney :=
    (worth_perm hsorted).trans_le hsupply
  have hmoney : total + price < 2 ^ 64 := by
    have hle : worth Prod.snd ((pool.insertionSort plansBefore).take n) ≤ _ :=
      worth_le_of_sublist (take_sublist _ _)
    have : maxMoney < 2 ^ 64 := by decide
    omega
  have hneed : ∀ m ≤ n, (needFor (marginOf fee exactChange) total m).isSome := by
    intro m hm
    obtain ⟨price', hle, hprice'⟩ := hgrows.marginOf exactChange hm hprice
    exact isSome_iff_exists.mpr ⟨_, needFor_eq_some.mpr ⟨price', hprice', rfl, by omega⟩⟩
  have hfound := largestFirst_isSome hsupply' (Nat.zero_le n) (hn.trans_eq hsorted.length_eq.symm)
    rfl hneed (needFor_eq_some.mpr ⟨price, hprice, rfl, hmoney⟩) hcover
  rw [drop_zero] at hfound
  have hfloor : ¬ ((1 : Nat) = 0 ∨ total < wrapMul64 1 minSplit) := by
    have : wrapMul64 1 minSplit ≤ 1 * minSplit := Nat.mod_le _ _
    omega
  obtain ⟨positions, hpick⟩ :=
    isSome_iff_exists.mp (@pickPositions_isSome maxInputBudget _ _ hfound)
  rw [planWithK, if_neg hfloor, fillSplits, Nat.sub_zero, Nat.zero_add, Nat.div_one, hpick] at hnone
  cases hnone

/-- Planning refuses a spend exactly when no number of largest coins covers it with the
fee of that many inputs, and then no choice of coins at all does. -/
theorem no_plan_iff_uncovered (D : Doubles) (rate : ℚ) (pool : List PoolCoin)
    (total maxSplits maxInputBudget minSplit : Nat) (exactChange : Option Nat)
    (hsupply : worth Prod.snd pool ≤ maxMoney) (hmin : minSplit ≤ total) (hsplits : 1 ≤ maxSplits) :
    (planFundingSplits pool total maxSplits maxInputBudget (D.fundingFee rate) minSplit
        exactChange = [] ↔
      ∀ n ≤ pool.length, ∀ price, marginOf (D.fundingFee rate) exactChange n = some price →
        largestSum pool n < total + price) ∧
    (planFundingSplits pool total maxSplits maxInputBudget (D.fundingFee rate) minSplit
        exactChange = [] →
      ∀ coins : List PoolCoin, coins.Sublist pool → ∀ price,
        marginOf (D.fundingFee rate) exactChange coins.length = some price →
          worth Prod.snd coins < total + price) := by
  have hsorted : (pool.insertionSort plansBefore).Perm pool := perm_insertionSort _ _
  have hgrows := D.feeGrows rate
  refine ⟨⟨fun h n hn price hprice =>
    uncovered_of_no_plan hgrows hsupply hmin hsplits h hn hprice, fun h => ?_⟩, ?_⟩
  · by_contra hplan
    obtain ⟨k, hk, -, -, hfills⟩ := planFundingSplits_fills hgrows rfl hplan
    obtain ⟨coins, price, hsub, hprice, hle⟩ := hfills.covered (D.marginOf_joins rate exactChange)
      (by omega) ((worth_perm hsorted).trans_le hsupply)
    have hlen : coins.length ≤ pool.length := hsub.length_le.trans_eq hsorted.length_eq
    have htop := worth_le_take_of_subperm (descending_sorted pool) hsub
    have := h coins.length hlen price hprice
    rw [worth_take_sorted] at htop
    omega
  · intro h coins hcoins price hprice
    have htop := worth_le_take_of_subperm (descending_sorted pool)
      (hcoins.subperm.trans hsorted.symm.subperm)
    rw [worth_take_sorted] at htop
    exact htop.trans_lt
      (uncovered_of_no_plan hgrows hsupply hmin hsplits h hcoins.length_le hprice)

/-- Three coins worth 100000 cannot pay 100000 and a fee. -/
theorem no_plan_iff_uncovered_sample :
    planFundingSplits [(⟨[1], 0⟩, 40000), (⟨[2], 0⟩, 30000), (⟨[3], 0⟩, 30000)] 100000 3 2
        (Doubles.exact.fundingFee 1) 1000 none = [] ∧
      largestSum [(⟨[1], 0⟩, 40000), (⟨[2], 0⟩, 30000), (⟨[3], 0⟩, 30000)] 3 < 100000 + 301 := by
  have hplan : planFundingSplits [(⟨[1], 0⟩, 40000), (⟨[2], 0⟩, 30000), (⟨[3], 0⟩, 30000)] 100000 3
      2 (Doubles.exact.fundingFee 1) 1000 none = [] := by decide +kernel
  exact ⟨hplan, (no_plan_iff_uncovered Doubles.exact 1 _ 100000 3 2 1000 none (by decide)
    (by decide) (by decide)).1.mp hplan 3 (by decide) 301 (by decide +kernel)⟩

/-! ## The number of inputs of a split -/

theorem valueAt_le_worth (pool : List PoolCoin) (i : Nat) :
    valueAt pool i ≤ worth Prod.snd pool := by
  rcases Nat.lt_or_ge i pool.length with h | h
  · rw [valueAt_eq h]
    exact single_le_sum (fun _ _ => Nat.zero_le _) _
      (mem_map_of_mem (getElem_mem h))
  · simp [valueAt, worthAt, getElem?_eq_none h]

theorem valueAt_anti {i j} (hdesc : Descending Prod.snd pool) (hij : i ≤ j)
    (hj : j < pool.length) : valueAt pool j ≤ valueAt pool i := by
  rw [valueAt_eq hj, valueAt_eq (by omega)]
  rcases Nat.eq_or_lt_of_le hij with rfl | hlt
  · exact le_rfl
  · exact pairwise_iff_getElem.mp hdesc i j _ hj hlt

/-- The walk keeps a pair no dearer than any that covers the need: a low end too small for
the highest value is too small for every other. -/
theorem twoPointer_least {value : Nat → Nat} {need gap lo best}
    (hmono : ∀ a b, a ≤ b → b ≤ lo + gap → value a ≤ value b) (hsmall : ∀ a, value a < 2 ^ 63) :
    (∀ i j, lo ≤ i → i < j → j ≤ lo + gap → need ≤ value i + value j →
      ∃ b ∈ twoPointer value need gap lo best, b.1 ≤ value i + value j) ∧
    ∀ old ∈ best, ∃ b ∈ twoPointer value need gap lo best, b.1 ≤ old.1 := by
  induction gap generalizing lo best with
  | zero => exact ⟨by omega, fun old hold => ⟨old, hold, le_rfl⟩⟩
  | succ gap ih =>
    have hi := hsmall lo
    have hk := hsmall (lo + (gap + 1))
    rw [twoPointer, wrapAdd64, Nat.mod_eq_of_lt (by omega)]
    split
    next hneed =>
      have hmono' : ∀ a b, a ≤ b → b ≤ lo + gap → value a ≤ value b := fun a b hab hb =>
        hmono a b hab (by omega)
      -- the pair kept here is no dearer than the new one and the one before
      have hkept : ∃ b ∈ (if best.all fun b => decide (value lo + value (lo + (gap + 1)) < b.1) then
          some (value lo + value (lo + (gap + 1)), lo, lo + (gap + 1)) else best),
          b.1 ≤ value lo + value (lo + (gap + 1)) ∧ ∀ old ∈ best, b.1 ≤ old.1 := by
        cases best with
        | none => exact ⟨_, rfl, le_rfl, by simp⟩
        | some old =>
          by_cases hlt : value lo + value (lo + (gap + 1)) < old.1
          · simp [hlt, hlt.le]
          · simp [hlt, not_lt.mp hlt]
      obtain ⟨kept, hkept, hsum, hold⟩ := hkept
      obtain ⟨b, hb, hle⟩ := (ih hmono').2 kept hkept
      refine ⟨fun i j hlo hij hj hcovers => ?_, fun old h => ⟨b, hb, hle.trans (hold old h)⟩⟩
      by_cases hlast : j ≤ lo + gap
      · exact (ih hmono').1 i j hlo hij hlast hcovers
      · obtain rfl : j = lo + (gap + 1) := by omega
        have := hmono lo i hlo (by omega)
        exact ⟨b, hb, by omega⟩
    next hshort =>
      obtain ⟨hpairs, hold⟩ := @ih (lo + 1) best fun a b hab hb => hmono a b hab (by omega)
      refine ⟨fun i j hlo hij hj hcovers => hpairs i j ?_ hij (by omega) hcovers, hold⟩
      have := hmono j (lo + (gap + 1)) hj le_rfl
      by_contra hlt
      obtain rfl : lo = i := by omega
      omega

theorem find_reverse_range {p : Nat → Bool} {m i}
    (h : (List.range m).reverse.find? p = some i) : ∀ j < m, p j → j ≤ i := by
  induction m with
  | zero => simp
  | succ m ih =>
    rw [range_succ, reverse_append, reverse_singleton, singleton_append, find?_cons] at h
    intro j hj hp
    split at h
    · cases h
      omega
    · have hne : j ≠ m := by
        rintro rfl
        simp_all
      exact ih h j (by omega) hp

/-- **One or two coins are the cheapest** that many to cover the need, where any do. -/
theorem smallestCover_least {n need other} (hdesc : Descending Prod.snd pool)
    (hsmall : ∀ i, valueAt pool i < 2 ^ 63) (hn : n = 1 ∨ n = 2)
    (hother : Covers pool n need other) (hlen : other.length = n) :
    ∃ positions, smallestCover pool n need = some positions ∧ positions.length = n ∧
      (positions.map (valueAt pool)).sum ≤ (other.map (valueAt pool)).sum := by
  obtain ⟨hnodup, hrange, -, hworth⟩ := hother
  rcases hn with rfl | rfl
  · obtain ⟨j, rfl⟩ := length_eq_one_iff.mp hlen
    have hj : j < pool.length := by simpa using hrange
    rw [smallestCover, if_neg (by omega), if_pos rfl]
    have hfound : ((List.range pool.length).reverse.find?
        fun i => decide (need ≤ valueAt pool i)).isSome := by
      rw [find?_isSome]
      exact ⟨j, by simpa using hj, by simpa using hworth⟩
    obtain ⟨i, hi⟩ := isSome_iff_exists.mp hfound
    have hij := find_reverse_range hi j hj (by simpa using hworth)
    have hlast := mem_range.mp (mem_reverse.mp (mem_of_find?_eq_some hi))
    refine ⟨[i], by rw [hi]; rfl, rfl, ?_⟩
    simpa using valueAt_anti hdesc hij hlast
  · obtain ⟨i, j, rfl⟩ := length_eq_two.mp hlen
    simp only [nodup_cons, mem_cons, not_mem_nil, or_false, forall_eq_or_imp,
      forall_eq, map_cons, map_nil, sum_cons, sum_nil] at hnodup hrange hworth
    rw [smallestCover, if_neg (by omega), if_neg (by omega), if_pos rfl]
    let value := fun i => valueAt pool (pool.length - 1 - i)
    -- the walk runs over the positions from the back
    have hpair : ∀ a b, a < b → b < pool.length → need ≤ valueAt pool a + valueAt pool b →
        ∃ best ∈ twoPointer value need (pool.length - 1) 0 none,
          best.1 ≤ valueAt pool a + valueAt pool b := by
      intro a b hab hb hneed
      have hback : ∀ c < pool.length, value (pool.length - 1 - c) = valueAt pool c :=
        fun c hc => congrArg (valueAt pool) (by omega)
      rw [Nat.add_comm, ← hback a (by omega), ← hback b hb] at hneed ⊢
      exact (twoPointer_least (fun x y hxy hy => valueAt_anti hdesc (by omega) (by omega))
        fun x => hsmall _).1 _ _ (by omega) (by omega) (by omega) hneed
    obtain ⟨best, hbest, hle⟩ : ∃ best ∈ twoPointer value need (pool.length - 1) 0 none,
        best.1 ≤ valueAt pool i + valueAt pool j := by
      rcases Nat.lt_or_gt_of_ne (show i ≠ j by tauto) with hij | hij
      · exact hpair i j hij hrange.2 (by omega)
      · rw [Nat.add_comm]
        exact hpair j i hij hrange.1 (by omega)
    obtain ⟨-, -, hsum, -⟩ := twoPointer_sound (Nat.zero_add _).le (by simp) best hbest
    have hlow : value best.2.1 < 2 ^ 63 := hsmall _
    have hhigh : value best.2.2 < 2 ^ 63 := hsmall _
    rw [wrapAdd64, Nat.mod_eq_of_lt (by omega)] at hsum
    refine ⟨_, by rw [mem_def.mp hbest]; rfl, rfl, ?_⟩
    simpa using hsum ▸ hle

theorem smallestCover_length {n need positions} (hn : n = 1 ∨ n = 2)
    (h : smallestCover pool n need = some positions) : positions.length = n := by
  rw [smallestCover] at h
  split at h
  · cases h
  · rcases hn with rfl | rfl
    · rw [if_pos rfl] at h
      obtain ⟨i, -, rfl⟩ := Option.map_eq_some_iff.mp h
      rfl
    · rw [if_neg (by omega), if_pos rfl] at h
      obtain ⟨best, -, rfl⟩ := Option.map_eq_some_iff.mp h
      rfl

theorem coverWith_isSome {target} (hdesc : Descending Prod.snd remaining)
    (hsupply : worth Prod.snd remaining ≤ maxMoney) (hn : 1 ≤ n) (hn2 : n ≤ 2)
    (hlen : n ≤ remaining.length) (hneed : needFor margin target n = some needed)
    (h : needed ≤ worth Prod.snd (remaining.take n)) :
    (coverWith (needFor margin target) remaining n).isSome := by
  obtain ⟨-, -, -, hlt⟩ := needFor_eq_some.mp hneed
  have htop := le_topSum hlt h
  have hmoney : maxMoney < 2 ^ 63 := by decide
  rw [← sum_worthAt_range hlen] at h
  obtain ⟨positions, hcover, -⟩ := smallestCover_least hdesc
    (fun i => (valueAt_le_worth remaining i).trans_lt (by omega)) (by omega)
    ⟨nodup_range, by simpa using fun i hi => Nat.lt_of_lt_of_le hi hlen, by simp, h⟩
    length_range
  rw [coverWith, hneed, bind_eq_bind, bind_some, if_neg (by omega), hcover]
  rfl

/-! ## The searches that are skipped -/

theorem smallestCover_of_topSum (hdesc : Descending Prod.snd remaining) (hlt : needed < 2 ^ 64)
    (h : topSum remaining n < needed) : smallestCover remaining n needed = none := by
  rw [eq_none_iff_forall_not_mem]
  intro positions hpositions
  have hcovers := smallestCover_covers hpositions
  have hremoved := hcovers.removed
  have hperm : (positions.insertionSort (· ≤ ·)).reverse.Perm positions :=
    (reverse_perm _).trans (perm_insertionSort _ _)
  have hcount := hremoved.length.trans hperm.length_eq
  have htake := worth_le_take_of_subperm hdesc
    ((sublist_append_left _ _).subperm.trans hremoved.perm.symm.subperm)
  rw [hremoved.worth, (hperm.map _).sum_eq, hcount] at htake
  have htop := le_topSum hlt (hcovers.worth.trans (htake.trans
    (worth_le_of_sublist (take_sublist_take_left hcovers.count))))
  omega

/-- `pickPositions` with a search for every number of coins. -/
def pickUnskipped (k maxInputBudget : Nat) (need : Nat → Option Nat) (remaining : List PoolCoin) :
    Option (List Nat) :=
  let budget := min maxInputBudget remaining.length
  match (List.range' 1 budget).findSome? fun n => (need n).bind (smallestCover remaining n) with
  | some positions => some positions
  | none => if k = 1 then largestFirst need remaining 0 [] else none

def fillUnskipped (total k maxInputBudget : Nat) (margin : Nat → Option Nat) :
    Nat → Nat → List PoolCoin → Option (List SplitPlan)
  | 0, _, _ => some []
  | left + 1, assigned, remaining => do
    let target := (total - assigned) / (left + 1)
    let positions ← pickUnskipped k maxInputBudget (needFor margin target) remaining
    let taken := removeAt (positions.insertionSort (· ≤ ·)).reverse remaining
    let plans ← fillUnskipped total k maxInputBudget margin left (assigned + target) taken.2
    some ({ utxos := taken.1.map Prod.fst, value := target } :: plans)

theorem pickUnskipped_eq (hdesc : Descending Prod.snd remaining) :
    pickUnskipped k maxInputBudget (needFor margin target) remaining =
      pickPositions k maxInputBudget (needFor margin target) remaining := by
  have hcover : coverWith (needFor margin target) remaining =
      fun n => (needFor margin target n).bind (smallestCover remaining n) := by
    funext n
    unfold coverWith
    cases hneed : needFor margin target n with
    | none => rfl
    | some needed =>
      obtain ⟨-, -, -, hlt⟩ := needFor_eq_some.mp hneed
      simp only [bind_eq_bind, bind_some]
      split_ifs with hskip
      · exact (smallestCover_of_topSum hdesc hlt hskip).symm
      · rfl
  rw [pickPositions, hcover]
  rfl

theorem fillUnskipped_eq {left assigned} (hdesc : Descending Prod.snd remaining) :
    fillUnskipped total k maxInputBudget margin left assigned remaining =
      fillSplits total k maxInputBudget margin left assigned remaining := by
  induction left generalizing assigned remaining with
  | zero => rfl
  | succ left ih =>
    rw [fillUnskipped, fillSplits, pickUnskipped_eq hdesc]
    refine congrArg _ (funext fun positions => ?_)
    dsimp only
    rw [ih (hdesc.sublist (removeAt_sublist _ _))]

/-- **The cover search.**  Among coins that can exist, one or two coins are the cheapest that
many to cover the need, and missing only where there are none; more coins are distinct, within the
number, and cover it; and the skipped searches change no plan. -/
theorem smallest_cover_exact (hdesc : Descending Prod.snd pool)
    (hsupply : worth Prod.snd pool ≤ maxMoney) (need : Nat) :
    (∀ n, n = 1 ∨ n = 2 →
      (smallestCover pool n need = none ↔
        ∀ other, Covers pool n need other → other.length ≠ n) ∧
      ∀ positions, smallestCover pool n need = some positions → positions.length = n ∧
        ∀ other, Covers pool n need other → other.length = n →
          (positions.map (valueAt pool)).sum ≤ (other.map (valueAt pool)).sum) ∧
    (∀ n positions, smallestCover pool n need = some positions → Covers pool n need positions) ∧
    ∀ total k maxInputBudget fee minSplit exactChange,
      planWithK pool total k maxInputBudget fee minSplit exactChange =
        if k = 0 ∨ total < wrapMul64 k minSplit then none
        else fillUnskipped total k maxInputBudget (marginOf fee exactChange) k 0 pool := by
  have hmoney : maxMoney < 2 ^ 63 := by decide
  have hsmall : ∀ i, valueAt pool i < 2 ^ 63 := fun i =>
    (valueAt_le_worth pool i).trans_lt (by omega)
  refine ⟨fun n hn => ⟨⟨fun hnone other hother hlen => ?_, fun hnot => ?_⟩, ?_⟩,
    fun n positions => smallestCover_covers, ?_⟩
  · obtain ⟨positions, hsome, -⟩ := smallestCover_least hdesc hsmall hn hother hlen
    rw [hnone] at hsome
    cases hsome
  · rw [eq_none_iff_forall_not_mem]
    exact fun positions hsome =>
      hnot positions (smallestCover_covers hsome) (smallestCover_length hn hsome)
  · intro positions hsome
    refine ⟨smallestCover_length hn hsome, fun other hother hlen => ?_⟩
    obtain ⟨_, hleast, -, hle⟩ := smallestCover_least hdesc hsmall hn hother hlen
    obtain rfl := Option.some.inj (hsome.symm.trans hleast)
    exact hle
  · intro total k maxInputBudget fee minSplit exactChange
    rw [planWithK, fillUnskipped_eq hdesc]

/-- Of 50, 30 and 20 the cheapest pair to cover 60 is 50 and 20. -/
theorem smallest_cover_exact_sample :
    let pool : List PoolCoin := [(⟨[1], 0⟩, 50), (⟨[2], 0⟩, 30), (⟨[3], 0⟩, 20)]
    smallestCover pool 2 60 = some [2, 0] ∧
      ∀ other, Covers pool 2 60 other → other.length = 2 → 70 ≤ (other.map (valueAt pool)).sum := by
  intro pool
  have hcover : smallestCover pool 2 60 = some [2, 0] := by decide
  exact ⟨hcover, (((smallest_cover_exact (by unfold Descending; decide) (by decide) 60).1 2
    (.inr rfl)).2 _ hcover).2⟩

/-! ## Plans with few inputs -/

theorem leastTop_of_over_budget {positions}
    (h : pickPositions k maxInputBudget need remaining = some positions)
    (hover : maxInputBudget < positions.length) : LeastTop need remaining 0 positions.length := by
  rw [pickPositions] at h
  split at h
  next hsearch =>
    obtain rfl := Option.some.inj h
    obtain ⟨n, -, hn, hcover, -⟩ := findSome_range_eq_some hsearch
    obtain ⟨_, -, hcovers⟩ := coverWith_covers hcover
    have := hcovers.count
    omega
  next =>
    split at h
    · obtain ⟨n, rfl, hn⟩ :=
        largestFirst_leastTop (Nat.zero_le remaining.length) (Nat.zero_le _) (fun _ => rfl) h
      rwa [length_range]
    · cases h

def unused (pool : List PoolCoin) (plan : List SplitPlan) : List PoolCoin :=
  pool.filter fun coin => coin.1 ∉ plan.flatMap (·.utxos)

theorem Fills.at_split {earlier later s}
    (h : Fills k maxInputBudget margin left due remaining (earlier ++ s :: later)) :
    ∃ left' due' taken rest, remaining.Perm (taken ++ rest) ∧ rest.Sublist remaining ∧
      earlier.flatMap (·.utxos) = taken.map Prod.fst ∧
      Fills k maxInputBudget margin left' due' rest (s :: later) := by
  induction earlier generalizing left due remaining with
  | nil => exact ⟨left, due, [], remaining, .refl _, .refl _, rfl, h⟩
  | cons t earlier ih =>
    cases h with
    | @split _ _ _ _ coins rest _ _ _ _ hperm hkept _ _ _ htail =>
      obtain ⟨left', due', taken, rest', hperm', hkept', htaken, hfills⟩ := ih htail
      refine ⟨left', due', coins ++ taken, rest', ?_, hkept'.trans hkept, by simp [htaken], hfills⟩
      rw [append_assoc]
      exact hperm.trans (hperm'.append_left coins)

theorem unused_perm {taken rest} (hpool : (pool.map Prod.fst).Nodup)
    (hperm : pool.Perm (taken ++ rest)) (htaken : plan.flatMap (·.utxos) = taken.map Prod.fst) :
    (unused pool plan).Perm rest := by
  have hnodup := (hperm.map Prod.fst).nodup_iff.mp hpool
  rw [map_append] at hnodup
  have hdisjoint := nodup_append.mp hnodup
  have hgone : taken.filter (fun coin => coin.1 ∉ plan.flatMap (·.utxos)) = [] := by
    rw [filter_eq_nil_iff, htaken]
    intro coin hcoin
    simpa using ⟨_, hcoin⟩
  have hkept : rest.filter (fun coin => coin.1 ∉ plan.flatMap (·.utxos)) = rest := by
    rw [filter_eq_self, htaken]
    intro coin hcoin
    have hnot : coin.1 ∉ taken.map Prod.fst := fun hmem =>
      hdisjoint.2.2 _ hmem _ (mem_map_of_mem hcoin) rfl
    simpa using hnot
  have hfilter := hperm.filter fun coin => coin.1 ∉ plan.flatMap (·.utxos)
  rwa [filter_append, hgone, hkept, nil_append] at hfilter

end OpenSwap
