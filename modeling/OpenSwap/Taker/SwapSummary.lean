import OpenSwap.Taker.Hop0
import OpenSwap.Taker.PaymentSolver
import OpenSwap.Taker.Route

/-!
# The summary of a prepared swap

When the makers have answered, the taker adds up what the route may cost: the service fee
of every maker on the amount it was declared, and the miner fees of every hop at their
negotiated maximum.  The sum is shown to the user before anything is funded.

* `SwapRoute.summary` — the summary, from the negotiated route and the plan of hop 0.
* `Chained.delivers` — when every maker was declared what the one before it forwards, the
  route delivers all but the ceiling.
-/

namespace OpenSwap

open Btc Checked Run List

/-! ## The summary -/

def Hop0Plan.declaredAmount (plan : Hop0Plan) : Nat := (plan.splits.map (·.value)).sum

def SwapParams.route (params : SwapParams) (maxInputBudget : Nat) : RouteParams where
  protocol := params.protocol
  makerCount := params.makerCount
  txCount := params.txCount
  txCounts := params.txCounts
  maxInputBudget := maxInputBudget
  feerate := params.feerate.toNat

structure MakerFeeInfo where
  address : String
  protocol : ProtocolVersion
  baseFee : Nat
  amountRelativeFeePct : ℚ
  timeRelativeFeePct : ℚ
  locktime : Nat
  estimatedFeeSats : Nat

structure SwapSummary where
  protocol : ProtocolVersion
  sendAmount : Nat
  makers : List MakerFeeInfo
  totalEstimatedFee : Nat
  estimatedReceiveAmount : Nat

/-- The terms maker `i` is priced at, all zero without an offer. -/
def SwapRoute.feeTerms (r : SwapRoute) (i : Nat) (m : HopMaker) : HopFeeTerms :=
  let locktime := refundLocktimeOffsetOf r.params.makerCount i
  m.offer.elim ⟨0, 0, 0, locktime⟩ fun offer => .fromOffer offer locktime

def SwapRoute.makerFeeInfo (r : SwapRoute) (i : Nat) (m : HopMaker) : MakerFeeInfo where
  address := m.address
  protocol := r.params.protocol
  baseFee := (r.feeTerms i m).baseFee
  amountRelativeFeePct := (r.feeTerms i m).amountRelativeFeePct
  timeRelativeFeePct := (r.feeTerms i m).timeRelativeFeePct
  locktime := (r.feeTerms i m).locktime
  estimatedFeeSats := (r.feeTerms i m).swapFee m.amount

/-- The most maker `i` may take for miners: a sweep for each contract it may receive, and
each split it may forward at `splitFunding`. -/
def RouteParams.hopCeiling (p : RouteParams) (splitFunding i : Nat) : Option Nat := do
  let sweep ← sweepFeePolicySats p.protocol p.swapFeerate
  let sweeps ← checkedMul64 sweep (p.hopTxCounts.getD i 0)
  let funding ← checkedMul64 splitFunding (p.hopTxCounts.getD (i + 1) 0)
  checkedAdd64 sweeps funding

def RouteParams.routeCeiling (p : RouteParams) (splitFunding serviceFee hops : Nat) : Option Nat :=
  (List.range hops).foldlM (fun ceiling i => do
    checkedAdd64 ceiling (← p.hopCeiling splitFunding i)) serviceFee

namespace SwapRoute

def serviceFeeSats (r : SwapRoute) : Nat :=
  ((r.makers.mapIdx r.makerFeeInfo).map (·.estimatedFeeSats)).foldl wrapAdd64 0

/-- The end of `prepare_swap`.  Only a payment has a settlement budget. -/
def summary (r : SwapRoute) (plan : Hop0Plan) (sendAmount : Nat) (settlementBudget : Option Nat) :
    Except TakerError SwapSummary := do
  let p := r.params
  let overflow : TakerError := .general "fee policy price overflow"
  let splitFunding ← okOr (fundingFeePolicySats p.maxInputBudget p.maxInputBudget p.swapFeerate)
    overflow
  let hops ← okOr (p.routeCeiling splitFunding r.serviceFeeSats r.makers.length) overflow
  let hop0 ← okOr (fundingFees noInputBudget p.swapFeerate
    (plan.splits.map (·.utxos.length)) 0) overflow
  let ceiling ← okOr (checkedAdd64 hops hop0) overflow
  let ceiling ← okOr (checkedAdd64 ceiling (settlementBudget.getD 0)) overflow
  .ok
    { protocol := p.protocol
      sendAmount := sendAmount
      makers := r.makers.mapIdx r.makerFeeInfo
      totalEstimatedFee := ceiling
      estimatedReceiveAmount := if settlementBudget.isSome then 0 else sendAmount - ceiling }

end SwapRoute

namespace SwapRoute

variable {r r' : SwapRoute} {target : Nat} {s s' : RouteState} {a : RouteAction}

def StartsFrom (first : Nat × Nat) (_ : RouteState) : RouteAction → Prop
  | .plan _ declaredAmount plannedCount => (declaredAmount, plannedCount) = first
  | _ => True

instance (first : Nat × Nat) (s : RouteState) (a : RouteAction) :
    Decidable (StartsFrom first s a) :=
  match a with
  | .plan _ declaredAmount plannedCount =>
    inferInstanceAs (Decidable ((declaredAmount, plannedCount) = first))
  | .answer _ | .fund _ | .commit | .substitute _ _ _ | .fail _ => inferInstanceAs (Decidable True)

theorem StartsFrom.starts {first} (h : StartsFrom first s a) :
    Starts (· = first) a := by
  cases a <;> exact h

/-! ## What later substitutions leave to deliver -/

def Walked : RoutePhase → Prop
  | .selected | .walking _ _ _ _ => False
  | .negotiated | .funded _ _ | .aborted _ => True

/-- Whatever the last maker of `r'` forwards, that of `r` forwards no more. -/
def DeliversAtLeast (r r' : SwapRoute) : Prop :=
  ∀ next', r'.deriveNextHop (r'.params.makerCount - 1) = .ok next' →
    ∃ next, r.deriveNextHop (r.params.makerCount - 1) = .ok next ∧ next.1 ≤ next'.1

theorem DeliversAtLeast.refl (r : SwapRoute) : DeliversAtLeast r r :=
  fun next h => ⟨next, h, le_rfl⟩

theorem DeliversAtLeast.trans {r''} (h : DeliversAtLeast r r') (h' : DeliversAtLeast r' r'') :
    DeliversAtLeast r r'' := by
  intro next'' hnext''
  obtain ⟨next', hnext', hle'⟩ := h' next'' hnext''
  obtain ⟨next, hnext, hle⟩ := h next' hnext'
  exact ⟨next, hnext, hle.trans hle'⟩

theorem substituteRound_delivers {lock committed} (hlength : r.makers.length = r.params.makerCount)
    (height : Option Nat) (attempt : Attempt) :
    DeliversAtLeast r (r.substituteRound lock committed target height attempt).route := by
  unfold substituteRound
  split
  · rename_i spare r₁ hspare
    obtain ⟨spares, rfl⟩ := takeEligibleSpare_some hspare
    split
    · rename_i r' hr'
      obtain ⟨old, m, referenceHeight, next, hold, rfl, -, -, hnext, -, hlast⟩ :=
        substituteAndNegotiateSpare_keeps hr'
      intro next' hnext'
      change (r.setMaker target m).deriveNextHop (r.params.makerCount - 1) = .ok next' at hnext'
      by_cases htarget : target = r.params.makerCount - 1
      · subst htarget
        obtain rfl : next = next' := Except.ok.inj (hnext.symm.trans hnext')
        exact hlast (getElem?_eq_none (by change r.makers.length ≤ _; omega))
      · rw [deriveNextHop_setMaker htarget] at hnext'
        exact ⟨next', hnext', le_rfl⟩
    · exact .refl r
  · exact .refl r

theorem step_delivers (hwalked : Walked s.phase)
    (hlength : s.route.makers.length = s.route.params.makerCount) (hs : step s a = some s') :
    Walked s'.phase ∧ DeliversAtLeast s.route s'.route := by
  unfold step at hs
  split at hs
  · rename_i hphase
    rw [hphase] at hwalked
    exact hwalked.elim
  · rename_i hphase
    rw [hphase] at hwalked
    exact hwalked.elim
  · split at hs <;> cases hs <;> exact ⟨trivial, .refl _⟩
  · cases hs
    exact ⟨trivial, .refl _⟩
  · split at hs
    · cases hs
      refine ⟨?_, substituteRound_delivers hlength _ _⟩
      unfold substituteRound
      split
      · split
        · split <;> trivial
        · trivial
      · trivial
    · cases hs
  · cases hs
  · cases hs
    exact ⟨trivial, .refl _⟩
  · cases hs

theorem starts_of_walked (hwalked : Walked s.phase) (hs : step s a = some s')
    (starts : Nat × Nat → Prop) : Starts starts a := by
  cases a with
  | plan height declaredAmount plannedCount =>
    cases hphase : s.phase <;> simp [Walked, step, hphase] at hwalked hs
  | _ => trivial

theorem delivers_of_reachable {p} {starts : Nat × Nat → Prop} (h : InChain p starts s)
    (hwalked : Walked s.phase) (hs : Reachable step (fun _ _ => True) s s') :
    InChain p starts s' ∧ Walked s'.phase ∧ DeliversAtLeast s.route s'.route := by
  refine hs.invariant (I := fun s' => InChain p starts s' ∧ Walked s'.phase ∧
    DeliversAtLeast s.route s'.route) ⟨h, hwalked, .refl _⟩ ?_
  rintro s₁ a s₂ ⟨hchain, hw, hd⟩ - hstep
  obtain ⟨hw', hd'⟩ := step_delivers hw (hchain.params ▸ hchain.length) hstep
  exact ⟨inChain_step hchain (starts_of_walked hw hstep starts) hstep, hw', hd.trans hd'⟩

end SwapRoute

/-! ## What a hop costs -/

variable {maxInputBudget feerate total sum splitFunding : Nat} {splits : List Nat}

theorem fundingFees_bounds {fee}
    (hfee : fundingFeePolicySats maxInputBudget maxInputBudget feerate = some fee)
    (h : fundingFees maxInputBudget feerate splits total = some sum) :
    total + splits.length ≤ sum ∧ sum ≤ total + fee * splits.length := by
  induction splits generalizing total with
  | nil =>
    cases h
    simp
  | cons inputs rest ih =>
    simp only [fundingFees, Option.bind_eq_bind, Option.bind_eq_some_iff] at h
    obtain ⟨price, hprice, added, hadded, hrest⟩ := h
    obtain ⟨rfl, -⟩ := checkedAdd64_eq_some.mp hadded
    obtain ⟨less, hle, hless⟩ := fundingFeePolicySats_le inputs hfee
    obtain rfl : price = less := Option.some.inj (hprice.symm.trans hless)
    have hpos : 0 < price := feeAtRateSats_pos (by unfold fundingTxVsize; omega) hprice
    obtain ⟨hlow, hhigh⟩ := ih hrest
    rw [length_cons, Nat.mul_succ]
    omega

theorem SwapRoute.locktime_connection {r : SwapRoute} {i referenceHeight : Nat} {m : HopMaker}
    (hlength : r.makers.length = r.params.makerCount)
    (haccepted : Accepted r.params referenceHeight i m) :
    (r.connection i m).locktime = refundLocktimeOffsetOf r.params.makerCount i := by
  simp only [connection, hlength, MakerConnection.locktime]
  cases hp : r.params.protocol with
  | legacy => simp only [haccepted.lock, RouteParams.lockOf, hp, hopTimelock]
  | taproot => rfl

theorem SwapRoute.deriveNextHop_cost {r : SwapRoute} {i referenceHeight : Nat} {m : HopMaker}
    {next : Nat × Nat} (hlength : r.makers.length = r.params.makerCount)
    (hm : r.makers[i]? = some m) (haccepted : Accepted r.params referenceHeight i m)
    (hsplit : fundingFeePolicySats r.params.maxInputBudget r.params.maxInputBudget
      r.params.swapFeerate = some splitFunding) (h : r.deriveNextHop i = .ok next) :
    ∃ sweep funding, sweepFeePolicySats r.params.protocol r.params.swapFeerate = some sweep ∧
      m.amount = next.1 + (wrapAdd64 (r.makerFeeInfo i m).estimatedFeeSats
        (sweep * m.incomingCount) + funding) ∧
      funding ≤ splitFunding * r.params.hopTxCounts.getD (i + 1) 0 ∧
      next.2 ≤ r.params.hopTxCounts.getD (i + 1) 0 := by
  obtain ⟨offer, hoffer⟩ := Option.isSome_iff_exists.mp haccepted.offer
  simp only [SwapRoute.deriveNextHop, OpenSwap.deriveNextHop, hm, hoffer, Option.bind_some,
    Option.map_some, bind_ok_iff, okOr_eq_ok, Option.some.injEq] at h
  obtain ⟨_, rfl, forwardable, hforward, funding, hfunding, rest, hrest, h⟩ := h
  cases h
  simp only [forwardableForHop, Option.bind_eq_bind, Option.bind_eq_some_iff,
    Option.some.injEq] at hforward
  obtain ⟨sweep, hsweep, sweeps, hsweeps, rfl⟩ := hforward
  obtain ⟨hlow, hhigh⟩ := fundingFees_bounds hsplit hfunding
  obtain ⟨rfl, -⟩ := checkedMul64_eq_some.mp hsweeps
  have hfee : (HopFeeTerms.fromOffer offer (r.connection i m).locktime).swapFee m.amount =
      (r.makerFeeInfo i m).estimatedFeeSats := by
    simp only [makerFeeInfo, feeTerms, hoffer, Option.elim_some,
      locktime_connection hlength haccepted]
  have hsplits : 0 < m.fundingSplits.length := length_pos_iff.mpr haccepted.splits
  have hrest : funding + rest = m.amount - wrapAdd64 (r.makerFeeInfo i m).estimatedFeeSats
      (sweep * m.incomingCount) := hfee ▸ checkedSub_eq_some.mp hrest
  refine ⟨sweep, funding, hsweep, ?_, ?_, haccepted.count⟩
  · -- the funding fees are not zero, so the deduction did not stop at zero
    change 0 + m.fundingSplits.length ≤ funding at hlow
    omega
  · calc funding ≤ 0 + splitFunding * m.fundingSplits.length := hhigh
      _ ≤ splitFunding * r.params.hopTxCounts.getD (i + 1) 0 := by
        rw [Nat.zero_add]
        exact Nat.mul_le_mul_left _ haccepted.count

/-! ## The sum over the route -/

theorem amount_eq_sum_costs {amount cost : Nat → Nat} {n}
    (h : ∀ i < n, amount i = amount (i + 1) + cost i) :
    amount 0 = amount n + ∑ i ∈ Finset.range n, cost i := by
  induction n with
  | zero => simp
  | succ n ih =>
    rw [Finset.sum_range_succ, ih fun i hi => h i (by omega), h n (by omega)]
    omega

theorem sum_wrapAdd64 {fee sweeps : Nat → Nat} {n}
    (hsum : ∑ i ∈ Finset.range n, wrapAdd64 (fee i) (sweeps i) < 2 ^ 64)
    (hfits : (∑ i ∈ Finset.range n, fee i) % 2 ^ 64 + ∑ i ∈ Finset.range n, sweeps i < 2 ^ 64) :
    ∑ i ∈ Finset.range n, wrapAdd64 (fee i) (sweeps i) =
      (∑ i ∈ Finset.range n, fee i) % 2 ^ 64 + ∑ i ∈ Finset.range n, sweeps i := by
  rw [← Nat.mod_eq_of_lt hsum, ← Nat.mod_eq_of_lt hfits, Nat.mod_add_mod, ← Finset.sum_add_distrib]
  exact (Finset.sum_nat_mod _ _ _).symm

theorem routeCeiling_eq_some {p : RouteParams} {serviceFee hops ceiling sweep : Nat}
    (hsweep : sweepFeePolicySats p.protocol p.swapFeerate = some sweep)
    (h : p.routeCeiling splitFunding serviceFee hops = some ceiling) :
    ceiling = serviceFee + ∑ i ∈ Finset.range hops, (sweep * p.hopTxCounts.getD i 0 +
      splitFunding * p.hopTxCounts.getD (i + 1) 0) := by
  induction hops generalizing ceiling with
  | zero =>
    obtain rfl : serviceFee = ceiling := Option.some.inj h
    simp
  | succ n ih =>
    simp only [RouteParams.routeCeiling, range_succ, foldlM_append, Option.bind_eq_bind,
      Option.bind_eq_some_iff, foldlM_cons, foldlM_nil] at h
    obtain ⟨before, hbefore, after, ⟨hop, hhop, hadd⟩, h⟩ := h
    obtain rfl : after = ceiling := Option.some.inj h
    simp only [RouteParams.hopCeiling, hsweep, Option.bind_eq_bind, Option.bind_some,
      Option.bind_eq_some_iff] at hhop
    obtain ⟨sweeps, hsweeps, funding, hfunding, hhop⟩ := hhop
    obtain ⟨rfl, -⟩ := checkedMul64_eq_some.mp hsweeps
    obtain ⟨rfl, -⟩ := checkedMul64_eq_some.mp hfunding
    obtain ⟨rfl, -⟩ := checkedAdd64_eq_some.mp hhop
    obtain ⟨rfl, -⟩ := checkedAdd64_eq_some.mp hadd
    rw [Finset.sum_range_succ, ih hbefore, Nat.add_assoc]

namespace SwapRoute

/-- What arrives at a maker; past the last one, what the route delivers. -/
def arriving (r : SwapRoute) (delivered i : Nat) : Nat := r.makers[i]?.elim delivered (·.amount)

def feeAt (r : SwapRoute) (i : Nat) : Nat :=
  r.makers[i]?.elim 0 fun m => (r.makerFeeInfo i m).estimatedFeeSats

variable {r : SwapRoute} {first next : Nat × Nat} {referenceHeight splitFunding : Nat}

theorem serviceFeeSats_eq (r : SwapRoute) :
    r.serviceFeeSats = (∑ i ∈ Finset.range r.makers.length, r.feeAt i) % 2 ^ 64 := by
  have hlist : (r.makers.mapIdx r.makerFeeInfo).map (·.estimatedFeeSats) =
      (List.range r.makers.length).map r.feeAt := by
    refine ext_getElem (by simp) fun i hi _ => ?_
    have hi : i < r.makers.length := by simpa using hi
    simp only [getElem_map, getElem_mapIdx, getElem_range, feeAt,
      getElem?_eq_getElem hi, Option.elim_some]
  have hmod := foldl_wrapAdd64_mod ((List.range r.makers.length).map r.feeAt) 0
  rw [Nat.zero_mod, Nat.zero_add] at hmod
  rw [serviceFeeSats, hlist, hmod]
  rfl

theorem Chained.hop_cost {sweep i}
    (hchained : r.Chained (· = first) referenceHeight r.params.makerCount)
    (hlength : r.makers.length = r.params.makerCount)
    (hcount : first.2 ≤ r.params.hopTxCounts.getD 0 0)
    (hsplit : fundingFeePolicySats r.params.maxInputBudget r.params.maxInputBudget
      r.params.swapFeerate = some splitFunding)
    (hsweep : sweepFeePolicySats r.params.protocol r.params.swapFeerate = some sweep)
    (hlast : r.deriveNextHop (r.params.makerCount - 1) = .ok next) (hi : i < r.params.makerCount) :
    ∃ sweeps funding, r.arriving next.1 i =
        r.arriving next.1 (i + 1) + (wrapAdd64 (r.feeAt i) sweeps + funding) ∧
      sweeps ≤ sweep * r.params.hopTxCounts.getD i 0 ∧
      funding ≤ splitFunding * r.params.hopTxCounts.getD (i + 1) 0 := by
  obtain ⟨m, hm⟩ : ∃ m, r.makers[i]? = some m := ⟨_, getElem?_eq_getElem (hlength ▸ hi)⟩
  obtain ⟨haccepted, hdeclared⟩ := hchained i hi m hm
  have hnext : ∃ next', r.deriveNextHop i = .ok next' ∧ r.arriving next.1 (i + 1) = next'.1 := by
    rcases Nat.lt_or_ge (i + 1) r.params.makerCount with hlt | hge
    · obtain ⟨m', hm'⟩ : ∃ m', r.makers[i + 1]? = some m' :=
        ⟨_, getElem?_eq_getElem (hlength ▸ hlt)⟩
      exact ⟨_, (hchained (i + 1) hlt m' hm').2, by rw [arriving, hm', Option.elim_some]⟩
    · have hi' : r.params.makerCount - 1 = i := by omega
      refine ⟨next, hi' ▸ hlast, ?_⟩
      rw [arriving, getElem?_eq_none (by omega), Option.elim_none]
  obtain ⟨next', hnext', harriving⟩ := hnext
  obtain ⟨sweep', funding, hsweep', hamount, hfunding, -⟩ :=
    deriveNextHop_cost hlength hm haccepted hsplit hnext'
  obtain rfl : sweep' = sweep := Option.some.inj (hsweep'.symm.trans hsweep)
  have hincoming : m.incomingCount ≤ r.params.hopTxCounts.getD i 0 := by
    cases i with
    | zero => exact (congrArg Prod.snd hdeclared).trans_le hcount
    | succ j =>
      obtain ⟨m', hm'⟩ : ∃ m', r.makers[j]? = some m' :=
        ⟨_, getElem?_eq_getElem (by omega)⟩
      obtain ⟨_, _, -, -, -, hle⟩ := deriveNextHop_cost hlength hm'
        (hchained j (by omega) m' hm').1 hsplit hdeclared
      exact hle
  refine ⟨sweep' * m.incomingCount, funding, ?_, Nat.mul_le_mul_left _ hincoming, hfunding⟩
  rw [harriving, arriving, hm, Option.elim_some, feeAt, hm, Option.elim_some]
  exact hamount

theorem Chained.delivers {ceiling : Nat}
    (hchained : r.Chained (· = first) referenceHeight r.params.makerCount)
    (hlength : r.makers.length = r.params.makerCount)
    (hcount : first.2 ≤ r.params.hopTxCounts.getD 0 0) (hfirst : first.1 < 2 ^ 64)
    (hsplit : fundingFeePolicySats r.params.maxInputBudget r.params.maxInputBudget
      r.params.swapFeerate = some splitFunding)
    (hceiling : r.params.routeCeiling splitFunding r.serviceFeeSats r.makers.length = some ceiling)
    (hbound : ceiling < 2 ^ 64) (hlast : r.deriveNextHop (r.params.makerCount - 1) = .ok next) :
    first.1 ≤ next.1 + ceiling := by
  have hmaker : ∃ m, r.makers[r.params.makerCount - 1]? = some m := by
    simp only [deriveNextHop, bind_ok_iff, okOr_eq_ok, Option.bind_eq_some_iff] at hlast
    obtain ⟨_, ⟨m, hm, -⟩, -⟩ := hlast
    exact ⟨m, hm⟩
  obtain ⟨m, hm⟩ := hmaker
  have hpos : r.params.makerCount - 1 < r.params.makerCount :=
    hlength ▸ (List.getElem?_eq_some_iff.mp hm).1
  obtain ⟨sweep, _, hsweep, -⟩ :=
    deriveNextHop_cost hlength hm (hchained _ hpos m hm).1 hsplit hlast
  have hhop : ∀ i, i < r.params.makerCount → _ := fun i hi =>
    hchained.hop_cost hlength hcount hsplit hsweep hlast hi
  choose! sweeps funding hcost hsweeps hfunding using hhop
  have htotal := amount_eq_sum_costs hcost
  have hzero : r.arriving next.1 0 = first.1 := by
    obtain ⟨m₀, hm₀⟩ : ∃ m, r.makers[0]? = some m := ⟨_, getElem?_eq_getElem (by omega)⟩
    rw [arriving, hm₀, Option.elim_some]
    exact congrArg Prod.fst (hchained 0 (by omega) m₀ hm₀).2
  have hend : r.arriving next.1 r.params.makerCount = next.1 := by
    rw [arriving, getElem?_eq_none hlength.le, Option.elim_none]
  rw [hzero, hend, Finset.sum_add_distrib] at htotal
  have hsum := routeCeiling_eq_some hsweep hceiling
  rw [r.serviceFeeSats_eq, hlength, Finset.sum_add_distrib] at hsum
  have hsweeps' := Finset.sum_le_sum fun i hi => hsweeps i (Finset.mem_range.mp hi)
  have hfunding' := Finset.sum_le_sum fun i hi => hfunding i (Finset.mem_range.mp hi)
  have hfees := @sum_wrapAdd64 r.feeAt sweeps r.params.makerCount (by omega) (by omega)
  omega

end SwapRoute

/-! ## The whole swap -/

theorem fundingFees_eq_sum {policy : List Nat}
    (hpolicy : splits.map (fundingFeePolicySats · maxInputBudget feerate) = policy.map some)
    (h : fundingFees maxInputBudget feerate splits total = some sum) :
    sum = total + policy.sum := by
  induction splits generalizing total policy with
  | nil =>
    obtain rfl := map_eq_nil_iff.mp hpolicy.symm
    exact (Option.some.inj h).symm
  | cons inputs rest ih =>
    obtain ⟨fee, policy, rfl, hfee, hrest⟩ := map_eq_cons_iff.mp hpolicy.symm
    simp only [fundingFees, ← hfee, Option.bind_eq_bind, Option.bind_some,
      Option.bind_eq_some_iff] at h
    obtain ⟨added, hadded, h⟩ := h
    obtain ⟨rfl, -⟩ := checkedAdd64_eq_some.mp hadded
    rw [ih hrest.symm h, sum_cons, Nat.add_assoc]

/-- What a regular plan declares: the send amount less its own policy fees. -/
theorem planHop0_declares {w params plan fees} (hregular : params.isPayment = false)
    (h : planHop0 w params = .ok plan)
    (hfees : fundingFees noInputBudget params.swapFeerate (plan.splits.map (·.utxos.length)) 0 =
      some fees) :
    plan.declaredAmount + fees = params.sendAmount ∧ params.sendAmount < 2 ^ 64 ∧
      plan.splits.length ≤ params.hopTxCounts.getD 0 0 ∧
      ∃ spends, plan.spends = some spends ∧ spends.sum = params.sendAmount := by
  obtain ⟨fewer, hfewer, splits, hsplits, hnet, hspends⟩ := planHop0Retries_ok hregular h
  have hexact := exactHop0_of_netted hsplits hnet hspends
  obtain ⟨policy, hpolicy, hzip⟩ := hexact.net
  have hlen : (plan.splits.map (·.value)).length = policy.length := by
    simpa using congrArg List.length hpolicy
  have hfees' : fees = policy.sum := by
    rw [fundingFees_eq_sum (by rw [map_map]; exact hpolicy) hfees, Nat.zero_add]
  have hcount : plan.splits.length = splits.length := by simpa using hexact.room.length_eq
  refine ⟨?_, planFundingWithChange_lt hsplits, ?_, _, hspends, hexact.total⟩
  · rw [Hop0Plan.declaredAmount, hfees', sum_add_sum_eq_sum_zipWith_of_length_eq _ _ hlen,
      hzip, hexact.total]
  · obtain ⟨-, hmax, -⟩ := planFundingWithChange_meets hsplits
    omega

/-- **The summary is a ceiling on what a regular swap costs**: whichever makers are replaced, the
send amount is all that leaves the wallet, and what the last maker forwards is short of it by at
most the summary's total. -/
theorem summary_is_ceiling {w : CoinStore} {params : SwapParams} {maxInputBudget : Nat}
    {plan : Hop0Plan} (hregular : params.isPayment = false) (hplan : planHop0 w params = .ok plan)
    {makers : List HopMaker} {spareMakers : List String}
    (hmakers : makers.length = params.makerCount) {s : RouteState}
    (hs : Reachable SwapRoute.step
      (SwapRoute.StartsFrom (plan.declaredAmount, plan.splits.length))
      (SwapRoute.selected (params.route maxInputBudget) false makers spareMakers) s)
    (hnegotiated : s.phase = .negotiated) {summary : SwapSummary}
    (hsummary : s.route.summary plan params.sendAmount none = .ok summary) {later : RouteState}
    (hlater : Reachable SwapRoute.step (fun _ _ => True) s later) {forwarded count : Nat}
    (hlast : later.route.deriveNextHop (params.makerCount - 1) = .ok (forwarded, count)) :
    (∃ spends, plan.spends = some spends ∧ spends.sum = params.sendAmount) ∧
      params.sendAmount ≤ forwarded + summary.totalEstimatedFee := by
  have hchain : SwapRoute.InChain (params.route maxInputBudget)
      (· = (plan.declaredAmount, plan.splits.length)) s :=
    SwapRoute.inChain_of_reachable hmakers (fun _ _ => SwapRoute.StartsFrom.starts) hs
  have hwalked : SwapRoute.Walked s.phase := by
    rw [hnegotiated]
    trivial
  obtain ⟨hchain', -, hdelivers⟩ := SwapRoute.delivers_of_reachable hchain hwalked hlater
  obtain ⟨hparams, hlength, hphase⟩ := hchain
  rw [hnegotiated] at hphase
  obtain ⟨_, -, hchained⟩ := hphase
  obtain ⟨next, hnext, hle⟩ := hdelivers (forwarded, count) (hchain'.params.symm ▸ hlast)
  simp only [SwapRoute.summary, bind_ok_iff, okOr_eq_ok] at hsummary
  obtain ⟨splitFunding, hsplit, hops, hhops, hop0, hhop0, ceiling, hceiling, total, htotal, h⟩ :=
    hsummary
  cases h
  obtain ⟨rfl, hbound⟩ := checkedAdd64_eq_some.mp hceiling
  obtain ⟨rfl, -⟩ := checkedAdd64_eq_some.mp htotal
  rw [hparams] at hhop0
  obtain ⟨hdeclared, hfits, hcount, hspends⟩ := planHop0_declares hregular hplan hhop0
  have hroute := hchained.delivers (hparams ▸ hlength) (hparams.symm ▸ hcount)
    (by dsimp only; omega) hsplit hhops (by omega) hnext
  refine ⟨hspends, ?_⟩
  dsimp only at hroute hle ⊢
  omega

namespace SampleSummary

def offer : Offer where
  baseFee := 100
  amountRelativeFeePct := 1 / 10
  timeRelativeFeePct := 0
  minSize := 0
  maxSize := maxMoney
  name := "maker"

def accepts : Attempt := ⟨some ⟨offer, some [1]⟩, fun _ => false⟩

def start : RouteState :=
  SwapRoute.selected (SampleHop0.params.route 2) false (SampleRoute.makers 2) []

def totals (s : RouteState) : Option (Nat × Nat) :=
  match s.phase, s.route.summary SampleHop0.plan 100000 none, s.route.deriveNextHop 1 with
  | .negotiated, .ok summary, .ok hop => some (summary.totalEstimatedFee, hop.1)
  | _, _, _ => none

theorem exists_of_totals {s forwarded} (h : totals s = some (total, forwarded)) :
    s.phase = .negotiated ∧ ∃ summary count,
      s.route.summary SampleHop0.plan 100000 none = .ok summary ∧
      summary.totalEstimatedFee = total ∧ s.route.deriveNextHop 1 = .ok (forwarded, count) := by
  unfold totals at h
  split at h
  · rename_i summary next hphase hsummary hnext
    cases h
    exact ⟨hphase, summary, next.2, hsummary, rfl, hnext⟩
  · cases h

end SampleSummary

open SampleSummary in
theorem summary_is_ceiling_sample :
    ∃ s, Reachable SwapRoute.step (SwapRoute.StartsFrom (99835, 1)) start s ∧
      totals s = some (2097, 98805) ∧ 100000 ≤ 98805 + 2097 := by
  have hplan : planHop0 SampleHop0.store SampleHop0.params = .ok SampleHop0.plan := by
    decide +kernel
  have hrun : ∃ s, Reachable SwapRoute.step (SwapRoute.StartsFrom (99835, 1)) start s ∧
      (totals s == some (2097, 98805)) = true :=
    exists_reachable_of_exec [.plan 800000 99835 1, .answer accepts, .answer accepts]
      (by decide +kernel)
  obtain ⟨s, hs, hend⟩ := hrun
  have hend := eq_of_beq hend
  obtain ⟨hphase, summary, count, hsummary, htotal, hlast⟩ := exists_of_totals hend
  have hceiling := (@summary_is_ceiling _ _ 2 _ rfl hplan _ _ rfl _ hs hphase _ hsummary _ .init _ _
    hlast).2
  exact ⟨s, hs, hend, htotal ▸ hceiling⟩

/-! ## The report -/

/-- The fee of one maker in the report, in whole sats, with the doubles as exact numbers. -/
structure ReportMakerFeeInfo where
  makerIndex : Nat
  makerAddress : String
  baseFee : Nat
  amountRelativeFee : Nat
  timeRelativeFee : Nat
  totalFee : Nat

namespace SwapRoute

def reportMakerFee (r : SwapRoute) (i : Nat) (m : HopMaker) : ReportMakerFeeInfo :=
  let terms := r.feeTerms i m
  let amountRelFee := castU64 ⌈terms.amountRelativeFeePct * m.amount / 100⌉.toNat
  let timeRelFee := castU64 ⌈terms.timeRelativeFeePct * terms.locktime * m.amount / 100⌉.toNat
  { makerIndex := i
    makerAddress := m.address
    baseFee := terms.baseFee
    amountRelativeFee := amountRelFee
    timeRelativeFee := timeRelFee
    totalFee := wrapAdd64 (wrapAdd64 terms.baseFee amountRelFee) timeRelFee }

def makerFeeReport (r : SwapRoute) : List ReportMakerFeeInfo :=
  (r.makers.take r.params.makerCount).mapIdx r.reportMakerFee

def totalMakerFees (r : SwapRoute) : Nat :=
  (r.makerFeeReport.map (·.totalFee)).foldl wrapAdd64 0

/-- The service fee that `forwardableForHop` takes off maker `i`'s amount. -/
def deductedFee (r : SwapRoute) (i : Nat) (m : HopMaker) : Nat :=
  m.offer.elim 0 fun offer =>
    (HopFeeTerms.fromOffer offer (r.connection i m).locktime).swapFeeAt id m.amount

variable {r : SwapRoute} {i referenceHeight : Nat} {m : HopMaker} {offer : Offer}

theorem forwardableForHop_deducts {net : Nat} (hoffer : m.offer = some offer)
    (h : forwardableForHop (fun amount locktime =>
      (HopFeeTerms.fromOffer offer locktime).swapFeeAt id amount) (r.connection i m) = some net) :
    ∃ sweeps, net = m.amount - wrapAdd64 (r.deductedFee i m) sweeps := by
  simp only [forwardableForHop, Option.bind_eq_bind, Option.bind_eq_some_iff,
    Option.some.injEq] at h
  obtain ⟨_, -, sweeps, -, rfl⟩ := h
  refine ⟨sweeps, ?_⟩
  simp only [deductedFee, hoffer, Option.elim_some]
  rfl

/-- Parts that are rounded up one by one add up to the rounded sum or one more. -/
theorem reportMakerFee_within (hterms : 0 ≤ (r.feeTerms i m).amountRelativeFeePct ∧
      0 ≤ (r.feeTerms i m).timeRelativeFeePct)
    (hfits : (r.feeTerms i m).swapFeeAt id m.amount + 1 < 2 ^ 64) :
    (r.feeTerms i m).swapFeeAt id m.amount ≤ (r.reportMakerFee i m).totalFee ∧
      (r.reportMakerFee i m).totalFee ≤ (r.feeTerms i m).swapFeeAt id m.amount + 1 := by
  unfold reportMakerFee
  generalize r.feeTerms i m = terms at *
  obtain ⟨hamount, htime⟩ := hterms
  have hfee : terms.rawFeeAt id m.amount = terms.amountRelativeFeePct * m.amount / 100 +
      terms.timeRelativeFeePct * terms.locktime * m.amount / 100 + (terms.baseFee : ℚ) := by
    simp only [HopFeeTerms.rawFeeAt, id]
    ring
  simp only [HopFeeTerms.swapFeeAt, hfee, Int.ceil_add_natCast] at hfits ⊢
  generalize ha : terms.amountRelativeFeePct * m.amount / 100 = a at hfits ⊢
  generalize ht : terms.timeRelativeFeePct * terms.locktime * m.amount / 100 = t at hfits ⊢
  have hapos : 0 ≤ ⌈a⌉ := Int.ceil_nonneg (ha ▸ by positivity)
  have htpos : 0 ≤ ⌈t⌉ := Int.ceil_nonneg (ht ▸ by positivity)
  have hle := Int.ceil_add_le a t
  have hge := Int.ceil_add_ceil_le a t
  unfold castU64 wrapAdd64 at *
  omega

theorem deductedFee_eq (hlength : r.makers.length = r.params.makerCount)
    (haccepted : Accepted r.params referenceHeight i m) :
    r.deductedFee i m = (r.feeTerms i m).swapFeeAt id m.amount := by
  obtain ⟨offer, hoffer⟩ := Option.isSome_iff_exists.mp haccepted.offer
  simp only [deductedFee, feeTerms, hoffer, Option.elim_some, locktime_connection hlength haccepted]

/-- **The fees of the report.**  Once the makers have accepted, the fee shown for each is the
service fee deducted from its amount or a sat more, and the total is the sum of the fees
shown, in 64 bits. -/
theorem reported_within_sat (hlength : r.makers.length = r.params.makerCount)
    (hpriced : ∀ i, ∀ m ∈ r.makers[i]?, Accepted r.params referenceHeight i m ∧
      (0 ≤ (r.feeTerms i m).amountRelativeFeePct ∧ 0 ≤ (r.feeTerms i m).timeRelativeFeePct) ∧
      r.deductedFee i m + 1 < 2 ^ 64) :
    (∀ i, ∀ m ∈ r.makers[i]?, ∃ info ∈ r.makerFeeReport[i]?,
      r.deductedFee i m ≤ info.totalFee ∧ info.totalFee ≤ r.deductedFee i m + 1) ∧
      r.totalMakerFees = (r.makerFeeReport.map (·.totalFee)).sum % 2 ^ 64 := by
  constructor
  · intro i m hm
    obtain ⟨haccepted, hterms, hfits⟩ := hpriced i m hm
    rw [deductedFee_eq hlength haccepted] at hfits ⊢
    refine ⟨r.reportMakerFee i m, ?_, reportMakerFee_within hterms hfits⟩
    rw [makerFeeReport, ← hlength, take_length, getElem?_mapIdx, Option.mem_def.mp hm]
    rfl
  · rw [totalMakerFees, ← Nat.zero_mod (2 ^ 64), foldl_wrapAdd64_mod, Nat.zero_add]

/-- A route of one maker, whose relative fees both have a fraction. -/
def fractional : SwapRoute :=
  let offer : Offer := ⟨100, 1 / 100, 1 / 10000, 0, maxMoney, "maker"⟩
  ⟨⟨.taproot, 1, 1, [], 1, 1⟩, false, [⟨"", some offer, true, 800020, 10001, 1, [1]⟩], [], none⟩

theorem reported_within_sat_fractional : fractional.totalMakerFees =
    (fractional.makerFeeReport.map (·.totalFee)).sum % 2 ^ 64 :=
  (@reported_within_sat fractional 800000 rfl (by
    rintro (_ | i) m ⟨⟩
    exact ⟨⟨rfl, by decide, by decide, rfl⟩, by decide +kernel, by decide +kernel⟩)).2

/-- The report shows a sat more than was deducted. -/
theorem reported_sat_more : fractional.makers.mapIdx fractional.deductedFee = [102] ∧
    fractional.makerFeeReport.map (·.totalFee) = [103] := by
  decide +kernel

end SwapRoute

end OpenSwap
