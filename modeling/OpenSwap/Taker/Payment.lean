import OpenSwap.Base.Binary64
import OpenSwap.Base.Search
import OpenSwap.Taker.NextHop

/-!
# Payments over a route

A payment names what the receiver gets.  The taker solves the makers' fees backwards for
the amount that enters the route, at the ceiling of the miner fees: full splits, each at
the full input budget.
-/

namespace OpenSwap

open Btc Checked Binary64 Search List Option

/-! ## Offers -/

/-- The priced part of an offer.  The percentages are finite doubles. -/
structure Offer where
  baseFee : Nat
  amountRelativeFeePct : ℚ
  timeRelativeFeePct : ℚ
  minSize : Nat
  maxSize : Nat
  name : String

def checkFeePct (p : String × ℚ) : Except String Unit :=
  let name := p.1
  let pct := p.2
  ensure (0 ≤ pct ∧ pct < 100) s!"invalid {name}: {pct}"

def checkFeePcts (amountRelativeFeePct timeRelativeFeePct : ℚ) : Except String Unit :=
  checkAll checkFeePct [("amount_relative_fee_pct", amountRelativeFeePct),
    ("time_relative_fee_pct", timeRelativeFeePct)]

def maxMakerNameLen : Nat := 32

/-- `char::is_control`: the two blocks of control codes -/
def isControl (c : Char) : Bool := c.toNat < 0x20 || (0x7f ≤ c.toNat && c.toNat < 0xa0)

def checkMakerName (name : String) : Except String Unit :=
  let quoted := name.quote
  ensure (name.length ≠ 0 ∧ name.length ≤ maxMakerNameLen ∧ ¬ name.toList.any isControl)
    s!"invalid maker name {quoted}: 1 to {maxMakerNameLen} characters, no control characters"

def Offer.validateShape (offer : Offer) : Except String Unit := do
  (checkFeePcts offer.amountRelativeFeePct offer.timeRelativeFeePct).mapError
    fun e => s!"offer has {e}"
  ensure (offer.minSize ≤ offer.maxSize)
    s!"offer has min_size ({offer.minSize}) above max_size ({offer.maxSize})"
  checkMakerName offer.name

/-- Fee sanity and size limits of maker `i`'s offer. -/
def validateOffer (offer : Offer) (i sendAmount : Nat) : Except TakerError Unit := do
  offer.validateShape.mapError fun e => .general s!"Maker {i} {e}"
  ensure (offer.baseFee ≤ sendAmount) (.general
    s!"Maker {i} offer base_fee ({offer.baseFee} sats) exceeds send amount ({sendAmount} sats)")
  ensure (offer.minSize ≤ sendAmount) (.general
    s!"Send amount ({sendAmount} sats) is below maker {i} min_size ({offer.minSize} sats)")
  ensure (sendAmount ≤ offer.maxSize) (.general
    s!"Send amount ({sendAmount} sats) exceeds maker {i} max_size ({offer.maxSize} sats)")

/-- The offers of a route, the first from maker `i`, each for the same amount. -/
def validateOffers (sendAmount : Nat) : Nat → List Offer → Except TakerError Unit
  | _, [] => .ok ()
  | i, offer :: rest => do
    validateOffer offer i sendAmount
    validateOffers sendAmount (i + 1) rest

/-! ## The fee of a hop -/

structure HopFeeTerms where
  baseFee : Nat
  amountRelativeFeePct : ℚ
  timeRelativeFeePct : ℚ
  locktime : Nat

def HopFeeTerms.fromOffer (offer : Offer) (locktime : Nat) : HopFeeTerms where
  baseFee := offer.baseFee
  amountRelativeFeePct := offer.amountRelativeFeePct
  timeRelativeFeePct := offer.timeRelativeFeePct
  locktime := locktime

/-- The fee before it is rounded up, with every operation rounded by `round`. -/
def HopFeeTerms.rawFeeAt (round : ℚ → ℚ) (terms : HopFeeTerms) (grossSats : Nat) : ℚ :=
  let gross := round grossSats
  let amountFee := round (round (gross * terms.amountRelativeFeePct) / 100)
  let timeFee := round
    (round (round (gross * round terms.locktime) * terms.timeRelativeFeePct) / 100)
  round (round (round terms.baseFee + amountFee) + timeFee)

def HopFeeTerms.swapFeeAt (round : ℚ → ℚ) (terms : HopFeeTerms) (grossSats : Nat) : Nat :=
  castU64 ⌈terms.rawFeeAt round grossSats⌉.toNat

/-- The swap fee `hop_net_sats` deducts, in doubles. -/
def HopFeeTerms.swapFee (terms : HopFeeTerms) (grossSats : Nat) : Nat :=
  terms.swapFeeAt double grossSats

/-! ## The solver -/

/-- What a maker must receive to forward exactly `netSats`.  A doubling that saturates is beyond
the limit already. -/
def hopGrossForNet (swapFee : Nat → Nat) (perHopMiningFee netSats : Nat) :
    Except TakerError Nat := do
  let passes := fun gross => decide (netSats ≤ hopNetSats swapFee perHopMiningFee gross)
  let hi ← okOr (doubleUntil passes maxMoney (max netSats 1) (by omega)) (.general
    s!"Maker fee schedule cannot net {netSats} sats at any fundable amount")
  let lo := bisect passes netSats hi
  ensure (hopNetSats swapFee perHopMiningFee lo = netSats)
    (.general s!"Maker fee schedule skips over an exact net of {netSats} sats")
  .ok lo

def requiredGross (perHopMiningFee finalNetSats : Nat) : List (Nat → Nat) → Except TakerError Nat
  | [] => .ok finalNetSats
  | swapFee :: rest => do
    let required ← requiredGross perHopMiningFee finalNetSats rest
    hopGrossForNet swapFee perHopMiningFee required

def solveRouteAt (round : ℚ → ℚ) (hops : List HopFeeTerms) (perHopMiningFee finalNetSats : Nat) :
    Except TakerError Nat := do
  let required ← requiredGross perHopMiningFee finalNetSats (hops.map (·.swapFeeAt round))
  let forward := hops.foldl
    (fun forward terms => hopNetSats (terms.swapFeeAt round) perHopMiningFee forward) required
  ensure (forward = finalNetSats) (.general
    s!"Payment route solve is inconsistent: gross {required} nets {forward}, expected {finalNetSats}")
  .ok required

/-- What the taker sends so that the last maker forwards exactly the net amount. -/
def solveRouteGrossSats : List HopFeeTerms → Nat → Nat → Except TakerError Nat :=
  solveRouteAt double

/-! ## The quote -/

def refundLocktimeBase : Nat := 20

/-- The refund locktime of maker `i` of `makerCount`, in 16 bits. -/
def refundLocktimeOffsetOf (makerCount i : Nat) : Nat :=
  (refundLocktimeBase + refundLocktimeStep * (makerCount - i - 1)) % 2 ^ 16

/-- What a payment asks for: the receiver's exact amount over one split ceiling per hop. -/
structure PaymentParams where
  receiverAmount : Nat
  txCount : Nat
  /-- checked before any swap state exists -/
  txCount_pos : 0 < txCount
  maxInputBudget : Nat
  feerate : Nat
  protocol : ProtocolVersion

def PaymentParams.swapFeerate (p : PaymentParams) : Nat := roundF64 p.feerate

structure RouteMaker where
  address : String
  offer : Option Offer

def routeOffer (maker : RouteMaker) : Except TakerError Offer :=
  okOr maker.offer
    (.general s!"Maker {maker.address} has no offer to price the payment route")

def routeOffers (receiverAmount : Nat) : Nat → List RouteMaker → Except TakerError (List Offer)
  | _, [] => .ok []
  | i, maker :: rest => do
    let offer ← routeOffer maker
    validateOffer offer i receiverAmount
    let offers ← routeOffers receiverAmount (i + 1) rest
    .ok (offer :: offers)

def hopsOf (offers : List Offer) : List HopFeeTerms :=
  offers.mapIdx fun i offer => .fromOffer offer (refundLocktimeOffsetOf offers.length i)

def routeHops (makers : List RouteMaker) : List HopFeeTerms := hopsOf (makers.filterMap (·.offer))

def PaymentParams.settlementBudget (p : PaymentParams) : Option Nat :=
  (paymentSettlementBudgetSats p.protocol p.swapFeerate).bind (checkedMul64 · p.txCount)

/-- The ceiling of a hop's miner fees: every split at the full input budget. -/
def PaymentParams.perHopMiningFee (p : PaymentParams) : Option Nat := do
  let funding ← fundingFeePolicySats p.maxInputBudget p.maxInputBudget p.swapFeerate
  let sweep ← sweepFeePolicySats p.protocol p.swapFeerate
  checkedMul64 p.txCount (← checkedAdd64 funding sweep)

def fundingFeeBuffer : Nat := 10000

structure PaymentQuote (Address : Type) where
  address : Address
  amount : Nat
  settlementBudget : Nat
  takerFundingFeeEstimate : Nat

structure PaymentRoute (Address : Type) where
  sendAmount : Nat
  offers : List Offer
  payment : PaymentQuote Address

/-- `payment_prepare_route` of a wallet with `available` spendable sats. -/
def preparePaymentRoute {Address : Type} (p : PaymentParams) (available : Nat)
    (makers : List RouteMaker) (address : Address) : Except TakerError (PaymentRoute Address) := do
  let offers ← routeOffers p.receiverAmount 0 makers
  let settlementBudget ← okOr p.settlementBudget (.general "Settlement budget overflow")
  let finalNet := wrapAdd64 p.receiverAmount settlementBudget
  let perHopMiningFee ← okOr p.perHopMiningFee (.general "Mining fee overflow")
  let gross ← solveRouteGrossSats (hopsOf offers) perHopMiningFee finalNet
  validateOffers gross 0 offers
  let required := gross + fundingFeeBuffer
  ensure (required ≤ available) (.general
    s!"Insufficient balance for the payment route: available={available}, required={required}")
  .ok ⟨gross, offers, ⟨address, p.receiverAmount, settlementBudget, perHopMiningFee⟩⟩

/-! ## The walk along the route -/

/-- The connection to a maker that has accepted an amount and reported its splits. -/
def PaymentParams.connection (p : PaymentParams) (referenceHeight : Nat) (terms : HopFeeTerms)
    (amount incomingCount : Nat) (fundingSplits : List Nat) : MakerConnection where
  protocol := p.protocol
  amount := amount
  incomingCount := incomingCount
  negotiatedTimelock := match p.protocol with
    | .legacy => terms.locktime
    | .taproot => referenceHeight + terms.locktime
  refundLocktimeOffset := terms.locktime
  fundingSplits := fundingSplits
  maxInputBudget := p.maxInputBudget
  swapFeerate := p.swapFeerate

/-- What maker `i` forwards and in how many contracts, for the splits it reports. -/
def PaymentParams.nextHop (p : PaymentParams) (referenceHeight i : Nat) (terms : HopFeeTerms)
    (amount incomingCount : Nat) (fundingSplits : List Nat) : Except TakerError (Nat × Nat) :=
  deriveNextHop (fun amount locktime => { terms with locktime := locktime }.swapFee amount) i
    (p.connection referenceHeight terms amount incomingCount fundingSplits)

/-- From maker `i` on, each with the splits it reports. -/
def walkRoute (p : PaymentParams) (referenceHeight : Nat) :
    (i : Nat) → List (HopFeeTerms × List Nat) → (amount incomingCount : Nat) →
      Except TakerError (Nat × Nat)
  | _, [], amount, incomingCount => .ok (amount, incomingCount)
  | i, (terms, fundingSplits) :: rest, amount, incomingCount => do
    let next ← p.nextHop referenceHeight i terms amount incomingCount fundingSplits
    walkRoute p referenceHeight (i + 1) rest next.1 next.2

variable {p : PaymentParams} {amount : Nat} {terms : HopFeeTerms} {hops : List HopFeeTerms}
  {makers : List RouteMaker}

/-! ## Fees that leave more of more -/

/-- Up to the limit a larger amount leaves at least as much after the fee. -/
def Steady (fee : Nat → Nat) (limit : Nat) : Prop :=
  ∀ x y, x ≤ y → y ≤ limit → fee y + x ≤ fee x + y

def HopFeeTerms.exactFee (terms : HopFeeTerms) (grossSats : ℚ) : ℚ :=
  terms.baseFee + grossSats * terms.amountRelativeFeePct / 100 +
    grossSats * terms.locktime * terms.timeRelativeFeePct / 100

def HopFeeTerms.rate (terms : HopFeeTerms) : ℚ :=
  (terms.amountRelativeFeePct + terms.locktime * terms.timeRelativeFeePct) / 100

theorem HopFeeTerms.exactFee_eq (terms : HopFeeTerms) (grossSats : ℚ) :
    terms.exactFee grossSats = terms.baseFee + grossSats * terms.rate := by
  unfold exactFee rate
  ring

/-- The longest chain of roundings, on the time fee, has six. -/
theorem HopFeeTerms.rawFee_within (hamount : 0 ≤ terms.amountRelativeFeePct)
    (htime : 0 ≤ terms.timeRelativeFeePct) (grossSats : Nat) :
    Within 6 (terms.rawFeeAt double grossSats) (terms.exactFee grossSats) := by
  have hgross : Within 1 (double grossSats) grossSats := .of_double (Nat.cast_nonneg _)
  have hlock : Within 1 (double terms.locktime) terms.locktime := .of_double (Nat.cast_nonneg _)
  have hbase : Within 1 (double terms.baseFee) terms.baseFee := .of_double (Nat.cast_nonneg _)
  have hamountFee := ((hgross.mul (.refl hamount)).rounded.div_const
    (by norm_num : (0 : ℚ) ≤ 100)).rounded
  have htimeFee := ((((hgross.mul hlock).rounded.mul (.refl htime)).rounded).div_const
    (by norm_num : (0 : ℚ) ≤ 100)).rounded
  have hsum := ((hbase.mono (by omega : 1 ≤ 3)).add hamountFee).rounded
  exact ((hsum.mono (by omega : 4 ≤ 5)).add htimeFee).rounded

theorem HopFeeTerms.steady {limit : Nat} (hamount : 0 ≤ terms.amountRelativeFeePct)
    (htime : 0 ≤ terms.timeRelativeFeePct)
    (hrate : terms.rate + (terms.baseFee + limit) / 2 ^ 49 ≤ 1) :
    Steady terms.swapFee limit := by
  intro x y hxy hlimit
  rcases hxy.eq_or_lt with rfl | hlt
  · exact le_rfl
  have hrate₀ : 0 ≤ terms.rate := by
    unfold rate
    positivity
  have hxy' : (x : ℚ) + 1 ≤ y := by exact_mod_cast hlt
  have hlimit' : (y : ℚ) ≤ limit := by exact_mod_cast hlimit
  have hfeex := terms.exactFee_eq x
  have hfeey := terms.exactFee_eq y
  -- the largest exact fee is at most the base fee and the limit
  have hmax : terms.exactFee y ≤ terms.baseFee + limit := by
    have : (y : ℚ) * terms.rate ≤ limit * 1 :=
      mul_le_mul hlimit' (by linarith) hrate₀ (by linarith)
    linarith
  have hlower := (terms.rawFee_within hamount htime x).lower
  have hupper := (terms.rawFee_within hamount htime y).upper
  have hlow : terms.exactFee x * (1 - 6 * roundoff) ≤ terms.rawFeeAt double x := by
    refine le_trans (mul_le_mul_of_nonneg_left ?_ ?_) hlower
    swap
    · exact (terms.rawFee_within hamount htime x).nonneg
    norm_num [roundoff]
  have hupp : terms.rawFeeAt double y ≤ terms.exactFee y * (1 + 7 * roundoff) := by
    refine hupper.trans (mul_le_mul_of_nonneg_left ?_ (terms.rawFee_within hamount htime y).nonneg)
    norm_num [roundoff]
  have hgrow : terms.rawFeeAt double y ≤ terms.rawFeeAt double x + ((y - x : Nat) : ℚ) := by
    have hshare : ((y : ℚ) - x) * terms.rate + (1 - terms.rate) ≤ y - x := by
      have : 0 ≤ ((y : ℚ) - x - 1) * (1 - terms.rate) :=
        mul_nonneg (by linarith) (by linarith)
      linarith
    rw [Nat.cast_sub hxy]
    simp only [roundoff] at hlow hupp
    linarith
  have hceil : ⌈terms.rawFeeAt double y⌉ ≤ ⌈terms.rawFeeAt double x⌉ + ((y - x : Nat) : ℤ) := by
    refine Int.ceil_le.mpr ?_
    push_cast
    have := Int.le_ceil (terms.rawFeeAt double x)
    linarith
  simp only [swapFee, swapFeeAt, castU64]
  omega

/-! ## The ceiling of the miner fees -/

theorem fundingFees_le {maxInputBudget feerate fee total splits}
    (h : fundingFeePolicySats maxInputBudget maxInputBudget feerate = some fee)
    (hbound : total + splits.length * fee < 2 ^ 64) :
    ∃ fees ≤ splits.length * fee,
      fundingFees maxInputBudget feerate splits total = some (total + fees) := by
  induction splits generalizing total with
  | nil => exact ⟨0, Nat.zero_le _, rfl⟩
  | cons inputs rest ih =>
    rw [length_cons, Nat.succ_mul] at hbound ⊢
    obtain ⟨first, hfirst, hprice⟩ := fundingFeePolicySats_le inputs h
    have hadd : checkedAdd64 total first = some (total + first) := if_pos (by omega)
    have hbound' : total + first + rest.length * fee < 2 ^ 64 := by omega
    obtain ⟨fees, hfees, hrest⟩ := ih hbound'
    refine ⟨first + fees, by omega, ?_⟩
    simp only [fundingFees, hprice, hadd, bind_eq_bind, bind_some, hrest,
      Nat.add_assoc]

theorem fundingFees_replicate {maxInputBudget feerate fee total n}
    (h : fundingFeePolicySats maxInputBudget maxInputBudget feerate = some fee)
    (hbound : total + n * fee < 2 ^ 64) :
    fundingFees maxInputBudget feerate (List.replicate n maxInputBudget) total =
      some (total + n * fee) := by
  induction n generalizing total with
  | zero => simp [fundingFees]
  | succ n ih =>
    rw [Nat.succ_mul] at hbound ⊢
    have hadd : checkedAdd64 total fee = some (total + fee) := if_pos (by omega)
    have hbound' : total + fee + n * fee < 2 ^ 64 := by omega
    simp only [replicate_succ, fundingFees, h, hadd, bind_eq_bind, bind_some,
      ih hbound', Option.some.injEq]
    omega

/-- The mining fee of a hop is the most its sweeps and its funding can cost. -/
structure PaymentParams.Ceiling (p : PaymentParams) (perHopMiningFee funding sweep : Nat) :
    Prop where
  perFunding : fundingFeePolicySats p.maxInputBudget p.maxInputBudget p.swapFeerate = some funding
  perSweep : sweepFeePolicySats p.protocol p.swapFeerate = some sweep
  total : perHopMiningFee = p.txCount * funding + p.txCount * sweep
  bound : perHopMiningFee < 2 ^ 64

theorem PaymentParams.perHopMiningFee_ceiling {perHopMiningFee}
    (h : p.perHopMiningFee = some perHopMiningFee) :
    ∃ funding sweep, p.Ceiling perHopMiningFee funding sweep := by
  simp only [PaymentParams.perHopMiningFee, bind_eq_bind, bind_eq_some_iff,
    checkedAdd64_eq_some, checkedMul64_eq_some] at h
  obtain ⟨funding, hfunding, sweep, hsweep, perLeg, ⟨rfl, -⟩, rfl, hbound⟩ := h
  exact ⟨funding, sweep, hfunding, hsweep, Nat.mul_add _ _ _, hbound⟩

/-! ## One hop -/

theorem PaymentParams.connection_locktime (p : PaymentParams) (referenceHeight : Nat)
    (terms : HopFeeTerms) (amount incomingCount : Nat) (fundingSplits : List Nat) :
    (p.connection referenceHeight terms amount incomingCount fundingSplits).locktime =
      terms.locktime := by
  unfold MakerConnection.locktime connection
  cases p.protocol <;> rfl

/-- What a hop forwards is what its fee, the sweeps and the funding fees leave. -/
theorem PaymentParams.nextHop_eq {sweep incomingCount fees fundingSplits}
    (hsweep : sweepFeePolicySats p.protocol p.swapFeerate = some sweep)
    (hfees : fundingFees p.maxInputBudget p.swapFeerate fundingSplits 0 = some fees)
    (hbound : sweep * incomingCount < 2 ^ 64) (referenceHeight i : Nat) :
    p.nextHop referenceHeight i terms amount incomingCount fundingSplits =
      (okOr (checkedSub (hopNetSats terms.swapFee (sweep * incomingCount) amount) fees)
        (.general s!"Maker {i}'s fees exceed the hop amount")).map (·, fundingSplits.length) := by
  have hmul : checkedMul64 sweep incomingCount = some (sweep * incomingCount) := if_pos hbound
  have hforward : forwardableForHop
      (fun amount locktime => { terms with locktime := locktime }.swapFee amount)
      (p.connection referenceHeight terms amount incomingCount fundingSplits) =
        some (hopNetSats terms.swapFee (sweep * incomingCount) amount) := by
    simp only [forwardableForHop, connection_locktime]
    simp only [connection, hsweep, hmul, bind_eq_bind, bind_some]
  simp only [nextHop, deriveNextHop, hforward, okOr, bind, Except.bind]
  simp only [connection, hfees]
  cases checkedSub (hopNetSats terms.swapFee (sweep * incomingCount) amount) fees <;> rfl

section Ceiling

variable {perHopMiningFee funding sweep incomingCount : Nat}
  (hceiling : p.Ceiling perHopMiningFee funding sweep) (hcount : incomingCount ≤ p.txCount)

include hceiling hcount

theorem PaymentParams.Ceiling.costs_le :
    p.txCount * funding + sweep * incomingCount ≤ perHopMiningFee := by
  rw [hceiling.total, Nat.mul_comm sweep]
  exact Nat.add_le_add_left (Nat.mul_le_mul_right _ hcount) _

/-- A hop forwards, for every shape it may report, exactly if what its fee and the sweeps leave
pays the funding fees of the full shape. -/
theorem PaymentParams.Ceiling.nextHop_ok
    (hpays : p.txCount * funding ≤ hopNetSats terms.swapFee (sweep * incomingCount) amount)
    {splits : List Nat} (hsplits : splits.length ≤ p.txCount) (referenceHeight i : Nat) :
    ∃ fees ≤ p.txCount * funding,
      p.nextHop referenceHeight i terms amount incomingCount splits = .ok
        (hopNetSats terms.swapFee (sweep * incomingCount) amount - fees, splits.length) := by
  have hcosts := hceiling.costs_le hcount
  have hbound := hceiling.bound
  have hfundings : splits.length * funding ≤ p.txCount * funding :=
    Nat.mul_le_mul_right _ hsplits
  obtain ⟨fees, hfees, hsum⟩ := @fundingFees_le _ _ _ 0 splits hceiling.perFunding (by omega)
  refine ⟨fees, hfees.trans hfundings, ?_⟩
  have hrest : checkedSub (hopNetSats terms.swapFee (sweep * incomingCount) amount) (0 + fees) =
      some (hopNetSats terms.swapFee (sweep * incomingCount) amount - fees) :=
    checkedSub_eq_some.mpr (by omega)
  rw [nextHop_eq hceiling.perSweep hsum (by omega), hrest]
  rfl

/-- The shape with every split at the full input budget. -/
def PaymentParams.fullShape (p : PaymentParams) : List Nat :=
  List.replicate p.txCount p.maxInputBudget

theorem PaymentParams.Ceiling.nextHop_full {next referenceHeight i}
    (h : p.nextHop referenceHeight i terms amount incomingCount p.fullShape = .ok next) :
    next.1 + p.txCount * funding = hopNetSats terms.swapFee (sweep * incomingCount) amount := by
  have hcosts := hceiling.costs_le hcount
  have hbound := hceiling.bound
  have hfees : fundingFees p.maxInputBudget p.swapFeerate p.fullShape 0 =
      some (0 + p.txCount * funding) := fundingFees_replicate hceiling.perFunding (by omega)
  rw [nextHop_eq hceiling.perSweep hfees (by omega)] at h
  cases hrest : checkedSub (hopNetSats terms.swapFee (sweep * incomingCount) amount)
      (0 + p.txCount * funding) with
  | none =>
    rw [hrest] at h
    cases h
  | some rest =>
    rw [hrest] at h
    cases h
    have := checkedSub_eq_some.mp hrest
    show rest + _ = _
    omega

/-- A hop declared an amount above the quoted one forwards what was quoted, for every
shape within the ceiling, if its fee grows by no more than the amount. -/
theorem PaymentParams.Ceiling.hop_covers {quoted net}
    (hquoted : terms.swapFee quoted + perHopMiningFee + net = quoted)
    (hfits : terms.swapFee amount + perHopMiningFee < 2 ^ 64)
    (hsteady : terms.swapFee amount + quoted ≤ terms.swapFee quoted + amount)
    {splits : List Nat} (hsplits : splits.length ≤ p.txCount) (referenceHeight i : Nat) :
    ∃ next, p.nextHop referenceHeight i terms amount incomingCount splits =
      .ok (next, splits.length) ∧ net ≤ next ∧ next ≤ amount := by
  have hcosts := hceiling.costs_le hcount
  have hnet : hopNetSats terms.swapFee (sweep * incomingCount) amount =
      amount - (terms.swapFee amount + sweep * incomingCount) := by
    rw [hopNetSats, wrapAdd64, Nat.mod_eq_of_lt (by omega)]
  have hpays : p.txCount * funding ≤ hopNetSats terms.swapFee (sweep * incomingCount) amount := by
    omega
  obtain ⟨fees, hfees, hnext⟩ := hceiling.nextHop_ok hcount hpays hsplits referenceHeight i
  exact ⟨_, hnext, by omega, by omega⟩

end Ceiling

/-! ## The route -/

theorem hopGrossForNet_ok {swapFee : Nat → Nat} {perHopMiningFee netSats gross}
    (h : hopGrossForNet swapFee perHopMiningFee netSats = .ok gross) :
    hopNetSats swapFee perHopMiningFee gross = netSats := by
  simp only [hopGrossForNet, bind_ok_iff, ensure_eq_ok, okOr_eq_ok] at h
  obtain ⟨hi, -, _, hexact, heq⟩ := h
  cases heq
  exact hexact

theorem le_requiredGross {perHopMiningFee finalNetSats gross} {fees : List (Nat → Nat)}
    (h : requiredGross perHopMiningFee finalNetSats fees = .ok gross) : finalNetSats ≤ gross := by
  induction fees generalizing gross with
  | nil =>
    cases h
    exact le_rfl
  | cons fee rest ih =>
    simp only [requiredGross, bind_ok_iff] at h
    obtain ⟨required, hrest, hhop⟩ := h
    have hnet := hopGrossForNet_ok hhop
    have hle := ih hrest
    unfold hopNetSats at hnet
    omega

/-- Up to the limit every hop's deductions stay within 64 bits, and after the first, which gets
what it was quoted, no fee grows faster than the amount. -/
structure SoundHops (hops : List HopFeeTerms) (perHopMiningFee limit : Nat) : Prop where
  fits : ∀ terms ∈ hops, ∀ amount ≤ limit, terms.swapFee amount + perHopMiningFee < 2 ^ 64
  steady : ∀ terms ∈ hops.tail, Steady terms.swapFee limit

theorem SoundHops.tail {perHopMiningFee limit}
    (h : SoundHops (terms :: hops) perHopMiningFee limit) :
    SoundHops hops perHopMiningFee limit :=
  ⟨fun t ht => h.fits t (mem_cons_of_mem _ ht), fun t ht => h.steady t (mem_of_mem_tail ht)⟩

/-- A route that starts with at least what the solver asks for ends with at least what it
was solved for, whatever the makers report. -/
theorem walkRoute_covers {perHopMiningFee funding sweep limit finalNet}
    (hceiling : p.Ceiling perHopMiningFee funding sweep) (hpos : 0 < finalNet) {outcomes}
    (hsound : SoundHops hops perHopMiningFee limit) (hlen : outcomes.length = hops.length)
    (hsplits : ∀ splits ∈ outcomes, splits.length ≤ p.txCount) {required count}
    (hsolve : requiredGross perHopMiningFee finalNet (hops.map (·.swapFee)) = .ok required)
    (hamount : required ≤ amount) (hfirst : ∀ terms ∈ hops.head?,
      terms.swapFee amount + required ≤ terms.swapFee required + amount)
    (hle : amount ≤ limit) (hcount : count ≤ p.txCount) (referenceHeight i : Nat) :
    ∃ final n, walkRoute p referenceHeight i (hops.zip outcomes) amount count = .ok (final, n) ∧
      finalNet ≤ final := by
  -- the solver and the walk take the hops in the same order
  induction hops generalizing outcomes required amount count i with
  | nil =>
    cases hsolve
    exact ⟨amount, count, rfl, hamount⟩
  | cons terms rest ih =>
    obtain ⟨splits, outcomes, rfl⟩ := exists_cons_of_length_eq_add_one hlen
    simp only [map_cons, requiredGross, bind_ok_iff] at hsolve
    obtain ⟨net, hrest, hhop⟩ := hsolve
    have hnet := hopGrossForNet_ok hhop
    have hnetpos := le_requiredGross hrest
    have hmem : terms ∈ terms :: rest := mem_cons_self
    have hfits := hsound.fits terms hmem required (hamount.trans hle)
    rw [hopNetSats, wrapAdd64, Nat.mod_eq_of_lt hfits] at hnet
    have hquoted : terms.swapFee required + perHopMiningFee + net = required := by omega
    obtain ⟨next, hnext, hcovers, hbound⟩ := hceiling.hop_covers hcount hquoted
      (hsound.fits terms hmem amount hle) (hfirst terms rfl) (hsplits splits mem_cons_self)
      referenceHeight i
    have hlater : ∀ terms ∈ rest.head?,
        terms.swapFee next + net ≤ terms.swapFee net + next := fun terms hterms =>
      hsound.steady terms (mem_of_mem_head? hterms) net next hcovers (hbound.trans hle)
    obtain ⟨final, n, hwalk, hfinal⟩ := ih hsound.tail (Nat.succ.inj hlen)
      (fun s hs => hsplits s (mem_cons_of_mem _ hs)) hrest hcovers hlater (hbound.trans hle)
      (hsplits splits mem_cons_self) (i + 1)
    refine ⟨final, n, ?_, hfinal⟩
    simp only [zip_cons_cons, walkRoute, hnext, bind, Except.bind]
    exact hwalk

theorem walkRoute_append (referenceHeight i : Nat) (before after : List (HopFeeTerms × List Nat))
    (amount count : Nat) :
    walkRoute p referenceHeight i (before ++ after) amount count =
      (walkRoute p referenceHeight i before amount count).bind fun next =>
        walkRoute p referenceHeight (i + before.length) after next.1 next.2 := by
  induction before generalizing i amount count with
  | nil => rfl
  | cons hop rest ih =>
    rw [cons_append, walkRoute, walkRoute]
    cases p.nextHop referenceHeight i hop.1 amount count hop.2 with
    | error e => rfl
    | ok next =>
      rw [length_cons, Nat.add_comm rest.length, ← Nat.add_assoc]
      exact ih (i + 1) next.1 next.2

/-! ## What every shape of the makers is paid by -/

/-- The shapes of a maker's funding that the taker accepts. -/
def PaymentParams.MayReport (p : PaymentParams) (splits : List Nat) : Prop :=
  splits ≠ [] ∧ splits.length ≤ p.txCount

theorem PaymentParams.mayReport_fullShape (p : PaymentParams) : p.MayReport p.fullShape := by
  have hlen : p.fullShape.length = p.txCount := length_replicate
  refine ⟨fun hnil => ?_, hlen.le⟩
  have := p.txCount_pos
  rw [hnil, length_nil] at hlen
  omega

/-- These makers can leave the route with this amount, in this many contracts. -/
def PaymentParams.Leaves (p : PaymentParams) (referenceHeight sendAmount : Nat)
    (hops : List HopFeeTerms) (amount count : Nat) : Prop :=
  ∃ outcomes, outcomes.length = hops.length ∧ (∀ splits ∈ outcomes, p.MayReport splits) ∧
    ∃ own, 1 ≤ own ∧ own ≤ p.txCount ∧
      walkRoute p referenceHeight 0 (hops.zip outcomes) sendAmount own = .ok (amount, count)

/-- The route ends with at least this much whatever shapes its makers report. -/
def PaymentParams.Pays (p : PaymentParams) (referenceHeight sendAmount : Nat)
    (hops : List HopFeeTerms) (final : Nat) : Prop :=
  ∀ outcomes, outcomes.length = hops.length → (∀ splits ∈ outcomes, p.MayReport splits) →
    ∀ own, 1 ≤ own → own ≤ p.txCount → ∃ amount count,
      walkRoute p referenceHeight 0 (hops.zip outcomes) sendAmount own = .ok (amount, count) ∧
        final ≤ amount

/-- At whatever those before it can leave it with, each maker's net of fee and sweeps pays the
funding fees of the full shape, and that of the last one also what the route has to end with. -/
structure PaymentParams.Covered (p : PaymentParams) (referenceHeight sendAmount funding sweep : Nat)
    (hops : List HopFeeTerms) (final : Nat) : Prop where
  noHop : hops = [] → final ≤ sendAmount
  hop : ∀ before terms after, hops = before ++ terms :: after → ∀ amount count,
    p.Leaves referenceHeight sendAmount before amount count →
      (if after = [] then final else 0) + p.txCount * funding ≤
        hopNetSats terms.swapFee (sweep * count) amount

section Covered

variable {referenceHeight sendAmount perHopMiningFee funding sweep final count : Nat}
  {before after : List HopFeeTerms}

theorem PaymentParams.nextHop_count {i splits next}
    (h : p.nextHop referenceHeight i terms amount count splits = .ok next) :
    next.2 = splits.length := by
  simp only [nextHop, deriveNextHop, bind_ok_iff] at h
  obtain ⟨_, -, _, -, _, -, heq⟩ := h
  cases heq
  rfl

/-- One more maker, with a shape it may report. -/
theorem PaymentParams.Leaves.next (h : p.Leaves referenceHeight sendAmount before amount count)
    {splits : List Nat} (hreport : p.MayReport splits) {next}
    (hnext : p.nextHop referenceHeight before.length terms amount count splits = .ok next) :
    p.Leaves referenceHeight sendAmount (before ++ [terms]) next.1 next.2 := by
  obtain ⟨outcomes, hlen, hreports, own, hpos, hown, hwalk⟩ := h
  refine ⟨outcomes ++ [splits], by simp [hlen], ?_, own, hpos, hown, ?_⟩
  · intro s hs
    rcases mem_append.mp hs with hs | hs
    · exact hreports s hs
    · rwa [mem_singleton.mp hs]
  · rw [zip_append hlen.symm, walkRoute_append, hwalk, Nat.zero_add, length_zip, hlen, Nat.min_self]
    simp only [Except.bind, zip_cons_cons, zip_nil_left, walkRoute, hnext, bind]

theorem PaymentParams.Leaves.count_le
    (h : p.Leaves referenceHeight sendAmount before amount count) : count ≤ p.txCount := by
  obtain ⟨outcomes, hlen, hreport, own, -, hown, hwalk⟩ := h
  generalize sendAmount = start at hwalk
  generalize 0 = i at hwalk
  induction before generalizing outcomes i start own with
  | nil =>
    cases hwalk
    exact hown
  | cons terms rest ih =>
    obtain ⟨splits, outcomes, rfl⟩ := exists_cons_of_length_eq_add_one hlen
    simp only [zip_cons_cons, walkRoute, bind_ok_iff] at hwalk
    obtain ⟨next, hnext, hwalk⟩ := hwalk
    refine ih outcomes (Nat.succ.inj hlen) (fun s hs => hreport s (mem_cons_of_mem _ hs)) next.2 ?_
      next.1 _ hwalk
    rw [nextHop_count hnext]
    exact (hreport splits mem_cons_self).2

/-- From a maker on, every shape is paid for where each of the makers is covered. -/
theorem PaymentParams.Covered.walk (hceiling : p.Ceiling perHopMiningFee funding sweep)
    (h : p.Covered referenceHeight sendAmount funding sweep (before ++ terms :: after) final)
    (hleaves : p.Leaves referenceHeight sendAmount before amount count) {outcomes}
    (hlen : outcomes.length = after.length + 1)
    (hreport : ∀ splits ∈ outcomes, p.MayReport splits) :
    ∃ last n, walkRoute p referenceHeight before.length ((terms :: after).zip outcomes) amount
      count = .ok (last, n) ∧ final ≤ last := by
  induction after generalizing before terms amount count outcomes with
  | nil =>
    obtain ⟨splits, outcomes, rfl⟩ := exists_cons_of_length_eq_add_one hlen
    have hpays := h.hop before terms [] rfl amount count hleaves
    rw [if_pos rfl] at hpays
    obtain ⟨fees, hfees, hnext⟩ := hceiling.nextHop_ok hleaves.count_le
      (le_of_add_le_right hpays) (hreport splits mem_cons_self).2 referenceHeight before.length
    refine ⟨hopNetSats terms.swapFee (sweep * count) amount - fees, splits.length, ?_, by omega⟩
    simp only [zip_cons_cons, zip_nil_left, walkRoute, hnext, bind, Except.bind]
  | cons terms' after ih =>
    obtain ⟨splits, outcomes, rfl⟩ := exists_cons_of_length_eq_add_one hlen
    have hpays := h.hop before terms (terms' :: after) rfl amount count hleaves
    obtain ⟨fees, hfees, hnext⟩ := hceiling.nextHop_ok hleaves.count_le
      (le_of_add_le_right hpays) (hreport splits mem_cons_self).2 referenceHeight before.length
    rw [← singleton_append, ← append_assoc] at h
    obtain ⟨last, n, hwalk, hle⟩ := ih h (hleaves.next (hreport splits mem_cons_self) hnext)
      (Nat.succ.inj hlen) fun s hs => hreport s (mem_cons_of_mem _ hs)
    refine ⟨last, n, ?_, hle⟩
    rw [zip_cons_cons, walkRoute, hnext]
    rwa [length_append] at hwalk

/-- **Exactly a covered route pays for every shape** its makers may report. -/
theorem PaymentParams.pays_iff_covered (hceiling : p.Ceiling perHopMiningFee funding sweep) :
    p.Pays referenceHeight sendAmount hops final ↔
      p.Covered referenceHeight sendAmount funding sweep hops final := by
  constructor
  · refine fun h => ⟨fun hnil => ?_, fun before terms after hhops amount count hleaves => ?_⟩
    · subst hnil
      obtain ⟨amount, count, hwalk, hle⟩ := h [] rfl (by simp) 1 le_rfl p.txCount_pos
      cases hwalk
      exact hle
    · -- the makers from this one on report the full shape
      have hcount := hleaves.count_le
      obtain ⟨outcomes, hlen, hreport, own, hpos, hown, hwalk⟩ := hleaves
      subst hhops
      obtain ⟨last, n, hwhole, hle⟩ := h
        (outcomes ++ p.fullShape :: List.replicate after.length p.fullShape) (by simp [hlen])
        (by
          intro splits hs
          rw [mem_append, mem_cons, mem_replicate] at hs
          rcases hs with hs | rfl | ⟨-, rfl⟩
          · exact hreport splits hs
          all_goals exact p.mayReport_fullShape) own hpos hown
      rw [zip_append hlen.symm, walkRoute_append, hwalk] at hwhole
      simp only [Except.bind, zip_cons_cons, walkRoute, bind_ok_iff] at hwhole
      obtain ⟨next, hnext, hrest⟩ := hwhole
      have hnet := hceiling.nextHop_full hcount hnext
      split
      next hnil =>
        subst hnil
        cases hrest
        omega
      next => omega
  · intro h outcomes hlen hreport own hpos hown
    cases hops with
    | nil =>
      obtain rfl := eq_nil_of_length_eq_zero hlen
      exact ⟨sendAmount, own, rfl, h.noHop rfl⟩
    | cons terms after =>
      rw [← nil_append (terms :: after)] at h
      exact h.walk hceiling ⟨[], rfl, by simp, own, hpos, hown, rfl⟩ hlen hreport

end Covered

theorem routeOffers_ok {receiverAmount i offers}
    (h : routeOffers receiverAmount i makers = .ok offers) :
    makers.filterMap (·.offer) = offers := by
  induction makers generalizing i offers with
  | nil =>
    cases h
    rfl
  | cons maker rest ih =>
    simp only [routeOffers, routeOffer, bind_ok_iff, okOr_eq_ok] at h
    obtain ⟨offer, hoffer, _, -, others, hothers, heq⟩ := h
    cases heq
    rw [filterMap_cons_some hoffer, ih hothers]

structure PaymentParams.Accepted {Address : Type} (p : PaymentParams) (available : Nat)
    (makers : List RouteMaker) (route : PaymentRoute Address) : Prop where
  offers : makers.filterMap (·.offer) = route.offers
  budget : p.settlementBudget = some route.payment.settlementBudget
  mining : p.perHopMiningFee = some route.payment.takerFundingFeeEstimate
  solved : requiredGross route.payment.takerFundingFeeEstimate
    (wrapAdd64 p.receiverAmount route.payment.settlementBudget)
    ((hopsOf route.offers).map (·.swapFee)) = .ok route.sendAmount
  funded : route.sendAmount ≤ available

theorem preparePaymentRoute_ok {Address : Type} {available : Nat} {address : Address}
    {route : PaymentRoute Address}
    (h : preparePaymentRoute p available makers address = .ok route) :
    p.Accepted available makers route := by
  simp only [preparePaymentRoute, solveRouteGrossSats, solveRouteAt, bind_ok_iff, ensure_eq_ok,
    okOr_eq_ok] at h
  obtain ⟨offers, hoffers, budget, hbudget, mining, hmining, gross,
    ⟨required, hrequired, _, -, heq⟩, _, -, _, havailable, hroute⟩ := h
  cases heq
  cases hroute
  exact ⟨routeOffers_ok hoffers, hbudget, hmining, hrequired,
    (Nat.le_add_right _ _).trans havailable⟩

theorem PaymentParams.settlementBudget_pos {budget} (h : p.settlementBudget = some budget) :
    0 < budget := by
  simp only [settlementBudget, bind_eq_some_iff, checkedMul64_eq_some] at h
  obtain ⟨perCoin, hper, rfl, -⟩ := h
  refine Nat.mul_pos ?_ p.txCount_pos
  cases hprotocol : p.protocol with
  | legacy =>
    simp only [hprotocol, paymentSettlementBudgetSats, settlementBudgetAt, bind_eq_bind,
      bind_eq_some_iff, checkedAdd64_eq_some] at hper
    obtain ⟨contractFee, hcontract, spendFee, -, rfl, -⟩ := hper
    have := feeAtRateSats_pos (by decide) hcontract
    omega
  | taproot =>
    rw [hprotocol] at hper
    exact feeAtRateSats_pos (by decide) hper

/-- A condition on the offers alone: no sum of the route wraps up to the amount sent, and no fee of
a maker after the first grows faster than the amount. -/
structure PaymentParams.Sound (p : PaymentParams) (sendAmount : Nat) (makers : List RouteMaker) :
    Prop where
  amount : ∀ budget ∈ p.settlementBudget, p.receiverAmount + budget < 2 ^ 64
  hops : ∀ mining ∈ p.perHopMiningFee, SoundHops (routeHops makers) mining sendAmount

namespace SamplePayment

def params (receiverAmount : Nat) : PaymentParams where
  receiverAmount := receiverAmount
  txCount := 1
  txCount_pos := by decide
  maxInputBudget := 2
  feerate := 1
  protocol := .taproot

def offer (baseFee : Nat) (amountPct timePct : ℚ) : Offer where
  baseFee := baseFee
  amountRelativeFeePct := double amountPct
  timeRelativeFeePct := double timePct
  minSize := 500
  maxSize := 100000000000
  name := "maker"

def fairMakers : List RouteMaker :=
  [⟨"first", some (offer 100 (1 / 10) (1 / 100))⟩, ⟨"second", some (offer 100 (1 / 10) (1 / 100))⟩]

/-- A free maker, then one that keeps 90 % and almost half a percent for each of 20 blocks. -/
def dearMakers : List RouteMaker :=
  [⟨"first", some (offer 0 0 0)⟩, ⟨"second", some (offer 0 90 (4999999 / 10000000))⟩]

/-- What arrives over an accepted route, if the makers report these splits. -/
def arrives (p : PaymentParams) (available : Nat) (makers : List RouteMaker)
    (outcomes : List (List Nat)) : Except TakerError (Nat × Nat) := do
  let route ← preparePaymentRoute p available makers ()
  walkRoute p 0 0 ((routeHops makers).zip outcomes) route.sendAmount 1

end SamplePayment

theorem SamplePayment.fairMakers_sound {sendAmount : Nat} (hsend : sendAmount ≤ 1000000) :
    (params 100000).Sound sendAmount fairMakers := by
  have hfair : ∀ terms ∈ routeHops fairMakers, 0 ≤ terms.amountRelativeFeePct ∧
      0 ≤ terms.timeRelativeFeePct ∧
      terms.rate + (terms.baseFee + (1000000 : Nat)) / 2 ^ 49 ≤ 1 ∧ terms.swapFee 0 = 100 := by
    decide +kernel
  have hsteady : ∀ terms ∈ routeHops fairMakers, Steady terms.swapFee 1000000 := fun terms h =>
    terms.steady (hfair terms h).1 (hfair terms h).2.1 (hfair terms h).2.2.1
  constructor
  · intro budget hbudget
    obtain rfl : 155 = budget := Option.some.inj hbudget
    decide
  · intro mining hmining
    obtain rfl : 345 = mining := Option.some.inj hmining
    refine ⟨fun terms h amount hle => ?_, fun terms h x y hxy hy =>
      hsteady terms (mem_of_mem_tail h) x y hxy (hy.trans hsend)⟩
    have hgrow := hsteady terms h 0 amount (Nat.zero_le _) (hle.trans hsend)
    have hzero := (hfair terms h).2.2.2
    omega

end OpenSwap
