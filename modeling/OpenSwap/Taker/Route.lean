import OpenSwap.Taker.Payment

/-!
# The refund locks of a route

The taker walks its makers in order, declares a refund lock to each, and puts a spare in
the place of one that fails.  Its own first hop is locked when it funds the swap.  A Legacy
maker can still be replaced after that.

* `SwapRoute.step` — the walk with its substitutions, funding, and the later substitutions.
* `Staircase` — every lock one step above the next, the last one at the base, Taproot
  heights all counted from the recorded reference.
-/

namespace OpenSwap

open Btc Checked Run Binary64 List

/-! ## The locks -/

/-- The offset of a lock with so many hops behind it, in 16 bits. -/
def refundLocktimeAt (hops : Nat) : Nat :=
  (refundLocktimeBase + refundLocktimeStep * hops) % 2 ^ 16

/-- Legacy locks are offsets, Taproot locks are heights of 32 bits. -/
def hopTimelock (protocol : ProtocolVersion) (referenceHeight refundLocktimeOffset : Nat) : Nat :=
  match protocol with
  | .legacy => refundLocktimeOffset
  | .taproot => (referenceHeight + refundLocktimeOffset) % 2 ^ 32

/-! ## The route -/

/-- A maker on the route.  What its acknowledgement fixes is blank until it comes. -/
structure HopMaker where
  address : String
  offer : Option Offer
  tweakable : Bool
  negotiatedTimelock : Nat
  amount : Nat
  incomingCount : Nat
  fundingSplits : List Nat

def HopMaker.new (address : String) (offer : Option Offer) : HopMaker where
  address := address
  offer := offer
  tweakable := false
  negotiatedTimelock := 0
  amount := 0
  incomingCount := 0
  fundingSplits := []

structure RouteParams where
  protocol : ProtocolVersion
  makerCount : Nat
  txCount : Nat
  txCounts : List Nat
  maxInputBudget : Nat
  feerate : Nat

def RouteParams.swapFeerate (p : RouteParams) : Nat := roundF64 p.feerate

def RouteParams.hopTxCounts (p : RouteParams) : List Nat :=
  if p.txCounts.length = p.makerCount + 1 then p.txCounts
  else List.replicate (p.makerCount + 1) p.txCount

structure SwapRoute where
  params : RouteParams
  /-- a payment is priced against the exact makers it was solved for -/
  payment : Bool
  makers : List HopMaker
  spareMakers : List String
  referenceHeight : Option Nat

/-- What a maker sends back: its offer, and the splits it freezes if it accepts. -/
structure MakerReply where
  offer : Offer
  fundingSplits : Option (List Nat)

/-- One attempt at a position.  The reply is missing if the maker cannot be reached, lacks
a feature or answers out of turn. -/
structure Attempt where
  reply : Option MakerReply
  banned : String → Bool

def Offer.repriced (quoted offer : Offer) : Bool :=
  quoted.baseFee ≠ offer.baseFee ∨ quoted.amountRelativeFeePct ≠ offer.amountRelativeFeePct ∨
    quoted.timeRelativeFeePct ≠ offer.timeRelativeFeePct

namespace SwapRoute

variable (r : SwapRoute)

def setMaker (i : Nat) (m : HopMaker) : SwapRoute :=
  { r with makers := r.makers.set i m }

/-- The declaration to maker `i` and its answer.  A failure is followed by a replacement
of the maker or by the end of the swap, so what it leaves behind is not kept. -/
def negotiateWithMaker (i amount incomingCount referenceHeight : Nat) (reply : Option MakerReply) :
    Except TakerError SwapRoute := do
  let old ← okOr r.makers[i]? (.general s!"No maker {i} on the route")
  let txCount := r.params.hopTxCounts.getD (i + 1) 0
  let reply ← okOr reply (.general s!"Unexpected message from maker {i}")
  validateOffer reply.offer i amount
  ensure (¬ (r.payment ∧ old.offer.any (·.repriced reply.offer))) (.general
    s!"Maker {i} repriced its offer between the payment quote and negotiation")
  let fundingSplits ← okOr reply.fundingSplits (.general s!"Maker {i} rejected swap")
  ensure (fundingSplits ≠ [] ∧ fundingSplits.length ≤ txCount) (.general
    s!"Maker {i} accepted with an invalid plan shape: {fundingSplits.length} splits")
  .ok (r.setMaker i
    { old with
      offer := some reply.offer
      tweakable := true
      negotiatedTimelock := hopTimelock r.params.protocol referenceHeight
        (refundLocktimeOffsetOf r.params.makerCount i)
      amount := amount
      incomingCount := incomingCount
      fundingSplits := fundingSplits })

def connection (i : Nat) (m : HopMaker) : MakerConnection where
  protocol := r.params.protocol
  amount := m.amount
  incomingCount := m.incomingCount
  negotiatedTimelock := m.negotiatedTimelock
  refundLocktimeOffset := refundLocktimeOffsetOf r.makers.length i
  fundingSplits := m.fundingSplits
  maxInputBudget := r.params.maxInputBudget
  swapFeerate := r.params.swapFeerate

def deriveNextHop (i : Nat) : Except TakerError (Nat × Nat) := do
  let shape ← okOr (r.makers[i]?.bind fun m => m.offer.map (m, ·))
    (.general s!"Maker {i} has no negotiated shape to derive the next hop from")
  OpenSwap.deriveNextHop
    (fun amount locktime => (HopFeeTerms.fromOffer shape.2 locktime).swapFee amount) i
    (r.connection i shape.1)

/-- The last spare with no ban on record; those behind it that have one are dropped. -/
def takeEligibleSpare (banned : String → Bool) : Option (String × SwapRoute) :=
  match r.spareMakers.reverse.dropWhile banned with
  | [] => none
  | spare :: rest => some (spare, { r with spareMakers := rest.reverse })

/-- A spare in the place of maker `i`, with the hop's declaration and nothing else. -/
def replaceMaker (i amount incomingCount : Nat) (spare : String) : SwapRoute :=
  r.setMaker i { HopMaker.new spare none with amount := amount, incomingCount := incomingCount }

/-- What the spare at a hop forwards must be what the next maker was told, or, at the last
hop, no less than before. -/
def checkSpareShape (target : Nat) (priorDelivered : Option Nat) : Except TakerError Unit := do
  let next ← r.deriveNextHop target
  match r.makers[target + 1]? with
  | some downstream =>
    ensure (next.1 = downstream.amount ∧ next.2 = downstream.incomingCount) (.general
      s!"Spare at hop {target} forwards a different shape than the failed maker; aborting swap")
  | none =>
    let prior ← okOr priorDelivered (.general
      s!"Maker {target} has no negotiated shape to price the last hop from")
    let spare := next.1
    ensure (prior ≤ spare) (.general
      s!"Spare at the last hop forwards {spare} sats where the failed maker forwarded {prior} sats; aborting swap")

/-- Put a spare in the place of a maker that failed after the walk, and negotiate only
with it. -/
def substituteAndNegotiateSpare (target : Nat) (spare : String) (height : Option Nat)
    (attempt : Attempt) : Except TakerError SwapRoute := do
  ensure (¬ attempt.banned spare) (.general s!"Spare maker {spare} is banned")
  ensure (¬ r.payment) (.general "Cannot substitute a maker in a payment swap")
  let old ← okOr r.makers[target]? (.general s!"No maker {target} on the route")
  let priorDelivered := (r.deriveNextHop target).toOption.map (·.1)
  let height ← okOr height (.general "Failed to get block count")
  let referenceHeight := height % 2 ^ 32
  let replaced :=
    { r.replaceMaker target old.amount old.incomingCount spare with
      referenceHeight := some referenceHeight }
  let r' ← replaced.negotiateWithMaker target old.amount old.incomingCount referenceHeight
    attempt.reply
  r'.checkSpareShape target priorDelivered
  .ok r'

def fundingInitialize (currentHeight : Nat) : Except TakerError Nat := do
  let first ← okOr r.makers.head? (.general "No makers in swap route")
  ensure first.tweakable (.general "First maker missing tweakable point")
  let lock := hopTimelock r.params.protocol (r.referenceHeight.getD currentHeight)
    (refundLocktimeAt r.params.makerCount)
  match r.params.protocol with
  | .legacy => .ok lock
  | .taproot => okOr (lockTimeFromHeight lock) (.general "Invalid locktime")

end SwapRoute

/-! ## Runs -/

inductive RoutePhase where
  | selected
  /-- the loop is at maker `i` -/
  | walking (i amount incomingCount referenceHeight : Nat)
  | negotiated
  /-- the taker's contracts exist; they are committed before any of them is sent -/
  | funded (lock : Nat) (committed : Bool)
  | aborted (e : TakerError)

structure RouteState where
  route : SwapRoute
  phase : RoutePhase

inductive RouteAction where
  /-- `negotiate_swap_details` up to the walk, with the block count and the plan of hop 0 -/
  | plan (height declaredAmount plannedCount : Nat)
  | answer (attempt : Attempt)
  | fund (currentHeight : Nat)
  | commit
  | substitute (target : Nat) (height : Option Nat) (attempt : Attempt)
  | fail (e : TakerError)

namespace SwapRoute

variable (r : SwapRoute)

def enter (i amount incomingCount referenceHeight : Nat) : RouteState :=
  ⟨r, if i < r.params.makerCount then .walking i amount incomingCount referenceHeight
    else .negotiated⟩

def nextDeclaration (i amount incomingCount : Nat) : Except TakerError (Nat × Nat) :=
  if i + 1 < r.params.makerCount then r.deriveNextHop i else .ok (amount, incomingCount)

/-- One round of `walk_route`, at maker `i`. -/
def walkRound (i amount incomingCount referenceHeight : Nat) (attempt : Attempt) : RouteState :=
  match r.negotiateWithMaker i amount incomingCount referenceHeight attempt.reply with
  | .ok r' =>
    match r'.nextDeclaration i amount incomingCount with
    | .ok hop => r'.enter (i + 1) hop.1 hop.2 referenceHeight
    | .error e => ⟨r', .aborted e⟩
  | .error _ =>
    if r.payment then ⟨r, .aborted (.general s!"Maker {i} failed during payment swap negotiation")⟩
    else match r.takeEligibleSpare attempt.banned with
      | some (spare, r') =>
        ⟨r'.replaceMaker i amount incomingCount spare,
          .walking i amount incomingCount referenceHeight⟩
      | none => ⟨r, .aborted (.general s!"Maker {i} failed and no spare makers available")⟩

/-- A spare for a maker that failed after funding: the first maker's while nothing is
committed, which is then funded again, and a later one's afterwards. -/
def substituteRound (lock : Nat) (committed : Bool) (target : Nat) (height : Option Nat)
    (attempt : Attempt) : RouteState :=
  match r.takeEligibleSpare attempt.banned with
  | some (spare, r') =>
    match r'.substituteAndNegotiateSpare target spare height attempt with
    | .ok r' => ⟨r', if committed then .funded lock true else .negotiated⟩
    | .error e => ⟨r', .aborted e⟩
  | none => ⟨r, .aborted (.general "No spare makers available")⟩

/-- Taproot exchanges make no substitutions. -/
def substitutable (committed : Bool) (target : Nat) : Bool :=
  r.params.protocol = .legacy ∧
    if committed then 0 < target ∧ target < r.makers.length else target = 0

def step (s : RouteState) (a : RouteAction) : Option RouteState :=
  match s.phase, a with
  | .selected, .plan height declaredAmount plannedCount =>
    let referenceHeight := height % 2 ^ 32
    some (enter { s.route with referenceHeight := some referenceHeight } 0 declaredAmount
      plannedCount referenceHeight)
  | .walking i amount incomingCount referenceHeight, .answer attempt =>
    some (s.route.walkRound i amount incomingCount referenceHeight attempt)
  | .negotiated, .fund currentHeight =>
    match s.route.fundingInitialize currentHeight with
    | .ok lock => some ⟨s.route, .funded lock false⟩
    | .error e => some ⟨s.route, .aborted e⟩
  | .funded lock false, .commit => some ⟨s.route, .funded lock true⟩
  | .funded lock committed, .substitute target height attempt =>
    if s.route.substitutable committed target then
      some (s.route.substituteRound lock committed target height attempt)
    else none
  | .aborted _, .fail _ => none
  | _, .fail e => some ⟨s.route, .aborted e⟩
  | _, _ => none

def selected (params : RouteParams) (payment : Bool) (makers : List HopMaker)
    (spareMakers : List String) : RouteState :=
  ⟨⟨params, payment, makers, spareMakers, none⟩, .selected⟩

end SwapRoute

/-! ## The locks of a route -/

def RouteParams.lockOf (p : RouteParams) (referenceHeight i : Nat) : Nat :=
  hopTimelock p.protocol referenceHeight (refundLocktimeOffsetOf p.makerCount i)

def RouteParams.firstLock (p : RouteParams) (referenceHeight : Nat) : Nat :=
  hopTimelock p.protocol referenceHeight (refundLocktimeAt p.makerCount)

/-- The first `n` makers hold the locks of their positions. -/
def Settled (p : RouteParams) (referenceHeight : Nat) (makers : List HopMaker) (n : Nat) : Prop :=
  ∀ i < n, ∀ m ∈ makers[i]?, m.negotiatedTimelock = p.lockOf referenceHeight i

variable {p : RouteParams} {referenceHeight : Nat} {hops : Nat}

theorem forall_getElem?_set {α : Type} {Q : Nat → α → Prop} {l : List α} {n i : Nat} {x : α}
    (h : ∀ j < n, j ≠ i → ∀ y ∈ l[j]?, Q j y) (hx : i < n → Q i x) :
    ∀ j < n, ∀ y ∈ (l.set i x)[j]?, Q j y := by
  intro j hj y hy
  by_cases hji : j = i
  · subst hji
    rw [getElem?_set_self'] at hy
    obtain ⟨_, -, rfl⟩ := Option.map_eq_some_iff.mp hy
    exact hx hj
  · rw [getElem?_set_ne (Ne.symm hji)] at hy
    exact h j hj hji y hy

namespace SwapRoute

structure Accepted (p : RouteParams) (referenceHeight i : Nat) (m : HopMaker) : Prop where
  offer : m.offer.isSome
  splits : m.fundingSplits ≠ []
  count : m.fundingSplits.length ≤ p.hopTxCounts.getD (i + 1) 0
  lock : m.negotiatedTimelock = p.lockOf referenceHeight i

/-- What maker `i` is declared: the plan of hop 0, and later what the maker before forwards. -/
def Declared (r : SwapRoute) (starts : Nat × Nat → Prop) : Nat → Nat × Nat → Prop
  | 0, declared => starts declared
  | i + 1, declared => r.deriveNextHop i = .ok declared

/-- The first `n` makers have accepted what they were declared. -/
def Chained (r : SwapRoute) (starts : Nat × Nat → Prop) (referenceHeight n : Nat) : Prop :=
  ∀ i < n, ∀ m ∈ r.makers[i]?,
    Accepted r.params referenceHeight i m ∧ r.Declared starts i (m.amount, m.incomingCount)

variable {r r' : SwapRoute} {i referenceHeight amount incomingCount target : Nat} {m : HopMaker}
  {p : RouteParams} {starts : Nat × Nat → Prop} {s s' : RouteState} {a : RouteAction}
  {n lock j : Nat} {spare : String}

theorem Chained.settled (h : r.Chained starts referenceHeight n) :
    Settled r.params referenceHeight r.makers n :=
  fun i hi m hm => (h i hi m hm).1.lock

theorem negotiateWithMaker_ok {reply}
    (h : r.negotiateWithMaker i amount incomingCount referenceHeight reply = .ok r') :
    ∃ m : HopMaker, r' = r.setMaker i m ∧ Accepted r.params referenceHeight i m ∧
      (m.amount, m.incomingCount) = (amount, incomingCount) := by
  simp only [negotiateWithMaker, bind_ok_iff, ensure_eq_ok, Except.ok.injEq] at h
  obtain ⟨old, -, _, -, _, -, _, -, splits, -, _, ⟨hsplits, hcount⟩, rfl⟩ := h
  exact ⟨_, rfl, ⟨rfl, hsplits, hcount, rfl⟩, rfl⟩

theorem takeEligibleSpare_some {banned : String → Bool}
    (h : r.takeEligibleSpare banned = some (spare, r')) :
    ∃ spares, r' = { r with spareMakers := spares } := by
  unfold takeEligibleSpare at h
  split at h
  · cases h
  · cases h
    exact ⟨_, rfl⟩

theorem fundingInitialize_ok {currentHeight} (h : r.fundingInitialize currentHeight = .ok lock) :
    lock = r.params.firstLock (r.referenceHeight.getD currentHeight) := by
  simp only [fundingInitialize, bind_ok_iff] at h
  obtain ⟨first, -, _, -, h⟩ := h
  split at h
  · cases h
    rfl
  · rw [okOr_eq_ok, lockTimeFromHeight, Option.ite_none_right_eq_some] at h
    exact (Option.some.inj h.2).symm

theorem lockOf_legacy (hlegacy : p.protocol = .legacy) (referenceHeight referenceHeight' i : Nat) :
    p.lockOf referenceHeight i = p.lockOf referenceHeight' i := by
  simp only [RouteParams.lockOf, hlegacy, hopTimelock]

theorem deriveNextHop_congr (hparams : r'.params = r.params)
    (hlength : r'.makers.length = r.makers.length) (hm : r'.makers[i]? = r.makers[i]?) :
    r'.deriveNextHop i = r.deriveNextHop i := by
  simp only [deriveNextHop, hm, connection, hparams, hlength]

theorem deriveNextHop_setMaker (hij : i ≠ j) :
    (r.setMaker i m).deriveNextHop j = r.deriveNextHop j :=
  deriveNextHop_congr rfl (length_set ..) (getElem?_set_ne hij)

theorem declared_setMaker {declared} (hj : j ≠ i + 1) :
    (r.setMaker i m).Declared starts j declared ↔ r.Declared starts j declared := by
  cases j with
  | zero => exact Iff.rfl
  | succ j =>
    simp only [Declared]
    rw [deriveNextHop_setMaker (by omega)]

/-- Another maker at a position, declared the same, after which the next maker still is
declared what the position forwards. -/
theorem chained_setMaker (h : ∀ j < n, j ≠ i → ∀ m' ∈ r.makers[j]?,
      Accepted r.params referenceHeight j m' ∧ r.Declared starts j (m'.amount, m'.incomingCount))
    (hm : i < n → Accepted r.params referenceHeight i m ∧
      r.Declared starts i (m.amount, m.incomingCount)) (hnext : i + 1 < n → ∀ m' ∈ r.makers[i + 1]?,
      (r.setMaker i m).deriveNextHop i = .ok (m'.amount, m'.incomingCount)) :
    (r.setMaker i m).Chained starts referenceHeight n := by
  refine forall_getElem?_set (fun j hj hji m' hm' => ?_) fun hi => ?_
  · refine ⟨(h j hj hji m' hm').1, ?_⟩
    by_cases hsucc : j = i + 1
    · subst hsucc
      exact hnext hj m' hm'
    · exact (declared_setMaker hsucc).mpr (h j hj hji m' hm').2
  · exact ⟨(hm hi).1, (declared_setMaker (by omega)).mpr (hm hi).2⟩

/-! ## Every run -/

def PhaseChained (r : SwapRoute) (starts : Nat × Nat → Prop) : RoutePhase → Prop
  | .selected | .aborted _ => True
  | .walking i amount incomingCount referenceHeight =>
    r.referenceHeight = some referenceHeight ∧ r.Chained starts referenceHeight i ∧
      r.Declared starts i (amount, incomingCount)
  | .negotiated => ∃ referenceHeight, r.referenceHeight = some referenceHeight ∧
      r.Chained starts referenceHeight r.params.makerCount
  | .funded lock _ => ∃ referenceHeight, r.referenceHeight = some referenceHeight ∧
      r.Chained starts referenceHeight r.params.makerCount ∧
      lock = r.params.firstLock referenceHeight

structure InChain (p : RouteParams) (starts : Nat × Nat → Prop) (s : RouteState) : Prop where
  params : s.route.params = p
  length : s.route.makers.length = p.makerCount
  phase : s.route.PhaseChained starts s.phase

theorem enter_inChain (hlength : r.makers.length = r.params.makerCount)
    (href : r.referenceHeight = some referenceHeight)
    (hchained : r.Chained starts referenceHeight i)
    (hdeclared : i < r.params.makerCount → r.Declared starts i (amount, incomingCount)) :
    InChain r.params starts (r.enter i amount incomingCount referenceHeight) := by
  refine ⟨rfl, hlength, ?_⟩
  simp only [enter]
  split
  · rename_i hi
    exact ⟨href, hchained, hdeclared hi⟩
  · rename_i hi
    exact ⟨referenceHeight, href, fun j hj => hchained j (by omega)⟩

theorem walkRound_inChain (hlength : r.makers.length = r.params.makerCount)
    (href : r.referenceHeight = some referenceHeight)
    (hchained : r.Chained starts referenceHeight i)
    (hdeclared : r.Declared starts i (amount, incomingCount)) (attempt : Attempt) :
    InChain r.params starts (r.walkRound i amount incomingCount referenceHeight attempt) := by
  have hlength' (m : HopMaker) : (r.setMaker i m).makers.length = r.params.makerCount := by
    rw [SwapRoute.setMaker, length_set, hlength]
  unfold walkRound
  split
  · rename_i r' hr'
    obtain ⟨m, rfl, haccepted, hm⟩ := negotiateWithMaker_ok hr'
    have hchained' : (r.setMaker i m).Chained starts referenceHeight (i + 1) :=
      chained_setMaker (fun j hj hji => hchained j (by omega))
        (fun _ => ⟨haccepted, hm ▸ hdeclared⟩) fun hi => absurd hi (lt_irrefl _)
    split
    · rename_i next hnext
      refine enter_inChain (r := r.setMaker i m) (hlength' m) href hchained' fun hi => ?_
      rwa [nextDeclaration, if_pos hi] at hnext
    · exact ⟨rfl, hlength' m, trivial⟩
  · split
    · exact ⟨rfl, hlength, trivial⟩
    · split
      · rename_i spare r' hspare
        obtain ⟨spares, rfl⟩ := takeEligibleSpare_some hspare
        refine ⟨rfl, hlength' _, href, ?_, (declared_setMaker (by omega)).mpr hdeclared⟩
        exact chained_setMaker (fun j hj _ => hchained j hj) (fun hi => absurd hi (lt_irrefl i))
          fun hi => absurd hi (by omega)
      · exact ⟨rfl, hlength, trivial⟩

/-- A later substitution keeps what the next maker is declared, or, at the last hop, what
the route delivers. -/
theorem substituteAndNegotiateSpare_keeps {height attempt}
    (h : r.substituteAndNegotiateSpare target spare height attempt = .ok r') :
    ∃ (old m : HopMaker) (referenceHeight : Nat) (next : Nat × Nat),
      r.makers[target]? = some old ∧
      r' = { r.setMaker target m with referenceHeight := some referenceHeight } ∧
      Accepted r.params referenceHeight target m ∧
      (m.amount, m.incomingCount) = (old.amount, old.incomingCount) ∧
      (r.setMaker target m).deriveNextHop target = .ok next ∧
      (∀ m' ∈ r.makers[target + 1]?, next = (m'.amount, m'.incomingCount)) ∧
      (r.makers[target + 1]? = none → ∃ prior, r.deriveNextHop target = .ok prior ∧
        prior.1 ≤ next.1) := by
  simp only [substituteAndNegotiateSpare, bind_ok_iff, Except.ok.injEq, okOr_eq_ok] at h
  obtain ⟨_, -, _, -, old, hold, height, -, r₁, hr₁, _, hshape, rfl⟩ := h
  obtain ⟨m, rfl, haccepted, hm⟩ := negotiateWithMaker_ok hr₁
  simp only [checkSpareShape, bind_ok_iff] at hshape
  obtain ⟨next, hnext, hshape⟩ := hshape
  have hset : (SwapRoute.setMaker
      { r.replaceMaker target old.amount old.incomingCount spare with
        referenceHeight := some (height % 2 ^ 32) } target m) =
      { r.setMaker target m with referenceHeight := some (height % 2 ^ 32) } := by
    simp only [SwapRoute.setMaker, replaceMaker, set_set]
  rw [hset] at hnext hshape ⊢
  have hnext' : (r.setMaker target m).deriveNextHop target = .ok next := hnext
  have hdown : (r.makers.set target m)[target + 1]? = r.makers[target + 1]? :=
    getElem?_set_ne (by omega)
  refine ⟨old, m, _, next, hold, rfl, haccepted, hm, hnext', fun m' hm' => ?_, fun hnone => ?_⟩
  · have hdown' : ({ r.setMaker target m with referenceHeight := some (height % 2 ^ 32) } :
        SwapRoute).makers[target + 1]? = some m' := hdown.trans hm'
    rw [hdown'] at hshape
    obtain ⟨hamount, hcount⟩ := ensure_eq_ok.mp hshape
    exact Prod.ext hamount hcount
  · have hdown' : ({ r.setMaker target m with referenceHeight := some (height % 2 ^ 32) } :
        SwapRoute).makers[target + 1]? = none := hdown.trans hnone
    rw [hdown'] at hshape
    simp only [bind_ok_iff, okOr_eq_ok, ensure_eq_ok, Option.map_eq_some_iff] at hshape
    obtain ⟨_, ⟨prior, hprior, rfl⟩, hle⟩ := hshape
    refine ⟨prior, ?_, hle⟩
    cases hd : r.deriveNextHop target with
    | error e => rw [hd] at hprior; cases hprior
    | ok next' =>
      rw [hd] at hprior
      exact congrArg _ (Option.some.inj hprior)

theorem substituteRound_inChain {committed} (hlength : r.makers.length = r.params.makerCount)
    (hphase : r.PhaseChained starts (.funded lock committed))
    (hlegacy : r.params.protocol = .legacy) (height : Option Nat) (attempt : Attempt) :
    InChain r.params starts (r.substituteRound lock committed target height attempt) := by
  obtain ⟨before, -, hchained, hlock⟩ := hphase
  unfold substituteRound
  split
  · rename_i spare r₁ hspare
    obtain ⟨spares, rfl⟩ := takeEligibleSpare_some hspare
    split
    · rename_i r' hr'
      obtain ⟨old, m, referenceHeight, next, hold, rfl, haccepted, hm, hnext, hdown, -⟩ :=
        substituteAndNegotiateSpare_keeps hr'
      have hlast : target < r.params.makerCount :=
        hlength ▸ (List.getElem?_eq_some_iff.mp hold).1
      have hset : (r.setMaker target m).Chained starts referenceHeight r.params.makerCount := by
        refine chained_setMaker (fun j hj _ m' hm' => ?_) (fun _ => ⟨haccepted, ?_⟩)
          fun _ m' hm' => ?_
        · obtain ⟨haccepted', hdeclared⟩ := hchained j hj m' hm'
          refine ⟨{ haccepted' with lock := ?_ }, hdeclared⟩
          rw [haccepted'.lock, lockOf_legacy hlegacy]
        · exact hm ▸ (hchained target hlast old hold).2
        · exact hdown m' hm' ▸ hnext
      have hlock' : lock = r.params.firstLock referenceHeight := by
        rw [hlock, RouteParams.firstLock, RouteParams.firstLock, hlegacy, hopTimelock, hopTimelock]
      refine ⟨rfl, (length_set ..).trans hlength, ?_⟩
      cases committed with
      | true => exact ⟨referenceHeight, rfl, hset, hlock'⟩
      | false => exact ⟨referenceHeight, rfl, hset⟩
    · exact ⟨rfl, hlength, trivial⟩
  · exact ⟨rfl, hlength, trivial⟩

def Starts (starts : Nat × Nat → Prop) : RouteAction → Prop
  | .plan _ declaredAmount plannedCount => starts (declaredAmount, plannedCount)
  | _ => True

theorem inChain_step (h : InChain p starts s) (ha : Starts starts a) (hs : step s a = some s') :
    InChain p starts s' := by
  obtain ⟨rfl, hlength, hphase⟩ := h
  unfold step at hs
  split at hs
  · cases hs
    exact enter_inChain (r := { s.route with referenceHeight := some _ }) hlength rfl
      (fun i hi => absurd hi (Nat.not_lt_zero i)) fun _ => ha
  · rename_i hwalking
    rw [hwalking] at hphase
    cases hs
    exact walkRound_inChain hlength hphase.1 hphase.2.1 hphase.2.2 _
  · rename_i hnegotiated
    rw [hnegotiated] at hphase
    obtain ⟨referenceHeight, href, hchained⟩ := hphase
    split at hs
    · rename_i lock hlock
      cases hs
      refine ⟨rfl, hlength, referenceHeight, href, hchained, ?_⟩
      rw [fundingInitialize_ok hlock, href, Option.getD_some]
    · cases hs
      exact ⟨rfl, hlength, trivial⟩
  · rename_i hfunded
    rw [hfunded] at hphase
    cases hs
    exact ⟨rfl, hlength, hphase⟩
  · rename_i hfunded
    rw [hfunded] at hphase
    split at hs
    · rename_i hsubst
      cases hs
      simp only [substitutable, decide_eq_true_eq] at hsubst
      exact substituteRound_inChain hlength hphase hsubst.1 _ _
    · cases hs
  · cases hs
  · cases hs
    exact ⟨rfl, hlength, trivial⟩
  · cases hs

theorem inChain_of_reachable {payment makers spareMakers} (hlength : makers.length = p.makerCount)
    {ok : RouteState → RouteAction → Prop} (hok : ∀ s a, ok s a → Starts starts a)
    (hs : Reachable step ok (selected p payment makers spareMakers) s) : InChain p starts s :=
  hs.invariant ⟨rfl, hlength, trivial⟩ fun _ a _ h ha hstep => inChain_step h (hok _ a ha) hstep

/-! ## The staircase -/

def locks (r : SwapRoute) (lock : Nat) : List Nat := lock :: r.makers.map (·.negotiatedTimelock)

end SwapRoute

def RouteParams.lockBase (p : RouteParams) (referenceHeight : Nat) : Nat :=
  match p.protocol with
  | .legacy => 0
  | .taproot => referenceHeight

structure Staircase (p : RouteParams) (referenceHeight : Nat) (locks : List Nat) : Prop where
  steps : locks.IsChain fun incoming outgoing => incoming = outgoing + refundLocktimeStep
  last : ∀ lock ∈ locks.getLast?, p.lockBase referenceHeight + refundLocktimeBase ≤ lock
  reference : ∀ lock ∈ locks, ∃ offset < 2 ^ 16, lock = p.lockBase referenceHeight + offset
  /-- no offset has wrapped -/
  offsets : ∀ hops ≤ p.makerCount,
    refundLocktimeAt hops = refundLocktimeBase + refundLocktimeStep * hops

theorem locks_eq {makers} (hlength : makers.length = p.makerCount)
    (h : Settled p referenceHeight makers p.makerCount) :
    p.firstLock referenceHeight :: makers.map (·.negotiatedTimelock) =
      (List.range (p.makerCount + 1)).map fun k =>
        hopTimelock p.protocol referenceHeight (refundLocktimeAt (p.makerCount - k)) := by
  rw [range_succ_eq_map, map_cons, map_map]
  refine congrArg₂ List.cons rfl (ext_getElem (by simp [hlength]) fun i hi _ => ?_)
  rw [length_map] at hi
  have hlock := h i (hlength ▸ hi) _ (getElem?_eq_getElem hi)
  simp only [getElem_map, getElem_range, Function.comp_apply]
  rw [hlock, RouteParams.lockOf, refundLocktimeOffsetOf, refundLocktimeAt, Nat.sub_sub]

/-- At most 3275 makers, and heights of 32 bits. -/
def RouteParams.Short (p : RouteParams) (referenceHeight : Nat) : Prop :=
  p.makerCount ≤ 3275 ∧ (p.protocol = .taproot →
    referenceHeight + refundLocktimeBase + refundLocktimeStep * p.makerCount < 2 ^ 32)

theorem refundLocktimeAt_eq :
    refundLocktimeAt hops = refundLocktimeBase + refundLocktimeStep * hops ↔ hops ≤ 3275 := by
  simp only [refundLocktimeAt, refundLocktimeBase, refundLocktimeStep]
  omega

theorem RouteParams.Short.hopTimelock_eq (h : p.Short referenceHeight)
    (hhops : hops ≤ p.makerCount) :
    hopTimelock p.protocol referenceHeight (refundLocktimeAt hops) =
      p.lockBase referenceHeight + (refundLocktimeBase + refundLocktimeStep * hops) := by
  rw [refundLocktimeAt_eq.mpr (hhops.trans h.1)]
  have hmul : refundLocktimeStep * hops ≤ refundLocktimeStep * p.makerCount :=
    Nat.mul_le_mul_left _ hhops
  cases hp : p.protocol with
  | legacy => simp only [RouteParams.lockBase, hp, hopTimelock, Nat.zero_add]
  | taproot =>
    have hfits := h.2 hp
    simp only [RouteParams.lockBase, hp, hopTimelock]
    exact Nat.mod_eq_of_lt (by omega)

theorem staircase_of_short (h : p.Short referenceHeight) :
    Staircase p referenceHeight ((List.range (p.makerCount + 1)).map fun k =>
      hopTimelock p.protocol referenceHeight (refundLocktimeAt (p.makerCount - k))) where
  steps := by
    rw [isChain_map, isChain_range_succ]
    intro k hk
    rw [h.hopTimelock_eq (Nat.sub_le _ _), h.hopTimelock_eq (Nat.sub_le _ _)]
    have hsucc : p.makerCount - k = p.makerCount - (k + 1) + 1 := by omega
    rw [hsucc]
    ring
  last := by
    intro lock hlock
    rw [range_succ, map_append, map_singleton, getLast?_append_of_ne_nil,
      getLast?_singleton, Option.mem_some] at hlock
    · rw [← hlock, h.hopTimelock_eq (Nat.sub_le _ _)]
      omega
    · exact cons_ne_nil _ _
  reference := by
    intro lock hlock
    obtain ⟨k, -, rfl⟩ := mem_map.mp hlock
    refine ⟨_, ?_, h.hopTimelock_eq (Nat.sub_le _ _)⟩
    have hcount := h.1
    simp only [refundLocktimeBase, refundLocktimeStep]
    omega
  offsets := fun hops hhops => refundLocktimeAt_eq.mpr (hhops.trans h.1)

theorem Staircase.short {makers}
    (h : Staircase p referenceHeight (p.firstLock referenceHeight :: makers)) :
    p.Short referenceHeight := by
  have hcount := refundLocktimeAt_eq.mp (h.offsets p.makerCount le_rfl)
  refine ⟨hcount, fun hp => ?_⟩
  obtain ⟨offset, hoffset, hlock⟩ := h.reference _ mem_cons_self
  simp only [RouteParams.firstLock, RouteParams.lockBase, hp, hopTimelock,
    refundLocktimeAt_eq.mpr hcount, refundLocktimeBase, refundLocktimeStep] at hlock ⊢
  omega

/-- **The locks of a route form a staircase**: whatever the makers answer and whichever are
replaced, they fall by one step from hop to hop down to the base, counted from the recorded
reference, exactly if the route is short. -/
theorem staircase_iff_short_route {p : RouteParams} {payment : Bool} {makers : List HopMaker}
    {spareMakers : List String} (hlength : makers.length = p.makerCount) {s : RouteState}
    (hs : Reachable SwapRoute.step (fun _ _ => True)
      (SwapRoute.selected p payment makers spareMakers) s) {lock : Nat} {committed : Bool}
    (hfunded : s.phase = .funded lock committed) :
    ∃ referenceHeight, s.route.referenceHeight = some referenceHeight ∧
      (Staircase p referenceHeight (s.route.locks lock) ↔ p.Short referenceHeight) := by
  have hchain : SwapRoute.InChain p (fun _ => True) s :=
    SwapRoute.inChain_of_reachable hlength (fun _ a _ => by cases a <;> trivial) hs
  obtain ⟨rfl, hlength', hphase⟩ := hchain
  rw [hfunded] at hphase
  obtain ⟨referenceHeight, href, hchained, rfl⟩ := hphase
  refine ⟨referenceHeight, href, Staircase.short, fun hshort => ?_⟩
  rw [SwapRoute.locks, locks_eq hlength' hchained.settled]
  exact staircase_of_short hshort

namespace SampleRoute

def params (protocol : ProtocolVersion) (makerCount : Nat) : RouteParams where
  protocol := protocol
  makerCount := makerCount
  txCount := 1
  txCounts := []
  maxInputBudget := 1
  feerate := 1

def offer : Offer where
  baseFee := 0
  amountRelativeFeePct := 0
  timeRelativeFeePct := 0
  minSize := 0
  maxSize := maxMoney
  name := "maker"

def accepts : Attempt := ⟨some ⟨offer, some [1]⟩, fun _ => false⟩

/-- The maker is gone, and so is the spare it would be replaced by. -/
def gone : Attempt := ⟨none, fun address => address = "banned"⟩

def makers (n : Nat) : List HopMaker := List.replicate n (.new "maker" none)

/-- A Taproot route of two makers, the second of which is replaced. -/
def replaced : List RouteAction :=
  [.plan 800000 1000000 1, .answer accepts, .answer gone, .answer accepts, .fund 800001, .commit]

def fundedWith (lock : Nat) (locks : List Nat) (s : RouteState) : Bool :=
  match s.phase with
  | .funded lock' true => lock' = lock ∧ s.route.locks lock = locks
  | _ => false

theorem phase_of_fundedWith {lock locks s} (h : fundedWith lock locks s) :
    s.phase = .funded lock true ∧ s.route.locks lock = locks := by
  unfold fundedWith at h
  split at h
  · rename_i hphase
    obtain ⟨rfl, hlocks⟩ := of_decide_eq_true h
    exact ⟨hphase, hlocks⟩
  · cases h

end SampleRoute

open SampleRoute in
theorem staircase_of_replaced_maker :
    ∃ s, Reachable SwapRoute.step (fun _ _ => True)
        (SwapRoute.selected (params .taproot 2) false (makers 2) ["spare", "banned"]) s ∧
      s.phase = .funded 800060 true ∧ s.route.locks 800060 = [800060, 800040, 800020] ∧
      ∃ referenceHeight, s.route.referenceHeight = some referenceHeight ∧
        (Staircase (params .taproot 2) referenceHeight (s.route.locks 800060) ↔
          (params .taproot 2).Short referenceHeight) := by
  have hrun : ∃ s, Reachable SwapRoute.step (fun _ _ => True)
      (SwapRoute.selected (params .taproot 2) false (makers 2) ["spare", "banned"]) s ∧
      fundedWith 800060 [800060, 800040, 800020] s = true :=
    exists_reachable_of_exec replaced (by decide +kernel)
  obtain ⟨s, hs, hend⟩ := hrun
  obtain ⟨hphase, hlocks⟩ := phase_of_fundedWith hend
  exact ⟨s, hs, hphase, hlocks, staircase_iff_short_route rfl hs hphase⟩

namespace SampleRoute

variable {amount n i : Nat} {r : SwapRoute}

theorem swapFee_offer (amount locktime : Nat) :
    (HopFeeTerms.fromOffer offer locktime).swapFee amount = 0 := by
  have hzero : double 0 = 0 := by decide +kernel
  simp only [HopFeeTerms.swapFee, HopFeeTerms.swapFeeAt, HopFeeTerms.rawFeeAt,
    HopFeeTerms.fromOffer, offer, mul_zero, hzero, zero_div, Nat.cast_zero, add_zero,
    Int.ceil_zero, Int.toNat_zero, castU64, Nat.zero_min]

theorem validateOffer_offer (h : amount ≤ maxMoney) (i : Nat) :
    validateOffer offer i amount = .ok () := by
  have hshape : offer.validateShape = .ok () := by decide +kernel
  have hmin : offer.baseFee ≤ amount ∧ offer.minSize ≤ amount := ⟨Nat.zero_le _, Nat.zero_le _⟩
  have hmax : amount ≤ offer.maxSize := h
  simp only [validateOffer, hshape, Except.mapError, ensure, hmin, hmax, bind, Except.bind, if_true]

/-- The miner fees of a hop: a sweep and a funding transaction of one input. -/
def hopCost : Nat := 150 + 165

theorem sweepFee_eq : sweepFeePolicySats .legacy (roundF64 1) = some 150 := by decide +kernel

theorem fundingFees_eq : fundingFees 1 (roundF64 1) [1] 0 = some 165 := by decide +kernel

/-- A maker that accepted forwards all but the miner fees. -/
theorem deriveNextHop_accepted {m} (hparams : r.params = params .legacy n)
    (hm : r.makers[i]? = some m) (hoffer : m.offer = some offer) (hcount : m.incomingCount = 1)
    (hsplits : m.fundingSplits = [1]) (hmin : hopCost ≤ m.amount) :
    r.deriveNextHop i = .ok (m.amount - hopCost, 1) := by
  have hsweep : checkedMul64 150 1 = some 150 := by decide
  have hnet : m.amount - wrapAdd64 0 150 = m.amount - 150 := rfl
  have hrest : checkedSub (m.amount - 150) 165 = some (m.amount - hopCost) := by
    have hle : 165 ≤ m.amount - 150 := Nat.le_sub_of_add_le hmin
    rw [checkedSub, if_pos hle, Nat.sub_sub, hopCost]
  simp only [SwapRoute.deriveNextHop, hm, Option.bind_some, hoffer, Option.map_some, okOr, bind,
    Except.bind, OpenSwap.deriveNextHop, forwardableForHop, SwapRoute.connection, hparams, params,
    RouteParams.swapFeerate, sweepFee_eq, hcount, hsweep, hopNetSats, swapFee_offer, hnet, hsplits,
    fundingFees_eq, hrest, length_singleton]

/-- The maker `accepts` leaves at a position. -/
def accepted (old : HopMaker) (n i amount : Nat) : HopMaker :=
  { old with
    offer := some offer
    tweakable := true
    negotiatedTimelock := refundLocktimeOffsetOf n i
    amount := amount
    incomingCount := 1
    fundingSplits := [1] }

theorem negotiateWithMaker_accepts {old} (hparams : r.params = params .legacy n)
    (hpayment : r.payment = false) (hi : i < n) (hold : r.makers[i]? = some old)
    (hmax : amount ≤ maxMoney) (referenceHeight : Nat) :
    r.negotiateWithMaker i amount 1 referenceHeight accepts.reply =
      .ok (r.setMaker i (accepted old n i amount)) := by
  have hcounts : (params .legacy n).hopTxCounts.getD (i + 1) 0 = 1 := by
    simp [RouteParams.hopTxCounts, params, hi]
  have hshape : ([1] : List Nat) ≠ [] ∧ [1].length ≤ 1 := by decide
  simp only [SwapRoute.negotiateWithMaker, hold, okOr, accepts, validateOffer_offer hmax, hpayment,
    Bool.false_eq_true, false_and, not_false_eq_true, ensure, hparams, hcounts, hshape, bind,
    Except.bind, if_true]
  rfl

theorem walkRound_accepts (hparams : r.params = params .legacy n) (hpayment : r.payment = false)
    (hlength : r.makers.length = n) (hi : i < n)
    (htweakable : ∀ j < i, ∀ m ∈ r.makers[j]?, m.tweakable) (hmin : hopCost ≤ amount)
    (hmax : amount ≤ maxMoney) (referenceHeight : Nat) :
    ∃ (r' : SwapRoute) (next : Nat),
      r.walkRound i amount 1 referenceHeight accepts = r'.enter (i + 1) next 1 referenceHeight ∧
      r'.params = params .legacy n ∧ r'.payment = false ∧ r'.makers.length = n ∧
      (∀ j < i + 1, ∀ m ∈ r'.makers[j]?, m.tweakable) ∧
      amount ≤ next + hopCost ∧ next ≤ maxMoney := by
  obtain ⟨old, hold⟩ : ∃ old, r.makers[i]? = some old :=
    ⟨_, getElem?_eq_getElem (hlength ▸ hi)⟩
  have hm : (r.makers.set i (accepted old n i amount))[i]? = some (accepted old n i amount) :=
    getElem?_set_self (hlength ▸ hi)
  have hset : ∀ j < i + 1, ∀ m ∈ (r.makers.set i (accepted old n i amount))[j]?,
      m.tweakable = true :=
    forall_getElem?_set (fun j hj hji => htweakable j (by omega)) fun _ => rfl
  have hlength' : (r.makers.set i (accepted old n i amount)).length = n :=
    (length_set ..).trans hlength
  have hnext : (r.setMaker i (accepted old n i amount)).nextDeclaration i amount 1 =
        .ok (amount - hopCost, 1) ∨
      (r.setMaker i (accepted old n i amount)).nextDeclaration i amount 1 = .ok (amount, 1) := by
    unfold SwapRoute.nextDeclaration
    split
    · have hamount : (accepted old n i amount).amount = amount := rfl
      left
      rw [← hamount] at hmin ⊢
      exact deriveNextHop_accepted hparams hm rfl rfl rfl hmin
    · exact .inr rfl
  unfold SwapRoute.walkRound
  simp only [negotiateWithMaker_accepts hparams hpayment hi hold hmax]
  rcases hnext with hnext | hnext
  · rw [hnext]
    exact ⟨_, _, rfl, hparams, hpayment, hlength', hset, by omega, by omega⟩
  · rw [hnext]
    exact ⟨_, _, rfl, hparams, hpayment, hlength', hset, by omega, hmax⟩

theorem walk_accepted {init remaining} (hi : i + remaining = n)
    (hs : Reachable SwapRoute.step (fun _ _ => True) init (r.enter i amount 1 referenceHeight))
    (hparams : r.params = params .legacy n) (hpayment : r.payment = false)
    (hlength : r.makers.length = n) (htweakable : ∀ j < i, ∀ m ∈ r.makers[j]?, m.tweakable)
    (hmin : hopCost * remaining ≤ amount) (hmax : amount ≤ maxMoney) :
    ∃ r' : SwapRoute, Reachable SwapRoute.step (fun _ _ => True) init ⟨r', .negotiated⟩ ∧
      r'.params = params .legacy n ∧ r'.makers.length = n ∧
      ∀ j < n, ∀ m ∈ r'.makers[j]?, m.tweakable = true := by
  -- on the makers that are left
  induction remaining generalizing r i amount with
  | zero =>
    obtain rfl : i = n := hi
    have hdone : r.enter i amount 1 referenceHeight = ⟨r, .negotiated⟩ := by
      simp [SwapRoute.enter, hparams, params]
    exact ⟨r, hdone ▸ hs, hparams, hlength, htweakable⟩
  | succ remaining ih =>
    have hlt : i < n := by omega
    rw [Nat.mul_succ] at hmin
    have hwalking : r.enter i amount 1 referenceHeight =
        ⟨r, .walking i amount 1 referenceHeight⟩ := by
      simp [SwapRoute.enter, hparams, params, hlt]
    obtain ⟨r', next, hround, hparams', hpayment', hlength', htweakable', hcost, hmax'⟩ :=
      walkRound_accepts hparams hpayment hlength hlt htweakable (by omega) hmax referenceHeight
    have hstep : SwapRoute.step ⟨r, .walking i amount 1 referenceHeight⟩ (.answer accepts) =
        some (r'.enter (i + 1) next 1 referenceHeight) := congrArg some hround
    exact ih (by omega) (.step (hwalking ▸ hs) trivial hstep) hparams' hpayment' hlength'
      htweakable' (by omega) hmax'

end SampleRoute

open SampleRoute in
/-- With 3276 makers the walk goes through and the swap is funded, but the taker's own lock
has wrapped: it is four blocks, and the first maker's 65520. -/
theorem long_route_locks_wrap :
    ∃ s, Reachable SwapRoute.step (fun _ _ => True)
        (SwapRoute.selected (params .legacy 3276) false (makers 3276) []) s ∧
      s.phase = .funded 4 false ∧
      (∀ m ∈ s.route.makers.head?, m.negotiatedTimelock = 65520) ∧
      ¬ ∃ referenceHeight, Staircase (params .legacy 3276) referenceHeight (s.route.locks 4) := by
  let init := SwapRoute.selected (params .legacy 3276) false (makers 3276) []
  have hlength : init.route.makers.length = 3276 := length_replicate
  have hplan : Reachable SwapRoute.step (fun _ _ => True) init
      (SwapRoute.enter { init.route with referenceHeight := some 800000 } 0 10000000 1 800000) :=
    .step (a := .plan 800000 10000000 1) .init trivial rfl
  obtain ⟨r, hnegotiated, hparams, hlength', htweakable⟩ := walk_accepted (Nat.zero_add 3276) hplan
    rfl rfl hlength (fun j hj => absurd hj (Nat.not_lt_zero j)) (by decide) (by decide)
  obtain ⟨first, hfirst⟩ : ∃ first, r.makers[0]? = some first :=
    ⟨_, getElem?_eq_getElem (by omega)⟩
  have hlock : r.fundingInitialize 800000 = .ok 4 := by
    have htweakable' := htweakable 0 (by decide) first hfirst
    rw [← head?_eq_getElem?] at hfirst
    simp only [SwapRoute.fundingInitialize, hfirst, htweakable', okOr, ensure, bind, Except.bind,
      hparams, params, hopTimelock, if_true]
    decide
  have hfund : SwapRoute.step ⟨r, .negotiated⟩ (.fund 800000) = some ⟨r, .funded 4 false⟩ := by
    simp only [SwapRoute.step, hlock]
  have hs := Reachable.step hnegotiated trivial hfund
  have hchain : SwapRoute.InChain (params .legacy 3276) (fun _ => True) ⟨r, .funded 4 false⟩ :=
    SwapRoute.inChain_of_reachable (length_replicate ..)
      (fun _ a _ => by cases a <;> trivial) hs
  refine ⟨_, hs, rfl, fun m hm => ?_, ?_⟩
  · obtain ⟨referenceHeight, -, hchained, -⟩ := hchain.phase
    have hsettled := hchained.settled
    rw [head?_eq_getElem?] at hm
    rw [hparams] at hsettled
    exact hsettled 0 (by decide) m hm
  · rintro ⟨_, h⟩
    exact absurd (refundLocktimeAt_eq.mp (h.offsets 3276 le_rfl)) (by decide)

end OpenSwap
