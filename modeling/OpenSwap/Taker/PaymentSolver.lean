import OpenSwap.Taker.Payment

/-!
# The route solver in exact arithmetic

`solveRouteGrossSats` computes its fees in doubles.  Here the same solver runs on fees
that are not rounded (`solveRouteAt`, of which the source's is the one at `double`).  A fee
that grows with the amount and by no more than it makes the net rise by nothing or one
sat per sat, so that every net is hit exactly.
-/

namespace OpenSwap

open Btc Checked Binary64 Search

variable (terms : HopFeeTerms) (grossSats : Nat) {fees : List (Nat → Nat)}

/-! ## What a hop nets -/

/-- A fee that never falls and never grows faster than the amount. -/
structure Gradual (fee : Nat → Nat) : Prop where
  mono : Monotone fee
  slow : ∀ x y, x ≤ y → fee y + x ≤ fee x + y

/-- What is left of an amount, with nothing lost to 64 bits. -/
def netOf (fee : Nat → Nat) (perHopMiningFee grossSats : Nat) : Nat :=
  grossSats - (fee grossSats + perHopMiningFee)

section Hop

variable {fee : Nat → Nat} {perHopMiningFee netSats : Nat} {gross : Nat}

section

variable (h : Gradual fee)

include h

theorem Gradual.netOf_mono (perHopMiningFee : Nat) : Monotone (netOf fee perHopMiningFee) := by
  intro x y hxy
  have := h.slow x y hxy
  unfold netOf
  omega

theorem Gradual.netOf_succ_le (x : Nat) :
    netOf fee perHopMiningFee (x + 1) ≤ netOf fee perHopMiningFee x + 1 := by
  have := h.mono (Nat.le_add_right x 1)
  unfold netOf
  omega

theorem Gradual.netOf_least (hleast : IsLeast {x | netSats ≤ netOf fee perHopMiningFee x} gross) :
    netOf fee perHopMiningFee gross = netSats := by
  refine le_antisymm ?_ hleast.1
  cases gross with
  | zero => simp [netOf]
  | succ gross =>
    have hbelow : ¬ netSats ≤ netOf fee perHopMiningFee gross := fun hle => by
      have := hleast.2 hle
      omega
    have := @Gradual.netOf_succ_le fee perHopMiningFee h gross
    omega

/-- Where something is netted at half the money supply, no amount up to the supply takes
the code's sums past 64 bits. -/
theorem hopNetSats_eq {x} (hgross : gross ≤ maxMoney / 2)
    (hnets : 0 < netOf fee perHopMiningFee gross) (hx : x ≤ maxMoney) :
    hopNetSats (fun x => castU64 (fee x)) perHopMiningFee x = netOf fee perHopMiningFee x := by
  have hfee : fee x + perHopMiningFee ≤ maxMoney + maxMoney := by
    unfold netOf at hnets
    rcases Nat.le_total x gross with hle | hle
    · have := h.mono hle
      omega
    · have := h.slow gross x hle
      omega
  have hmoney : maxMoney + maxMoney < 2 ^ 64 := by decide
  have hcast : castU64 (fee x) = fee x := by
    unfold castU64
    omega
  rw [hopNetSats, hcast, wrapAdd64, Nat.mod_eq_of_lt (by omega), netOf]

/-- What the code tests in a hop: whether an amount reaches the least one. -/
theorem hopNetSats_threshold (hleast : IsLeast {x | netSats ≤ netOf fee perHopMiningFee x} gross)
    (hgross : gross ≤ maxMoney / 2) :
    hopNetSats (fun x => castU64 (fee x)) perHopMiningFee gross = netSats ∧
      Threshold (fun x => decide
        (netSats ≤ hopNetSats (fun x => castU64 (fee x)) perHopMiningFee x)) maxMoney gross := by
  have hexact := h.netOf_least hleast
  rcases Nat.eq_zero_or_pos netSats with rfl | hpos
  · -- nothing is netted by nothing
    have hzero : gross = 0 := Nat.le_zero.mp (hleast.2 (Nat.zero_le _))
    subst hzero
    exact ⟨by simp [hopNetSats], fun n _ => by simp⟩
  · have heq : ∀ x ≤ maxMoney, hopNetSats (fun x => castU64 (fee x)) perHopMiningFee x =
        netOf fee perHopMiningFee x := fun x hx =>
      hopNetSats_eq h hgross (by rwa [hexact]) hx
    refine ⟨by rw [heq gross (by omega), hexact], fun n hn => ?_⟩
    rw [decide_eq_true_eq, heq n hn]
    exact ⟨fun hle => hleast.2 hle, fun hle => hexact ▸ h.netOf_mono perHopMiningFee hle⟩

/-- **One hop is solved exactly**, and for the least amount. -/
theorem hopGrossForNet_least (hleast : IsLeast {x | netSats ≤ netOf fee perHopMiningFee x} gross)
    (hgross : gross ≤ maxMoney / 2) :
    hopGrossForNet (fun x => castU64 (fee x)) perHopMiningFee netSats = .ok gross := by
  obtain ⟨hnets, hthreshold⟩ := hopNetSats_threshold h hleast hgross
  have hmoney : 1 ≤ maxMoney ∧ maxMoney < 2 ^ 63 := by decide
  have hnet : netSats ≤ gross := hnets ▸ Nat.sub_le _ _
  have hpos : 0 < max netSats 1 := by omega
  obtain ⟨hi, hdouble, hle, hlimit⟩ := doubleUntil_threshold hthreshold (by omega) hpos (by omega)
  have hbisect := bisect_threshold hthreshold hnet hle hlimit
  simp only [hopGrossForNet, hdouble, hbisect, okOr, bind, Except.bind, hnets, ensure, if_true]

end

end Hop

/-! ## What a route nets -/

def routeNet (perHopMiningFee : Nat) (fees : List (Nat → Nat)) (grossSats : Nat) : Nat :=
  fees.foldl (fun forward fee => netOf fee perHopMiningFee forward) grossSats

theorem routeNet_mono (h : ∀ fee ∈ fees, Gradual fee) (perHopMiningFee : Nat) :
    Monotone (routeNet perHopMiningFee fees) := by
  induction fees with
  | nil => exact monotone_id
  | cons fee rest ih =>
    have hfirst := (h fee List.mem_cons_self).netOf_mono perHopMiningFee
    exact (ih fun fee hfee => h fee (List.mem_cons_of_mem _ hfee)).comp hfirst

/-- The backward walk finds the least amount of the route, and the forward run from it
ends at what was asked for. -/
theorem requiredGross_least {perHopMiningFee finalNetSats} (h : ∀ fee ∈ fees, Gradual fee) {enough}
    (henough : enough ≤ maxMoney / 2)
    (hnets : finalNetSats ≤ routeNet perHopMiningFee fees enough) :
    ∃ gross, requiredGross perHopMiningFee finalNetSats
        (fees.map fun fee x => castU64 (fee x)) = .ok gross ∧
      IsLeast {x | finalNetSats ≤ routeNet perHopMiningFee fees x} gross ∧
      fees.foldl (fun forward fee => hopNetSats (fun x => castU64 (fee x)) perHopMiningFee forward)
        gross = finalNetSats := by
  -- the walk starts at the last hop, where the amounts are smallest
  induction fees generalizing enough with
  | nil => exact ⟨finalNetSats, rfl, ⟨le_refl finalNetSats, fun _ hx => hx⟩, rfl⟩
  | cons fee rest ih =>
    have hfirst := h fee List.mem_cons_self
    have hrest : ∀ fee ∈ rest, Gradual fee := fun fee hfee => h fee (List.mem_cons_of_mem _ hfee)
    have hnet : netOf fee perHopMiningFee enough ≤ enough := Nat.sub_le _ _
    obtain ⟨required, hrequired, hleast, hforward⟩ := ih hrest (hnet.trans henough) hnets
    have hreach : ∀ x, finalNetSats ≤ routeNet perHopMiningFee rest x ↔ required ≤ x := fun x =>
      ⟨fun hx => hleast.2 hx, fun hx => hleast.1.trans (routeNet_mono hrest perHopMiningFee hx)⟩
    have hexists : ∃ x, required ≤ netOf fee perHopMiningFee x := ⟨enough, (hreach _).mp hnets⟩
    have hfind : IsLeast {x | required ≤ netOf fee perHopMiningFee x} (Nat.find hexists) :=
      ⟨Nat.find_spec hexists, fun x hx => Nat.find_min' hexists hx⟩
    have hhalf : Nat.find hexists ≤ maxMoney / 2 :=
      (hfind.2 ((hreach _).mp hnets)).trans henough
    refine ⟨Nat.find hexists, ?_, ⟨?_, ?_⟩, ?_⟩
    · simp only [List.map_cons, requiredGross, hrequired, bind, Except.bind]
      exact hopGrossForNet_least hfirst hfind hhalf
    · exact (hreach _).mpr hfind.1
    · exact fun x hx => hfind.2 ((hreach _).mp hx)
    · rw [List.foldl_cons, (hopNetSats_threshold hfirst hfind hhalf).1, hforward]

/-! ## Exact fees -/

theorem HopFeeTerms.rawFeeAt_id :
    terms.rawFeeAt id grossSats = terms.exactFee grossSats := rfl

/-- The fee in exact arithmetic, rounded up to a sat. -/
def HopFeeTerms.exactSwapFee : Nat :=
  ⌈terms.exactFee grossSats⌉.toNat

theorem HopFeeTerms.gradual {terms : HopFeeTerms} (h : 0 ≤ terms.rate ∧ terms.rate < 1) :
    Gradual terms.exactSwapFee := by
  have hgrow : ∀ x y : Nat, x ≤ y → terms.exactFee x ≤ terms.exactFee y ∧
      terms.exactFee y ≤ terms.exactFee x + (y - x : Nat) := by
    intro x y hxy
    have hdiff : (0 : ℚ) ≤ (y : ℚ) - x := by
      rw [sub_nonneg]
      exact_mod_cast hxy
    rw [exactFee_eq, exactFee_eq, Nat.cast_sub hxy]
    have hless : ((y : ℚ) - x) * terms.rate ≤ (y - x) * 1 :=
      mul_le_mul_of_nonneg_left h.2.le hdiff
    have hmore : 0 ≤ ((y : ℚ) - x) * terms.rate := mul_nonneg hdiff h.1
    constructor <;> linarith
  constructor
  · intro x y hxy
    exact Int.toNat_le_toNat (Int.ceil_le_ceil (hgrow x y hxy).1)
  · intro x y hxy
    have hceil : ⌈terms.exactFee y⌉ ≤ ⌈terms.exactFee x⌉ + ((y - x : Nat) : ℤ) := by
      rw [← Int.ceil_add_natCast]
      exact Int.ceil_le_ceil (hgrow x y hxy).2
    unfold exactSwapFee
    omega

/-- **The solver finds the least amount.**  On a route whose hops each keep a share of at
least nothing and less than all, and for a net that half the money supply reaches, the
solver succeeds with the least amount that nets what is asked. -/
theorem route_solve_is_least {hops : List HopFeeTerms}
    (hrate : ∀ terms ∈ hops, 0 ≤ terms.rate ∧ terms.rate < 1) {perHopMiningFee finalNetSats : Nat}
    (hneeded : ∃ gross ≤ maxMoney / 2,
      finalNetSats ≤ routeNet perHopMiningFee (hops.map (·.exactSwapFee)) gross) :
    ∃ gross, solveRouteAt id hops perHopMiningFee finalNetSats = .ok gross ∧
      IsLeast {x | finalNetSats ≤ routeNet perHopMiningFee (hops.map (·.exactSwapFee)) x}
        gross := by
  obtain ⟨enough, henough, hnets⟩ := hneeded
  obtain ⟨gross, hgross, hleast, hforward⟩ :=
    requiredGross_least (List.forall_mem_map.mpr fun terms hterms =>
      terms.gradual (hrate terms hterms)) henough hnets
  rw [List.map_map] at hgross
  rw [List.foldl_map] at hforward
  have hfees : ((fun fee x => castU64 (fee x)) ∘ HopFeeTerms.exactSwapFee) =
      HopFeeTerms.swapFeeAt id := rfl
  refine ⟨gross, ?_, hleast⟩
  rw [hfees] at hgross
  have hcheck : hops.foldl
      (fun forward terms => hopNetSats (terms.swapFeeAt id) perHopMiningFee forward) gross =
        finalNetSats := hforward
  simp only [solveRouteAt, hgross, bind, Except.bind, hcheck, ensure, if_true]

def solverSample : List HopFeeTerms := [⟨100, 1 / 10, 1 / 100, 40⟩, ⟨100, 1 / 10, 1 / 100, 20⟩]

theorem route_solve_is_least_sample :
    ∃ gross, solveRouteAt id solverSample 345 100155 = .ok gross ∧
      IsLeast {x | 100155 ≤ routeNet 345 (solverSample.map (·.exactSwapFee)) x} gross :=
  route_solve_is_least (by decide +kernel) ⟨200000, by decide, by decide +kernel⟩

end OpenSwap
