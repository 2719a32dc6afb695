import OpenSwap.Base.Rounds
import OpenSwap.Wallet.FittedPlans
import OpenSwap.Wallet.SpendCoins

/-!
# The taker's own hop

A regular swap spends exactly the send amount: the taker plans splits of it with room for
change, takes each split's funding fee out of its value, and builds funding transactions
that return everything above the planned spend.

* `planHop0` — the plan, with one split fewer where the fees push one below the floor.
* `executeFundingPlan_exact` — what the funding transactions of an exact plan take.
-/

namespace OpenSwap

open Btc Checked Selection List

/-! ## The plan -/

structure SwapParams where
  protocol : ProtocolVersion
  sendAmount : Nat
  makerCount : Nat
  txCount : Nat
  txCounts : List Nat
  feerate : UInt64
  manuallySelectedOutpoints : Option (List OutPoint)
  /-- a payment to a third party, which pays the fees on top -/
  isPayment : Bool

def SwapParams.hopTxCounts (params : SwapParams) : List Nat :=
  if params.txCounts.length = params.makerCount + 1 then params.txCounts
  else List.replicate (params.makerCount + 1) params.txCount

/-- `feerate as f64` -/
def SwapParams.swapFeerate (params : SwapParams) : Nat := roundF64 params.feerate.toNat

structure Hop0Plan where
  /-- one entry per funding transaction, valued at what its contract receives -/
  splits : List SplitPlan
  /-- what each funding transaction takes from the wallet, for a regular swap -/
  spends : Option (List Nat)
deriving DecidableEq

def noInputBudget : Nat := 2 ^ 32 - 1

/-- One round of the planning loop: where the netting refuses a plan of several splits, the next
one asks for one split fewer. -/
def planHop0Round (w : CoinStore) (params : SwapParams) (maxSplits : Nat) :
    Nat ⊕ Except WalletError Hop0Plan :=
  match planFundingWithChange w.plannablePools params.sendAmount maxSplits
      params.swapFeerate noInputBudget none (params.manuallySelectedOutpoints.getD []) []
      params.protocol (if params.isPayment then none else some p2trMinNonDustSats) with
  | .error e => .inr (.error e)
  | .ok splits =>
    if params.isPayment then .inr (.ok ⟨splits, none⟩)
    else
      match netPolicyFees splits (splits.map (·.utxos.length)) noInputBudget params.swapFeerate
          params.protocol with
      | .ok net => .inr (.ok ⟨net, some (splits.map (·.value))⟩)
      | .error e => if 1 < splits.length then .inl (splits.length - 1) else .inr (.error e)

theorem planHop0Round_lt {w params} (maxSplits fewer : Nat)
    (h : planHop0Round w params maxSplits = .inl fewer) : fewer < maxSplits := by
  unfold planHop0Round at h
  split at h
  · cases h
  · rename_i splits hsplits
    obtain ⟨-, hcount, -⟩ := planFundingWithChange_meets hsplits
    split at h
    · cases h
    · split at h
      · cases h
      · split at h
        · cases h
          omega
        · cases h

def planHop0Retries (w : CoinStore) (params : SwapParams) (maxSplits : Nat) :
    Except WalletError Hop0Plan :=
  Rounds.complete (planHop0Round w params) id planHop0Round_lt maxSplits

/-- The taker's plan for the first hop: as many splits as the hop may have, or fewer. -/
def planHop0 (w : CoinStore) (params : SwapParams) : Except WalletError Hop0Plan :=
  planHop0Retries w params (params.hopTxCounts.getD 0 0)

variable {w w' : CoinStore} {maxSplits : Nat} {utxos : List OutPoint} {fees : FeeRate}
  {fromSwept : Bool} {coin : PoolCoin}

theorem planHop0Retries_ok {params plan} (hregular : params.isPayment = false)
    (h : planHop0Retries w params maxSplits = .ok plan) :
    ∃ fewer ≤ maxSplits, ∃ splits, planFundingWithChange w.plannablePools params.sendAmount fewer
        params.swapFeerate noInputBudget none (params.manuallySelectedOutpoints.getD []) []
        params.protocol (some p2trMinNonDustSats) = .ok splits ∧
      netPolicyFees splits (splits.map (·.utxos.length)) noInputBudget params.swapFeerate
        params.protocol = .ok plan.splits ∧
      plan.spends = some (splits.map (·.value)) := by
  have hends : ∃ fewer, fewer ≤ maxSplits ∧ planHop0Round w params fewer =
      .inr (planHop0Retries w params maxSplits) :=
    Rounds.exists_round_of_complete le_rfl fun s next hs hnext =>
      (planHop0Round_lt s next hnext).le.trans hs
  obtain ⟨fewer, hle, hround⟩ := hends
  refine ⟨fewer, hle, ?_⟩
  simp only [h, planHop0Round, hregular, Bool.false_eq_true, if_false] at hround
  split at hround
  · cases hround
  · rename_i splits hsplits
    split at hround
    · rename_i hnet
      cases hround
      exact ⟨splits, hsplits, hnet, rfl⟩
    · split at hround <;> cases hround

/-! ## The funding transactions -/

def CoinStore.amountOf (w : CoinStore) (outpoint : OutPoint) : Nat :=
  ((w.utxoCache.lookup outpoint).map (·.1.amount)).getD 0

/-- Two moments of a wallet: what an outpoint is worth never changes. -/
def CoinStore.SameAmounts (w w' : CoinStore) : Prop :=
  ∀ outpoint coin coin', w.utxoCache.lookup outpoint = some coin →
    w'.utxoCache.lookup outpoint = some coin' → coin'.1.amount = coin.1.amount

/-- What the wallet answers a spend: signatures, and P2TR scripts for P2TR change. -/
structure SpendEnv.Lawful (env : SpendEnv) : Prop where
  signs : env.Signs
  p2tr : ∀ script, env.nextInternalScript .p2tr = .ok script → ∃ key : Bytes, key.length = 32 ∧
    script = Btc.p2tr key

/-- The transaction spends the coins of the split, pays its value, and returns all but
`spend` as change that is not dust. -/
structure SpendsExactly (w : CoinStore) (split : SplitPlan) (spend : Nat) (tx : Transaction) :
    Prop where
  inputs : tx.input.map (·.previousOutput) = split.utxos
  outputs : ∃ destination, ∃ change : List TxOut,
    tx.output = ⟨split.value, destination⟩ :: change ∧
    (split.utxos.map w.amountOf).sum = spend + (change.map (·.value)).sum ∧
    ∀ out ∈ change, minimalNonDust out.scriptPubkey ≤ out.value

theorem CoinStore.exists_entry_of_mem (h : coin ∈ w.plannablePools.side fromSwept) :
    ∃ known, w.utxoCache.lookup coin.1 = some known ∧ known.1.amount = coin.2 := by
  have hentry : ∃ e ∈ w.utxoCache.entries, (e.1, Coin.entry e |>.amount) = coin := by
    cases fromSwept <;>
      obtain ⟨e, he, heq⟩ := mem_map.mp (mem_filter.mp h).1 <;>
      exact ⟨e, (mem_filter.mp he).1, heq⟩
  obtain ⟨e, he, rfl⟩ := hentry
  exact ⟨e.2, AList.lookup_eq_some.mpr he, rfl⟩

theorem CoinStore.amountOf_of_mem (h : coin ∈ w.plannablePools.side fromSwept) :
    w.amountOf coin.1 = coin.2 := by
  obtain ⟨known, hknown, hamount⟩ := exists_entry_of_mem h
  rw [amountOf, hknown]
  exact hamount

theorem worthOf_eq_sum (hnodup : utxos.Nodup)
    (hmem : ∀ utxo ∈ utxos, utxo ∈ (w.plannablePools.side fromSwept).map Prod.fst) :
    worthOf (w.plannablePools.side fromSwept) utxos = (utxos.map w.amountOf).sum := by
  let pool := w.plannablePools.side fromSwept
  have hpool : (pool.map Prod.fst).Nodup := w.plannablePools_distinct.side fromSwept
  have hperm : ((pool.filter fun coin => coin.1 ∈ utxos).map Prod.fst).Perm utxos := by
    refine (perm_ext_iff_of_nodup (hpool.sublist (filter_sublist.map _)) hnodup).mpr ?_
    intro utxo
    constructor
    · intro h
      obtain ⟨coin, hcoin, rfl⟩ := mem_map.mp h
      exact of_decide_eq_true (mem_filter.mp hcoin).2
    · intro h
      obtain ⟨coin, hcoin, rfl⟩ := mem_map.mp (hmem utxo h)
      exact mem_map_of_mem (mem_filter.mpr ⟨hcoin, decide_eq_true h⟩)
  rw [← (hperm.map w.amountOf).sum_eq, map_map, worthOf, worth]
  refine congrArg List.sum (map_congr_left fun coin hcoin => ?_)
  exact (CoinStore.amountOf_of_mem (mem_filter.mp hcoin).1).symm

theorem plannedCoin_ok {outpoint coin} (hsame : w.SameAmounts w') (hknown : outpoint ∈ w.utxoCache)
    (h : plannedCoin w' outpoint = .ok coin) :
    coin.1 = outpoint ∧ coin.entry.amount = w.amountOf outpoint ∧
      (coin.spendInfo.isSeedCoin || coin.spendInfo.isSweptCoin) = true := by
  simp only [plannedCoin, bind_ok_iff, okOr_eq_ok] at h
  obtain ⟨_, -, h⟩ := h
  have hkey : coin.1 = outpoint := by simpa using find?_some h
  have hmem : coin ∈ w'.utxoCache.entries ∧
      (coin.spendInfo.isSeedCoin || coin.spendInfo.isSweptCoin) = true := by
    rcases mem_append.mp (mem_of_find?_eq_some h) with h | h
    · obtain ⟨hmem, hkind⟩ := mem_filter.mp h
      exact ⟨hmem, by simp [Coin.spendInfo, hkind]⟩
    · obtain ⟨hmem, hkind⟩ := mem_filter.mp h
      exact ⟨hmem, by simp [Coin.spendInfo, hkind]⟩
  obtain ⟨known, hknown⟩ := AList.lookup_isSome.mpr hknown |> Option.isSome_iff_exists.mp
  refine ⟨hkey, ?_, hmem.2⟩
  rw [CoinStore.amountOf, hknown]
  exact hsame outpoint known coin.2 hknown (AList.lookup_eq_some.mpr (hkey ▸ hmem.1))

theorem plannedCoins_ok {coins} (hsame : w.SameAmounts w')
    (hknown : ∀ utxo ∈ utxos, utxo ∈ w.utxoCache)
    (h : collectM (plannedCoin w') utxos = .ok coins) :
    coins.map Sigma.fst = utxos ∧ coins.map (·.entry.amount) = utxos.map w.amountOf ∧
      ∀ coin ∈ coins, (coin.spendInfo.isSeedCoin || coin.spendInfo.isSweptCoin) = true := by
  induction utxos generalizing coins with
  | nil =>
    cases h
    exact ⟨rfl, rfl, nofun⟩
  | cons utxo rest ih =>
    simp only [collectM, bind_ok_iff] at h
    obtain ⟨coin, hcoin, later, hlater, h⟩ := h
    cases h
    obtain ⟨hkey, hamount, hkind⟩ := plannedCoin_ok hsame (hknown utxo mem_cons_self) hcoin
    obtain ⟨hkeys, hamounts, hkinds⟩ :=
      ih (fun utxo hutxo => hknown utxo (mem_cons_of_mem _ hutxo)) hlater
    refine ⟨?_, ?_, forall_mem_cons.mpr ⟨hkind, hkinds⟩⟩
    · rw [map_cons, hkey, hkeys]
    · rw [map_cons, map_cons, hamount, hamounts]

theorem fundSplit_exact {env spend split destination built} (henv : env.Lawful)
    (hsame : w.SameAmounts w') (hknown : ∀ utxo ∈ split.utxos, utxo ∈ w.utxoCache)
    (h : fundSplit env fees w' (some spend) split destination = .ok built) :
    SpendsExactly w split spend built.1 := by
  simp only [fundSplit, bind_ok_iff, okOr_eq_ok] at h
  obtain ⟨coins, hcoins, tx, htx, fee, -, h⟩ := h
  cases h
  obtain ⟨hkeys, hamounts, hkinds⟩ := plannedCoins_ok hsame hknown hcoins
  obtain ⟨hinputs, change, houtput, hsum, hchange⟩ := exactSpend_ok henv.signs hkinds htx
  refine ⟨hinputs.trans hkeys, destination, change, houtput, hamounts ▸ hsum, fun out hout => ?_⟩
  obtain ⟨hscript, hle⟩ := hchange out hout
  obtain ⟨key, hkey, heq⟩ := henv.p2tr _ hscript
  rw [heq]
  refine le_trans (le_of_eq ?_) hle
  rw [p2trMinNonDustSats, minimalNonDust, minimalNonDust, Btc.p2tr, Btc.p2tr]
  simp [encode, encodeInstr, intInstr, pushSlice, hkey]

theorem executeFundingPlan_exact {env : Nat → SpendEnv} {plan spends destinations built}
    (henv : ∀ i, (env i).Lawful) (hsame : w.SameAmounts w')
    (hknown : ∀ split ∈ plan, ∀ utxo ∈ split.utxos, utxo ∈ w.utxoCache)
    (h : executeFundingPlan env fees w' plan (some spends) destinations = .ok built) :
    List.Forall₂ (fun p tx => SpendsExactly w p.1 p.2 tx.1) (plan.zip spends) built := by
  simp only [executeFundingPlan, bind_ok_iff, ensure_eq_ok, collectM_eq_ok] at h
  obtain ⟨_, -, _, hspends, _, hdestinations, h⟩ := h
  have hlen : spends.length = plan.length := hspends spends rfl
  rw [forall₂_iff_get] at h ⊢
  obtain ⟨hcount, h⟩ := h
  simp only [length_zipIdx, length_zip] at hcount
  refine ⟨by rw [length_zip]; omega, fun i hi hi' => ?_⟩
  have hplan : i < plan.length := by
    omega
  have hstep := h i (by rw [length_zipIdx, length_zip]; omega) hi'
  simp only [get_eq_getElem, getElem_zipIdx, getElem_zip, Nat.zero_add,
    Option.bind_some, getElem?_eq_getElem (show i < spends.length by omega)] at hstep ⊢
  exact fundSplit_exact (henv i) hsame (hknown _ (getElem_mem hplan)) hstep

/-- The plan spends exactly the send amount, and each split pays its fee out of its share. -/
structure ExactHop0 (w : CoinStore) (params : SwapParams) (plan : Hop0Plan) (spends : List Nat) :
    Prop where
  gross : plan.spends = some spends
  total : spends.sum = params.sendAmount
  net : ∃ policy : List Nat,
    plan.splits.map (fun split => fundingFeePolicySats split.utxos.length noInputBudget
      params.swapFeerate) = policy.map some ∧
    List.zipWith (· + ·) (plan.splits.map (·.value)) policy = spends
  floor : ∃ minSplit, minContractValueSats params.protocol params.swapFeerate = some minSplit ∧
    ∀ split ∈ plan.splits, minSplit ≤ split.value
  /-- the coins of every split leave change that is not dust -/
  room : List.Forall₂ (fun split spend => ∃ change, p2trMinNonDustSats ≤ change ∧
    exactSpendChange (split.utxos.map w.amountOf).sum split.value spend = .ok change)
    plan.splits spends
  known : ∀ split ∈ plan.splits, ∀ utxo ∈ split.utxos, utxo ∈ w.utxoCache

theorem exactHop0_of_netted {params plan splits}
    (hsplits : planFundingWithChange w.plannablePools params.sendAmount maxSplits
      params.swapFeerate noInputBudget none (params.manuallySelectedOutpoints.getD []) []
      params.protocol (some p2trMinNonDustSats) = .ok splits)
    (hnet : netPolicyFees splits (splits.map (·.utxos.length)) noInputBudget params.swapFeerate
      params.protocol = .ok plan.splits) (hspends : plan.spends = some (splits.map (·.value))) :
    ExactHop0 w params plan (splits.map (·.value)) := by
  obtain ⟨-, -, htotal⟩ := planFundingWithChange_meets hsplits
  obtain ⟨_, -, -, hfrom⟩ := planFundingWithChange_ok hsplits
  obtain ⟨fromSwept, hfunded⟩ := hfrom.funded w.plannablePools_distinct
    (show some p2trMinNonDustSats ≠ some 0 by decide)
  obtain ⟨hpriced, minSplit, hmin, hnetted⟩ := netPolicyFeesAt_ok hnet
  obtain ⟨hutxos, policy, hpolicy, hzip, -⟩ := nettedAt_spec hpriced hnetted
  have hroom : ∀ split ∈ splits,
      split.value + p2trMinNonDustSats ≤ (split.utxos.map w.amountOf).sum := by
    intro split hs
    obtain ⟨price, hprice, hcovers⟩ := hfunded.covers split hs
    obtain rfl : p2trMinNonDustSats = price := Option.some.inj hprice
    rwa [worthOf_eq_sum ((nodup_flatMap.mp hfunded.distinct).1 split hs)
      (hfunded.fromPool split hs)] at hcovers
  refine ⟨hspends, htotal, ⟨policy, ?_, hzip⟩, ⟨minSplit, hmin, fun split hs => ?_⟩, ?_, ?_⟩
  · have hsame := congrArg (List.map fun utxos : List OutPoint =>
      fundingFeePolicySats utxos.length noInputBudget params.swapFeerate) hutxos
    rw [map_map, map_map] at hsame
    rw [map_map] at hpolicy
    exact hsame.trans hpolicy
  · obtain ⟨_, -, hsplit⟩ := exists_of_forall₂ hnetted hs
    exact hsplit.floor
  · have hpairs : List.Forall₂ (fun split net => net.utxos = split.utxos ∧ net.value ≤ split.value)
        ((splits.zip (splits.map (·.utxos.length))).map Prod.fst) plan.splits := by
      refine forall₂_map_left_iff.mpr (hnetted.imp fun p net hp => ⟨hp.utxos, ?_⟩)
      obtain ⟨fee, -, hvalue⟩ := hp.value
      omega
    rw [map_fst_zip (by rw [length_map])] at hpairs
    have hboth := (forall₂_and_left _ _).mpr ⟨hroom, hpairs⟩
    refine forall₂_map_right_iff.mpr (hboth.flip.imp fun net split hp => ?_)
    obtain ⟨hcovers, hsame, hle⟩ := hp
    rw [hsame]
    generalize (split.utxos.map w.amountOf).sum = worth at hcovers ⊢
    refine ⟨worth - split.value, by omega, ?_⟩
    have hsub : checkedSub worth split.value = some (worth - split.value) := if_pos (by omega)
    simp only [exactSpendChange, hsub, bind_ok_iff, ensure_eq_ok, okOr_eq_ok, Option.some.injEq]
    exact ⟨(), hle, _, rfl, (), by omega, rfl⟩
  · intro split hs utxo hutxo
    obtain ⟨coin, hcoin, rfl⟩ := mem_map.mp
      ((hfunded.toDrawnFrom.of_utxos hutxos).fromPool split hs utxo hutxo)
    obtain ⟨known, hknown, -⟩ := CoinStore.exists_entry_of_mem hcoin
    exact AList.lookup_isSome.mp (Option.isSome_iff_exists.mpr ⟨known, hknown⟩)

/-- **A regular swap spends exactly the send amount.**  The gross values add up to it, each net
value is its gross less the policy fee of its inputs and at least the floor, and the funding
transactions take exactly the gross values from the wallet. -/
theorem hop0_spends_send_amount (w : CoinStore) (params : SwapParams)
    (hregular : params.isPayment = false) :
    (∀ rounds maxSplits, maxSplits < rounds →
      Rounds.run (planHop0Round w params) rounds maxSplits =
        some (planHop0Retries w params maxSplits)) ∧
    ∀ plan, planHop0 w params = .ok plan → ∃ spends, ExactHop0 w params plan spends ∧
      ∀ (env : Nat → SpendEnv) (fees : FeeRate) (w' : CoinStore) (destinations : List Bytes)
        (built : List (Transaction × Nat)), (∀ i, (env i).Lawful) → w.SameAmounts w' →
        executeFundingPlan env fees w' plan.splits plan.spends destinations = .ok built →
        List.Forall₂ (fun p tx => SpendsExactly w p.1 p.2 tx.1) (plan.splits.zip spends) built := by
  refine ⟨fun rounds maxSplits hlt => by unfold planHop0Retries; exact Rounds.run_eq_complete hlt,
    fun plan h => ?_⟩
  obtain ⟨_, -, splits, hsplits, hnet, hspends⟩ := planHop0Retries_ok hregular h
  have hexact := exactHop0_of_netted hsplits hnet hspends
  refine ⟨_, hexact, fun env fees w' destinations built henv hsame hbuilt => ?_⟩
  rw [hspends] at hbuilt
  exact executeFundingPlan_exact henv hsame hexact.known hbuilt

namespace SampleHop0

def store : CoinStore where
  utxoCache := AList.singleton ⟨List.replicate 32 0xbb, 1⟩ (⟨none, [], 200000⟩, .seedCoin .p2tr)
  lockedUtxos := []
  swapLocks := ∅

def params : SwapParams where
  protocol := .legacy
  sendAmount := 100000
  makerCount := 2
  txCount := 2
  txCounts := []
  feerate := 1
  manuallySelectedOutpoints := none
  isPayment := false

def env : SpendEnv where
  lockTime := .ok 900000
  fidelityBond _ := .error .io
  findOutgoingSwapcoin _ := none
  findIncomingSwapcoin _ := none
  nextInternalScript _ := .ok (p2tr (List.replicate 32 0))
  sign tx _ := .ok tx

/-- Two splits do not fit the coin, so the one split sends the amount less its fee. -/
def plan : Hop0Plan := ⟨[⟨[⟨List.replicate 32 0xbb, 1⟩], 99835⟩], some [100000]⟩

theorem env_lawful : env.Lawful := by
  refine ⟨fun tx infos signed h => ?_, fun script h => ?_⟩
  · obtain rfl := Except.ok.inj h
    rfl
  · obtain rfl := Except.ok.inj h
    exact ⟨_, by simp, rfl⟩

end SampleHop0

open SampleHop0 in
theorem hop0_spends_send_amount_sample :
    ∃ tx fee, executeFundingPlan (fun _ => env) (.whole 1) store
        plan.splits plan.spends [[]] = .ok [(tx, fee)] ∧
      SpendsExactly store ⟨[⟨List.replicate 32 0xbb, 1⟩], 99835⟩ 100000 tx := by
  have hbuilt : executeFundingPlan (fun _ => env) (.whole 1) store plan.splits plan.spends [[]] =
        .ok [(⟨2, 900000, [⟨⟨List.replicate 32 0xbb, 1⟩, [], 0, []⟩],
          [⟨99835, []⟩, ⟨100000, p2tr (List.replicate 32 0)⟩]⟩, 165)] := by
    decide +kernel
  obtain ⟨spends, hexact, hspent⟩ := (hop0_spends_send_amount store params
    rfl).2 plan (by decide +kernel)
  obtain rfl : [100000] = spends := Option.some.inj hexact.gross
  have hsame : store.SameAmounts store := by
    intro outpoint coin coin' hcoin hcoin'
    rw [Option.some.inj (hcoin.symm.trans hcoin')]
  have htx := hspent _ _ _ _ _ (fun _ => env_lawful) hsame hbuilt
  exact ⟨_, _, hbuilt, (forall₂_cons.mp htx).1⟩

end OpenSwap
