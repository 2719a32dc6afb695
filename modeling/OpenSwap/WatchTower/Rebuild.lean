import OpenSwap.Blockchain.ConfirmedSpend
import OpenSwap.WatchTower.Registry

/-!
# Watches rebuilt at startup

The registry is lost with the process.  At startup the watches come from the wallet again,
and with Core the blocks since the oldest funding are read for spends that were missed.  A
scan that fails is made again until one goes through; a lookup of a funding height that fails
is only logged, and its outpoint then has no part in where the scan begins.

* `scanHeights_recorded`: the blocks a scan reads leave their spends on record, the others
  nothing.
* `reads_of_found`: the attempt that goes through reads every block from a funding height
  that it found.
-/

namespace OpenSwap

open Btc Checked CoreRpc List

variable {P : Prims}

/-- The calls of one attempt: the funding height of each watch by its position, the height
of the tip, and the blocks. -/
structure RescanCalls (P : Prims) where
  lookup : Nat → HeightCalls P
  count : Moment P
  block : Nat → Moment P

/-- Read the blocks of some heights until one is not served. -/
def scanHeights (block : Nat → Moment P) :
    List Nat → FileRegistry → Except WalletError Unit × FileRegistry
  | [], registry => (.ok (), registry)
  | height :: rest, registry =>
    match blockAtHeight (block height) height with
    | .ok txdata => scanHeights block rest (processBlock P txdata registry)
    | .error e => (.error e, registry)

namespace RescanCalls

variable (calls : RescanCalls P)

/-- The lowest funding height found; a lookup that fails is passed over. -/
def oldest (watches : List (OutPoint × Bytes)) : Option Nat :=
  watches.zipIdx.foldl (fun oldest watch =>
    match txBlockHeight (calls.lookup watch.2) watch.1.1.txid with
    | .ok (some height) => some (oldest.elim height (min · height))
    | .ok none | .error _ => oldest) none

def scanBlocks (first : Nat) (registry : FileRegistry) : Except WalletError Unit × FileRegistry :=
  match getBlockCount calls.count with
  | .ok tip => scanHeights calls.block (heights first tip) registry
  | .error e => (.error e, registry)

def rescanForMissedSpends (watches : List (OutPoint × Bytes)) (registry : FileRegistry) :
    Except WalletError Unit × FileRegistry :=
  match calls.oldest watches with
  | none => (.ok (), registry)
  | some first => calls.scanBlocks first registry

end RescanCalls

/-- Try again until a rescan goes through: the registry then, and the attempts made. -/
def retryRescan (watches : List (OutPoint × Bytes)) :
    List (RescanCalls P) → FileRegistry → Option (FileRegistry × List (RescanCalls P))
  | [], _ => none
  | calls :: later, registry =>
    match calls.rescanForMissedSpends watches registry with
    | (.ok (), registry') => some (registry', [calls])
    | (.error _, registry') =>
      (retryRescan watches later registry').map fun done => (done.1, calls :: done.2)

def FileRegistry.registerWatches (watches : List (OutPoint × Bytes)) (registry : FileRegistry) :
    FileRegistry :=
  watches.foldl (fun registry watch => registry.registerWatch watch.1 watch.2) registry

/-- `RebuildWatches` up to its reply, without a shutdown. -/
def rebuildWatches (watches : List (OutPoint × Bytes)) (attempts : List (RescanCalls P))
    (registry : FileRegistry) : Option (FileRegistry × List (RescanCalls P)) :=
  retryRescan watches attempts (registry.registerWatches watches)

/-! ## The chain -/

def SpentOnce (ledger : List (List Transaction)) : Prop :=
  ∀ (o : OutPoint) (i j : Nat) (block block' : List Transaction) (tx tx' : Transaction),
    ledger[i]? = some block → tx ∈ block → tx.spends o = true →
    ledger[j]? = some block' → tx' ∈ block' → tx'.spends o = true → i = j ∧ tx = tx'

/-- What the blocks spend, with the height and the transaction that spends it. -/
def ledgerSpends (ledger : List (List Transaction)) : List (OutPoint × Nat × Transaction) :=
  ledger.zipIdx.flatMap fun entry => entry.1.flatMap fun tx =>
    tx.input.map fun input => (input.previousOutput, entry.2, tx)

variable {o : OutPoint} {tx : Transaction} {registry : FileRegistry}
  {watches : List (OutPoint × Bytes)} {o' : OutPoint} {spk : Bytes}

theorem mem_ledgerSpends {ledger i block} (hblock : ledger[i]? = some block) (htx : tx ∈ block)
    (hspends : tx.spends o) :
    (o, i, tx) ∈ ledgerSpends ledger := by
  obtain ⟨input, hinput, rfl⟩ := mem_map.mp (Transaction.spends_iff.mp hspends)
  refine mem_flatMap.mpr ⟨(block, i), mem_zipIdx_iff_getElem?.mpr hblock,
    mem_flatMap.mpr ⟨tx, htx, mem_map_of_mem hinput⟩⟩

theorem spentOnce_of_nodup {ledger} (h : ((ledgerSpends ledger).map (·.1)).Nodup) :
    SpentOnce ledger := by
  intro o i j block block' tx tx' hblock htx hspends hblock' htx' hspends'
  have heq := inj_on_of_nodup_map h (mem_ledgerSpends hblock htx hspends)
    (mem_ledgerSpends hblock' htx' hspends') rfl
  rw [Prod.mk.injEq, Prod.mk.injEq] at heq
  exact heq.2

/-- The node is on the way along the ledger. -/
def Moment.On (m : Moment P) (ledger : List (List Transaction)) : Prop :=
  ∀ n, m = some n → ∃ k, n.chain.blocks = ledger.take k

/-- The attempt sees blocks of the ledger only. -/
structure RescanCalls.On (calls : RescanCalls P) (ledger : List (List Transaction)) : Prop where
  count : calls.count.On ledger
  block : ∀ height, (calls.block height).On ledger

/-- The attempt comes to read the block of a height: the scan begins at it or below, the tip
is at it or above, and the blocks from the first to this one are served. -/
def RescanCalls.Reads (calls : RescanCalls P) (watches : List (OutPoint × Bytes)) (height : Nat) :
    Prop :=
  ∃ first n, calls.oldest watches = some first ∧ calls.count = some n ∧ first ≤ height ∧
    height ≤ n.chain.height ∧
    ∀ j, first ≤ j → j ≤ height → (blockAtHeight (calls.block j) j).isOk = true

/-- The transaction is on record as the confirmed spend of the watched outpoint. -/
def FileRegistry.Recorded (registry : FileRegistry) (o : OutPoint) (tx : Transaction) : Prop :=
  ∃ watch, registry.lookup o = some watch ∧ watch.spentTx = some tx ∧ watch.inBlock = true

theorem Moment.On.getElem {m : Moment P} {ledger : List (List Transaction)} (h : m.On ledger)
    {n : CoreNode P} (hn : m = some n) {height : Nat} {txdata : List Transaction}
    (hblock : n.chain.blocks[height]? = some txdata) : ledger[height]? = some txdata := by
  obtain ⟨k, hk⟩ := h n hn
  rw [hk, getElem?_take] at hblock
  split at hblock
  · exact hblock
  · cases hblock

/-! ## One scan -/

section Scan

variable {ledger : List (List Transaction)} {block : Nat → Moment P} {o : OutPoint} {at' : Nat}
  {txdata : List Transaction} {tx : Transaction}

theorem lookup_processBlock_on (honce : SpentOnce ledger) (hat : ledger[at']? = some txdata)
    (htx : tx ∈ txdata) (hspends : tx.spends o) {height txdata'}
    (hread : ledger[height]? = some txdata') (registry : FileRegistry) :
    (processBlock P txdata' registry).lookup o =
      if height = at' then (registry.lookup o).map (.confirmed tx) else registry.lookup o := by
  split
  · rename_i heq
    subst heq
    rw [hat, Option.some.injEq] at hread
    subst hread
    exact lookup_processBlock_of_spent htx hspends fun tx' htx' hspends' =>
      (honce o height height txdata txdata tx' tx hat htx' hspends' hat htx hspends).2
  · rename_i hne
    refine lookup_processBlock_of_unspent fun tx' htx' => ?_
    by_contra hspends'
    exact hne (honce o height at' txdata' txdata tx' tx hread htx' (by simpa using hspends') hat htx
      hspends).1

theorem lookup_scanHeights (honce : SpentOnce ledger) (hat : ledger[at']? = some txdata)
    (htx : tx ∈ txdata) (hspends : tx.spends o) (hon : ∀ height, (block height).On ledger)
    (scanned : List Nat) (registry : FileRegistry) :
    (scanHeights block scanned registry).2.lookup o =
      if at' ∈ scanned.takeWhile (fun j => (blockAtHeight (block j) j).isOk) then
        (registry.lookup o).map (.confirmed tx)
      else registry.lookup o := by
  induction scanned generalizing registry with
  | nil => rfl
  | cons height rest ih =>
    rw [scanHeights]
    cases hread : blockAtHeight (block height) height with
    | error e =>
      rw [takeWhile_cons_of_neg (by simp [hread, Except.isOk, Except.toBool])]
      rfl
    | ok txdata' =>
      obtain ⟨n, hn, hblock⟩ := blockAtHeight_eq_ok.mp hread
      have hread' := (hon height).getElem hn hblock
      rw [takeWhile_cons_of_pos (by simp [hread, Except.isOk, Except.toBool])]
      simp only [ih, lookup_processBlock_on honce hat htx hspends hread', mem_cons]
      by_cases heq : height = at'
      · subst heq
        simp only [↓reduceIte, true_or]
        split
        · cases registry.lookup o <;> rfl
        · rfl
      · simp [heq, Ne.symm heq]

end Scan

theorem mem_takeWhile_range' {p : Nat → Bool} {first k n} :
    k ∈ (List.range' first n).takeWhile p ↔
      first ≤ k ∧ k < first + n ∧ ∀ j, first ≤ j → j ≤ k → p j = true := by
  induction n generalizing first with
  | zero =>
    simp only [List.range'_zero, takeWhile_nil, not_mem_nil, false_iff]
    omega
  | succ n ih =>
    rw [List.range'_succ]
    cases hp : p first with
    | false =>
      rw [takeWhile_cons_of_neg (by simp [hp])]
      simp only [not_mem_nil, false_iff]
      rintro ⟨hle, -, hall⟩
      rw [hall first le_rfl hle] at hp
      cases hp
    | true =>
      rw [takeWhile_cons_of_pos hp, mem_cons, ih]
      constructor
      · rintro (rfl | ⟨hle, hlt, hall⟩)
        · exact ⟨le_rfl, by omega, fun j h1 h2 => by rwa [Nat.le_antisymm h2 h1]⟩
        · refine ⟨by omega, by omega, fun j h1 h2 => ?_⟩
          rcases Nat.eq_or_lt_of_le h1 with rfl | h1
          · exact hp
          · exact hall j h1 h2
      · rintro ⟨hle, hlt, hall⟩
        rcases Nat.eq_or_lt_of_le hle with rfl | hle
        · exact .inl rfl
        · exact .inr ⟨hle, by omega, fun j h1 h2 => hall j (by omega) h2⟩

/-! ## Attempts -/

section Attempts

variable {ledger : List (List Transaction)} {watches : List (OutPoint × Bytes)} {o : OutPoint}
  {at' : Nat} {txdata : List Transaction} {tx : Transaction} {calls : RescanCalls P}

theorem RescanCalls.reads_iff {first n} (hfirst : calls.oldest watches = some first)
    (hn : calls.count = some n) :
    calls.Reads watches at' ↔ at' ∈ (heights first n.chain.height).takeWhile
      fun j => (blockAtHeight (calls.block j) j).isOk := by
  rw [heights, mem_takeWhile_range']
  constructor
  · rintro ⟨first', n', hfirst', hn', hle, htip, hall⟩
    rw [hfirst, Option.some.injEq] at hfirst'
    rw [hn, Option.some.injEq] at hn'
    subst hfirst' hn'
    exact ⟨hle, by omega, hall⟩
  · rintro ⟨hle, hlt, hall⟩
    exact ⟨first, n, hfirst, hn, hle, by omega, hall⟩

theorem RescanCalls.lookup_rescan (honce : SpentOnce ledger) (hat : ledger[at']? = some txdata)
    (htx : tx ∈ txdata) (hspends : tx.spends o) (hon : calls.On ledger)
    (watches : List (OutPoint × Bytes)) (registry : FileRegistry) :
    (calls.Reads watches at' → (calls.rescanForMissedSpends watches registry).2.lookup o =
      (registry.lookup o).map (.confirmed tx)) ∧
    (¬ calls.Reads watches at' →
      (calls.rescanForMissedSpends watches registry).2.lookup o = registry.lookup o) := by
  rw [rescanForMissedSpends]
  cases hfirst : calls.oldest watches with
  | none =>
    refine ⟨fun ⟨_, _, h, _⟩ => ?_, fun _ => rfl⟩
    rw [hfirst] at h
    cases h
  | some first =>
    cases hn : calls.count with
    | none =>
      refine ⟨fun ⟨_, _, _, h, _⟩ => ?_, fun _ => ?_⟩
      · rw [hn] at h
        cases h
      · change (calls.scanBlocks first registry).2.lookup o = registry.lookup o
        rw [scanBlocks, hn]
        rfl
    | some n =>
      have hscan : calls.scanBlocks first registry =
          scanHeights calls.block (heights first n.chain.height) registry := by
        rw [scanBlocks, hn]
        rfl
      simp only [hscan, lookup_scanHeights honce hat htx hspends hon.block, reads_iff hfirst hn]
      exact ⟨fun h => if_pos h, fun h => if_neg h⟩

/-- Over the attempts made, a spend is recorded if one of them comes to its block. -/
theorem lookup_retryRescan (honce : SpentOnce ledger) (hat : ledger[at']? = some txdata)
    (htx : tx ∈ txdata) (hspends : tx.spends o) {attempts made : List (RescanCalls P)}
    {registry' : FileRegistry} (hon : ∀ calls ∈ attempts, calls.On ledger)
    (h : retryRescan watches attempts registry = some (registry', made)) :
    ((∃ calls ∈ made, calls.Reads watches at') →
      registry'.lookup o = (registry.lookup o).map (.confirmed tx)) ∧
    ((¬ ∃ calls ∈ made, calls.Reads watches at') → registry'.lookup o = registry.lookup o) := by
  induction attempts generalizing registry made with
  | nil => cases h
  | cons calls later ih =>
    obtain ⟨hreads, hleft⟩ := RescanCalls.lookup_rescan honce hat htx hspends
      (hon calls mem_cons_self) watches registry
    rw [retryRescan] at h
    split at h
    · rename_i registry₁ hrescan
      cases h
      rw [hrescan] at hreads hleft
      simpa using And.intro hreads hleft
    · rename_i e registry₁ hrescan
      rw [hrescan] at hreads hleft
      obtain ⟨⟨registry₂, made₁⟩, hlater, heq⟩ := Option.map_eq_some_iff.mp h
      cases heq
      obtain ⟨hreads₁, hleft₁⟩ := ih (fun calls h => hon calls (mem_cons_of_mem _ h)) hlater
      simp only [mem_cons, exists_eq_or_imp]
      by_cases hfirst : calls.Reads watches at'
      · refine ⟨fun _ => ?_, fun hnone => absurd (.inl hfirst) hnone⟩
        by_cases hagain : ∃ calls ∈ made₁, calls.Reads watches at'
        · rw [hreads₁ hagain, hreads hfirst]
          cases registry.lookup o <;> rfl
        · rw [hleft₁ hagain, hreads hfirst]
      · simp only [hfirst, false_or]
        exact ⟨fun hagain => (hreads₁ hagain).trans (by rw [hleft hfirst]),
          fun hnone => (hleft₁ hnone).trans (hleft hfirst)⟩

end Attempts

/-! ## Registration -/

theorem recorded_registerWatch :
    (registry.registerWatch o' spk).Recorded o tx ↔ registry.Recorded o tx := by
  unfold FileRegistry.Recorded
  by_cases ho : o = o'
  · subst ho
    rw [FileRegistry.lookup_registerWatch]
    cases registry.lookup o <;> simp
  · rw [FileRegistry.lookup_registerWatch_of_ne ho]

theorem recorded_registerWatches (watches : List (OutPoint × Bytes)) (registry : FileRegistry) :
    (registry.registerWatches watches).Recorded o tx ↔ registry.Recorded o tx := by
  induction watches generalizing registry with
  | nil => rfl
  | cons watch rest ih => exact (ih _).trans recorded_registerWatch

theorem isSome_lookup_registerWatch (h : o = o' ∨ (registry.lookup o).isSome) :
    ((registry.registerWatch o' spk).lookup o).isSome = true := by
  by_cases ho : o = o'
  · subst ho
    rw [FileRegistry.lookup_registerWatch, Option.isSome_some]
  · rw [FileRegistry.lookup_registerWatch_of_ne ho]
    exact h.resolve_left ho

theorem isSome_lookup_registerWatches (registry : FileRegistry)
    (h : o ∈ watches.map (·.1) ∨ (registry.lookup o).isSome) :
    ((registry.registerWatches watches).lookup o).isSome = true := by
  induction watches generalizing registry with
  | nil => exact h.resolve_left (not_mem_nil)
  | cons watch rest ih =>
    refine ih _ ?_
    simp only [map_cons, mem_cons, or_assoc] at h
    rcases h with rfl | hrest | hold
    · exact .inr (isSome_lookup_registerWatch (.inl rfl))
    · exact .inl hrest
    · exact .inr (isSome_lookup_registerWatch (.inr hold))

/-! ## Where a scan begins -/

section Oldest

variable {calls : RescanCalls P}

theorem oldest_fold_le {watches : List ((OutPoint × Bytes) × Nat)} {start : Option Nat}
    {bound : Nat}
    (h : (∃ old, start = some old ∧ old ≤ bound) ∨
      ∃ watch ∈ watches, ∃ height, height ≤ bound ∧
        txBlockHeight (calls.lookup watch.2) watch.1.1.txid = .ok (some height)) :
    ∃ first, watches.foldl (fun oldest watch =>
      match txBlockHeight (calls.lookup watch.2) watch.1.1.txid with
      | .ok (some height) => some (oldest.elim height (min · height))
      | .ok none | .error _ => oldest) start = some first ∧ first ≤ bound := by
  induction watches generalizing start with
  | nil => simpa using h
  | cons watch rest ih =>
    rw [foldl_cons]
    refine ih ?_
    rcases h with ⟨old, rfl, hold⟩ | ⟨watch', hmem, height, hle, hfound⟩
    · refine .inl ?_
      split
      · exact ⟨_, rfl, (Nat.min_le_left ..).trans hold⟩
      · exact ⟨old, rfl, hold⟩
      · exact ⟨old, rfl, hold⟩
    · rcases mem_cons.mp hmem with rfl | hmem
      · refine .inl ?_
        rw [hfound]
        cases start with
        | none => exact ⟨height, rfl, hle⟩
        | some old => exact ⟨_, rfl, (Nat.min_le_right ..).trans hle⟩
      · exact .inr ⟨watch', hmem, height, hle, hfound⟩

theorem isOk_of_scanHeights {block : Nat → Moment P} {scanned}
    (h : (scanHeights block scanned registry).1 = .ok ()) :
    ∀ j ∈ scanned, (blockAtHeight (block j) j).isOk = true := by
  induction scanned generalizing registry with
  | nil => simp
  | cons height rest ih =>
    rw [scanHeights] at h
    intro j hj
    split at h
    · rename_i txdata hread
      rcases mem_cons.mp hj with rfl | hj
      · rw [hread]
        rfl
      · exact ih h j hj
    · cases h

theorem reads_of_found
    (h : (calls.rescanForMissedSpends watches registry).1 = .ok ()) {i : Nat}
    {watch : OutPoint × Bytes} (hwatch : watches[i]? = some watch) {funded height : Nat}
    (hfound : txBlockHeight (calls.lookup i) watch.1.txid = .ok (some funded))
    (hle : funded ≤ height) {n : CoreNode P} (hn : calls.count = some n)
    (htip : height ≤ n.chain.height) : calls.Reads watches height := by
  obtain ⟨first, hfirst, hbelow⟩ : ∃ first, calls.oldest watches = some first ∧ first ≤ height :=
    oldest_fold_le (.inr ⟨(watch, i), mem_zipIdx_iff_getElem?.mpr hwatch, funded, hle, hfound⟩)
  rw [RescanCalls.rescanForMissedSpends, hfirst] at h
  have hscan : (scanHeights calls.block (heights first n.chain.height) registry).1 = .ok () := by
    have hcount : getBlockCount calls.count = .ok n.chain.height := by rw [hn]; rfl
    simpa [RescanCalls.scanBlocks, hcount] using h
  refine ⟨first, n, hfirst, hn, hbelow, htip, fun j h1 h2 => isOk_of_scanHeights hscan j ?_⟩
  rw [heights, mem_range'_1]
  omega

end Oldest

/-! ## The rebuild -/

/-- The blocks of the chain whose tip the last attempt read, or would have read, in which a
rebuilt outpoint is spent. -/
def MinedSpend (watches : List (OutPoint × Bytes)) (made : List (RescanCalls P)) (o : OutPoint)
    (height : Nat) (tx : Transaction) : Prop :=
  o ∈ watches.map (·.1) ∧ ∃ calls n txdata, made.getLast? = some calls ∧ calls.count = some n ∧
    n.chain.blocks[height]? = some txdata ∧ tx ∈ txdata ∧ tx.spends o = true

theorem made_subset {attempts made : List (RescanCalls P)} {registry' : FileRegistry}
    (h : retryRescan watches attempts registry = some (registry', made)) :
    ∀ calls ∈ made, calls ∈ attempts := by
  induction attempts generalizing registry made with
  | nil => cases h
  | cons calls later ih =>
    rw [retryRescan] at h
    split at h
    · cases h
      simp
    · obtain ⟨⟨registry₂, made₁⟩, hlater, heq⟩ := Option.map_eq_some_iff.mp h
      cases heq
      intro calls' hmem
      rcases mem_cons.mp hmem with rfl | hmem
      · exact mem_cons_self
      · exact mem_cons_of_mem _ (ih hlater calls' hmem)

theorem rebuildWatches_once {calls : RescanCalls P}
    (h : (calls.rescanForMissedSpends watches (registry.registerWatches watches)).1 = .ok ()) :
    rebuildWatches watches [calls] registry =
      some ((calls.rescanForMissedSpends watches (registry.registerWatches watches)).2,
        [calls]) := by
  rw [rebuildWatches, retryRescan]
  split
  · rename_i hrescan
    rw [hrescan]
  · rename_i hrescan
    rw [hrescan] at h
    cases h

/-- **Rebuilt watches.**  When the rebuild replies, on a chain that only grows meanwhile, the
mined spends of the rebuilt outpoints are all on record as confirmed exactly if each was in a
block that some attempt came to read, or on record before. -/
theorem rebuilt_spends_recorded_iff {ledger : List (List Transaction)} (honce : SpentOnce ledger)
    (watches : List (OutPoint × Bytes)) {attempts made : List (RescanCalls P)}
    {registry registry' : FileRegistry} (hon : ∀ calls ∈ attempts, calls.On ledger)
    (h : rebuildWatches watches attempts registry = some (registry', made)) :
    (∀ o height tx, MinedSpend watches made o height tx → registry'.Recorded o tx) ↔
      ∀ o height tx, MinedSpend watches made o height tx →
        (∃ calls ∈ made, calls.Reads watches height) ∨ registry.Recorded o tx := by
  refine forall_congr' fun o => forall_congr' fun height => forall_congr' fun tx =>
    imp_congr_right fun hspend => ?_
  obtain ⟨hwatched, calls, n, txdata, hlast, hn, hblock, htx, hspends⟩ := hspend
  have hmade := made_subset h calls (mem_of_getLast? hlast)
  have hat := (hon calls hmade).count.getElem hn hblock
  obtain ⟨hreads, hleft⟩ := lookup_retryRescan honce hat htx hspends hon h
  obtain ⟨watch, hwatch⟩ := Option.isSome_iff_exists.mp
    (isSome_lookup_registerWatches registry (.inl hwatched))
  by_cases hread : ∃ calls ∈ made, calls.Reads watches height
  · refine ⟨fun _ => .inl hread, fun _ => ?_⟩
    exact ⟨watch.confirmed tx, by rw [hreads hread, hwatch]; rfl, rfl, rfl⟩
  · rw [← recorded_registerWatches watches registry]
    unfold FileRegistry.Recorded
    simp only [hread, false_or, hleft hread]

/-! ## A lookup that fails -/

namespace SampleWatch

/-- One contract was funded and spent while the program was down, another one funded since. -/
def ledger : List (List Transaction) := [[], [fundingTx], [spendTx], [laterFundingTx]]

def currentNode : CoreNode prims :=
  .ofChecked ⟨ledger, []⟩
    (AList.insert laterContract.txid ⟨laterFundingTx, 3, true⟩
      (AList.insert spendTxid ⟨spendTx, 2, true⟩
        (AList.insert contract.txid ⟨fundingTx, 1, true⟩ ∅)))
    true (by decide +kernel)

def rebuilt : List (OutPoint × Bytes) := [(contract, contractScript), (laterContract, [])]

/-- An attempt in which the funding of the first watch is looked up, or that fails. -/
def attempt (found : Bool) : RescanCalls prims where
  lookup i := if found || i ≠ 0 then ⟨some currentNode, some currentNode⟩ else ⟨none, none⟩
  count := some currentNode
  block _ := some currentNode

theorem attempt_on (found : Bool) : (attempt found).On ledger where
  count n hn := ⟨4, by cases hn; rfl⟩
  block _ n hn := ⟨4, by cases hn; rfl⟩

theorem attempt_minedSpend (found : Bool) :
    MinedSpend rebuilt [attempt found] contract 2 spendTx :=
  ⟨by decide +kernel, attempt found, currentNode, [spendTx], rfl, rfl, rfl, mem_cons_self,
    by decide +kernel⟩

theorem ledger_spentOnce : SpentOnce ledger := spentOnce_of_nodup (by decide +kernel)

end SampleWatch

open SampleWatch in
theorem rebuilt_spends_recorded_found :
    ∃ registry' made, rebuildWatches rebuilt [attempt true] ∅ = some (registry', made) ∧
      MinedSpend rebuilt made contract 2 spendTx ∧ registry'.Recorded contract spendTx := by
  have hok : ((attempt true).rescanForMissedSpends rebuilt
      (FileRegistry.registerWatches rebuilt ∅)).1 = .ok () := by decide +kernel
  have hon : ∀ calls ∈ [attempt true], calls.On ledger := by
    intro calls hmem
    rw [mem_singleton.mp hmem]
    exact attempt_on true
  have h := rebuildWatches_once hok
  refine ⟨_, _, h, attempt_minedSpend true, (rebuilt_spends_recorded_iff ledger_spentOnce rebuilt
    hon h).mpr (fun o height tx hmined => .inl ⟨attempt true, mem_cons_self, ?_⟩) _ _ _
      (attempt_minedSpend true)⟩
  obtain ⟨-, calls, n, txdata, hlast, hn, hblock, htx, -⟩ := hmined
  cases hlast
  cases hn
  have hfound : txBlockHeight ((attempt true).lookup 0) contract.txid = .ok (some 1) := by
    decide +kernel
  have hwatch : rebuilt[0]? = some (contract, contractScript) := rfl
  have hlt : height < 4 := (List.getElem?_eq_some_iff.mp hblock).1
  refine reads_of_found hok hwatch hfound ?_ rfl (Nat.le_of_lt_succ hlt)
  by_contra hzero
  cases Nat.lt_one_iff.mp (not_le.mp hzero)
  cases hblock
  cases htx

open SampleWatch in
/-- The lookup of one funding fails, so the scan begins at the other one: the spend made
while the program was down stays unknown, and its contract is reported unspent. -/
theorem spend_missed_after_failed_lookup :
    ∃ registry' made, rebuildWatches rebuilt [attempt false] ∅ = some (registry', made) ∧
      MinedSpend rebuilt made contract 2 spendTx ∧ ¬ registry'.Recorded contract spendTx ∧
      answerWatchRequest ⟨true, false, none⟩ contract registry' = .utxoSpent none := by
  refine ⟨_, _, rebuildWatches_once (by decide +kernel), attempt_minedSpend false, ?_,
    by decide +kernel⟩
  rintro ⟨watch, hwatch, hspent, -⟩
  have hunspent : (((attempt false).rescanForMissedSpends rebuilt
      (FileRegistry.registerWatches rebuilt ∅)).2.lookup contract).bind (·.spentTx) = none := by
    decide +kernel
  rw [hwatch, Option.bind_some, hspent] at hunspent
  cases hunspent

end OpenSwap
