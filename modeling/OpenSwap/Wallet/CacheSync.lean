import OpenSwap.Base.Run
import OpenSwap.Btc.Tables
import OpenSwap.Wallet.UtxoCache

/-!
# Syncing the cache

A sync asks the backend for the wallet's unspent outputs and refreshes the cache from the
answer.  The answer may be false.  A pass of `sync_with_rolling_gap_limit` fetches the
transaction of every output the cache does not hold yet, and a listing with an output its
transaction does not pay fails the pass before the cache moves.  On Core a sync with no
descriptor to import takes the listing as it is.

A cache is `AllPaid` when every coin in it is paid by a transaction of its txid.
`cache_backed` has that for every run in which the listings of the second kind add no coin
that is not paid; `refresh_fabricated` is a coin of no transaction that such a listing puts
into the cache, and the keychain indexes are then advanced from it.
-/

namespace OpenSwap

open Btc Checked List AList

abbrev UtxoCache := AList fun _ : OutPoint => UtxoEntry × UtxoSpendInfo

/-- An entry of `list_unspent`, under the outpoint it names. -/
abbrev ListedUtxo := OutPoint × UtxoEntry

variable (P : Prims)

def utxoMatchesTx (tx : Transaction) (utxo : ListedUtxo) : Bool :=
  decide (P.txid tx = utxo.1.txid) &&
    (tx.output[utxo.1.vout]?).any fun out =>
      decide (out.scriptPubkey = utxo.2.scriptPubKey ∧ out.value = utxo.2.amount)

/-- What the backend answers during one refresh, and what the wallet makes of a new coin.
Fetching fails also when a shutdown was requested. -/
structure Listing where
  utxos : List ListedUtxo
  getRawTransaction : ListedUtxo → Except WalletError Transaction
  spendInfo : ListedUtxo → Except WalletError (Option UtxoSpendInfo)

variable (cache : UtxoCache)

def corroborateUtxos (l : Listing) : Except WalletError Unit :=
  checkAll (fun utxo =>
    -- a cached coin was corroborated when it entered the cache
    if utxo.1 ∈ cache then .ok ()
    else do
      let tx ← l.getRawTransaction utxo
      let o := utxo.1
      ensure (utxoMatchesTx P tx utxo)
        (.general s!"Backend reported UTXO {o.txid}:{o.vout} that its transaction does not pay"))
    l.utxos

abbrev NewEntries := List (OutPoint × UtxoEntry × UtxoSpendInfo)

/-- The loop of `update_utxo_cache`: cached coins take the listing's data but for script and
amount, the others are collected with what they are to the wallet.  A failure leaves the
coins refreshed so far. -/
def refreshCached (spendInfo : ListedUtxo → Except WalletError (Option UtxoSpendInfo)) :
    List ListedUtxo → UtxoCache → NewEntries → UtxoCache × Except WalletError NewEntries
  | [], cache, newEntries => (cache, .ok newEntries)
  | utxo :: rest, cache, newEntries =>
    match cache.lookup utxo.1 with
    | some (cached, info) =>
      let entry := { utxo.2 with amount := cached.amount, scriptPubKey := cached.scriptPubKey }
      refreshCached spendInfo rest (cache.insert utxo.1 (entry, info)) newEntries
    | none =>
      match spendInfo utxo with
      | .error e => (cache, .error e)
      | .ok none => refreshCached spendInfo rest cache newEntries
      | .ok (some info) =>
        refreshCached spendInfo rest cache (newEntries ++ [(utxo.1, utxo.2, info)])

def updateUtxoCache (l : Listing) : UtxoCache × Except WalletError Unit :=
  let listed := cache.filterEntries fun outpoint _ => l.utxos.any fun utxo => utxo.1 = outpoint
  match refreshCached l.spendInfo l.utxos listed [] with
  | (cache, .ok newEntries) =>
    (newEntries.foldl (fun cache e => cache.insert e.1 e.2) cache, .ok ())
  | (cache, .error e) => (cache, .error e)

def syncPass (l : Listing) : UtxoCache :=
  match corroborateUtxos P cache l with
  | .ok _ => (updateUtxoCache cache l).1
  | .error _ => cache

/-! ## A sync after another -/

structure SyncState where
  cache : UtxoCache
  externalIndex : Nat
  internalIndex : Nat
  advancedFrom : List UtxoCache

inductive SyncAction
  /-- a pass of `sync_with_rolling_gap_limit`, on either backend -/
  | pass (l : Listing)
  /-- the refresh of `sync` on Core when there is nothing to import -/
  | refresh (l : Listing)
  /-- `post_sync_updates`, by what `find_hd_next_index` finds for the two keychains -/
  | postSync (findHdNextIndex : UtxoCache → Nat × Nat)
  | remove (inputs : List OutPoint)

def SyncState.fresh : SyncState := ⟨∅, 0, 0, []⟩

def SyncState.step (s : SyncState) : SyncAction → Option SyncState
  | .pass l => some { s with cache := syncPass P s.cache l }
  | .refresh l => some { s with cache := (updateUtxoCache s.cache l).1 }
  | .postSync findHdNextIndex =>
    let next := findHdNextIndex s.cache
    some { s with
      externalIndex := max next.1 s.externalIndex
      internalIndex := max next.2 s.internalIndex
      advancedFrom := s.cache :: s.advancedFrom }
  | .remove inputs => some { s with cache := inputs.foldl (fun cache o => cache.erase o) s.cache }

/-- Some transaction of that txid pays the script and the amount at that output. -/
def Paid (utxo : ListedUtxo) : Prop := ∃ tx, utxoMatchesTx P tx utxo = true

def AllPaid : Prop :=
  ∀ o coin, cache.lookup o = some coin → Paid P (o, coin.1)

def ListsPaid (s : SyncState) : SyncAction → Prop
  | .refresh l => ∀ utxo ∈ l.utxos, utxo.1 ∉ s.cache → Paid P utxo
  | _ => True

variable {P : Prims} {cache : UtxoCache} {l : Listing}

theorem corroborateUtxos_paid {u} (h : corroborateUtxos P cache l = .ok u) :
    ∀ utxo ∈ l.utxos, utxo.1 ∉ cache → Paid P utxo := by
  intro utxo hmem hnew
  have hutxo := checkAll_eq_ok.mp h utxo hmem
  simp only [hnew, if_false, bind_ok_iff, ensure_eq_ok] at hutxo
  obtain ⟨tx, -, hmatches⟩ := hutxo
  exact ⟨tx, hmatches⟩

theorem refreshCached_allPaid (spendInfo : ListedUtxo → Except WalletError (Option UtxoSpendInfo))
    (newEntries : NewEntries) {utxos} (hcache : AllPaid P cache)
    (hnew : ∀ e ∈ newEntries, Paid P (e.1, e.2.1))
    (hutxos : ∀ utxo ∈ utxos, utxo.1 ∉ cache → Paid P utxo) :
    AllPaid P (refreshCached spendInfo utxos cache newEntries).1 ∧
      ∀ found, (refreshCached spendInfo utxos cache newEntries).2 = .ok found →
        ∀ e ∈ found, Paid P (e.1, e.2.1) := by
  induction utxos generalizing cache newEntries with
  | nil =>
    refine ⟨hcache, ?_⟩
    intro found hfound
    cases hfound
    exact hnew
  | cons utxo rest ih =>
    have hrest := fun u hu => hutxos u (mem_cons_of_mem _ hu)
    unfold refreshCached
    split
    · -- script and amount stay those of the cached coin, which is paid
      rename_i cached info hlookup
      apply ih newEntries _ hnew
      · intro u hu hnotMem
        apply hrest u hu
        simp_all [mem_insert]
      · exact forall_lookup_insert (hcache utxo.1 (cached, info) hlookup) hcache
    · rename_i hlookup
      have hpaid := hutxos utxo mem_cons_self (lookup_eq_none.mp hlookup)
      split
      · exact ⟨hcache, by simp⟩
      · exact ih newEntries hcache hnew hrest
      · apply ih _ hcache _ hrest
        intro e he
        rcases mem_append.mp he with he | he
        · exact hnew e he
        · rw [mem_singleton.mp he]
          exact hpaid

theorem updateUtxoCache_allPaid (hcache : AllPaid P cache)
    (hutxos : ∀ utxo ∈ l.utxos, utxo.1 ∉ cache → Paid P utxo) :
    AllPaid P (updateUtxoCache cache l).1 := by
  unfold updateUtxoCache
  dsimp only
  generalize hlisted : cache.filterEntries (fun outpoint _ => l.utxos.any fun utxo =>
    decide (utxo.1 = outpoint)) = listed
  have hlookup : ∀ o coin, listed.lookup o = some coin ↔
      cache.lookup o = some coin ∧ ∃ utxo ∈ l.utxos, utxo.1 = o := by
    intro o coin
    rw [← hlisted, lookup_filterEntries_eq_some]
    simp
  have hloop := refreshCached_allPaid l.spendInfo []
    (fun o coin h => hcache o coin ((hlookup o coin).mp h).1) (by simp) fun utxo hmem hnotMem => by
      -- what the listing names is not dropped from the cache
      apply hutxos utxo hmem
      intro hcached
      obtain ⟨coin, hcoin⟩ := Option.isSome_iff_exists.mp (lookup_isSome.mpr hcached)
      have hkept := (hlookup utxo.1 coin).mpr ⟨hcoin, utxo, hmem, rfl⟩
      exact hnotMem (lookup_isSome.mp (by simp [hkept]))
  split
  · rename_i refreshed found heq
    rw [heq] at hloop
    intro o coin hcoin
    rcases lookup_foldl_insert_cases hcoin with hmem | hcoin
    · exact hloop.2 found rfl _ hmem
    · exact hloop.1 o coin hcoin
  · rename_i refreshed e heq
    rw [heq] at hloop
    exact hloop.1

theorem step_allPaid {s s' a} (h : ∀ cache ∈ s.cache :: s.advancedFrom, AllPaid P cache)
    (hlists : ListsPaid P s a) (hstep : s.step P a = some s') :
    ∀ cache ∈ s'.cache :: s'.advancedFrom, AllPaid P cache := by
  rw [forall_mem_cons] at h
  cases a with
  | pass l =>
    cases hstep
    apply forall_mem_cons.mpr ⟨_, h.2⟩
    simp only [syncPass]
    split
    · exact updateUtxoCache_allPaid h.1 (corroborateUtxos_paid (by assumption))
    · exact h.1
  | refresh l =>
    cases hstep
    exact forall_mem_cons.mpr ⟨updateUtxoCache_allPaid h.1 hlists, h.2⟩
  | postSync findHdNextIndex =>
    cases hstep
    simpa using h
  | remove inputs =>
    cases hstep
    apply forall_mem_cons.mpr ⟨_, h.2⟩
    intro o coin hcoin
    exact h.1 o coin (lookup_of_lookup_foldl_erase hcoin)

/-- Over every run of syncs, whatever is listed, each cached coin is paid, and so was each
coin of a cache the indexes were advanced from; what a refresh without corroboration adds
has to be paid. -/
theorem cache_backed (P : Prims) {s : SyncState}
    (h : Run.Reachable (SyncState.step P) (ListsPaid P) SyncState.fresh s) :
    ∀ cache ∈ s.cache :: s.advancedFrom, AllPaid P cache :=
  h.invariant (I := fun s => ∀ cache ∈ s.cache :: s.advancedFrom, AllPaid P cache)
    (by simp [AllPaid, SyncState.fresh]) fun _ _ _ => step_allPaid

namespace SampleCacheSync

/-- Every transaction of the tables without entries has the txid of zeros. -/
def tx : Transaction := ⟨2, 0, [], [⟨5000, [0x51]⟩]⟩

def listing (o : OutPoint) : Listing where
  utxos := [(o, ⟨none, [0x51], 5000⟩)]
  getRawTransaction _ := .ok tx
  spendInfo _ := .ok (some (.seedCoin .p2wpkh))

def paid : OutPoint := ⟨List.replicate 32 0, 0⟩

def fabricated : OutPoint := ⟨List.replicate 32 1, 0⟩

end SampleCacheSync

open SampleCacheSync in
/-- A pass caches a coin that is paid. -/
theorem pass_paid_coin :
    (AList.lookup paid (syncPass Tables.empty.prims ∅ (listing paid))).isSome ∧
      AllPaid Tables.empty.prims (syncPass Tables.empty.prims ∅ (listing paid)) :=
  ⟨by decide +kernel, cache_backed Tables.empty.prims
    (.step (a := .pass (listing paid)) .init trivial rfl) _ mem_cons_self⟩

open SampleCacheSync in
/-- With nothing to import, Core's listing puts a coin of no transaction into the cache, and
the indexes are advanced from that cache; a pass refuses the same listing. -/
theorem refresh_fabricated :
    (∃ s, Run.Reachable (SyncState.step Tables.empty.prims) (fun _ _ => True) SyncState.fresh s ∧
      ∃ cache ∈ s.advancedFrom, (AList.lookup fabricated s.cache).isSome ∧
        (AList.lookup fabricated cache).isSome) ∧
    syncPass Tables.empty.prims ∅ (listing fabricated) = ∅ ∧
    ∀ entry, ¬ Paid Tables.empty.prims (fabricated, entry) := by
  refine ⟨⟨_, .step (a := .postSync fun _ => (1, 0))
    (.step (a := .refresh (listing fabricated)) .init trivial rfl) trivial rfl,
    _, mem_cons_self, by decide +kernel, by decide +kernel⟩, rfl, ?_⟩
  rintro entry ⟨tx', hmatches⟩
  simp [utxoMatchesTx, Tables.prims, Tables.empty, digest, fabricated] at hmatches

end OpenSwap
