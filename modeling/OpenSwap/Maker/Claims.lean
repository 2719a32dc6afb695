import OpenSwap.Maker.Coins

/-!
# Claims on contract txids

The maker keeps one funding output from paying for two swaps by the txid of the
contract it derives from it: the txid is looked up among the live swaps and in the
wallet, and claimed for the swap.  This file says what that protects.

* `replayGuard` is what a run has to meet for that.
* `lookedUp_step`: then what a handler has looked up stays out of the wallet until it is claimed.
* `claimed_step` and `claimed_of_reachable`: then no txid is held by two swaps.
-/

namespace OpenSwap

open Btc Checked Run List AList

variable {P : Prims}

/-! ## Coins held by swaps -/

/-- The swap is live under the admission of this instant. -/
def Shared.liveAt (sh : Shared P) (swapId : String) (start : Nat) : Bool :=
  (sh.ongoingSwaps.lookup swapId).any (·.swapStartTime = start)

/-- The incoming coins outgoing coins were built for, of the swaps that are live, and
the ones in the wallet. -/
def Shared.heldCoins (sh : Shared P) : List (String × IncomingSwapCoin P) :=
  (sh.built.filter fun r => sh.liveAt r.swapId r.swapStartTime).map (fun r => (r.swapId, r.coin)) ++
    sh.wallet.incomingSwapcoins.entries.filterMap fun e => e.2.swapId.map (·, e.2)

/-- The swap holds the txid: it has claimed it, or the wallet has its coin. -/
def Holds (sh : Shared P) (swapId : String) (txid : Bytes) : Prop :=
  (∃ e, sh.ongoingSwaps.lookup swapId = some e ∧ txid ∈ e.claimedIncomingTxids) ∨
    ∃ c, sh.wallet.incomingSwapcoins.lookup txid = some c ∧ c.swapId = some swapId

/-- As long as the swap is live under this admission, the txid is claimed for it. -/
def ClaimedFor (sh : Shared P) (swapId : String) (start : Nat) (txid : Bytes) : Prop :=
  ∀ e, sh.ongoingSwaps.lookup swapId = some e → e.swapStartTime = start →
    txid ∈ e.claimedIncomingTxids

variable {sh sh' : Shared P} {id : String} {clock n : Nat} {conn : Conn P} {s : Server P}
  {start : Nat} {w d : WalletStore P} {marks : List String} {task : Option (Task P)}

theorem liveAt_iff {swapId} :
    sh.liveAt swapId start ↔
      ∃ e, sh.ongoingSwaps.lookup swapId = some e ∧ e.swapStartTime = start := by
  simp [Shared.liveAt, Option.any_eq_true]

theorem mem_heldCoins {h} :
    h ∈ sh.heldCoins ↔
      (∃ r ∈ sh.built, sh.liveAt r.swapId r.swapStartTime ∧ h = (r.swapId, r.coin)) ∨
      ∃ txid, sh.wallet.incomingSwapcoins.lookup txid = some h.2 ∧ h.2.swapId = some h.1 := by
  unfold Shared.heldCoins
  rw [mem_append]
  refine or_congr ?_ ?_
  · simp only [mem_map, mem_filter]
    exact ⟨fun ⟨r, ⟨hr, hlive⟩, heq⟩ => ⟨r, hr, hlive, heq.symm⟩,
      fun ⟨r, hr, hlive, heq⟩ => ⟨r, ⟨hr, hlive⟩, heq.symm⟩⟩
  · simp only [mem_filterMap, Option.map_eq_some_iff]
    constructor
    · rintro ⟨e, he, id, hid, rfl⟩
      exact ⟨e.1, mem_lookup_iff.mpr he, hid⟩
    · rintro ⟨txid, hlookup, hid⟩
      exact ⟨⟨txid, h.2⟩, mem_lookup_iff.mp hlookup, h.1, hid, rfl⟩

/-! ## The condition on steps -/

/-- The coins a handler has looked up in the wallet and not yet claimed. -/
def Task.checked : Task P → List (IncomingSwapCoin P)
  | .seenLive _ _ built | .seenWallet _ _ built _ => built
  | .beginFunding _ coins | .claim _ coins => coins
  | _ => []

/-- What a run has to meet for the txid check to see a replay:

* two swaps that name one outpoint agree on the fee rate;
* no coin is saved that another swap has looked up and not yet claimed;
* coins are saved only while their swap is live;
* a completed swap is settled, not put back without its claims. -/
def taskGuard (s : Server P) (state : ConnectionState P) (answers : Answers P) :
    Task P → Prop
  | .storeFunded pof coins _ _ => ∀ h ∈ s.shared.heldCoins, ∀ c ∈ coins, h.1 ≠ pof.id →
      h.2.fundingOutpoint = c.fundingOutpoint → h.2.negotiatedFeerate = c.negotiatedFeerate
  | .respSave resp => savedInTime s state (.respSave resp)
  | .handoverSave id todo => savedInTime s state (.handoverSave id todo)
  | .settle id => finalizable s.shared state answers id = true ∧ answers.saved = .saved
  | _ => True
where
  savedInTime (s : Server P) (state : ConnectionState P) (task : Task P) : Prop :=
    s.shared.liveAt task.swapId state.swapStartTime = true ∧
    ∀ e ∈ s.conns.entries, ∀ other ∈ e.2.task, other.swapId ≠ task.swapId →
      ∀ c ∈ other.checked, ∀ saved ∈ task.saves state, saved.contractTxid ≠ c.contractTxid

instance (s : Server P) (state : ConnectionState P) (answers : Answers P) (task : Task P) :
    Decidable (taskGuard s state answers task) := by
  cases task <;> unfold taskGuard <;> (try unfold taskGuard.savedInTime) <;> infer_instance

def replayGuard (s : Server P) : Action P → Prop
  | .run conn answers =>
    match s.conns.lookup conn with
    | some ⟨state, some task⟩ => taskGuard s state answers task
    | _ => True
  | _ => True

instance (s : Server P) (a : Action P) : Decidable (replayGuard s a) := by
  unfold replayGuard
  split
  · split <;> infer_instance
  · infer_instance

/-! ## The invariant -/

structure SharedClaimed (clock : Nat) (sh : Shared P) : Prop where
  unique : ∀ a b txid, Holds sh a txid → Holds sh b txid → a = b
  starts : ∀ id e, sh.ongoingSwaps.lookup id = some e → e.swapStartTime < clock
  entries : ∀ id e, sh.ongoingSwaps.lookup id = some e → ∀ c ∈ e.incomingSwapcoins,
    c.contractTxid ∈ e.claimedIncomingTxids
  built : ∀ r ∈ sh.built, r.swapStartTime < clock ∧
    ClaimedFor sh r.swapId r.swapStartTime r.coin.contractTxid

def TaskClaimed (sh : Shared P) (state : ConnectionState P) : Task P → Prop
  | .cacheContracts _ | .storeSigned _ | .respBegin _ | .respStore _ => state.phase ≠ .completed
  | .confirm pof coins | .verifyEntry pof coins _ _ | .initializeSwap pof coins _
  | .storeFunded pof coins _ _ =>
    ∀ c ∈ coins, ClaimedFor sh pof.id state.swapStartTime c.contractTxid
  | _ => True

structure ConnClaimed (clock : Nat) (sh : Shared P) (conn : Conn P) : Prop where
  start : conn.state.swapStartTime < clock
  coins : ∀ id, conn.state.swapId = some id → ∀ c ∈ conn.state.incomingSwapcoins,
    ClaimedFor sh id conn.state.swapStartTime c.contractTxid
  task : ∀ t, conn.task = some t → TaskClaimed sh conn.state t

def Keeps (sh sh' : Shared P) : Prop :=
  ∀ id e', sh'.ongoingSwaps.lookup id = some e' → ∃ e, sh.ongoingSwaps.lookup id = some e ∧
    e'.swapStartTime = e.swapStartTime ∧ ∀ t ∈ e.claimedIncomingTxids, t ∈ e'.claimedIncomingTxids

theorem Keeps.of_eq (h : sh'.ongoingSwaps = sh.ongoingSwaps) : Keeps sh sh' :=
  fun _ e' he' => ⟨e', h ▸ he', rfl, fun _ ht => ht⟩

theorem Keeps.erase :
    Keeps sh { sh with ongoingSwaps := sh.ongoingSwaps.erase id } :=
  fun _ e' he' => ⟨e', lookup_of_lookup_erase he', rfl, fun _ ht => ht⟩

theorem Keeps.insert {sh : Shared P} {id : String} {stored e : SwapState P}
    (hstored : sh.ongoingSwaps.lookup id = some stored)
    (hstart : e.swapStartTime = stored.swapStartTime)
    (hclaimed : ∀ t ∈ stored.claimedIncomingTxids, t ∈ e.claimedIncomingTxids) :
    Keeps sh { sh with ongoingSwaps := sh.ongoingSwaps.insert id e } := by
  intro id' e' he'
  rcases lookup_insert_cases he' with ⟨rfl, rfl⟩ | ⟨-, he'⟩
  · exact ⟨stored, hstored, hstart, hclaimed⟩
  · exact ⟨e', he', rfl, fun _ ht => ht⟩

theorem ClaimedFor.keep {txid} (hk : Keeps sh sh') (h : ClaimedFor sh id start txid) :
    ClaimedFor sh' id start txid := by
  intro e' he' hstart
  obtain ⟨e, he, hsame, hsub⟩ := hk id e' he'
  exact hsub _ (h e he (hsame ▸ hstart))

theorem TaskClaimed.imp {state t} (himp : ∀ id txid, ClaimedFor sh id state.swapStartTime txid →
      ClaimedFor sh' id state.swapStartTime txid) (h : TaskClaimed sh state t) :
    TaskClaimed sh' state t := by
  cases t with
  | confirm pof coins => exact fun c hc => himp _ _ (h c hc)
  | verifyEntry pof coins todo hashvalue => exact fun c hc => himp _ _ (h c hc)
  | initializeSwap pof coins hashvalue => exact fun c hc => himp _ _ (h c hc)
  | storeFunded pof coins outgoing fundingTxes => exact fun c hc => himp _ _ (h c hc)
  | _ => exact h

theorem ConnClaimed.imp {clock'} (hclock : clock ≤ clock')
    (himp : ∀ id txid, ClaimedFor sh id conn.state.swapStartTime txid →
      ClaimedFor sh' id conn.state.swapStartTime txid) (h : ConnClaimed clock sh conn) :
    ConnClaimed clock' sh' conn where
  start := Nat.lt_of_lt_of_le h.start hclock
  coins id hid c hc := himp _ _ (h.coins id hid c hc)
  task t ht := (h.task t ht).imp himp

theorem ConnClaimed.keep (hk : Keeps sh sh') (h : ConnClaimed clock sh conn) :
    ConnClaimed clock sh' conn :=
  h.imp (Nat.le_refl _) fun _ _ hc => hc.keep hk

theorem SharedClaimed.keep (h : SharedClaimed clock sh) (hk : Keeps sh sh')
    (hholds : ∀ id txid, Holds sh' id txid → Holds sh id txid)
    (hentries : ∀ id e, sh'.ongoingSwaps.lookup id = some e → ∀ c ∈ e.incomingSwapcoins,
      c.contractTxid ∈ e.claimedIncomingTxids) (hbuilt : ∀ r ∈ sh'.built, r ∈ sh.built) :
    SharedClaimed clock sh' where
  unique a b txid ha hb := h.unique a b txid (hholds a txid ha) (hholds b txid hb)
  starts id e he := by
    obtain ⟨e₀, he₀, hstart, -⟩ := hk id e he
    exact hstart ▸ h.starts id e₀ he₀
  entries := hentries
  built r hr := ⟨(h.built r (hbuilt r hr)).1, (h.built r (hbuilt r hr)).2.keep hk⟩

theorem SharedClaimed.erase (h : SharedClaimed clock sh) :
    SharedClaimed clock { sh with ongoingSwaps := sh.ongoingSwaps.erase id } := by
  refine h.keep .erase (fun id txid hh => ?_) (fun id e he => ?_) fun r hr => hr
  · rcases hh with ⟨e, he, ht⟩ | hh
    · exact .inl ⟨e, lookup_of_lookup_erase he, ht⟩
    · exact .inr hh
  · exact h.entries id e (lookup_of_lookup_erase he)

theorem SharedClaimed.insert {clock : Nat} {sh : Shared P} {id : String} {stored e : SwapState P}
    (h : SharedClaimed clock sh) (hstored : sh.ongoingSwaps.lookup id = some stored)
    (hstart : e.swapStartTime = stored.swapStartTime)
    (hclaimed : e.claimedIncomingTxids = stored.claimedIncomingTxids)
    (hcoins : ∀ c ∈ e.incomingSwapcoins, c.contractTxid ∈ e.claimedIncomingTxids) :
    SharedClaimed clock { sh with ongoingSwaps := sh.ongoingSwaps.insert id e } := by
  refine h.keep (.insert hstored hstart fun t ht => hclaimed ▸ ht) (fun id' txid hh => ?_)
    (forall_lookup_insert hcoins h.entries) fun r hr => hr
  · rcases hh with ⟨e', he', ht⟩ | hh
    · rcases lookup_insert_cases he' with ⟨rfl, rfl⟩ | ⟨-, he'⟩
      · exact .inl ⟨stored, hstored, hclaimed ▸ ht⟩
      · exact .inl ⟨e', he', ht⟩
    · exact .inr hh

theorem SharedClaimed.withWallet {mine : List (IncomingSwapCoin P)} {signed : List Transaction}
    (h : SharedClaimed clock sh)
    (hmine : ∀ c ∈ mine, ∃ id start, sh.liveAt id start ∧ c.swapId = some id ∧
      ClaimedFor sh id start c.contractTxid)
    (hw : ∀ txid c, w.incomingSwapcoins.lookup txid = some c →
      sh.wallet.incomingSwapcoins.lookup txid = some c ∨ c ∈ mine ∧ txid = c.contractTxid) :
    SharedClaimed clock { sh with
      fundingInProgress := marks, wallet := w, disk := d, signed := signed } := by
  refine h.keep (.of_eq rfl) (fun id txid hh => ?_) h.entries fun r hr => hr
  rcases hh with hh | ⟨c, hc, hid⟩
  · exact .inl hh
  · rcases hw txid c hc with hold | ⟨hmem, rfl⟩
    · exact .inr ⟨c, hold, hid⟩
    · obtain ⟨id', start, hlive, hown, hclaimed⟩ := hmine c hmem
      obtain ⟨e, he, hstart⟩ := liveAt_iff.mp hlive
      obtain rfl : id' = id := Option.some.inj (hown.symm.trans hid)
      exact .inl ⟨e, he, hclaimed e he hstart⟩

theorem SharedClaimed.changed (h : SharedClaimed clock sh) (hw : sh.wallet.Changed [] w) :
    SharedClaimed clock { sh with fundingInProgress := marks, wallet := w, disk := d } :=
  h.withWallet (forall_mem_nil _) hw.coins

/-! ## What was looked up -/

/-- The wallet has what the task has looked up for the task's own swap only. -/
def LookedUpIn (w : WalletStore P) (t : Task P) : Prop :=
  ∀ c ∈ t.checked, ∀ held, w.incomingSwapcoins.lookup c.contractTxid = some held →
    held.swapId = some t.swapId

def LookedUp (s : Server P) : Prop :=
  ∀ n conn, s.conns.lookup n = some conn → ∀ t ∈ conn.task, LookedUpIn s.shared.wallet t

section LookedUp

variable {maker : Maker P} {state : ConnectionState P} {answers : Answers P} {t : Task P}
  {next : Next P}

theorem Moves.coins {task : Task P} {result} (h : Moves maker sh state answers task result) :
    ∀ txid c, result.1.wallet.incomingSwapcoins.lookup txid = some c →
      sh.wallet.incomingSwapcoins.lookup txid = some c ∨
        c ∈ task.saves state ∧ txid = c.contractTxid := by
  cases h with
  | writes _ hwallet => exact hwallet.coins
  | binds _ hwallet => exact fun _ _ hc => .inl ((cachePrevoutToContract_ok hwallet).1 ▸ hc)
  | records _ hwallet =>
    exact fun txid c hc => (hwallet.coins txid c hc).imp_right fun hmem => by cases hmem.1
  | _ => exact fun _ _ hc => .inl hc

theorem LookedUpIn.changed {w w' : WalletStore P} (h : LookedUpIn w t)
    (hw : ∀ txid c, w'.incomingSwapcoins.lookup txid = some c →
      w.incomingSwapcoins.lookup txid = some c ∨
        ∀ checked ∈ t.checked, txid = checked.contractTxid → c.swapId = some t.swapId) :
    LookedUpIn w' t := by
  intro c hc held hheld
  rcases hw _ held hheld with hold | hown
  · exact h c hc held hold
  · exact hown c hc rfl

/-- **The lookup** vouches for the coin it lets through; no other section adds to what was
looked up. -/
theorem Moves.lookedUp {task : Task P} {result} (h : Moves maker sh state answers task result)
    (hlooked : LookedUpIn sh.wallet task) {state' t} (hnext : result.2 = .busy state' t) :
    t.swapId = task.swapId ∧ LookedUpIn sh.wallet t := by
  have hgoes : ∀ next, GoesOn maker sh state answers task next → next = .busy state' t →
      t.swapId = task.swapId ∧ LookedUpIn sh.wallet t := by
    rintro _ h rfl
    obtain ⟨-, hproceeds⟩ := h
    refine ⟨hproceeds.swapId_eq, ?_⟩
    cases hproceeds with
    | built | notLive | marked => exact hlooked
    | @notSeen pof _ _ _ hseen =>
      refine forall_mem_append.mpr ⟨hlooked, forall_mem_singleton.mpr fun held hheld => ?_⟩
      show held.swapId = some pof.id
      simpa [WalletStore.contractTxidSeen, hheld] using hseen
    | _ => exact forall_mem_nil _
  cases h with
  | writes h => exact hgoes _ h hnext
  | binds h => exact hgoes _ h hnext
  | refuses => cases hnext
  | stores h =>
    cases h <;> cases hnext
    exact ⟨rfl, forall_mem_nil _⟩
  | _ =>
    cases hnext
    exact ⟨rfl, forall_mem_nil _⟩

theorem savedInTime_of_guard {task : Task P} {c} (h : taskGuard s state answers task)
    (hc : c ∈ task.saves state) : taskGuard.savedInTime s state task := by
  cases task with
  | respSave resp => exact h
  | handoverSave id todo => exact h
  | _ => cases hc

theorem LookedUp.settle {task} (hs : LookedUp { s with shared := sh })
    (hnext : ∀ state t, next = .busy state t → LookedUpIn sh.wallet t) :
    LookedUp (s.settleConn n task sh next) := by
  cases next with
  | busy state t =>
    exact forall_lookup_insert (fun _ ht => by cases ht; exact hnext state t rfl) hs
  | idle state => exact forall_lookup_insert (fun _ ht => by cases ht) hs
  | closed error => exact fun m conn hm => hs m conn (lookup_of_lookup_erase hm)

theorem Dispatched.checked_eq_nil {swaps msg state'}
    (h : Dispatched maker swaps state msg (.busy state' t)) : t.checked = [] := by
  cases h with
  | starts _ hstarts => cases hstarts <;> rfl

/-- **Between the lookup and the claim** no other swap's coin comes into the wallet. -/
theorem lookedUp_step {s' a} (hsound : Sound maker s) (hs : LookedUp s) (hguard : replayGuard s a)
    (h : s.step maker a = some s') : LookedUp s' := by
  cases Server.stepped_of_step h with
  | connects => exact forall_lookup_insert (fun _ ht => by cases ht) hs
  | greets => exact forall_lookup_insert (fun _ ht => by cases ht) hs
  | leaves => exact fun m conn hm => hs m conn (lookup_of_lookup_erase hm)
  | details _ hadmits =>
    cases hadmits <;> exact LookedUp.settle hs fun _ _ heq => by cases heq
  | delivers _ hdispatched =>
    refine LookedUp.settle hs fun _ t heq => ?_
    subst heq
    rw [LookedUpIn, hdispatched.checked_eq_nil]
    exact forall_mem_nil _
  | @runs _ _ state task sh next hconn hmoves =>
    rw [replayGuard, hconn] at hguard
    have hown : ∀ c ∈ task.saves state, c.swapId = some task.swapId := fun c hc =>
      ((hsound.conns _ _ hconn).coins _ ((hsound.conns _ _ hconn).taskId _ rfl).1 c
        ((hsound.conns _ _ hconn).saves c hc)).1
    refine LookedUp.settle (fun m conn hm t ht => (hs m conn hm t ht).changed fun txid c hc => ?_)
      fun _ t heq => ?_
    · refine (hmoves.coins txid c hc).imp_right fun ⟨hmem, hid⟩ checked hchecked heq => ?_
      by_cases hswap : t.swapId = task.swapId
      · rw [hswap, hown c hmem]
      · have hfree := (savedInTime_of_guard hguard hmem).2 _ (mem_lookup_iff.mp hm) t ht hswap
        exact absurd (hid.symm.trans heq) (hfree checked hchecked c hmem)
    · obtain ⟨hswap, hlooked⟩ := hmoves.lookedUp (hs _ _ hconn task rfl) heq
      refine hlooked.changed fun txid c hc => ?_
      exact (hmoves.coins txid c hc).imp_right fun hmem _ _ _ => hswap ▸ hown c hmem.1
  | drains => exact hs
  | writes hwallet =>
    refine fun m conn hm t ht => (hs m conn hm t ht).changed fun txid c hc => ?_
    exact (hwallet.coins txid c hc).imp_right fun hmem => by cases hmem.1
  | restarts => exact fun m conn hm => by cases hm

end LookedUp

/-! ## The steps of the handlers -/

def NextClaimed (clock : Nat) (sh : Shared P) : Next P → Prop
  | .busy state task => ConnClaimed clock sh ⟨state, some task⟩
  | .idle state => ConnClaimed clock sh ⟨state, none⟩
  | .closed _ => True

structure StepClaimed (clock clock' : Nat) (sh : Shared P) (result : Shared P × Next P) :
    Prop where
  others : ∀ conn, ConnClaimed clock sh conn → ConnClaimed clock' result.1 conn
  shared : SharedClaimed clock' result.1
  next : NextClaimed clock' result.1 result.2

section Steps

variable {maker : Maker P} {clock : Nat} {sh : Shared P} {state : ConnectionState P}
  {answers : Answers P} {α : Type} {state' : ConnectionState P} {id : String}
  {resp : RespContractSigsForRecvrAndSender} {swaps : Swaps P} {e : SwapState P} {txid : Bytes}
  {result : Shared P × Next P} {msg : LegacyMessage P} {task task' : Option (Task P)}
  {swapId : String}

theorem NextClaimed.keep {next} (hk : Keeps sh sh') (h : NextClaimed clock sh next) :
    NextClaimed clock sh' next := by
  cases next with
  | busy state task => exact ConnClaimed.keep hk h
  | idle state => exact ConnClaimed.keep hk h
  | closed error => trivial

theorem StepClaimed.of_next {next} (hsh : SharedClaimed clock sh) (h : NextClaimed clock sh next) :
    StepClaimed clock clock sh (sh, next) :=
  ⟨fun _ hc => hc, hsh, h⟩

theorem StepClaimed.of_keeps {next} (hk : Keeps sh sh') (hsh : SharedClaimed clock sh')
    (h : NextClaimed clock sh next) :
    StepClaimed clock clock sh (sh', next) :=
  ⟨fun _ hc => hc.keep hk, hsh, h.keep hk⟩

section

variable (h : ConnClaimed clock sh ⟨state, task⟩)

include h

theorem ConnClaimed.next (hstart : state'.swapStartTime = state.swapStartTime)
    (hid : state'.swapId = state.swapId)
    (hcoins : state'.incomingSwapcoins = state.incomingSwapcoins)
    (ht : ∀ t, task' = some t → TaskClaimed sh state' t) :
    ConnClaimed clock sh ⟨state', task'⟩ where
  start := hstart ▸ h.start
  coins id hid' c hc := hstart ▸ h.coins id (hid ▸ hid') c (hcoins ▸ hc)
  task := ht

theorem ConnClaimed.goto {task'} (ht : TaskClaimed sh state task') :
    ConnClaimed clock sh ⟨state, some task'⟩ :=
  h.next rfl rfl rfl fun t heq => by cases heq; exact ht

theorem ConnClaimed.rest (hstart : state'.swapStartTime = state.swapStartTime)
    (hid : state'.swapId = state.swapId)
    (hcoins : state'.incomingSwapcoins = state.incomingSwapcoins) :
    ConnClaimed clock sh ⟨state', none⟩ :=
  h.next hstart hid hcoins fun t heq => by cases heq

theorem ConnClaimed.attach {f : IncomingSwapCoin P → α → IncomingSwapCoin P} {as}
    (hf : ∀ c a, SameCoin c (f c a)) (hstart : state'.swapStartTime = state.swapStartTime)
    (hid : state'.swapId = state.swapId)
    (hcoins : state'.incomingSwapcoins = OpenSwap.attach f as state.incomingSwapcoins)
    (ht : ∀ t, task' = some t → TaskClaimed sh state' t) :
    ConnClaimed clock sh ⟨state', task'⟩ where
  start := hstart ▸ h.start
  coins id hid' := by
    rw [hcoins, hstart]
    refine forall_mem_attach (fun c a hc => ?_) (h.coins id (hid ▸ hid'))
    rwa [IncomingSwapCoin.contractTxid, (hf c a).contractTx]
  task := ht

end

theorem stores_claimed {disk next} (hsh : SharedClaimed clock sh)
    (hswaps : storeConnectionState sh.ongoingSwaps swapId state = .ok swaps)
    (hphase : state.phase ≠ .completed) (hcoins : ∀ c ∈ state.incomingSwapcoins,
      ClaimedFor sh swapId state.swapStartTime c.contractTxid) (hnext : NextClaimed clock sh next) :
    StepClaimed clock clock sh ({ sh with ongoingSwaps := swaps, disk := disk }, next) := by
  obtain ⟨stored, rfl, ⟨hstored, hstart⟩ | ⟨-, hdone, -⟩⟩ := storeConnectionState_ok hswaps
  · have hsh' : SharedClaimed clock { sh with disk := disk } := hsh.changed (.refl _)
    refine .of_keeps (.insert hstored hstart.symm fun t ht => ht) ?_ hnext
    exact hsh'.insert hstored hstart.symm rfl fun c hc => hcoins c hc stored hstored hstart
  · exact absurd hdone hphase

theorem not_mem_of_liveSwapHolds {txids} (h : liveSwapHolds swaps swapId txids = false)
    (hne : id ≠ swapId) (he : swaps.lookup id = some e) (hclaimed : txid ∈ e.claimedIncomingTxids) :
    txid ∉ txids := by
  intro hmem
  have hentry : (⟨id, e⟩ : (_ : String) × SwapState P) ∈ swaps.entries := mem_lookup_iff.mp he
  unfold liveSwapHolds at h
  rw [any_eq_false] at h
  have := h _ hentry
  simp only [ne_eq, hne, not_false_eq_true, decide_true, Bool.true_and, Bool.or_eq_true,
    not_or, any_eq_true, not_exists, not_and, decide_eq_true_eq] at this
  exact this.1.1 txid hclaimed hmem

/-- **The claim** takes only txids no other swap holds. -/
theorem claims_claimed {pof coins} (hsh : SharedClaimed clock sh)
    (hconn : ConnClaimed clock sh ⟨state, some (.claim pof coins)⟩)
    (hlooked : LookedUpIn sh.wallet (.claim pof coins))
    (hswaps : claimIncomingContractTxids sh.ongoingSwaps pof.id
      (coins.map IncomingSwapCoin.contractTxid) = .ok swaps) :
    StepClaimed clock clock sh
      ({ sh with ongoingSwaps := swaps }, .busy state (.confirm pof coins)) := by
  obtain ⟨hlive, stored, hstored, hclaimed, rfl⟩ := claimIncomingContractTxids_ok hswaps
  set txids := coins.map IncomingSwapCoin.contractTxid
  have hsub : ∀ t ∈ stored.claimedIncomingTxids, t ∈ txids := by
    intro t ht
    rcases hclaimed with hnil | heq
    · rw [hnil] at ht
      cases ht
    · exact heq ▸ ht
  have hkeeps : Keeps sh { sh with
      ongoingSwaps := sh.ongoingSwaps.insert pof.id
        { stored with claimedIncomingTxids := txids } } :=
    .insert hstored rfl hsub
  -- who holds a claimed txid before or after is this swap
  have howner : ∀ id txid, txid ∈ txids → Holds sh id txid → id = pof.id := by
    rintro id txid htxid (⟨e, he, ht⟩ | ⟨c, hc, hid⟩)
    · by_contra hne
      exact not_mem_of_liveSwapHolds hlive hne he ht htxid
    · obtain ⟨coin, hcoin, rfl⟩ := mem_map.mp htxid
      exact Option.some.inj (hid.symm.trans (hlooked coin hcoin c hc))
  have hholds : ∀ id txid, Holds { sh with
      ongoingSwaps := sh.ongoingSwaps.insert pof.id
        { stored with claimedIncomingTxids := txids } } id txid →
      Holds sh id txid ∨ id = pof.id ∧ txid ∈ txids := by
    rintro id txid (⟨e, he, ht⟩ | hw)
    · rcases lookup_insert_cases he with ⟨rfl, rfl⟩ | ⟨-, he⟩
      · exact .inr ⟨rfl, ht⟩
      · exact .inl (.inl ⟨e, he, ht⟩)
    · exact .inl (.inr hw)
  refine ⟨fun _ hc => hc.keep hkeeps, {
    unique := fun a b txid ha hb => ?_
    starts := forall_lookup_insert (hsh.starts _ stored hstored) hsh.starts
    entries := forall_lookup_insert
      (fun c hc => hsub _ (hsh.entries _ stored hstored c hc)) hsh.entries
    built := fun r hr => ⟨(hsh.built r hr).1, (hsh.built r hr).2.keep hkeeps⟩ }, ?_⟩
  · rcases hholds a txid ha with ha | ⟨rfl, hta⟩
    · rcases hholds b txid hb with hb | ⟨rfl, htb⟩
      · exact hsh.unique a b txid ha hb
      · exact howner a txid htb ha
    · rcases hholds b txid hb with hb | ⟨rfl, htb⟩
      · exact (howner b txid hta hb).symm
      · rfl
  · refine (hconn.keep hkeeps).goto fun c hc e he _ => ?_
    rcases lookup_insert_cases he with ⟨-, rfl⟩ | ⟨hne, -⟩
    · exact mem_map_of_mem hc
    · exact absurd rfl hne

theorem GoesOn.claimed {task next} (h : GoesOn maker sh state answers task next)
    (hconn : ConnClaimed clock sh ⟨state, some task⟩) : NextClaimed clock sh next := by
  cases next with
  | busy state' task' =>
    obtain ⟨rfl, hproceeds⟩ := h
    have htask := hconn.task _ rfl
    refine hconn.goto ?_
    cases hproceeds <;> trivial
  | idle state' => exact h.elim
  | closed error => trivial

theorem ConnClaimed.saves {task} (hsound : ConnSound maker sh ⟨state, some task⟩)
    (hconn : ConnClaimed clock sh ⟨state, some task⟩)
    (hguard : taskGuard { s with shared := sh } state answers task) :
    ∀ c ∈ task.saves state, ∃ id start, sh.liveAt id start ∧ c.swapId = some id ∧
      ClaimedFor sh id start c.contractTxid := by
  obtain ⟨hid, -⟩ := hsound.taskId _ rfl
  have hown : ∀ c ∈ task.saves state, c.swapId = some task.swapId ∧
      ClaimedFor sh task.swapId state.swapStartTime c.contractTxid := fun c hc =>
    have hmem := hsound.saves c hc
    ⟨(hsound.coins _ hid c hmem).1, hconn.coins _ hid c hmem⟩
  cases task with
  | respSave resp => exact fun c hc => ⟨_, _, hguard.1, hown c hc⟩
  | handoverSave id todo => exact fun c hc => ⟨_, _, hguard.1, hown c hc⟩
  | _ => exact forall_mem_nil _

/-- **Every critical section** that meets the guard keeps the claims. -/
theorem Moves.claimed {task : Task P} (h : Moves maker sh state answers task result)
    (hsound : ConnSound maker sh ⟨state, some task⟩) (hsh : SharedClaimed clock sh)
    (hconn : ConnClaimed clock sh ⟨state, some task⟩) (hlooked : LookedUpIn sh.wallet task)
    (hguard : taskGuard { s with shared := sh } state answers task) :
    StepClaimed clock clock sh result := by
  obtain ⟨hid, -⟩ := hsound.taskId _ rfl
  have hcoins := hconn.coins _ hid
  have htask := hconn.task _ rfl
  cases h with
  | writes hnext hwallet hdisk =>
    exact .of_keeps (.of_eq rfl) (hsh.withWallet (hconn.saves hsound hguard) hwallet.coins)
      (hnext.claimed hconn)
  | binds hnext hwallet hdisk =>
    obtain ⟨hincoming, -⟩ := cachePrevoutToContract_ok hwallet
    refine .of_keeps (.of_eq rfl) (hsh.withWallet (forall_mem_nil _) fun txid c hc => ?_)
      (hnext.claimed hconn)
    exact .inl (hincoming ▸ hc)
  | claims hswaps => exact claims_claimed hsh hconn hlooked hswaps
  | builds =>
    refine .of_keeps (.of_eq rfl) ⟨hsh.unique, hsh.starts, hsh.entries, fun r hr => ?_⟩
      (hconn.goto htask)
    rcases mem_append.mp hr with hr | hr
    · exact hsh.built r hr
    · obtain ⟨c, hc, rfl⟩ := mem_map.mp hr
      exact ⟨hconn.start, htask c hc⟩
  | stores hstores hswaps hdisk =>
    cases hstores with
    | signed => exact stores_claimed hsh hswaps htask hcoins (hconn.rest rfl rfl rfl)
    | @funded pof =>
      refine stores_claimed hsh hswaps (by intro h; cases h) htask {
        start := hconn.start
        coins := fun id hid' c hc => ?_
        task := fun t ht => by cases ht }
      obtain rfl : pof.id = id := Option.some.inj (hid.symm.trans hid')
      exact htask c hc
    | answered => exact stores_claimed hsh hswaps htask hcoins (hconn.goto trivial)
    | finished =>
      exact stores_claimed hsh hswaps (by intro h; cases h) hcoins (hconn.rest rfl rfl rfl)
    | putBack hfailed => exact absurd hguard hfailed
  | refuses => exact .of_keeps .erase hsh.erase trivial
  | removes => exact .of_keeps .erase hsh.erase (hconn.goto trivial)
  | attaches =>
    refine .of_next hsh (hconn.attach sameCoin_withContractSig rfl rfl rfl fun t ht => ?_)
    cases ht
    trivial
  | records hstored hwallet hdisk =>
    have hentry := hsh.entries _ _ hstored
    refine .of_keeps (.insert hstored rfl fun t ht => ht)
      ((hsh.changed hwallet).insert hstored rfl rfl hentry)
      (hconn.next rfl rfl rfl fun t ht => ?_)
    cases ht
    trivial
  | completes =>
    refine .of_next hsh (hconn.next rfl rfl rfl fun t ht => ?_)
    cases ht
    trivial

/-! ## Messages and admission -/

theorem restoreStateIfNeeded_claimed (hsh : SharedClaimed clock sh)
    (hconn : ConnClaimed clock sh ⟨state, none⟩)
    (h : restoreStateIfNeeded sh.ongoingSwaps state swapId = .ok state') :
    ConnClaimed clock sh ⟨state', none⟩ := by
  rcases restoreStateIfNeeded_ok h with ⟨rfl, -⟩ | hget
  · exact hconn
  · obtain ⟨e, he, rfl⟩ := Option.map_eq_some_iff.mp hget
    exact {
      start := hsh.starts swapId e he
      coins := fun id hid c hc e' he' _ => by
        cases hid
        obtain rfl : e = e' := Option.some.inj (he.symm.trans he')
        exact hsh.entries swapId e he c hc
      task := fun t ht => by cases ht }

theorem Starts.claimed {next} (h : Starts maker state msg next)
    (hconn : ConnClaimed clock sh ⟨state, none⟩) : NextClaimed clock sh next := by
  have hrunning : ∀ {phases : List SwapPhase}, SwapPhase.completed ∉ phases →
      state.expectPhase phases = .ok () → state.phase ≠ .completed := by
    intro phases hnot hphase hdone
    rw [ConnectionState.expectPhase, ensure_eq_ok, hdone] at hphase
    exact hnot hphase
  cases h with
  | closes => trivial
  | request hphase => exact hconn.goto (hrunning (by decide) hphase)
  | proof => exact hconn.goto trivial
  | signatures hphase => exact hconn.goto (hrunning (by decide) hphase)
  | handover =>
    refine hconn.attach sameCoin_withOtherPrivkey rfl rfl rfl fun t ht => ?_
    cases ht
    trivial

theorem Dispatched.claimed {next} (h : Dispatched maker sh.ongoingSwaps state msg next)
    (hsh : SharedClaimed clock sh) (hconn : ConnClaimed clock sh ⟨state, none⟩) :
    NextClaimed clock sh next := by
  cases h with
  | closes => trivial
  | starts hrestored hstarts =>
    exact hstarts.claimed (restoreStateIfNeeded_claimed hsh hconn hrestored)

theorem SharedClaimed.admission (id : String) (h : SharedClaimed clock sh)
    (hstart : e.swapStartTime = clock) (hclaimed : e.claimedIncomingTxids = [])
    (hcoins : e.incomingSwapcoins = []) :
    (∀ conn, ConnClaimed clock sh conn →
      ConnClaimed (clock + 1) { sh with ongoingSwaps := sh.ongoingSwaps.insert id e } conn) ∧
    SharedClaimed (clock + 1) { sh with ongoingSwaps := sh.ongoingSwaps.insert id e } := by
  have himp : ∀ id' start txid, start < clock → ClaimedFor sh id' start txid →
      ClaimedFor { sh with ongoingSwaps := sh.ongoingSwaps.insert id e } id' start txid := by
    intro id' start txid hlt hc e' he' hstart'
    rcases lookup_insert_cases he' with ⟨-, rfl⟩ | ⟨-, he'⟩
    · omega
    · exact hc e' he' hstart'
  have hholds : ∀ id' txid, Holds { sh with ongoingSwaps := sh.ongoingSwaps.insert id e } id' txid →
      Holds sh id' txid := by
    rintro id' txid (⟨e', he', ht⟩ | hw)
    · rcases lookup_insert_cases he' with ⟨-, rfl⟩ | ⟨-, he'⟩
      · rw [hclaimed] at ht
        cases ht
      · exact .inl ⟨e', he', ht⟩
    · exact .inr hw
  refine ⟨fun conn hconn => hconn.imp (Nat.le_succ _) fun _ _ => himp _ _ _ hconn.start, {
    unique := fun a b txid ha hb => h.unique a b txid (hholds a txid ha) (hholds b txid hb)
    starts := forall_lookup_insert (by omega) fun id' e' he' =>
      Nat.lt_succ_of_lt (h.starts id' e' he')
    entries := forall_lookup_insert (by simp [hcoins]) h.entries
    built := fun r hr => ⟨Nat.lt_succ_of_lt (h.built r hr).1,
      himp _ _ _ (h.built r hr).1 (h.built r hr).2⟩ }⟩

theorem SharedClaimed.later {clock'} (h : SharedClaimed clock sh) (hle : clock ≤ clock') :
    SharedClaimed clock' sh where
  unique := h.unique
  starts id e he := Nat.lt_of_lt_of_le (h.starts id e he) hle
  entries := h.entries
  built r hr := ⟨Nat.lt_of_lt_of_le (h.built r hr).1 hle, (h.built r hr).2⟩

theorem ConnClaimed.of_fresh (hstart : state.swapStartTime < clock)
    (hcoins : state.incomingSwapcoins = []) : ConnClaimed clock sh ⟨state, none⟩ where
  start := hstart
  coins _ _ c hc := by
    rw [hcoins] at hc
    cases hc
  task t ht := by cases ht

theorem Admits.claimed {d} (h : Admits s state d result) (hsh : SharedClaimed s.clock s.shared)
    (hsound : ConnSound maker s.shared ⟨state, none⟩)
    (hconn : ConnClaimed s.clock s.shared ⟨state, none⟩) :
    StepClaimed s.clock (s.clock + 1) s.shared result := by
  have hlater : ∀ conn, ConnClaimed s.clock s.shared conn →
      ConnClaimed (s.clock + 1) s.shared conn :=
    fun conn hc => hc.imp (Nat.le_succ _) fun _ _ h => h
  have hsh' := hsh.later (Nat.le_succ s.clock)
  have hnone : state.phase = .awaitingSwapDetails → state.incomingSwapcoins = [] :=
    fun hphase => hsound.early (by rw [hphase]; rfl)
  cases h with
  | closes => exact ⟨hlater, hsh', trivial⟩
  | refused hphase => exact ⟨hlater, hsh', hlater _ hconn⟩
  | notStored hphase hnow =>
    exact ⟨hlater, hsh', .of_fresh (Nat.lt_succ_of_le hnow.le) (hnone hphase)⟩
  | joins hphase he =>
    exact ⟨hlater, hsh', .of_fresh (hsh'.starts _ _ he) (hnone hphase)⟩
  | @opens env protocol offset plan hphase hnow =>
    obtain ⟨hothers, hshared⟩ := hsh.admission d.id (e := SwapState.default.write
      { state.withTerms env d protocol offset with fundingPlan := plan } plan) hnow rfl
      (hnone hphase)
    exact ⟨hothers, hshared, .of_fresh (Nat.lt_succ_of_le hnow.le) (hnone hphase)⟩

end Steps

/-! ## Runs -/

/-- No txid is held by two swaps, and live swaps have claimed their coins. -/
structure Claimed (s : Server P) : Prop where
  shared : SharedClaimed s.clock s.shared
  conns : ∀ n conn, s.conns.lookup n = some conn → ConnClaimed s.clock s.shared conn

variable {maker : Maker P}

theorem settleConn_claimed {next} (hs : Claimed s)
    (h : StepClaimed s.clock clock s.shared (sh, next)) :
    Claimed { s.settleConn n task sh next with clock := clock } := by
  obtain ⟨hothers, hshared, hnext⟩ := h
  have hmarks : ∀ marks, SharedClaimed clock { sh with fundingInProgress := marks } :=
    fun _ => hshared.changed (.refl _)
  have hkeeps : ∀ marks, Keeps sh { sh with fundingInProgress := marks } := fun _ => .of_eq rfl
  cases next with
  | busy state task' =>
    exact ⟨hshared, forall_lookup_insert hnext fun m conn hm =>
      hothers conn (hs.conns m conn hm)⟩
  | idle state =>
    exact ⟨hmarks _, forall_lookup_insert (ConnClaimed.keep (hkeeps _) hnext)
      fun m conn hm => (hothers conn (hs.conns m conn hm)).keep (hkeeps _)⟩
  | closed error =>
    exact ⟨hmarks _, fun m conn hm =>
      (hothers conn (hs.conns m conn (lookup_of_lookup_erase hm))).keep (hkeeps _)⟩

theorem settleConn_claimed_now {next} (hs : Claimed s)
    (h : StepClaimed s.clock s.clock s.shared (sh, next)) :
    Claimed (s.settleConn n task sh next) := by
  have hsettled : Claimed { s.settleConn n task sh next with clock := s.clock } :=
    settleConn_claimed hs h
  cases next <;> exact hsettled

theorem claimed_init : Claimed (Server.init : Server P) where
  shared := {
    unique := fun a b txid ha _ => by rcases ha with ⟨e, he, -⟩ | ⟨c, hc, -⟩ <;> contradiction
    starts := fun id e he => by cases he
    entries := fun id e he => by cases he
    built := fun r hr => by cases hr }
  conns n conn hn := by cases hn

theorem Claimed.withShared (hs : Claimed s) (hsh : SharedClaimed s.clock sh)
    (hk : Keeps s.shared sh) :
    Claimed { s with shared := sh } where
  shared := hsh
  conns m c hm := (hs.conns m c hm).keep hk

theorem Claimed.withConn (hs : Claimed s) (hle : s.clock ≤ clock)
    (hconn : ConnClaimed clock s.shared conn) :
    Claimed { s with conns := s.conns.insert n conn, clock := clock } where
  shared := hs.shared.later hle
  conns := forall_lookup_insert hconn fun m c hm =>
    (hs.conns m c hm).imp hle fun _ _ h => h

/-- **Every step that meets the guard keeps the invariant.** -/
theorem claimed_step {s' a} (hsound : Sound maker s) (hlooked : LookedUp s) (hs : Claimed s)
    (hguard : replayGuard s a) (h : s.step maker a = some s') : Claimed s' := by
  cases Server.stepped_of_step h with
  | connects => exact hs.withConn (Nat.le_succ _) (.of_fresh (Nat.lt_succ_self _) rfl)
  | greets hconn =>
    exact hs.withConn (Nat.le_refl _) ((hs.conns _ _ hconn).rest rfl rfl rfl)
  | leaves => exact ⟨hs.shared, fun m c hm => hs.conns m c (lookup_of_lookup_erase hm)⟩
  | details hconn hadmits =>
    exact settleConn_claimed hs
      (hadmits.claimed hs.shared (hsound.conns _ _ hconn) (hs.conns _ _ hconn))
  | delivers hconn hdispatched =>
    exact settleConn_claimed_now hs
      (.of_next hs.shared (hdispatched.claimed hs.shared (hs.conns _ _ hconn)))
  | runs hconn hmoves =>
    rw [replayGuard, hconn] at hguard
    exact settleConn_claimed_now hs
      (hmoves.claimed (hsound.conns _ _ hconn) hs.shared (hs.conns _ _ hconn)
        (hlooked _ _ hconn _ rfl) hguard)
  | drains => exact hs.withShared hs.shared.erase .erase
  | writes hwallet => exact hs.withShared (hs.shared.changed hwallet) (.of_eq rfl)
  | restarts =>
    -- the wallet alone holds a txid for one swap at most
    exact {
      shared := {
        unique := fun a b txid ha hb => by
          rcases ha with ⟨e, he, -⟩ | ⟨c, hc, ha⟩
          · cases he
          · rcases hb with ⟨e, he, -⟩ | ⟨c', hc', hb⟩
            · cases he
            · obtain rfl : c = c' := Option.some.inj (hc.symm.trans hc')
              exact Option.some.inj (ha.symm.trans hb)
        starts := fun id e he => by cases he
        entries := fun id e he => by cases he
        built := fun r hr => by cases hr }
      conns := fun n conn hn => by cases hn }

theorem claimed_of_reachable (h : Reachable (Server.step maker) replayGuard Server.init s) :
    Claimed s := by
  have hall : Sound maker s ∧ LookedUp s ∧ Claimed s :=
    h.invariant (I := fun s => Sound maker s ∧ LookedUp s ∧ Claimed s)
      ⟨sound_init, (fun _ _ hn => by cases hn), claimed_init⟩
      fun _ _ _ hs hguard hstep => ⟨sound_step hs.1 hstep, lookedUp_step hs.1 hs.2.1 hguard hstep,
        claimed_step hs.1 hs.2.1 hs.2.2 hguard hstep⟩
  exact hall.2.2

end OpenSwap
