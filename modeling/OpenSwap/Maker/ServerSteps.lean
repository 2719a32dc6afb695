import OpenSwap.Base.Run
import OpenSwap.Maker.Server

/-!
# What a step of the maker's server can do

A handler has some twenty critical sections, most of which can fail.  Seen from the
shared state their outcomes are of nine kinds.

* `WalletStore.Changed` is what a handler may do to the coins of the wallet.
* `Moves` lists the outcomes of a critical section, `Dispatched` and `Admits` those of a
  message; `advance_moves`, `dispatch_dispatched` and `handleDetails_admits` show that
  there are no others.
* `Server.Stepped` lists the steps of the machine.
-/

namespace OpenSwap

open Btc Checked

variable {P : Prims}

/-! ## The wallet -/

/-- The wallet keeps its bindings; incoming coins may be gone, or have come from `mine`. -/
structure WalletStore.Changed (mine : List (IncomingSwapCoin P)) (w w' : WalletStore P) :
    Prop where
  bindings : w'.prevoutToContractMap = w.prevoutToContractMap
  coins : ∀ txid c, w'.incomingSwapcoins.lookup txid = some c →
    w.incomingSwapcoins.lookup txid = some c ∨ c ∈ mine ∧ txid = c.contractTxid

section Wallet

variable {w w' d : WalletStore P} {mine : List (IncomingSwapCoin P)} {b : Bool}

theorem WalletStore.Changed.refl (w : WalletStore P) : w.Changed mine w :=
  ⟨rfl, fun _ _ h => .inl h⟩

theorem WalletStore.Changed.save (h : w.Changed mine w') :
    (if b then w' else d) = d ∨ w.Changed mine (if b then w' else d) := by
  split
  · exact .inr h
  · exact .inl rfl

theorem disk_of_save {sh : Shared P} {outcome : SaveOutcome} :
    ({ sh with wallet := w }.save outcome : Shared P) =
      { sh with wallet := w, disk := if outcome.written then w else sh.disk } := by
  unfold Shared.save
  split <;> rfl

theorem changed_foldl_addOutgoingSwapcoin (coins : List (OutgoingSwapCoin P))
    (w : WalletStore P) : w.Changed mine (coins.foldl .addOutgoingSwapcoin w) := by
  induction coins generalizing w with
  | nil => exact .refl w
  | cons c rest ih => exact ⟨(ih _).bindings, (ih _).coins⟩

theorem changed_foldl_addIncomingSwapcoin (coins : List (IncomingSwapCoin P))
    (w : WalletStore P) : w.Changed coins (coins.foldl .addIncomingSwapcoin w) := by
  induction coins generalizing w with
  | nil => exact .refl w
  | cons coin rest ih =>
    refine ⟨(ih _).bindings, fun txid c hc => ?_⟩
    rcases (ih _).coins txid c hc with hold | ⟨hmem, htxid⟩
    · rcases AList.lookup_insert_cases hold with ⟨rfl, rfl⟩ | ⟨-, hold⟩
      · exact .inr ⟨List.mem_cons_self, rfl⟩
      · exact .inl hold
    · exact .inr ⟨List.mem_cons_of_mem _ hmem, htxid⟩

theorem changed_addFundingBatch (incoming : List (IncomingSwapCoin P))
    (outgoing : List (OutgoingSwapCoin P)) :
    w.Changed incoming (w.addFundingBatch incoming outgoing) := by
  have hin := changed_foldl_addIncomingSwapcoin incoming w
  have hout : (incoming.foldl .addIncomingSwapcoin w).Changed []
      (w.addFundingBatch incoming outgoing) :=
    changed_foldl_addOutgoingSwapcoin outgoing _
  refine ⟨hout.bindings.trans hin.bindings, fun txid c hc => ?_⟩
  rcases hout.coins txid c hc with hc | ⟨hmem, -⟩
  · exact hin.coins txid c hc
  · cases hmem

theorem changed_removeSwapCoins (id : String) (i o : Bool) :
    w.Changed mine (w.removeSwapCoins id i o) := by
  refine ⟨rfl, fun txid c hc => .inl ?_⟩
  cases i with
  | false => exact hc
  | true => exact AList.lookup_of_lookup_foldl_erase hc

theorem cachePrevoutToContract_ok {bindings} (h : w.cachePrevoutToContract bindings = .ok w') :
    w'.incomingSwapcoins = w.incomingSwapcoins ∧
      ∀ o spk, w.prevoutToContractMap.lookup o = some spk →
        w'.prevoutToContractMap.lookup o = some spk := by
  simp only [WalletStore.cachePrevoutToContract, bind_ok_iff, checkAll_eq_ok, ensure_eq_ok] at h
  obtain ⟨_, hagree, h⟩ := h
  cases h
  refine ⟨rfl, fun o spk hbound => AList.lookup_foldl_insert hbound fun b hb ho => ?_⟩
  subst ho
  exact (hagree b hb spk hbound).symm

end Wallet

/-! ## The live swaps -/

section Swaps

variable {swaps swaps' : Swaps P} {state state' : ConnectionState P} {id : String}

theorem storeConnectionState_ok (h : storeConnectionState swaps id state = .ok swaps') :
    ∃ stored, swaps' = swaps.insert id (SwapState.write stored state state.fundingPlan) ∧
      (swaps.lookup id = some stored ∧ stored.swapStartTime = state.swapStartTime ∨
        swaps.lookup id = none ∧ state.phase = .completed ∧ stored = .default) := by
  unfold storeConnectionState at h
  split at h
  · rename_i stored hstored
    simp only [bind_ok_iff, ensure_eq_ok] at h
    obtain ⟨_, hstart, h⟩ := h
    cases h
    exact ⟨stored, rfl, .inl ⟨hstored, hstart⟩⟩
  · rename_i hnone
    simp only [bind_ok_iff, ensure_eq_ok] at h
    obtain ⟨_, hphase, h⟩ := h
    cases h
    exact ⟨.default, rfl, .inr ⟨hnone, hphase, rfl⟩⟩

theorem claimIncomingContractTxids_ok {txids}
    (h : claimIncomingContractTxids swaps id txids = .ok swaps') :
    liveSwapHolds swaps id txids = false ∧ ∃ stored, swaps.lookup id = some stored ∧
      (stored.claimedIncomingTxids = [] ∨ stored.claimedIncomingTxids = txids) ∧
      swaps' = swaps.insert id { stored with claimedIncomingTxids := txids } := by
  simp only [claimIncomingContractTxids, bind_ok_iff, ensure_eq_ok, okOr_eq_ok] at h
  obtain ⟨_, hlive, stored, hstored, _, hclaimed, h⟩ := h
  cases h
  exact ⟨hlive, stored, hstored, hclaimed, rfl⟩

theorem storeAdmission_ok {planned} (h : storeAdmission swaps id state planned = .ok swaps') :
    (swaps' = swaps ∧ ∃ stored, swaps.lookup id = some stored ∧ stored.negotiated = state.terms) ∨
      swaps.lookup id = none ∧ ∃ plan, planned = some plan ∧
        swaps' = swaps.insert id (SwapState.default.write state plan) := by
  unfold storeAdmission at h
  split at h
  · rename_i stored hstored
    simp only [bind_ok_iff, ensure_eq_ok] at h
    obtain ⟨_, hterms, h⟩ := h
    cases h
    exact .inl ⟨rfl, stored, hstored, hterms⟩
  · cases h
  · rename_i plan hnone
    cases h
    exact .inr ⟨hnone, plan, rfl, rfl⟩

theorem restoreStateIfNeeded_ok (h : restoreStateIfNeeded swaps state id = .ok state') :
    state' = state ∧ (¬ (state.swapAmount = 0 ∨ state.outgoingSwapcoins.isEmpty) ∨
        swaps.lookup id = none) ∨ getConnectionState swaps id = some state' := by
  unfold restoreStateIfNeeded at h
  split at h
  · split at h
    · rename_i hnone
      cases h
      exact .inl ⟨rfl, .inr (Option.map_eq_none_iff.mp hnone)⟩
    · rename_i stored hstored
      simp only [bind_ok_iff, ensure_eq_ok] at h
      obtain ⟨_, -, h⟩ := h
      cases h
      exact .inr hstored
  · rename_i hcoins
    cases h
    exact .inl ⟨rfl, .inl hcoins⟩

end Swaps

def SwapPhase.early : SwapPhase → Bool
  | .awaitingHello | .awaitingOfferRequest | .awaitingSwapDetails => true
  | _ => false

/-! ## Critical sections -/

def BuiltFrom (maker : Maker P) (state : ConnectionState P) (pof : ProofOfFunding P)
    (info : FundingTxInfo P) (coin : IncomingSwapCoin P) : Prop :=
  receiverCoin maker.tweakablePrivkey state.swapFeerate pof.id info = .ok coin

/-- What comes before the rest of a list has a property. -/
def Passed {α : Type} (Q : List α → Prop) (xs todo : List α) : Prop :=
  ∃ done, xs = done ++ todo ∧ Q done

theorem Passed.all {α : Type} {Q : List α → Prop} {xs} (h : Passed Q xs []) : Q xs := by
  obtain ⟨done, rfl, hdone⟩ := h
  rwa [List.append_nil]

theorem Passed.next {α : Type} {Q Q' : List α → Prop} {xs x todo} (h : Passed Q xs (x :: todo))
    (hnext : ∀ done, Q done → Q' (done ++ [x])) : Passed Q' xs todo := by
  obtain ⟨done, hxs, hdone⟩ := h
  exact ⟨done ++ [x], by rw [hxs, List.append_assoc, List.singleton_append], hnext done hdone⟩

/-- The coins are those of the entries of the proof before the rest. -/
def BuiltUpTo (maker : Maker P) (state : ConnectionState P) (pof : ProofOfFunding P)
    (todo : List (FundingTxInfo P)) (coins : List (IncomingSwapCoin P)) : Prop :=
  Passed (List.Forall₂ (BuiltFrom maker state pof) · coins) pof.confirmedFundingTxes todo

theorem BuiltUpTo.all {maker : Maker P} {state pof coins}
    (h : BuiltUpTo maker state pof [] coins) :
    List.Forall₂ (BuiltFrom maker state pof) pof.confirmedFundingTxes coins :=
  Passed.all (Q := (List.Forall₂ (BuiltFrom maker state pof) · coins)) h

theorem BuiltUpTo.next {maker : Maker P} {state pof info todo coins coin}
    (h : BuiltUpTo maker state pof (info :: todo) coins)
    (hcoin : BuiltFrom maker state pof info coin) :
    BuiltUpTo maker state pof todo (coins ++ [coin]) :=
  Passed.next h fun _ hdone => List.rel_append hdone (.cons hcoin .nil)

def Task.saves (state : ConnectionState P) : Task P → List (IncomingSwapCoin P)
  | .respSave _ => state.incomingSwapcoins
  | .handoverSave _ todo => todo
  | _ => []

section Outcomes

variable (maker : Maker P) (sh : Shared P) (state : ConnectionState P) (answers : Answers P)

/-- The critical section after one that leaves the connection's state alone. -/
inductive Proceeds : Task P → Task P → Prop
  | signed {req} : Proceeds (.cacheContracts req) (.storeSigned req)
  | built {pof coins} : Proceeds (.seenLive pof [] coins) (.beginFunding pof coins)
  | notLive {pof info rest built coin} (hcoin : BuiltFrom maker state pof info coin) :
      Proceeds (.seenLive pof (info :: rest) built) (.seenWallet pof rest built coin)
  | notSeen {pof todo built coin}
      (hseen : sh.wallet.contractTxidSeen coin.contractTxid pof.id = false) :
      Proceeds (.seenWallet pof todo built coin) (.seenLive pof todo (built ++ [coin]))
  | marked {pof coins} : Proceeds (.beginFunding pof coins) (.claim pof coins)
  | confirmed {pof coins} (hcalls : answers.calls = .ok ())
      (hshape : checkFundingShape pof.refundLocktime.toNat pof.confirmedFundingTxes [] = .ok ()) :
      Proceeds (.confirm pof coins) (.verifyEntry pof coins pof.confirmedFundingTxes none)
  | entryVerified {pof coins info rest hashvalue this}
      (hentry : verifyFundingEntry (Prims.publicKey maker.tweakablePrivkey)
        (fun prevout => sh.wallet.prevoutToContractMap.lookup prevout) pof.refundLocktime.toNat
        answers.unspent hashvalue info = .ok this) :
      Proceeds (.verifyEntry pof coins (info :: rest) hashvalue)
        (.verifyEntry pof coins rest (some this))
  | verified {pof coins hashvalue} :
      Proceeds (.verifyEntry pof coins [] (some hashvalue)) (.initializeSwap pof coins hashvalue)
  | respMarked {resp} : Proceeds (.respBegin resp) (.respStore resp)
  | batchSaved {resp todo} : Proceeds (.respSave resp) (.respSend resp todo)
  | sent {resp} : Proceeds (.respSend resp []) (.respFinish resp)
  | coinSaved {id coin rest} :
      Proceeds (.handoverSave id (coin :: rest)) (.handoverSave id rest)

def GoesOn (task : Task P) : Next P → Prop
  | .busy state' task' => state' = state ∧ Proceeds maker sh state answers task task'
  | .idle _ => False
  | .closed _ => True

/-- A store of the connection's state: which state, and what comes next. -/
inductive Stores : Task P → ConnectionState P → Next P → Prop
  | signed {req} : Stores (.storeSigned req) state (.idle state)
  | funded {pof coins outgoing fundingTxes} :
      Stores (.storeFunded pof coins outgoing fundingTxes)
        (state.withFunding coins outgoing fundingTxes)
        (.idle (state.withFunding coins outgoing fundingTxes))
  | answered {resp} : Stores (.respStore resp) state (.busy state (.respVerify resp))
  | finished {resp pending} :
      Stores (.respFinish resp)
        { state with pendingFundingTxes := pending, phase := .awaitingPrivateKeyHandover }
        (.idle { state with pendingFundingTxes := pending, phase := .awaitingPrivateKeyHandover })
  | putBack {id e}
      (hfailed : ¬ (finalizable sh state answers id ∧ answers.saved = .saved)) :
      Stores (.settle id) state (.closed e)

inductive Moves : Task P → Shared P × Next P → Prop
  | writes {task next marks wallet disk} (hnext : GoesOn maker sh state answers task next)
      (hwallet : sh.wallet.Changed (task.saves state) wallet)
      (hdisk : disk = sh.disk ∨ sh.wallet.Changed (task.saves state) disk)
      (hmarks : sh.fundingInProgress ⊆ marks) :
      Moves task ({ sh with fundingInProgress := marks, wallet := wallet, disk := disk }, next)
  | binds {req next wallet disk signed}
      (hnext : GoesOn maker sh state answers (.cacheContracts req) next)
      (hwallet : sh.wallet.cachePrevoutToContract (requestBindings req.txsInfo) = .ok wallet)
      (hdisk : disk = wallet ∧ signed = sh.signed ++ req.txsInfo.map (·.sendersContractTx) ∨
        (disk = sh.disk ∨ disk = wallet) ∧ signed = sh.signed) :
      Moves (.cacheContracts req)
        ({ sh with wallet := wallet, disk := disk, signed := signed }, next)
  | claims {pof coins swaps} (hswaps : claimIncomingContractTxids sh.ongoingSwaps pof.id
        (coins.map IncomingSwapCoin.contractTxid) = .ok swaps) :
      Moves (.claim pof coins)
        ({ sh with ongoingSwaps := swaps }, .busy state (.confirm pof coins))
  | builds {pof coins hashvalue outgoing fundingTxes} :
      Moves (.initializeSwap pof coins hashvalue)
        ({ sh with
            built := sh.built ++ coins.map (⟨pof.id, state.swapStartTime, ·⟩)
            fundingTxs := sh.fundingTxs ++ pof.confirmedFundingTxes.map (·.fundingTx) },
          .busy state (.storeFunded pof coins outgoing fundingTxes))
  | stores {task state' next swaps disk} (hstores : Stores sh state answers task state' next)
      (hswaps : storeConnectionState sh.ongoingSwaps task.swapId state' = .ok swaps)
      (hdisk : disk = sh.disk ∨ sh.wallet.Changed [] disk) :
      Moves task ({ sh with ongoingSwaps := swaps, disk := disk }, next)
  | refuses {resp error} : Moves (.respVerify resp)
      ({ sh with ongoingSwaps := sh.ongoingSwaps.erase resp.id }, .closed error)
  | removes {id} : Moves (.complete id)
      ({ sh with ongoingSwaps := sh.ongoingSwaps.erase id }, .busy state (.settle id))
  | attaches {resp outgoing} : Moves (.respVerify resp) (sh, .busy { state with
      incomingSwapcoins := attach .withContractSig resp.receiversSigs state.incomingSwapcoins
      outgoingSwapcoins := outgoing } (.respSave resp))
  | records {resp tx rest wallet disk stored outgoing txids txids'}
      (hstored : sh.ongoingSwaps.lookup resp.id = some stored)
      (hwallet : sh.wallet.Changed [] wallet)
      (hdisk : disk = sh.disk ∨ sh.wallet.Changed [] disk) :
      Moves (.respSend resp (tx :: rest))
        ({ sh with
            wallet := wallet
            disk := disk
            ongoingSwaps := sh.ongoingSwaps.insert resp.id
              { stored with fundingBroadcastTxids := txids } },
          .busy { state with outgoingSwapcoins := outgoing, fundingBroadcastTxids := txids' }
            (.respSend resp rest))
  | completes {id} : Moves (.handoverSave id [])
      (sh, .busy { state with phase := .completed } (.complete id))

end Outcomes

section Sections

variable {maker : Maker P} {sh : Shared P} {state : ConnectionState P} {answers : Answers P}
  {α : Type} {task task' : Task P} {x : Except MakerError α} {next : Next P} {id : String}

theorem goesOn_orClose {next : α → Next P}
    (h : ∀ a, x = .ok a → GoesOn maker sh state answers task (next a)) :
    GoesOn maker sh state answers task (orClose x next) := by
  cases x with
  | ok a => exact h a rfl
  | error e => trivial

theorem Moves.of_goesOn (h : GoesOn maker sh state answers task next) :
    Moves maker sh state answers task (sh, next) :=
  .writes h (.refl _) (.inl rfl) (List.Subset.refl _)

theorem moves_orCloseWith {next : α → Shared P × Next P}
    (h : ∀ a, x = .ok a → Moves maker sh state answers task (next a)) :
    Moves maker sh state answers task (orCloseWith sh x next) := by
  cases x with
  | ok a => exact h a rfl
  | error e => exact .of_goesOn trivial

theorem Proceeds.swapId_eq (h : Proceeds maker sh state answers task task') :
    task'.swapId = task.swapId := by
  cases h <;> rfl

theorem stepCacheContracts_moves {req : ReqContractSigsForSender P} :
    Moves maker sh state answers (.cacheContracts req)
      (stepCacheContracts maker sh state answers req) := by
  refine moves_orCloseWith fun wallet hwallet => ?_
  rw [mapError_ok_iff] at hwallet
  dsimp only
  rw [disk_of_save]
  split
  · rename_i hsaved
    rw [hsaved]
    exact .binds (goesOn_orClose fun _ _ => ⟨rfl, .signed⟩) hwallet (.inl ⟨rfl, rfl⟩)
  · refine .binds trivial hwallet (.inr ⟨?_, rfl⟩)
    split
    · exact .inr rfl
    · exact .inl rfl

theorem stepSeenLive_goesOn {pof built todo} :
    GoesOn maker sh state answers (.seenLive pof todo built)
      (stepSeenLive maker sh state pof built todo) := by
  cases todo with
  | nil => exact ⟨rfl, .built⟩
  | cons info rest =>
    refine goesOn_orClose fun coin hcoin => ⟨rfl, .notLive ?_⟩
    simp only [bind_ok_iff] at hcoin
    obtain ⟨_, hcoin, _, -, heq⟩ := hcoin
    cases heq
    exact hcoin

theorem stepStore_moves {state' disk} (hstores : Stores sh state answers task state' next)
    (hdisk : disk = sh.disk ∨ sh.wallet.Changed [] disk) :
    Moves maker sh state answers task
      (stepStore { sh with disk := disk } task.swapId state' next) := by
  unfold stepStore orCloseWith
  split
  · rename_i hswaps
    exact .stores hstores hswaps hdisk
  · refine .writes trivial (.refl _)
      (hdisk.imp_right fun h => ⟨h.bindings, fun txid c hc => ?_⟩) (List.Subset.refl _)
    rcases h.coins txid c hc with hc | ⟨hc, -⟩
    · exact .inl hc
    · cases hc

theorem stepRespSend_moves {resp : RespContractSigsForRecvrAndSender} {todo : List Transaction} :
    Moves maker sh state answers (.respSend resp todo)
      (stepRespSend sh state answers resp todo) := by
  cases todo with
  | nil => exact .of_goesOn ⟨rfl, .sent⟩
  | cons tx rest =>
    refine moves_orCloseWith fun _ _ => ?_
    dsimp only
    rw [disk_of_save]
    have hwallet : ∀ coins : List (OutgoingSwapCoin P),
        sh.wallet.Changed [] (coins.foldl .addOutgoingSwapcoin sh.wallet) :=
      fun coins => changed_foldl_addOutgoingSwapcoin coins _
    split
    · unfold orCloseWith
      split
      · rename_i hstored
        exact .records (okOr_eq_ok.mp hstored) (hwallet _) (hwallet _).save
      · exact .writes trivial (hwallet _) (hwallet _).save (List.Subset.refl _)
    · exact .writes trivial (hwallet _) (hwallet _).save (List.Subset.refl _)

theorem stepHandoverSave_moves {todo : List (IncomingSwapCoin P)} :
    Moves maker sh state answers (.handoverSave id todo)
      (stepHandoverSave sh state answers id todo) := by
  cases todo with
  | nil => exact .completes
  | cons coin rest =>
    have hwallet : sh.wallet.Changed (coin :: rest) (sh.wallet.addIncomingSwapcoin coin) := by
      refine ⟨rfl, fun txid c hc => ?_⟩
      rcases AList.lookup_insert_cases hc with ⟨rfl, rfl⟩ | ⟨-, hc⟩
      · exact .inr ⟨List.mem_cons_self, rfl⟩
      · exact .inl hc
    unfold stepHandoverSave
    dsimp only
    rw [disk_of_save]
    split
    · exact .writes ⟨rfl, .coinSaved⟩ hwallet hwallet.save (List.Subset.refl _)
    · exact .writes trivial hwallet hwallet.save (List.Subset.refl _)

theorem stepSettle_moves :
    Moves maker sh state answers (.settle id) (stepSettle sh state answers id) := by
  have hsettled : sh.wallet.Changed [] (sh.wallet.removeSwapCoins id false true) :=
    changed_removeSwapCoins id false true
  unfold stepSettle
  split
  · dsimp only
    split
    · exact .writes trivial hsettled (.inr hsettled) (List.Subset.refl _)
    · rename_i hsaved
      exact stepStore_moves (.putBack fun h => hsaved h.2) hsettled.save
  · rename_i hfinal
    exact stepStore_moves (.putBack fun h => hfinal h.1) (.inl rfl)

/-- **Every critical section** has one of these outcomes. -/
theorem advance_moves :
    Moves maker sh state answers task (advance maker sh state answers task) := by
  cases task with
  | cacheContracts req => exact stepCacheContracts_moves
  | storeSigned req => exact stepStore_moves .signed (.inl rfl)
  | seenLive pof todo built => exact .of_goesOn stepSeenLive_goesOn
  | seenWallet pof todo built coin =>
    exact .of_goesOn (goesOn_orClose fun _ hseen => ⟨rfl, .notSeen (ensure_eq_ok.mp hseen)⟩)
  | beginFunding pof coins =>
    exact moves_orCloseWith fun _ _ => .writes ⟨rfl, .marked⟩ (.refl _) (.inl rfl)
      (List.subset_cons_self _ _)
  | claim pof coins => exact moves_orCloseWith fun swaps hswaps => .claims hswaps
  | confirm pof coins =>
    refine .of_goesOn (goesOn_orClose fun _ hok => ?_)
    simp only [bind_ok_iff] at hok
    obtain ⟨_, -, _, hshape, hcalls⟩ := hok
    exact ⟨rfl, .confirmed hcalls hshape⟩
  | verifyEntry pof coins todo hashvalue =>
    cases todo with
    | nil =>
      refine .of_goesOn (goesOn_orClose fun _ hvalue => ?_)
      cases okOr_eq_ok.mp hvalue
      exact ⟨rfl, .verified⟩
    | cons info rest =>
      exact .of_goesOn (goesOn_orClose fun _ hentry => ⟨rfl, .entryVerified hentry⟩)
  | initializeSwap pof coins hashvalue => exact moves_orCloseWith fun _ _ => .builds
  | storeFunded pof coins outgoing fundingTxes => exact stepStore_moves .funded (.inl rfl)
  | respBegin resp =>
    exact moves_orCloseWith fun _ _ => .writes ⟨rfl, .respMarked⟩ (.refl _) (.inl rfl)
      (List.subset_cons_self _ _)
  | respStore resp => exact stepStore_moves .answered (.inl rfl)
  | respVerify resp =>
    change Moves _ _ _ _ _ (stepRespVerify sh state resp)
    unfold stepRespVerify
    split
    · exact .refuses
    · exact .attaches
  | respSave resp =>
    refine moves_orCloseWith fun _ _ => ?_
    have hbatch : sh.wallet.Changed state.incomingSwapcoins
        (sh.wallet.addFundingBatch state.incomingSwapcoins state.outgoingSwapcoins) :=
      changed_addFundingBatch _ _
    split
    · exact .writes ⟨rfl, .batchSaved⟩ hbatch (.inr hbatch) (List.Subset.refl _)
    · exact .writes trivial (.refl _) hbatch.save (List.Subset.refl _)
  | respSend resp todo => exact stepRespSend_moves
  | respFinish resp => exact stepStore_moves .finished (.inl rfl)
  | handoverSave id todo => exact stepHandoverSave_moves
  | complete id => exact .removes
  | settle id => exact stepSettle_moves

/-- The step leaves the bindings in memory and the signed contracts; on disk are the
bindings as they were or those of the memory. -/
structure SameBindings (sh sh' : Shared P) : Prop where
  wallet : sh'.wallet.prevoutToContractMap = sh.wallet.prevoutToContractMap
  disk : sh'.disk.prevoutToContractMap = sh.disk.prevoutToContractMap ∨
    sh'.disk.prevoutToContractMap = sh.wallet.prevoutToContractMap
  signed : sh'.signed = sh.signed

theorem SameBindings.refl (sh : Shared P) : SameBindings sh sh := ⟨rfl, .inl rfl, rfl⟩

theorem SameBindings.trans {sh sh' sh'' : Shared P} (h : SameBindings sh sh')
    (h' : SameBindings sh' sh'') : SameBindings sh sh'' where
  wallet := h'.wallet.trans h.wallet
  disk := by
    rcases h'.disk with hdisk | hdisk
    · rw [hdisk]
      exact h.disk
    · exact .inr (hdisk.trans h.wallet)
  signed := h'.signed.trans h.signed

theorem SameBindings.changed {sh : Shared P} {w d : WalletStore P}
    {mine : List (IncomingSwapCoin P)} {marks : List String} {swaps : Swaps P}
    (hw : sh.wallet.Changed mine w) (hd : d = sh.disk ∨ sh.wallet.Changed mine d) :
    SameBindings sh { sh with
      ongoingSwaps := swaps, fundingInProgress := marks, wallet := w, disk := d } :=
  ⟨hw.bindings, hd.imp (congrArg _) (·.bindings), rfl⟩

theorem Moves.sameBindings {result} (h : Moves maker sh state answers task result)
    (hne : ∀ req, task ≠ .cacheContracts req) : SameBindings sh result.1 := by
  cases h with
  | writes _ hwallet hdisk => exact .changed hwallet hdisk
  | @binds req => exact absurd rfl (hne req)
  | stores _ _ hdisk => exact .changed (.refl _) hdisk
  | records _ hwallet hdisk => exact .changed hwallet hdisk
  | _ => exact ⟨rfl, .inl rfl, rfl⟩

theorem Moves.marks {result} (h : Moves maker sh state answers task result) :
    sh.fundingInProgress ⊆ result.1.fundingInProgress := by
  cases h with
  | writes _ _ _ hmarks => exact hmarks
  | _ => exact List.Subset.refl _

end Sections

/-! ## Messages -/

inductive Starts (maker : Maker P) (state : ConnectionState P) : LegacyMessage P → Next P → Prop
  | closes {msg e} : Starts maker state msg (.closed e)
  | request {req}
      (hphase : state.expectPhase [.awaitingContractData, .awaitingSignaturesOrPreimage] = .ok ())
      (hid : state.checkSwapId req.id = .ok ())
      (hverified : verifyReqContractSigsForSender req.txsInfo
        (Prims.publicKey maker.tweakablePrivkey) req.hashvalue req.locktime.toNat = .ok ()) :
      Starts maker state (.reqContractSigsForSender req) (.busy state (.cacheContracts req))
  | proof {pof}
      (hphase : state.expectPhase [.awaitingContractData, .awaitingSignaturesOrPreimage] = .ok ())
      (hid : state.checkSwapId pof.id = .ok ()) (hterms : checkProofTerms state pof = .ok ()) :
      Starts maker state (.proofOfFunding pof)
        (.busy state (.seenLive pof pof.confirmedFundingTxes []))
  | signatures {resp} (hphase : state.expectPhase [.awaitingSignaturesOrPreimage] = .ok ())
      (hid : state.checkSwapId resp.id = .ok ()) :
      Starts maker state (.respContractSigsForRecvrAndSender resp) (.busy state (.respBegin resp))
  | handover {handover} (hphase : state.expectPhase [.awaitingPrivateKeyHandover] = .ok ())
      (hid : state.checkSwapId handover.id = .ok ()) :
      Starts maker state (.privateKeyHandover handover)
        (.busy { state with
          incomingSwapcoins := attach .withOtherPrivkey handover.privkeys state.incomingSwapcoins }
          (.handoverSave handover.id
            (attach .withOtherPrivkey handover.privkeys state.incomingSwapcoins)))

/-- A message is refused, or its handler starts on the state it finds. -/
inductive Dispatched (maker : Maker P) (swaps : Swaps P) (state : ConnectionState P)
    (msg : LegacyMessage P) : Next P → Prop
  | closes {e} : Dispatched maker swaps state msg (.closed e)
  | starts {restored next}
      (hrestored : restoreStateIfNeeded swaps state msg.swapId = .ok restored)
      (hstarts : Starts maker restored msg next) : Dispatched maker swaps state msg next

section Messages

variable {maker : Maker P} {state : ConnectionState P} {answers : Answers P} {α : Type}
  {msg : LegacyMessage P}

theorem starts_orClose {x} {next : α → Next P}
    (h : ∀ a, x = .ok a → Starts maker state msg (next a)) :
    Starts maker state msg (orClose x next) := by
  cases x with
  | ok a => exact h a rfl
  | error e => exact .closes

theorem startHandler_starts :
    Starts maker state msg (startHandler maker state answers msg) := by
  cases msg with
  | reqContractSigsForSender req =>
    refine starts_orClose fun _ h => ?_
    simp only [bind_ok_iff] at h
    obtain ⟨_, -, _, hphase, _, hid, _, -, hverified⟩ := h
    exact .request hphase hid hverified
  | proofOfFunding pof =>
    refine starts_orClose fun _ h => ?_
    simp only [bind_ok_iff] at h
    obtain ⟨_, -, hterms⟩ := h
    have hchecks := hterms
    simp only [checkProofTerms, bind_ok_iff] at hchecks
    obtain ⟨_, hphase, _, hid, -⟩ := hchecks
    exact .proof hphase hid hterms
  | respContractSigsForRecvrAndSender resp =>
    refine starts_orClose fun _ h => ?_
    simp only [bind_ok_iff] at h
    obtain ⟨_, hphase, _, hid, -⟩ := h
    exact .signatures hphase hid
  | privateKeyHandover handover =>
    refine starts_orClose fun _ h => ?_
    simp only [bind_ok_iff] at h
    obtain ⟨_, hphase, _, hid, -⟩ := h
    exact .handover hphase hid

/-- **A message** is dispatched in one of these ways. -/
theorem restoreFor_ok {swaps id protocol restored}
    (h : restoreFor swaps state id protocol = .ok restored) :
    restoreStateIfNeeded swaps state id = .ok restored := by
  simp only [restoreFor, bind_ok_iff] at h
  obtain ⟨_, -, _, hrestored, _, -, h⟩ := h
  cases h
  exact hrestored

theorem dispatch_dispatched {swaps} :
    Dispatched maker swaps state msg (dispatch maker swaps state msg answers) := by
  unfold dispatch orClose
  split
  · rename_i restored h
    exact .starts (restoreFor_ok h) startHandler_starts
  · exact .closes

end Messages

/-- What a store leaves: a refused connection is as it was or reset; an accepted one has
the terms of the details, under an entry of the same terms or a new one. -/
inductive Stored (swaps : Swaps P) (clock : Nat) (state : ConnectionState P) (d : SwapDetails)
    (env : AdmissionEnv P) (planned : Option (List SplitPlan)) :
    Option (Swaps P) → ConnectionState P → Prop
  | same : Stored swaps clock state d env planned none state
  | reset {protocol offset} : Stored swaps clock state d env planned none
      (state.withTerms { env with now := clock } d protocol offset).reset
  | live {protocol offset e} (entry : swaps.lookup d.id = some e)
      (terms : e.negotiated =
        (state.withTerms { env with now := clock } d protocol offset).terms) :
      Stored swaps clock state d env planned (some swaps)
        (state.withTerms { env with now := clock } d protocol offset)
  | fresh {protocol offset plan} (pinned : d.protocol = some protocol)
      (valid : validateSwapParameters env.maxSwapAmount env.currentHeight d = .ok offset)
      (missing : swaps.lookup d.id = none) (planning : planned = some plan) :
      Stored swaps clock state d env planned
        (some (swaps.insert d.id (SwapState.default.write
          (state.withTerms { env with now := clock } d protocol offset) plan)))
        (state.withTerms { env with now := clock } d protocol offset)

/-- **What the first step of `SwapDetails` does.** -/
theorem storeDetails_stored {clock d env planned stored}
    (h : storeDetails swaps clock state d env planned = .ok (stored, state')) :
    state.phase = .awaitingSwapDetails ∧ Stored swaps clock state d env planned stored state' := by
  simp only [storeDetails, bind_ok_iff] at h
  obtain ⟨screened, hscreen, h⟩ := h
  obtain ⟨hphase, hterms⟩ := screenDetails_ok hscreen
  refine ⟨hphase, ?_⟩
  split at h
  · cases h
    exact .same
  · obtain ⟨hprotocol, hvalid⟩ := hterms _ _ rfl
    split at h
    · cases h
      exact .reset
    · rename_i hstore
      cases h
      rcases storeAdmission_ok hstore with ⟨rfl, e, he, hnegotiated⟩ | ⟨hmissing, plan, rfl, rfl⟩
      · exact .live he hnegotiated
      · exact .fresh hprotocol hvalid hmissing rfl

/-- What `SwapDetails` lead to: the connection is closed or refused, joins the live swap,
or opens a new one. -/
inductive Admits (s : Server P) (state : ConnectionState P) (d : SwapDetails) :
    Shared P × Next P → Prop
  | closes {e} : Admits s state d (s.shared, .closed e)
  | refused (hphase : state.phase = .awaitingSwapDetails) :
      Admits s state d (s.shared, .idle state)
  | notStored {env protocol offset} (hphase : state.phase = .awaitingSwapDetails)
      (hnow : env.now = s.clock) :
      Admits s state d (s.shared, .idle (state.withTerms env d protocol offset).reset)
  | joins {env protocol offset e} (hphase : state.phase = .awaitingSwapDetails)
      (he : s.shared.ongoingSwaps.lookup d.id = some e) :
      Admits s state d (s.shared, .idle { state.withTerms env d protocol offset with
        fundingPlan := e.fundingPlan, swapStartTime := e.swapStartTime })
  | opens {env protocol offset plan} (hphase : state.phase = .awaitingSwapDetails)
      (hnow : env.now = s.clock) (hnone : s.shared.ongoingSwaps.lookup d.id = none) :
      Admits s state d
        ({ s.shared with ongoingSwaps := s.shared.ongoingSwaps.insert d.id (SwapState.default.write
            { state.withTerms env d protocol offset with fundingPlan := plan } plan) },
          .idle { state.withTerms env d protocol offset with fundingPlan := plan })

/-- **Details** are handled in one of these ways. -/
theorem handleDetails_admits {s : Server P} {state : ConnectionState P} {d : SwapDetails}
    {env : AdmissionEnv P} {planned : Option (List SplitPlan)} :
    Admits s state d (handleDetails s state d env planned) := by
  unfold handleDetails
  split
  · exact .closes
  · rename_i h
    obtain ⟨hphase, hstored⟩ := storeDetails_stored h
    cases hstored with
    | same => exact .refused hphase
    | reset => exact .notStored hphase rfl
  · rename_i h
    obtain ⟨hphase, hstored⟩ := storeDetails_stored h
    unfold orCloseWith
    split
    · rename_i hread
      simp only [readDetails, bind_ok_iff, okOr_eq_ok] at hread
      obtain ⟨_, hget, heq⟩ := hread
      cases heq
      cases hstored with
      | live he _ =>
        obtain ⟨e, he', rfl⟩ := Option.map_eq_some_iff.mp hget
        cases he.symm.trans he'
        exact .joins hphase he
      | @fresh protocol offset plan _ _ hnone _ =>
        obtain ⟨e, he, rfl⟩ := Option.map_eq_some_iff.mp hget
        cases (AList.lookup_insert _).symm.trans he
        exact @Admits.opens _ _ _ _ { env with now := s.clock } protocol offset plan hphase
          rfl hnone
    · exact .closes

/-! ## The machine -/

inductive Server.Stepped (maker : Maker P) (s : Server P) : Action P → Server P → Prop
  | connects {conn} : Stepped maker s (.connect conn) { s with
      conns := s.conns.insert conn ⟨.new .legacy s.clock, none⟩
      clock := s.clock + 1 }
  | greets {conn state phase} (hconn : s.conns.lookup conn = some ⟨state, none⟩)
      (hearly : state.phase.early) (hphase : phase.early) :
      Stepped maker s (.greet conn)
        { s with conns := s.conns.insert conn ⟨{ state with phase := phase }, none⟩ }
  | leaves {a conn} : Stepped maker s a { s with conns := s.conns.erase conn }
  | details {conn d env planned state sh next}
      (hconn : s.conns.lookup conn = some ⟨state, none⟩)
      (hadmits : Admits s state d (sh, next)) :
      Stepped maker s (.swapDetails conn d env planned)
        { s.settleConn conn none sh next with clock := s.clock + 1 }
  | delivers {conn msg answers state next} (hconn : s.conns.lookup conn = some ⟨state, none⟩)
      (hdispatched : Dispatched maker s.shared.ongoingSwaps state msg next) :
      Stepped maker s (.deliver conn msg answers) (s.settleConn conn none s.shared next)
  | runs {conn answers state task sh next}
      (hconn : s.conns.lookup conn = some ⟨state, some task⟩)
      (hmoves : Moves maker s.shared state answers task (sh, next)) :
      Stepped maker s (.run conn answers) (s.settleConn conn (some task) sh next)
  | drains {id} : Stepped maker s (.drain id) { s with
      shared := { s.shared with ongoingSwaps := s.shared.ongoingSwaps.erase id } }
  | writes {a wallet disk} (hwallet : s.shared.wallet.Changed [] wallet)
      (hdisk : disk = s.shared.disk ∨ s.shared.wallet.Changed [] disk) :
      Stepped maker s a { s with shared := { s.shared with wallet := wallet, disk := disk } }
  | restarts : Stepped maker s .restart { s with
      shared := { s.shared with
        ongoingSwaps := ∅, fundingInProgress := [], wallet := s.shared.disk, built := [] }
      conns := ∅ }

theorem Server.stepped_of_step {maker : Maker P} {s s' : Server P} {a : Action P}
    (h : s.step maker a = some s') : s.Stepped maker a s' := by
  cases a with
  | connect conn =>
    dsimp only [Server.step] at h
    split at h
    · cases h
      exact .connects
    · cases h
  | greet conn =>
    dsimp only [Server.step] at h
    split at h
    · rename_i hconn
      split at h
      · rename_i hphase
        cases h
        exact .greets hconn (by rw [hphase]; rfl) rfl
      · rename_i hphase
        cases h
        exact .greets hconn (by rw [hphase]; rfl) rfl
      · cases h
        exact .leaves
    · cases h
  | swapDetails conn d env planned =>
    dsimp only [Server.step] at h
    split at h
    · cases h
      exact .details ‹_› handleDetails_admits
    · cases h
  | deliver conn msg answers =>
    dsimp only [Server.step] at h
    split at h
    · cases h
      exact .delivers ‹_› dispatch_dispatched
    · cases h
  | run conn answers =>
    dsimp only [Server.step] at h
    split at h
    · cases h
      exact .runs ‹_› advance_moves
    · cases h
  | disconnect conn =>
    dsimp only [Server.step] at h
    split at h
    · cases h
      exact .leaves
    · cases h
  | drain swapId =>
    cases h
    exact .drains
  | finishSweep contractTxid outcome =>
    cases h
    rw [disk_of_save]
    have hwallet : s.shared.wallet.Changed [] { s.shared.wallet with
        incomingSwapcoins := s.shared.wallet.incomingSwapcoins.erase contractTxid } :=
      ⟨rfl, fun _ _ hc => .inl (AList.lookup_of_lookup_erase hc)⟩
    exact .writes hwallet hwallet.save
  | removeCoins swapId incoming outgoing outcome =>
    have hwallet : s.shared.wallet.Changed []
        (s.shared.wallet.removeSwapCoins swapId incoming outgoing) := changed_removeSwapCoins ..
    dsimp only [Server.step] at h
    split at h
    · cases h
      exact .writes hwallet (.inr hwallet)
    · cases h
      exact .writes (.refl _) hwallet.save
  | save outcome =>
    cases h
    unfold Shared.save
    split
    · exact .writes (.refl _) (.inr (.refl _))
    · exact .writes (.refl _) (.inl rfl)
  | restart =>
    cases h
    exact .restarts

end OpenSwap
