import OpenSwap.Maker.Counted
import OpenSwap.Maker.Progress
import OpenSwap.Maker.SenderContracts

/-!
# Counting contracts in whole runs

What a handler knows when it accepts a message is spread over its critical sections: the
terms are checked when the message arrives, the shape and the confirmations before and in
the wait, the contract scripts one entry at a time after it, against bindings that other
connections write.
-/

namespace OpenSwap

open Btc Checked Run List

variable {P : Prims}

/-! ## Signed contracts -/

def ReqContractSigsForSender.contractScripts (maker : Maker P) (req : ReqContractSigsForSender P) :
    List Bytes :=
  req.txsInfo.filterMap fun txinfo =>
    (calculatePubkeyFromNonce (Prims.publicKey maker.tweakablePrivkey)
      txinfo.hashlockNonce).toOption.map fun hashlockPubkey =>
        createContractRedeemscript hashlockPubkey txinfo.timelockPubkey req.hashvalue
          (req.locktime.toNat + refundLocktimeStep)

structure RequestKnown (w : World P) (maker : Maker P) (req : ReqContractSigsForSender P) :
    Prop where
  verified : VerifiedRequest maker req
  hashvalue : req.hashvalue.length = 20
  scripts : ∀ script ∈ req.contractScripts maker, script ∈ w.scripts

def World.Bound (w : World P) (bindings : AList fun _ : OutPoint => Bytes) : Prop :=
  ∀ prevout spk, bindings.lookup prevout = some spk →
    ∃ script ∈ w.scripts, spk = p2wsh P script ∧ ∃ locktime, IsContract P script locktime

section Bindings

variable {w : World P} {maker : Maker P} {req : ReqContractSigsForSender P} {wallet : WalletStore P}

theorem RequestKnown.bound (h : RequestKnown w maker req) {b}
    (hb : b ∈ requestBindings req.txsInfo) :
    ∃ script ∈ w.scripts, b.2 = p2wsh P script ∧ ∃ locktime, IsContract P script locktime := by
  obtain ⟨txinfo, hmem, hbinding⟩ := mem_filterMap.mp hb
  have hverified := h.verified
  simp only [VerifiedRequest, verifyReqContractSigsForSender, bind_ok_iff, okOr_eq_ok,
    checkAll_eq_ok] at hverified
  obtain ⟨_, -, takerLocktime, hlocktime, hall⟩ := hverified
  have hone := hall txinfo hmem
  simp only [verifySenderContract, isContractOutValid, bind_ok_iff, okOr_eq_ok, mapError_ok_iff,
    ensure_eq_ok] at hone
  obtain ⟨_, -, _, -, ⟨input, output⟩, hends, hashlockPubkey, hkey, _, -, hpays⟩ := hone
  rw [contractBinding, hends] at hbinding
  cases hbinding
  rw [checkedAdd16, Option.ite_none_right_eq_some, Option.some.injEq] at hlocktime
  obtain ⟨hlt, rfl⟩ := hlocktime
  refine ⟨_, h.scripts _ (mem_filterMap.mpr ⟨txinfo, hmem, ?_⟩), hpays, _,
    hashlockPubkey, txinfo.timelockPubkey, req.hashvalue, h.hashvalue, hlt, rfl⟩
  rw [hkey]
  rfl

theorem World.Bound.cache {wallet'} (hw : w.Bound wallet.prevoutToContractMap)
    (hreq : RequestKnown w maker req)
    (h : wallet.cachePrevoutToContract (requestBindings req.txsInfo) = .ok wallet') :
    w.Bound wallet'.prevoutToContractMap := by
  simp only [WalletStore.cachePrevoutToContract, bind_ok_iff] at h
  obtain ⟨_, -, h⟩ := h
  cases h
  intro prevout spk hlookup
  rcases AList.lookup_foldl_insert_cases hlookup with hmem | hlookup
  · exact hreq.bound hmem
  · exact hw prevout spk hlookup

theorem verifyFundingEntry_contract {tweakablePubkey : P.PublicKey} {refundLocktime : Nat}
    {unspent : Except MakerError Bool} {hashvalue : Option Bytes} {info : FundingTxInfo P}
    {thisHashvalue : Bytes} (hw : w.Bound wallet.prevoutToContractMap)
    (hscript : info.contractRedeemscript ∈ w.scripts)
    (h : verifyFundingEntry tweakablePubkey
      (fun prevout => wallet.prevoutToContractMap.lookup prevout) refundLocktime unspent hashvalue
      info = .ok thisHashvalue) :
    (∃ locktime, IsContract P info.contractRedeemscript locktime) ∧ thisHashvalue.length = 20 := by
  obtain ⟨-, -, -, index, -, hcached⟩ := verifyFundingEntry_ok h
  obtain ⟨script, hmem, hspk, hcontract⟩ := hw _ _ hcached
  obtain rfl := w.sha256 _ hscript _ hmem (sha256_eq_of_p2wsh_eq hspk)
  refine ⟨hcontract, ?_⟩
  simp only [verifyFundingEntry, bind_ok_iff, mapError_ok_iff] at h
  obtain ⟨_, -, _, -, _, -, _, -, _, -, _, -, _, -, _, -, _, -, _, hread, _, -, h⟩ := h
  cases h
  exact (readHashvalueFromContract_ok hread).2.2

end Bindings

/-! ## Handlers -/

/-- What a critical section that executes the plan may take for granted. -/
def FundingStep.Established (w : World P) (maker : Maker P) (state : ConnectionState P) :
    FundingStep P → Prop
  | .legacy pof coins hashvalue => ProofVerified w maker state pof coins hashvalue
  | .taproot data funding => ContractsConfirmed w state data funding.incoming

def SessionTask.Established (w : World P) (maker : Maker P) (state : ConnectionState P) :
    SessionTask P → Prop
  | .legacy (.cacheContracts req) => RequestKnown w maker req
  | .legacy (.seenLive pof todo built) =>
      ProofOffered w state pof ∧ BuiltUpTo maker state pof todo built
  | .legacy (.seenWallet pof todo built coin) =>
      ProofOffered w state pof ∧ BuiltUpTo maker state pof todo (built ++ [coin])
  | .legacy (.beginFunding pof coins) | .legacy (.claim pof coins)
  | .legacy (.confirm pof coins) => ProofBuilt w maker state pof coins
  | .legacy (.verifyEntry pof coins todo hashvalue) => ProofConfirmed w maker state pof coins ∧
      (∀ previous ∈ hashvalue, previous.length = 20) ∧
      Passed (∀ info ∈ ·, ∃ locktime, IsContract P info.contractRedeemscript locktime)
        pof.confirmedFundingTxes todo
  | .legacy (.initializeSwap pof coins hashvalue) => ProofVerified w maker state pof coins hashvalue
  | .legacy (.storeFunded pof coins outgoing _) =>
      (∃ hashvalue, ProofVerified w maker state pof coins hashvalue) ∧
      ∀ out ∈ outgoing, ∃ script, out.contractRedeemscript = some script ∧
        IsContract P script pof.refundLocktime.toNat
  | .taprootBegin data _ | .taprootClaim data _ | .taprootWait data _ =>
      ContractsOffered w state data
  | .taprootFund data funding => ContractsConfirmed w state data funding.incoming
  | .recordClaim step _ | .buildPlan step => step.Established w maker state
  | .taprootStore data incoming _ => ContractsConfirmed w state data incoming
  | .releaseSpent _ after => after.Established w maker state
  | _ => True

abbrev Session.Established (w : World P) (maker : Maker P) : Session P → Prop :=
  Session.Tasked (SessionTask.Established w maker)

def SessionTask.awaits : SessionTask P → List Bytes
  | .legacy (.confirm pof _) => pof.confirmedFundingTxes.map fun info => P.txid info.fundingTx
  | .taprootWait data _ => data.contractTxs.map P.txid
  | _ => []

section Handlers

variable {w : World P} {maker : Maker P} {sh : Shared P} {c : Common P}
  {state : ConnectionState P} {answers : SessionAnswers P} {task task' : SessionTask P}
  {pof : ProofOfFunding P}

theorem legacyOutgoing_contract {answers hashvalue outgoing} (hhash : hashvalue.length = 20)
    (h : legacyOutgoing state answers pof hashvalue = .ok outgoing) :
    ∀ out ∈ outgoing, ∃ script, out.contractRedeemscript = some script ∧
      IsContract P script pof.refundLocktime.toNat := by
  intro out hout
  obtain ⟨⟨split, next⟩, -, hcoin⟩ := collectM_mem h hout
  simp only [outgoingLegacyCoin, bind_ok_iff] at hcoin
  obtain ⟨_, -, _, -, hcoin⟩ := hcoin
  cases hcoin
  exact ⟨_, rfl, _, _, hashvalue, hhash, pof.refundLocktime.toNat_lt, rfl⟩

theorem entryVerified_established {coins info rest hashvalue this}
    (hw : w.Bound sh.wallet.prevoutToContractMap) (h : SessionTask.Established w maker state
      (.legacy (.verifyEntry pof coins (info :: rest) hashvalue)))
    (hentry : verifyFundingEntry (Prims.publicKey maker.tweakablePrivkey)
      (fun prevout => sh.wallet.prevoutToContractMap.lookup prevout) pof.refundLocktime.toNat
      answers.unspent hashvalue info = .ok this) :
    SessionTask.Established w maker state (.legacy (.verifyEntry pof coins rest (some this))) := by
  obtain ⟨hconfirmed, -, hpassed⟩ := h
  have hmem : info ∈ pof.confirmedFundingTxes := by
    obtain ⟨done, hdone, -⟩ := hpassed
    rw [hdone]
    exact mem_append_right _ mem_cons_self
  obtain ⟨hcontract, hlen⟩ := verifyFundingEntry_contract hw (hconfirmed.scripts info hmem) hentry
  refine ⟨hconfirmed, ?_, hpassed.next fun _ hdone =>
    forall_mem_append.mpr ⟨hdone, forall_mem_singleton.mpr hcontract⟩⟩
  rintro previous hprevious
  cases hprevious
  exact hlen

theorem Proceeds.established {t t' : Task P}
    (hproceeds : Proceeds maker sh state answers.toAnswers t t')
    (hw : w.Bound sh.wallet.prevoutToContractMap)
    (hchain : answers.calls = .ok () → ∀ txid ∈ (SessionTask.legacy t).awaits,
      (w.chain.txBlockHeight P txid).isSome)
    (h : (SessionTask.legacy t).Established w maker state) :
    (SessionTask.legacy t').Established w maker state := by
  cases hproceeds with
  | built => exact ⟨h.1, h.2.all⟩
  | notLive hcoin => exact ⟨h.1, h.2.next hcoin⟩
  | notSeen => exact h
  | confirmed hcalls hshape =>
    exact ⟨⟨h, hshape, fun info hinfo => hchain hcalls _ (mem_map.mpr ⟨info, hinfo, rfl⟩)⟩,
      nofun, [], rfl, nofun⟩
  | verified =>
    obtain ⟨hconfirmed, hhash, hpassed⟩ := h
    exact ⟨hconfirmed, hpassed.all, hhash _ rfl⟩
  | entryVerified hentry => exact entryVerified_established hw h hentry
  | _ => first | exact h | trivial

theorem Leads.established (hleads : Leads maker sh state answers task task')
    (hw : w.Bound sh.wallet.prevoutToContractMap)
    (hchain : answers.calls = .ok () → ∀ txid ∈ task.awaits,
      (w.chain.txBlockHeight P txid).isSome)
    (h : task.Established w maker state) : task'.Established w maker state := by
  cases hleads with
  | legacy hproceeds => exact hproceeds.established hw hchain h
  | funded hout => exact ⟨⟨_, h⟩, legacyOutgoing_contract h.hashvalue hout⟩
  | taprootPrepared hcalls hprepared =>
    simp only [prepareTaproot, bind_ok_iff] at hprepared
    obtain ⟨incoming, hincoming, _, -, _, -, _, -, _, -, _, -, _, -, hprepared⟩ := hprepared
    cases hprepared
    exact ⟨h, fun tx htx => hchain hcalls _ (mem_map_of_mem htx), answers.taproot, _,
      collectM_eq_ok.mp hincoming⟩
  | _ => first | exact h | trivial

theorem Advances.established {swaps next} (hadv : Advances maker c state answers task swaps next)
    (hw : w.Bound c.shared.wallet.prevoutToContractMap)
    (hchain : answers.calls = .ok () → ∀ txid ∈ task.awaits,
      (w.chain.txBlockHeight P txid).isSome) (h : task.Established w maker state) :
    next.All (Session.Established w maker) := by
  cases hadv with
  | leads hleads => exact hleads.established hw hchain h
  | claims hleads hclaim => exact hleads.established hw hchain h
  | stores hstate hstore hnext => rcases hnext with rfl | ⟨_, rfl⟩ <;> trivial
  | sends hafter hstored htask =>
    cases hafter <;> rcases htask with rfl | ⟨tx, -, rfl⟩ <;> trivial
  | _ => trivial

/-- **Each critical section of a handler hands on what is established.** -/
theorem advance_established
    (hw : w.Bound c.shared.wallet.prevoutToContractMap)
    (hchain : answers.calls = .ok () → ∀ txid ∈ task.awaits,
      (w.chain.txBlockHeight P txid).isSome)
    (h : task.Established w maker state) :
    (task.advance maker c state answers).2.All (Session.Established w maker) :=
  task.advance_advances.established hw hchain h

end Handlers

/-! ## Messages and bindings -/

/-- What a message names is part of the world; a hash value has twenty bytes. -/
def World.Knows (w : World P) (maker : Maker P) : SwapMessage P → Prop
  | .legacy (.reqContractSigsForSender req) => req.hashvalue.length = 20 ∧
      ∀ script ∈ req.contractScripts maker, script ∈ w.scripts
  | .legacy (.proofOfFunding pof) => ∀ info ∈ pof.confirmedFundingTxes,
      info.fundingTx ∈ w.txs ∧ info.contractRedeemscript ∈ w.scripts
  | .taprootContractData data => ∀ tx ∈ data.contractTxs, tx ∈ w.txs
  | _ => True

section Messages

variable {w : World P} {maker : Maker P} {state : ConnectionState P}

theorem Starts.established {msg next} (h : Starts maker state msg next)
    (hmsg : w.Knows maker (.legacy msg)) :
    next.lift.All (Session.Established w maker) := by
  cases h with
  | request _ _ hverified => exact ⟨hverified, hmsg.1, hmsg.2⟩
  | proof _ _ hterms =>
    exact ⟨⟨hterms, fun info hinfo => (hmsg info hinfo).1, fun info hinfo => (hmsg info hinfo).2⟩,
      [], rfl, .nil⟩
  | _ => trivial

theorem Dispatches.established {swaps answers msg next}
    (h : Dispatches maker swaps state answers msg next) (hmsg : w.Knows maker msg) :
    next.All (Session.Established w maker) := by
  cases h with
  | legacy _ hstarts => exact hstarts.established hmsg
  | contractData _ _ _ hchecked => exact ⟨⟨_, _, hchecked⟩, hmsg⟩
  | _ => trivial

end Messages

/-! ## Runs -/

/-- The steps of a run in a world: messages name what it holds, a wait that succeeds was
for confirmed transactions, and no other part of the program touches the bindings. -/
def Sessions.inWorld (w : World P) (maker : Maker P) (s : Sessions P) : SessionAction P → Prop
  | .deliver _ msg _ => w.Knows maker msg
  | .run conn answers => ∀ σ ∈ s.conns.lookup conn, ∀ task ∈ σ.task,
      answers.calls = .ok () → ∀ txid ∈ task.awaits, (w.chain.txBlockHeight P txid).isSome
  | .wallet wallet disk =>
      wallet.prevoutToContractMap = s.common.shared.wallet.prevoutToContractMap ∧
      disk.prevoutToContractMap = s.common.shared.disk.prevoutToContractMap
  | _ => True

/-- The prevouts bound in memory and on disk are bound to contracts. -/
def Shared.Bound (w : World P) (sh : Shared P) : Prop :=
  w.Bound sh.wallet.prevoutToContractMap ∧ w.Bound sh.disk.prevoutToContractMap

theorem Shared.Bound.same {w : World P} {sh sh' : Shared P} (h : sh.Bound w)
    (hsame : SameBindings sh sh') : sh'.Bound w := by
  refine ⟨hsame.wallet ▸ h.1, ?_⟩
  rcases hsame.disk with hdisk | hdisk
  · exact hdisk ▸ h.2
  · exact hdisk ▸ h.1

section Runs

variable {w : World P} {maker : Maker P} {s s' : Sessions P} {state : ConnectionState P}
  {c : Common P}

theorem stepCacheContracts_bound {sh answers req} (h : sh.Bound w)
    (hreq : RequestKnown w maker req) :
    (stepCacheContracts maker sh state answers req).1.Bound w := by
  unfold stepCacheContracts orCloseWith
  split
  · rename_i wallet hcached
    have hwallet := h.1.cache hreq (mapError_ok_iff.mp hcached)
    have hdisk : w.Bound
        (if answers.saved.written then wallet else sh.disk).prevoutToContractMap := by
      split
      · exact hwallet
      · exact h.2
    dsimp only
    rw [disk_of_save]
    split
    · exact ⟨hwallet, hdisk⟩
    · exact ⟨hwallet, hdisk⟩
  · exact h

theorem advance_bound {answers : SessionAnswers P} {task : SessionTask P} (h : c.shared.Bound w)
    (htask : task.Established w maker state) :
    (task.advance maker c state answers).1.shared.Bound w := by
  by_cases hreq : ∃ req, task = .legacy (.cacheContracts req)
  · obtain ⟨req, rfl⟩ := hreq
    exact stepCacheContracts_bound h htask
  · exact h.same (SessionTask.advance_frame.bindings fun req heq => hreq ⟨req, heq⟩)

theorem settle_bound {conn mark next} (h : c.shared.Bound w) :
    (s.settle conn mark c next).common.shared.Bound w := by
  cases next <;> exact h

theorem foldl_removeEntry_sameBindings {keys : List String} :
    SameBindings c.shared (keys.foldl Common.removeEntry c).shared := by
  induction keys generalizing c with
  | nil => exact .refl _
  | cons key rest ih =>
    have hone : SameBindings c.shared (c.removeEntry key).shared := ⟨rfl, .inl rfl, rfl⟩
    exact hone.trans ih

theorem bound_step {a} (h : s.common.shared.Bound w) (htasks : s.All (Session.Established w maker))
    (hok : s.inWorld w maker a) (hstep : s.step maker a = some s') : s'.common.shared.Bound w := by
  cases stepped_of_step hstep with
  | details =>
    exact settle_bound (h.same (handleDetails_admits (s := ⟨s.common.shared, ∅, s.clock⟩)).same.1)
  | deliver => exact settle_bound h
  | run hconn => exact settle_bound (advance_bound h (htasks _ _ hconn))
  | drain => exact (h.same foldl_removeEntry_sameBindings).same foldl_removeEntry_sameBindings
  | wallet => exact ⟨hok.1 ▸ h.1, hok.2 ▸ h.2⟩
  | restart _ hdisk => exact ⟨hdisk.1 ▸ h.2, hdisk.2 ▸ h.2⟩
  | _ => exact h

theorem established_of_reachable
    (hreach : Reachable (Sessions.step maker) (Sessions.inWorld w maker) Sessions.init s) :
    s.All (Session.Established w maker) ∧ s.common.shared.Bound w := by
  refine hreach.invariant (I := fun s => s.All (Session.Established w maker) ∧
    s.common.shared.Bound w) ⟨nofun, nofun, nofun⟩ fun s a s' hs hok hstep => ⟨?_, ?_⟩
  · refine tasked_step hs.1 ?_ ?_ hstep
    · rintro conn msg answers state rfl
      exact dispatchMessage_dispatches.established hok
    · rintro conn answers state task rfl hconn htask
      exact advance_established hs.2.1 (hok _ hconn _ rfl) htask
  · exact bound_step hs.2 hs.1 hok hstep

end Runs

/-- The handler has accepted the contracts of its message: it holds the coins of both
sides and stores them next. -/
def SessionTask.accepted : SessionTask P →
    Option (ProtocolVersion × List (IncomingSwapCoin P) × List (OutgoingSwapCoin P))
  | .legacy (.storeFunded _ coins outgoing _) => some (.legacy, coins, outgoing)
  | .taprootStore _ incoming outgoing => some (.taproot, incoming, outgoing)
  | _ => none

/-- **The contracts the maker counts.**  Accepted incoming contracts are distinct outputs on
chain, as many as declared, none below the floor, together worth the negotiated amount; in Legacy
refundable ten blocks after the outgoing ones. -/
theorem accepted_contracts_counted {w : World P} {maker : Maker P} {s : Sessions P}
    (hreach : Reachable (Sessions.step maker) (Sessions.inWorld w maker) Sessions.init s)
    {conn : Nat} {state : ConnectionState P} {task : SessionTask P}
    (hconn : s.conns.lookup conn = some ⟨state, some task⟩) {protocol : ProtocolVersion}
    {incoming : List (IncomingSwapCoin P)} {outgoing : List (OutgoingSwapCoin P)}
    (haccepted : task.accepted = some (protocol, incoming, outgoing)) :
    (∃ outs, Counted w protocol state incoming outs) ∧
      (protocol = .legacy → ∃ outgoingLocktime,
        (∀ out ∈ outgoing, ∃ script, out.contractRedeemscript = some script ∧
          IsContract P script outgoingLocktime) ∧
        ∀ coin ∈ incoming, ∃ script locktime, coin.contractRedeemscript = some script ∧
          IsContract P script locktime ∧ outgoingLocktime + 10 ≤ locktime) := by
  have htask : task.Established w maker state := (established_of_reachable hreach).1 conn _ hconn
  unfold SessionTask.accepted at haccepted
  split at haccepted
  · cases haccepted
    obtain ⟨⟨hashvalue, hverified⟩, houtgoing⟩ := htask
    exact ⟨hverified.counted, fun _ => ⟨_, houtgoing, hverified.locktimes⟩⟩
  · cases haccepted
    exact ⟨ContractsConfirmed.counted htask, nofun⟩
  · cases haccepted

instance (w : World P) (maker : Maker P) (msg : SwapMessage P) : Decidable (w.Knows maker msg) := by
  unfold World.Knows
  split <;> infer_instance

instance (w : World P) (maker : Maker P) (s : Sessions P) :
    (a : SessionAction P) → Decidable (s.inWorld w maker a)
  | .deliver _ msg _ => inferInstanceAs (Decidable (w.Knows maker msg))
  | .run conn answers => inferInstanceAs (Decidable (∀ σ ∈ s.conns.lookup conn, ∀ task ∈ σ.task,
      answers.calls = .ok () → ∀ txid ∈ task.awaits, (w.chain.txBlockHeight P txid).isSome))
  | .wallet .. => inferInstanceAs (Decidable (_ ∧ _))
  | .connect _ | .greet _ | .swapDetails .. | .disconnect _ | .drain .. | .drainRelease _
  | .restart _ => inferInstanceAs (Decidable True)

namespace SampleSessions

def world : World prims where
  chain := ⟨[[SampleSwap.fundingTx, secondTx]], []⟩
  txs := [SampleSwap.fundingTx, secondTx]
  scripts := [SampleSwap.contract]
  blocks := by decide
  txid := by decide
  sha256 := by decide

/-- A swap of twice the amount is funded by two transactions, up to the store. -/
def twoFunded : List (SessionAction prims) :=
  [.connect 1, .greet 1, .greet 1,
    .swapDetails 1 { details with amount := 200000, incomingCount := 2 } admission
      (some [⟨[⟨List.replicate 32 0xbb, 1⟩], 198535⟩])] ++
  .deliver 1 (.legacy (.reqContractSigsForSender { request with
      txsInfo := request.txsInfo ++
        request.txsInfo.map ({ · with sendersContractTx := secondContractTx }) }))
    (answers .saved) :: runs 1 2 ++
  .deliver 1 (.legacy (.proofOfFunding { proof with
      confirmedFundingTxes := proof.confirmedFundingTxes ++
        proof.confirmedFundingTxes.map ({ · with fundingTx := secondTx }) }))
    (answers .saved) :: runs 1 14

end SampleSessions

open SampleSessions in
/-- A proof of funding over two outputs is accepted. -/
theorem accepted_contracts_counted_sample :
    ∃ s conn state task incoming outgoing, Reachable (Sessions.step maker)
        (Sessions.inWorld world maker) Sessions.init s ∧
      s.conns.lookup conn = some ⟨state, some task⟩ ∧
      task.accepted = some (.legacy, incoming, outgoing) ∧ incoming.length = 2 ∧
      outgoing.length = 1 ∧ state.swapAmount = 200000 ∧
      ∃ outs, Counted world .legacy state incoming outs := by
  have hrun : (exec (Sessions.step maker) (Sessions.inWorld world maker) Sessions.init
      twoFunded).any (fun s =>
        (s.conns.lookup 1).any fun σ => σ.state.swapAmount = 200000 && σ.task.any fun task =>
          task.accepted.any fun a => a.1 = .legacy && a.2.1.length = 2 && a.2.2.length = 1) =
      true := by decide +kernel
  obtain ⟨s, hreach, hs⟩ := exists_reachable_of_exec _ hrun
  simp only [Option.any_eq_true, Bool.and_eq_true, decide_eq_true_eq] at hs
  obtain ⟨⟨state, _⟩, hconn, hamount, task, rfl, ⟨_, incoming, outgoing⟩, haccepted,
    ⟨rfl, hincoming⟩, houtgoing⟩ := hs
  exact ⟨s, 1, state, task, incoming, outgoing, hreach, hconn, haccepted, hincoming, houtgoing,
    hamount, (accepted_contracts_counted hreach hconn haccepted).1⟩

end OpenSwap
