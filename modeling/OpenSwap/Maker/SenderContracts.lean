import OpenSwap.Maker.Replay

/-!
# The sender contracts the maker signs

Before it signs, the maker binds the prevout of every contract of a request to the
script the contract pays, and refuses to rebind one.  The comparison is made with the
map as it was before the request.

* `signing_step` and `signing_of_reachable` keep three facts: what is signed was
  verified, and, if no request binds one prevout twice, it is bound in memory and on
  disk.
-/

namespace OpenSwap

open Btc Checked Run List

variable {P : Prims}

/-! ## Requests -/

def VerifiedRequest (maker : Maker P) (req : ReqContractSigsForSender P) : Prop :=
  verifyReqContractSigsForSender req.txsInfo (Prims.publicKey maker.tweakablePrivkey) req.hashvalue
    req.locktime.toNat = .ok ()

def ConsistentRequest (req : ReqContractSigsForSender P) : Prop :=
  ∀ b ∈ requestBindings req.txsInfo, ∀ b' ∈ requestBindings req.txsInfo, b.1 = b'.1 → b.2 = b'.2

instance (req : ReqContractSigsForSender P) : Decidable (ConsistentRequest req) :=
  inferInstanceAs (Decidable (∀ b ∈ requestBindings req.txsInfo,
    ∀ b' ∈ requestBindings req.txsInfo, b.1 = b'.1 → b.2 = b'.2))

def requestGuard (G : ReqContractSigsForSender P → Prop) (_ : Server P) : Action P → Prop
  | .deliver _ (.reqContractSigsForSender req) _ => G req
  | _ => True

instance (G : ReqContractSigsForSender P → Prop) [DecidablePred G] (s : Server P) :
    (a : Action P) → Decidable (requestGuard G s a)
  | .deliver _ (.reqContractSigsForSender req) _ => inferInstanceAs (Decidable (G req))
  | .deliver _ (.proofOfFunding _) _ | .deliver _ (.respContractSigsForRecvrAndSender _) _
  | .deliver _ (.privateKeyHandover _) _ | .connect _ | .greet _ | .swapDetails .. | .run ..
  | .disconnect _ | .drain _ | .finishSweep .. | .removeCoins .. | .save _ | .restart =>
    inferInstanceAs (Decidable True)

def BoundTo (sh : Shared P) (b : OutPoint × Bytes) : Prop :=
  sh.wallet.prevoutToContractMap.lookup b.1 = some b.2 ∧
    sh.disk.prevoutToContractMap.lookup b.1 = some b.2

structure Signing (maker : Maker P) (G : ReqContractSigsForSender P → Prop) (s : Server P) :
    Prop where
  tasks : ∀ n conn req, s.conns.lookup n = some conn → conn.task = some (.cacheContracts req) →
    VerifiedRequest maker req ∧ G req
  signed : ∀ tx ∈ s.shared.signed, ∃ req, VerifiedRequest maker req ∧
    ∃ info ∈ req.txsInfo, tx = info.sendersContractTx
  bound : (∀ req, G req → ConsistentRequest req) → ∀ tx ∈ s.shared.signed,
    ∀ b, contractBinding tx = some b → BoundTo s.shared b

/-! ## Bindings -/

/-- Bindings that agree with one another are all in the map they were added to. -/
theorem lookup_foldl_insert_mem {κ ν : Type} [DecidableEq κ] {bindings : List (κ × ν)}
    {m : AList fun _ : κ => ν} {b : κ × ν} (hb : b ∈ bindings)
    (hagree : ∀ b' ∈ bindings, b'.1 = b.1 → b'.2 = b.2) :
    (bindings.foldl (fun m b => m.insert b.1 b.2) m).lookup b.1 = some b.2 := by
  induction bindings generalizing m with
  | nil => cases hb
  | cons first rest ih =>
    rw [foldl_cons]
    rcases mem_cons.mp hb with rfl | hb
    · exact AList.lookup_foldl_insert (AList.lookup_insert _) fun b' hb' =>
        hagree b' (mem_cons_of_mem _ hb')
    · exact ih hb fun b' hb' => hagree b' (mem_cons_of_mem _ hb')

/-- **Caching** keeps the bindings there are, and adds those of a consistent batch. -/
theorem cachePrevoutToContract_bound {w w' : WalletStore P} {bindings : List (OutPoint × Bytes)}
    (h : w.cachePrevoutToContract bindings = .ok w')
    (hagree : ∀ b ∈ bindings, ∀ b' ∈ bindings, b.1 = b'.1 → b.2 = b'.2) :
    ∀ b ∈ bindings, w'.prevoutToContractMap.lookup b.1 = some b.2 := by
  intro b hb
  simp only [WalletStore.cachePrevoutToContract, bind_ok_iff] at h
  obtain ⟨_, -, h⟩ := h
  cases h
  exact lookup_foldl_insert_mem hb fun b' hb' heq => hagree b' hb' b hb heq

theorem BoundTo.same {sh sh' : Shared P} {b : OutPoint × Bytes} (h : SameBindings sh sh')
    (hb : BoundTo sh b) : BoundTo sh' b := by
  refine ⟨h.wallet ▸ hb.1, ?_⟩
  rcases h.disk with hdisk | hdisk
  · exact hdisk ▸ hb.2
  · exact hdisk ▸ hb.1

def NotSigning : Next P → Prop
  | .busy _ (.cacheContracts _) => False
  | _ => True

section Steps

variable {maker : Maker P} {sh : Shared P} {state : ConnectionState P} {answers : Answers P}
  {task : Task P} {result : Shared P × Next P}

theorem GoesOn.notSigning {next} (h : GoesOn maker sh state answers task next) :
    NotSigning next := by
  cases next with
  | busy state' task' =>
    obtain ⟨-, hproceeds⟩ := h
    cases hproceeds <;> trivial
  | idle state' => trivial
  | closed error => trivial

theorem Moves.notSigning (h : Moves maker sh state answers task result) :
    NotSigning result.2 := by
  cases h with
  | writes hnext => exact hnext.notSigning
  | binds hnext => exact hnext.notSigning
  | stores hstores => cases hstores <;> trivial
  | _ => trivial

end Steps

/-! ## Runs -/

section Runs

variable {maker : Maker P} {G : ReqContractSigsForSender P → Prop} {s : Server P} {clock n : Nat}
  {state : ConnectionState P} {req : ReqContractSigsForSender P} {sh : Shared P} {tx : Transaction}
  {next : Next P}

theorem Signing.same {conns} (hs : Signing maker G s) (hsh : SameBindings s.shared sh)
    (hconns : ∀ n conn req, conns.lookup n = some conn → conn.task = some (.cacheContracts req) →
      VerifiedRequest maker req ∧ G req) : Signing maker G ⟨sh, conns, clock⟩ where
  tasks := hconns
  signed tx htx := hs.signed tx (hsh.signed ▸ htx)
  bound hG tx htx b hb := (hs.bound hG tx (hsh.signed ▸ htx) b hb).same hsh

theorem Signing.settle {task} (hs : Signing maker G { s with shared := sh })
    (hnext : ∀ state req, next = .busy state (.cacheContracts req) →
      VerifiedRequest maker req ∧ G req) : Signing maker G (s.settleConn n task sh next) := by
  cases next with
  | busy state task' =>
    refine hs.same (.refl sh) fun m conn req hm ht => ?_
    rcases AList.lookup_insert_cases hm with ⟨-, rfl⟩ | ⟨-, hm⟩
    · obtain rfl : task' = .cacheContracts req := Option.some.inj ht
      exact hnext state req rfl
    · exact hs.tasks m conn req hm ht
  | idle state =>
    refine hs.same ⟨rfl, .inl rfl, rfl⟩ fun m conn req hm ht => ?_
    rcases AList.lookup_insert_cases hm with ⟨-, rfl⟩ | ⟨-, hm⟩
    · cases ht
    · exact hs.tasks m conn req hm ht
  | closed error =>
    exact hs.same ⟨rfl, .inl rfl, rfl⟩ fun m conn req hm ht =>
      hs.tasks m conn req (AList.lookup_of_lookup_erase hm) ht

/-- **Signing** a verified request: its bindings are saved before anything is signed. -/
theorem Signing.binds {wallet disk signed} (hs : Signing maker G s)
    (hreq : VerifiedRequest maker req ∧ G req)
    (hwallet : s.shared.wallet.cachePrevoutToContract (requestBindings req.txsInfo) = .ok wallet)
    (hdisk : disk = wallet ∧ signed = s.shared.signed ++ req.txsInfo.map (·.sendersContractTx) ∨
      (disk = s.shared.disk ∨ disk = wallet) ∧ signed = s.shared.signed) :
    Signing maker G { s with
      shared := { s.shared with wallet := wallet, disk := disk, signed := signed } } := by
  obtain ⟨-, hkept⟩ := cachePrevoutToContract_ok hwallet
  rcases hdisk with ⟨rfl, rfl⟩ | ⟨hdisk, rfl⟩
  · refine ⟨hs.tasks, fun tx htx => ?_, fun hG tx htx b hb => ?_⟩
    · rcases mem_append.mp htx with hold | hnew
      · exact hs.signed tx hold
      · obtain ⟨info, hinfo, rfl⟩ := mem_map.mp hnew
        exact ⟨req, hreq.1, info, hinfo, rfl⟩
    · have hbound : disk.prevoutToContractMap.lookup b.1 = some b.2 := by
        rcases mem_append.mp htx with hold | hnew
        · exact hkept _ _ (hs.bound hG tx hold b hb).1
        · obtain ⟨info, hinfo, rfl⟩ := mem_map.mp hnew
          exact cachePrevoutToContract_bound hwallet (hG req hreq.2) b
            (mem_filterMap.mpr ⟨info, hinfo, hb⟩)
      exact ⟨hbound, hbound⟩
  · -- the bindings stay in memory and may have reached the disk, and nothing is signed
    refine ⟨hs.tasks, hs.signed, fun hG tx htx b hb => ?_⟩
    obtain ⟨hmem, hsaved⟩ := hs.bound hG tx htx b hb
    refine ⟨hkept _ _ hmem, ?_⟩
    rcases hdisk with rfl | rfl
    · exact hsaved
    · exact hkept _ _ hmem

theorem Dispatched.signing {swaps state' msg}
    (h : Dispatched maker swaps state msg (.busy state' (.cacheContracts req))) :
    msg = .reqContractSigsForSender req ∧ VerifiedRequest maker req := by
  cases h with
  | starts _ hstarts =>
    cases hstarts with
    | request _ _ hverified => exact ⟨rfl, hverified⟩

theorem Admits.same {d result} (h : Admits s state d result) :
    SameBindings s.shared result.1 ∧ NotSigning result.2 := by
  cases h <;> exact ⟨⟨rfl, .inl rfl, rfl⟩, trivial⟩

theorem NotSigning.elim {p : Prop} (h : NotSigning next)
    (heq : next = .busy state (.cacheContracts req)) : p := by
  rw [heq] at h
  exact False.elim h

theorem signing_init : Signing maker G (Server.init : Server P) where
  tasks n conn req hn := by cases hn
  signed tx htx := by cases htx
  bound _ tx htx := by cases htx

theorem Signing.withClock (hs : Signing maker G s) :
    Signing maker G { s with clock := clock } := hs.same (.refl _) hs.tasks

theorem Signing.withConn (hs : Signing maker G s) :
    Signing maker G { s with conns := s.conns.insert n ⟨state, none⟩, clock := clock } := by
  refine hs.same (.refl _) fun m conn req hm ht => ?_
  rcases AList.lookup_insert_cases hm with ⟨-, rfl⟩ | ⟨-, hm⟩
  · cases ht
  · exact hs.tasks m conn req hm ht

/-- **Every step keeps the invariant**, if the requests delivered meet the condition. -/
theorem signing_step {s' a} (hs : Signing maker G s) (hguard : requestGuard G s a)
    (h : s.step maker a = some s') : Signing maker G s' := by
  cases Server.stepped_of_step h with
  | connects => exact hs.withConn
  | greets => exact hs.withConn
  | leaves =>
    exact hs.same (.refl _) fun m conn req hm ht =>
      hs.tasks m conn req (AList.lookup_of_lookup_erase hm) ht
  | details _ hadmits =>
    obtain ⟨hsame, hnot⟩ := hadmits.same
    exact (Signing.settle (hs.same hsame hs.tasks) fun _ _ heq => hnot.elim heq).withClock
  | delivers _ hdispatched =>
    refine Signing.settle hs fun state' req heq => ?_
    subst heq
    obtain ⟨rfl, hverified⟩ := hdispatched.signing
    exact ⟨hverified, hguard⟩
  | @runs conn _ _ task _ _ hconn hmoves =>
    refine Signing.settle ?_ fun _ _ heq => hmoves.notSigning.elim heq
    by_cases hreq : ∃ req, task = .cacheContracts req
    · obtain ⟨req, rfl⟩ := hreq
      cases hmoves with
      | writes _ hwallet hdisk => exact hs.same (.changed hwallet hdisk) hs.tasks
      | binds _ hwallet hdisk => exact hs.binds (hs.tasks conn _ req hconn rfl) hwallet hdisk
      | stores hstores => cases hstores
    · exact hs.same (hmoves.sameBindings fun req heq => hreq ⟨req, heq⟩) hs.tasks
  | drains => exact hs.same ⟨rfl, .inl rfl, rfl⟩ hs.tasks
  | writes hwallet hdisk => exact hs.same (.changed hwallet hdisk) hs.tasks
  | restarts =>
    -- what was signed had been saved
    exact {
      tasks := fun n conn req hn => by cases hn
      signed := hs.signed
      bound := fun hG tx htx b hb =>
        ⟨(hs.bound hG tx htx b hb).2, (hs.bound hG tx htx b hb).2⟩ }

theorem signing_of_reachable (h : Reachable (Server.step maker) (requestGuard G) Server.init s) :
    Signing maker G s :=
  h.invariant signing_init fun _ _ _ hs hguard hstep => signing_step hs hguard hstep

theorem Signing.ends (hs : Signing maker G s) (htx : tx ∈ s.shared.signed) :
    ∃ input output, tx.input = [input] ∧ tx.output = [output] := by
  obtain ⟨req, hverified, info, hinfo, rfl⟩ := hs.signed tx htx
  obtain ⟨input, output, hin, hout, -⟩ := contractBinding_of_verified hverified hinfo
  exact ⟨input, output, hin, hout⟩

theorem Signing.lookup_eq {input output} (hs : Signing maker ConsistentRequest s)
    (htx : tx ∈ s.shared.signed) (hin : tx.input = [input]) (hout : tx.output = [output]) :
    s.shared.wallet.prevoutToContractMap.lookup input.previousOutput =
      some output.scriptPubkey := by
  have hbinding : contractBinding tx = some (input.previousOutput, output.scriptPubkey) := by
    rw [contractBinding, soleInputOutput_eq_some.mpr ⟨hin, hout⟩]
    rfl
  exact (hs.bound (fun _ h => h) tx htx _ hbinding).1

theorem Bound.lookup_eq {funding : List Transaction} {w : WalletStore P} {c : IncomingSwapCoin P}
    {outpoint : OutPoint} {value : Nat} {scriptPubkey : Bytes} (h : Bound funding w c)
    (htx : c.contractTx = mkContractTx outpoint value scriptPubkey) :
    w.prevoutToContractMap.lookup outpoint = some scriptPubkey := by
  obtain ⟨_, -, _, _, _, _, -, -, -, heq, hbound⟩ := h
  rw [htx] at heq
  simp only [mkContractTx, Transaction.mk.injEq, List.cons.injEq, TxIn.mk.injEq, TxOut.mk.injEq,
    and_true, true_and] at heq
  rw [heq.1, heq.2.2, hbound]

/-- **One prevout, one contract script.**  In every run whose requests bind no prevout to
two scripts, whatever else happens, every contract the maker has ever signed pays the
script its prevout is bound to; so contracts over one prevout pay one script. -/
theorem signed_contracts_bound {s : Server P}
    (hrun : Reachable (Server.step maker) (requestGuard ConsistentRequest) Server.init s) :
    (∀ tx ∈ s.shared.signed, ∃ input output, tx.input = [input] ∧ tx.output = [output] ∧
      s.shared.wallet.prevoutToContractMap.lookup input.previousOutput
        = some output.scriptPubkey) ∧
    ∀ tx ∈ s.shared.signed, ∀ tx' ∈ s.shared.signed, ∀ input input' output output',
      tx.input = [input] → tx.output = [output] → tx'.input = [input'] → tx'.output = [output'] →
      input.previousOutput = input'.previousOutput →
      output.scriptPubkey = output'.scriptPubkey := by
  have hs := signing_of_reachable hrun
  refine ⟨fun tx htx => ?_, fun tx htx tx' htx' input input' output output' hi ho hi' ho' heq => ?_⟩
  · obtain ⟨input, output, hin, hout⟩ := hs.ends htx
    exact ⟨input, output, hin, hout, hs.lookup_eq htx hin hout⟩
  · have h := hs.lookup_eq htx hi ho
    rw [heq, hs.lookup_eq htx' hi' ho'] at h
    exact (Option.some.inj h).symm

/-! ## Signed contracts and incoming coins -/

theorem reachable_requestGuard_true
    (h : Reachable (Server.step maker) (fun _ _ => True) Server.init s) :
    Reachable (Server.step maker) (requestGuard fun _ => True) Server.init s := by
  refine h.mono fun s a _ => ?_
  unfold requestGuard
  split <;> trivial

theorem stripWitness_eq_mkContractTx_iff {input output value scriptPubkey}
    (hin : tx.input = [input]) (hout : tx.output = [output]) :
    tx.stripWitness = (mkContractTx input.previousOutput value scriptPubkey).stripWitness ↔
      tx.version = 2 ∧ tx.lockTime = 0 ∧ input.sequence = 0 ∧ input.scriptSig = [] ∧
        output.value = value ∧ output.scriptPubkey = scriptPubkey := by
  obtain ⟨version, lockTime, inputs, outputs⟩ := tx
  obtain ⟨v, spk⟩ := output
  subst hin hout
  simp only [Transaction.stripWitness, mkContractTx, map_cons, map_nil,
    Transaction.mk.injEq, List.cons.injEq, TxIn.mk.injEq, TxOut.mk.injEq, and_true, true_and]
  tauto

/-- **When a signed contract is the one on the coin**: exactly when the fields the maker did not
look at when it signed are those it fills in when it rebuilds the contract.  The script is
among those it did look at: it is the coin's in every run whose requests bind no prevout to
two scripts. -/
theorem signed_txid_iff {s : Server P} {conn : Nat} {pof : ProofOfFunding P}
    {coins : List (IncomingSwapCoin P)} {info : FundingTxInfo P} {coin : IncomingSwapCoin P}
    {outpoint : OutPoint} {output : TxOut} {tx : Transaction}
    (hrun : Reachable (Server.step maker) (fun _ _ => True) Server.init s)
    (haccept : acceptedProof s conn = some (pof, coins))
    (hpair : (info, coin) ∈ pof.confirmedFundingTxes.zip coins)
    (hfunding : fundingOutput info = .ok (outpoint, output)) (hsigned : tx ∈ s.shared.signed)
    (hspends : ∃ input ∈ tx.input, input.previousOutput = outpoint)
    (hinjective : P.txid tx = P.txid coin.contractTx →
      tx.stripWitness = coin.contractTx.stripWitness) :
    ∃ fee input contractOutput, feeAtRateSats contractTxVsize coin.negotiatedFeerate = some fee ∧
      tx.input = [input] ∧ tx.output = [contractOutput] ∧
      (P.txid tx = coin.contractTxid ↔
        tx.version = 2 ∧ tx.lockTime = 0 ∧ input.sequence = 0 ∧ input.scriptSig = [] ∧
          contractOutput.value = output.value - fee ∧
          contractOutput.scriptPubkey = p2wsh P info.contractRedeemscript) ∧
      (Reachable (Server.step maker) (requestGuard ConsistentRequest) Server.init s →
        contractOutput.scriptPubkey = p2wsh P info.contractRedeemscript) := by
  obtain ⟨state, outgoing, fundingTxes, -, hlookup, -⟩ := acceptedProof_eq_some haccept
  obtain ⟨hbuilt, hvouched⟩ := ((sound_of_reachable hrun).conns _ _ hlookup).task _ rfl
  obtain ⟨_, _, _, outpoint', output', fee, -, hfunding', -, hfee, -, -, -, hrate, htx, -⟩ :=
    receiverCoin_ok (forall₂_zip hbuilt hpair)
  rw [hfunding] at hfunding'
  cases hfunding'
  obtain ⟨input, contractOutput, hin, hout⟩ :=
    (signing_of_reachable (reachable_requestGuard_true hrun)).ends hsigned
  obtain ⟨input', hmem, rfl⟩ := hspends
  obtain rfl : input' = input := by simpa [hin] using hmem
  refine ⟨fee, input', contractOutput, ?_, hin, hout, ?_, fun hconsistent => ?_⟩
  · rw [hrate, castU64_of_priced hfee, hfee]
  · rw [← stripWitness_eq_mkContractTx_iff hin hout, ← htx]
    refine ⟨hinjective, fun heq => ?_⟩
    rw [IncomingSwapCoin.contractTxid, ← P.txid_stripWitness tx, heq, P.txid_stripWitness]
  · -- the map binds the outpoint to the coin's script, and to the script of what was signed
    have hcoin := (hvouched coin (of_mem_zip hpair).2).2.lookup_eq htx
    have hbound := (signing_of_reachable hconsistent).lookup_eq hsigned hin hout
    exact Option.some.inj (hbound.symm.trans hcoin)

end Runs

/-! ## Requests of one swap -/

open SampleSwap in
/-- A run of one swap: its request binds one prevout to one script. -/
theorem signed_contracts_bound_oneSwap :
    ∃ s, Reachable (Server.step maker) (requestGuard ConsistentRequest) Server.init s ∧
      s.shared.signed = [contractTx 1] ∧
      ∀ tx ∈ s.shared.signed, ∃ input output, tx.input = [input] ∧ tx.output = [output] ∧
        s.shared.wallet.prevoutToContractMap.lookup input.previousOutput
          = some output.scriptPubkey := by
  have hrun : (exec (Server.step maker) (requestGuard ConsistentRequest) Server.init
      oneSwap).any (fun s => decide (s.shared.signed = [contractTx 1]))
      = true := by decide +kernel
  obtain ⟨s, hreach, hs⟩ := exists_reachable_of_exec _ hrun
  exact ⟨s, hreach, of_decide_eq_true hs, (signed_contracts_bound hreach).1⟩

namespace SampleSwap

def twoContracts : List (Action prims) :=
  negotiate 1 "00000000000000aa" 1 ++ sign 1 "00000000000000aa"
    [senderContract 8 (contractTx 1), senderContract 9 otherContractTx]

def replaceable : List (Action prims) :=
  negotiate 1 "00000000000000aa" 1 ++
    (sign 1 "00000000000000aa" [senderContract 8 replaceableTx] ++ prove 1 "00000000000000aa" 1)

end SampleSwap

open SampleSwap in
/-- **Two contracts of one request over one prevout are both signed**, and pay two scripts. -/
theorem one_prevout_two_scripts :
    ∃ s, Reachable (Server.step maker) (fun _ _ => True) Server.init s ∧
      ∃ tx ∈ s.shared.signed, ∃ tx' ∈ s.shared.signed, ∃ input input' output output',
        tx.input = [input] ∧ tx.output = [output] ∧ tx'.input = [input'] ∧ tx'.output = [output'] ∧
        input.previousOutput = input'.previousOutput ∧
        output.scriptPubkey ≠ output'.scriptPubkey := by
  have hrun : (exec (Server.step maker) (fun _ _ => True) Server.init
      twoContracts).any (fun s => decide (s.shared.signed =
        [contractTx 1, otherContractTx])) = true := by decide +kernel
  obtain ⟨s, hreach, hs⟩ := exists_reachable_of_exec _ hrun
  have hsigned := of_decide_eq_true hs
  refine ⟨s, hreach, contractTx 1, by simp [hsigned], otherContractTx,
    by simp [hsigned], _, _, _, _, rfl, rfl, rfl, rfl, rfl, by decide +kernel⟩

/-- The accepted coins whose contract is not a contract signed over its outpoint. -/
def signedOther (s : Server P) (conn : Nat) : Bool :=
  (acceptedProof s conn).any fun accepted => accepted.2.any fun coin =>
    s.shared.signed.any fun tx =>
      tx.input.head?.map (·.previousOutput) = coin.fundingOutpoint ∧ P.txid tx ≠ coin.contractTxid

/-- A contract that signals replacement is signed, and the proof over its prevout is
accepted with another contract on the coin. -/
theorem replaceable_contract_signed :
    ∃ s conn pof coins, Reachable (Server.step SampleSwap.maker) (fun _ _ => True) Server.init s ∧
      acceptedProof s conn = some (pof, coins) ∧
      ∃ coin ∈ coins, ∃ tx ∈ s.shared.signed,
        tx.input.head?.map (·.previousOutput) = coin.fundingOutpoint ∧
        SampleSwap.prims.txid tx ≠ coin.contractTxid := by
  have hrun : (exec (Server.step SampleSwap.maker) (fun _ _ => True) Server.init
      SampleSwap.replaceable).any (signedOther · 1) = true := by decide +kernel
  obtain ⟨s, hreach, hs⟩ := exists_reachable_of_exec _ hrun
  obtain ⟨⟨pof, coins⟩, haccept, hany⟩ := (Option.any_eq_true _ _).mp hs
  obtain ⟨coin, hcoin, hany⟩ := any_eq_true.mp hany
  obtain ⟨tx, htx, hother⟩ := any_eq_true.mp hany
  exact ⟨s, 1, pof, coins, hreach, haccept, coin, hcoin, tx, htx, of_decide_eq_true hother⟩

open SampleSwap in
/-- The contract of an honest request is the one on the coin. -/
theorem signed_txid_honest :
    ∃ s pof coins info coin, Reachable (Server.step maker) (fun _ _ => True) Server.init s ∧
      acceptedProof s 1 = some (pof, coins) ∧ (info, coin) ∈ pof.confirmedFundingTxes.zip coins ∧
      contractTx 1 ∈ s.shared.signed ∧
      prims.txid (contractTx 1) = coin.contractTxid := by
  have hrun : (exec (Server.step maker) (fun _ _ => True) Server.init
      oneSwap).any (fun s => decide (s.shared.signed = [contractTx 1]) &&
        (acceptedProof s 1).any fun accepted =>
          (accepted.1.confirmedFundingTxes.zip accepted.2).any fun p =>
            decide (p.2.contractTx = contractTx 1) &&
            decide (p.2.negotiatedFeerate = 1) &&
            decide (p.1.contractRedeemscript = contract) &&
            decide ((fundingOutput p.1).toOption = some (⟨fundingTxid, 0⟩,
                ⟨100000, scriptHash multisigHash⟩))) = true := by
    decide +kernel
  obtain ⟨s, hreach, hs⟩ := exists_reachable_of_exec _ hrun
  simp only [Bool.and_eq_true, decide_eq_true_eq, Option.any_eq_true, any_eq_true] at hs
  obtain ⟨hsigned, ⟨pof, coins⟩, haccept, ⟨info, coin⟩, hpair, ⟨⟨htx, hrate⟩, hscript⟩, hout⟩ := hs
  have hmem : contractTx 1 ∈ s.shared.signed := by simp [hsigned]
  have hfunding : fundingOutput info = .ok (⟨fundingTxid, 0⟩,
      ⟨100000, scriptHash multisigHash⟩) := by
    cases h : fundingOutput info with
    | error e =>
      rw [h] at hout
      cases hout
    | ok found =>
      rw [h] at hout
      exact congrArg Except.ok (Option.some.inj hout)
  obtain ⟨fee, input, contractOutput, hfee, hin, hcontract, hiff, -⟩ :=
    signed_txid_iff hreach haccept
      hpair hfunding hmem ⟨_, mem_singleton.mpr rfl, rfl⟩ (fun _ => by rw [htx])
  refine ⟨s, pof, coins, info, coin, hreach, haccept, hpair, hmem, hiff.mpr ?_⟩
  rw [hrate] at hfee
  have hprice : feeAtRateSats contractTxVsize 1 = some 150 := by decide
  obtain rfl : 150 = fee := Option.some.inj (hprice.symm.trans hfee)
  cases hin
  cases hcontract
  rw [hscript]
  decide +kernel

end OpenSwap
