import OpenSwap.Btc.Chain
import OpenSwap.Maker.ServerSteps
import OpenSwap.Maker.Sessions
import OpenSwap.Taker.Verification

/-!
# The incoming contracts the maker counts

A proof of funding, or Taproot contract data, names the outputs the taker has paid in;
the maker funds the next hop with its own coins once it has counted them.  `Counted` says
what it relies on then: distinct outputs on chain, as many and worth as much as agreed,
none below the floor.

A contract script is compared with the one the maker signed for by its hash, and an
outpoint names a transaction by its hash; `World` holds what a run refers to and states
that no two of these collide.
-/

namespace OpenSwap

open Btc Checked List

variable {P : Prims}

/-! ## Contract scripts -/

def IsContract (P : Prims) (script : Bytes) (locktime : Nat) : Prop :=
  ∃ (pubHashlock pubTimelock : P.PublicKey) (hashvalue : Bytes), hashvalue.length = 20 ∧
    locktime < 2 ^ 16 ∧
    script = createContractRedeemscript pubHashlock pubTimelock hashvalue locktime

theorem IsContract.readContractLocktime {script locktime read} (h : IsContract P script locktime)
    (hread : OpenSwap.readContractLocktime script = .ok read) :
    read = locktime := by
  obtain ⟨pubHashlock, pubTimelock, hashvalue, hlen, hlt, rfl⟩ := h
  have hinstrs : instructions (createContractRedeemscript pubHashlock pubTimelock hashvalue
      locktime) =
      (contractInstrs pubHashlock.toBytes pubTimelock.toBytes hashvalue locktime).map .ok :=
    instructions_createContractRedeemscript (by omega) (by omega)
  exact readContractLocktime_intInstr (by omega) (instrAt_of_instructions hinstrs rfl) hread

theorem sha256_eq_of_p2wsh_eq {a b} (h : p2wsh P a = p2wsh P b) :
    P.sha256 a = P.sha256 b := by
  have hprogram : ∀ script, instructions (p2wsh P script) =
      [.ok (.push []), .ok (.push (P.sha256 script))] := by
    intro script
    refine instructions_encode fun i hi => ?_
    have hlen := P.sha256_length script
    simp only [mem_cons, not_mem_nil, or_false] at hi
    rcases hi with rfl | rfl
    · exact Nat.two_pow_pos 32
    · show (P.sha256 script).length < 2 ^ 32
      omega
  have hinstrs := hprogram a
  rw [h, hprogram b] at hinstrs
  simpa using hinstrs.symm

/-! ## What a run refers to -/

/-- The blocks the node knows of, and the transactions and contract scripts that messages
name, with no two of them colliding. -/
structure World (P : Prims) where
  chain : Chain
  txs : List Transaction
  scripts : List Bytes
  blocks : ∀ tx ∈ chain.blocks.flatten, tx ∈ txs
  txid : ∀ tx ∈ txs, ∀ tx' ∈ txs, P.txid tx = P.txid tx' → tx.output = tx'.output
  sha256 : ∀ a ∈ scripts, ∀ b ∈ scripts, P.sha256 a = P.sha256 b → a = b

namespace World

structure OnChain (w : World P) (p : OutPoint × TxOut) : Prop where
  confirmed : (w.chain.txBlockHeight P p.1.txid).isSome
  output : w.chain.output P p.1 = some p.2

theorem onChain_of_confirmed {w : World P} {tx : Transaction} {vout : Nat} {out : TxOut}
    (htx : tx ∈ w.txs) (hconfirmed : (w.chain.txBlockHeight P (P.txid tx)).isSome)
    (hout : tx.output[vout]? = some out) : w.OnChain (⟨P.txid tx, vout⟩, out) := by
  refine ⟨hconfirmed, ?_⟩
  obtain ⟨height, hheight⟩ := Option.isSome_iff_exists.mp hconfirmed
  obtain ⟨hlt, hany, -⟩ := findIdx?_eq_some_iff_getElem.mp hheight
  obtain ⟨mined, hmined, hid⟩ := any_eq_true.mp hany
  have hfound : (w.chain.blocks.flatten.find? fun tx' => P.txid tx' = P.txid tx).isSome :=
    find?_isSome.mpr
      ⟨mined, mem_flatten.mpr ⟨_, getElem_mem hlt, hmined⟩, hid⟩
  obtain ⟨found, hfound⟩ := Option.isSome_iff_exists.mp hfound
  have hsame : found.output = tx.output :=
    w.txid found (w.blocks found (mem_of_find?_eq_some hfound)) tx htx
      (of_decide_eq_true (find?_some hfound :))
  rw [Chain.output, Chain.transaction_of_txBlockHeight hheight, hfound, Option.bind_some, hsame]
  exact hout

end World

/-- The output the maker counts a coin by: what a Legacy contract spends, and the contract
output itself in Taproot. -/
def IncomingSwapCoin.countedOutpoint (c : IncomingSwapCoin P) : Option OutPoint :=
  match c.protocol with
  | .legacy => c.fundingOutpoint
  | .taproot => some ⟨P.txid c.contractTx, 0⟩

/-- The coins stand for these outputs, which are on chain, distinct, as many as declared,
none below the floor, and worth the agreed amount. -/
structure Counted (w : World P) (protocol : ProtocolVersion) (state : ConnectionState P)
    (coins : List (IncomingSwapCoin P)) (outs : List (OutPoint × TxOut)) : Prop where
  outpoints : coins.map (·.countedOutpoint) = outs.map fun p => some p.1
  amounts : coins.map (·.fundingAmount) = outs.map (·.2.value)
  distinct : (outs.map (·.1)).Nodup
  count : outs.length = state.incomingCount
  onChain : ∀ p ∈ outs, w.OnChain p
  floor : ∃ floor, minContractValueSats protocol state.swapFeerate = some floor ∧
    ∀ p ∈ outs, floor ≤ p.2.value
  total : (outs.map (·.2.value)).sum = state.swapAmount

/-! ## A proof of funding -/

section Legacy

theorem checkFundingShape_ok {refundLocktime : Nat} {infos : List (FundingTxInfo P)}
    {seen : List OutPoint} {outs : List (OutPoint × TxOut)}
    (h : checkFundingShape refundLocktime infos seen = .ok ())
    (houts : List.Forall₂ (fun info out => fundingOutput info = .ok out) infos outs) :
    (outs.map (·.1)).Nodup ∧ (∀ p ∈ outs, p.1 ∉ seen) ∧
      ∀ info ∈ infos, ∃ locktime, readContractLocktime info.contractRedeemscript = .ok locktime ∧
        refundLocktime + minContractReactionTime ≤ locktime := by
  induction houts generalizing seen with
  | nil => exact ⟨.nil, nofun, nofun⟩
  | @cons info out rest outs hout houts ih =>
    simp only [checkFundingShape, bind_ok_iff, ensure_eq_ok, mapError_ok_iff] at h
    obtain ⟨locktime, hlocktime, _, hreaction, index, hindex, _, hnew, h⟩ := h
    obtain ⟨hfound, htxid, -⟩ := fundingOutput_ok hout
    have hout1 : out.1 = ⟨P.txid info.fundingTx, index⟩ := by
      rw [hindex, Except.ok.injEq] at hfound
      rw [hfound, ← htxid]
    obtain ⟨hnodup, hunseen, hlocks⟩ := ih h
    refine ⟨?_, ?_, ?_⟩
    · rw [map_cons, nodup_cons]
      refine ⟨fun hmem => ?_, hnodup⟩
      obtain ⟨p, hp, heq⟩ := mem_map.mp hmem
      exact hunseen p hp (by rw [heq, hout1]; exact mem_cons_self)
    · rintro p (_ | ⟨_, hp⟩)
      · rw [hout1]
        exact hnew
      · exact fun hmem => hunseen p hp (mem_cons_of_mem _ hmem)
    · rintro info' (_ | ⟨_, hmem⟩)
      · refine ⟨locktime, hlocktime, ?_⟩
        have : minContractReactionTime = 10 := rfl
        omega
      · exact hlocks info' hmem

structure ProofOffered (w : World P) (state : ConnectionState P) (pof : ProofOfFunding P) :
    Prop where
  terms : checkProofTerms state pof = .ok ()
  txs : ∀ info ∈ pof.confirmedFundingTxes, info.fundingTx ∈ w.txs
  scripts : ∀ info ∈ pof.confirmedFundingTxes, info.contractRedeemscript ∈ w.scripts

structure ProofBuilt (w : World P) (maker : Maker P) (state : ConnectionState P)
    (pof : ProofOfFunding P) (coins : List (IncomingSwapCoin P)) : Prop
    extends ProofOffered w state pof where
  built : List.Forall₂ (BuiltFrom maker state pof) pof.confirmedFundingTxes coins

structure ProofConfirmed (w : World P) (maker : Maker P) (state : ConnectionState P)
    (pof : ProofOfFunding P) (coins : List (IncomingSwapCoin P)) : Prop
    extends ProofBuilt w maker state pof coins where
  shape : checkFundingShape pof.refundLocktime.toNat pof.confirmedFundingTxes [] = .ok ()
  confirmed : ∀ info ∈ pof.confirmedFundingTxes,
    (w.chain.txBlockHeight P (P.txid info.fundingTx)).isSome

structure ProofVerified (w : World P) (maker : Maker P) (state : ConnectionState P)
    (pof : ProofOfFunding P) (coins : List (IncomingSwapCoin P)) (hashvalue : Bytes) : Prop
    extends ProofConfirmed w maker state pof coins where
  contracts : ∀ info ∈ pof.confirmedFundingTxes,
    ∃ locktime, IsContract P info.contractRedeemscript locktime
  hashvalue : hashvalue.length = 20

variable {w : World P} {maker : Maker P} {state : ConnectionState P} {pof : ProofOfFunding P}
  {coins : List (IncomingSwapCoin P)}

theorem ProofOffered.outputs (h : ProofOffered w state pof) :
    ∃ outs, List.Forall₂ (fun info out => fundingOutput info = .ok out) pof.confirmedFundingTxes
        outs ∧ outs.length = state.incomingCount ∧
      (∃ floor, minContractValueSats .legacy state.swapFeerate = some floor ∧
        ∀ p ∈ outs, floor ≤ p.2.value) ∧ (outs.map (·.2.value)).sum = state.swapAmount := by
  have hterms := h.terms
  simp only [checkProofTerms, bind_ok_iff, ensure_eq_ok, okOr_eq_ok] at hterms
  obtain ⟨_, -, _, -, _, -, _, hcount, _, -, floor, hfloor, declared, hdeclared, htotal⟩ := hterms
  obtain ⟨outs, houts, hfloors, hsum⟩ := declaredIncoming_ok hdeclared
  refine ⟨outs, houts, houts.length_eq.symm.trans hcount, ⟨floor, hfloor, hfloors⟩, ?_⟩
  rw [← htotal, ← hsum, Nat.zero_add]

/-- **The counted contracts of a proof.** -/
theorem ProofConfirmed.counted (h : ProofConfirmed w maker state pof coins) :
    ∃ outs, Counted w .legacy state coins outs := by
  obtain ⟨outs, houts, hcount, hfloor, htotal⟩ := h.toProofOffered.outputs
  have hcoin : ∀ info coin out, BuiltFrom maker state pof info coin →
      fundingOutput info = .ok out →
      coin.countedOutpoint = some out.1 ∧ coin.fundingAmount = out.2.value := by
    intro info coin out hbuilt hout
    obtain ⟨hprotocol, houtpoint, hamount, -⟩ := receiverCoin_output hbuilt hout
    exact ⟨by rw [IncomingSwapCoin.countedOutpoint, hprotocol]; exact houtpoint, hamount⟩
  refine ⟨outs, ?_, ?_, (checkFundingShape_ok h.shape houts).1, hcount, ?_, hfloor, htotal⟩
  · exact map_eq_of_forall₂ h.built houts fun _ _ _ hb ho => (hcoin _ _ _ hb ho).1
  · exact map_eq_of_forall₂ h.built houts fun _ _ _ hb ho => (hcoin _ _ _ hb ho).2
  · rintro ⟨outpoint, out⟩ hp
    obtain ⟨info, hinfo, hout⟩ := exists_of_forall₂ houts hp
    obtain ⟨-, htxid, houtput, -⟩ := fundingOutput_ok hout
    have honChain := World.onChain_of_confirmed (h.txs info hinfo) (h.confirmed info hinfo) houtput
    rwa [← htxid] at honChain

/-- The refund lock of every counted contract leaves the maker time to react. -/
theorem ProofVerified.locktimes {hashvalue} (h : ProofVerified w maker state pof coins hashvalue) :
    ∀ coin ∈ coins, ∃ script locktime, coin.contractRedeemscript = some script ∧
      IsContract P script locktime ∧
      pof.refundLocktime.toNat + minContractReactionTime ≤ locktime := by
  intro coin hcoin
  obtain ⟨outs, houts, -⟩ := h.toProofOffered.outputs
  obtain ⟨info, hinfo, hbuilt⟩ := exists_of_forall₂ h.built hcoin
  obtain ⟨read, hread, hlate⟩ := (checkFundingShape_ok h.shape houts).2.2 info hinfo
  obtain ⟨locktime, hcontract⟩ := h.contracts info hinfo
  obtain ⟨-, -, -, _, _, -, -, hout, -⟩ := receiverCoin_ok hbuilt
  refine ⟨_, locktime, (receiverCoin_output hbuilt hout).2.2.2, hcontract, ?_⟩
  rwa [← hcontract.readContractLocktime hread]

end Legacy

/-! ## Taproot contract data -/

section Taproot

variable {w : World P} {state : ConnectionState P} {data : TaprootContractData P}

structure ContractsOffered (w : World P) (state : ConnectionState P)
    (data : TaprootContractData P) : Prop where
  terms : ∃ env checked, checkTaprootContract env state data = .ok checked
  txs : ∀ tx ∈ data.contractTxs, tx ∈ w.txs

structure ContractsConfirmed (w : World P) (state : ConnectionState P)
    (data : TaprootContractData P) (incoming : List (IncomingSwapCoin P)) : Prop
    extends ContractsOffered w state data where
  confirmed : ∀ tx ∈ data.contractTxs, (w.chain.txBlockHeight P (P.txid tx)).isSome
  built : ∃ env hashlockPrivkey,
    List.Forall₂ (fun i coin => acceptContractAt env state data hashlockPrivkey i = .ok coin)
      (List.range data.contractTxs.length) incoming

/-- The contract at a position pays its amount with its first output. -/
def ContractAt (data : TaprootContractData P) (i : Nat) (out : OutPoint × TxOut) : Prop :=
  ∃ tx, data.contractTxs[i]? = some tx ∧ out.1 = ⟨P.txid tx, 0⟩ ∧ tx.output[0]? = some out.2 ∧
    data.amounts[i]? = some out.2.value

theorem contractAt_of_verified {makerPubkey locktime i}
    (h : verifyContractAt data makerPubkey locktime i = .ok ()) : ∃ out, ContractAt data i out := by
  simp only [verifyContractAt, bind_ok_iff, okOr_eq_ok, ensure_eq_ok] at h
  obtain ⟨_, -, _, -, _, -, _, -, amount, hamount, tx, htx, _, -, _, -, _, -, _, -, _, -, _, -, _,
    -, out, hout, _, rfl, -⟩ := h
  exact ⟨(⟨P.txid tx, 0⟩, out), tx, htx, rfl, by rw [← head?_eq_getElem?]; exact hout, hamount⟩

theorem ContractsOffered.outputs (h : ContractsOffered w state data) :
    data.amounts.length = data.contractTxs.length ∧ (data.contractTxs.map P.txid).Nodup ∧
      data.contractTxs.length = state.incomingCount ∧
      (∃ floor, minContractValueSats .taproot state.swapFeerate = some floor ∧
        ∀ amount ∈ data.amounts, floor ≤ amount) ∧ data.amounts.sum = state.swapAmount ∧
      ∃ outs, List.Forall₂ (ContractAt data) (List.range data.contractTxs.length) outs := by
  obtain ⟨env, checked, hchecked⟩ := h.terms
  simp only [checkTaprootContract, bind_ok_iff, ensure_eq_ok, okOr_eq_ok] at hchecked
  obtain ⟨_, -, _, -, _, -, _, -, _, -, _, hverified, _, hcount, floor, hfloor, _, hfloors, total,
    htotal, _, hamount, -⟩ := hchecked
  simp only [verifyTaprootContractData, bind_ok_iff, ensure_eq_ok, checkAll_eq_ok] at hverified
  obtain ⟨_, -, _, hlength, _, -, _, -, _, -, _, -, _, -, _, hnodup, hall⟩ := hverified
  refine ⟨hlength.symm, hnodup, hcount, ⟨floor, hfloor, hfloors⟩, ?_,
    exists_forall₂ fun i hi => contractAt_of_verified (hall i hi)⟩
  rw [← hamount, ← sumAmounts_eq_some htotal, Nat.zero_add]

theorem acceptContractAt_counted {env hashlockPrivkey i coin out}
    (h : acceptContractAt env state data hashlockPrivkey i = .ok coin)
    (hout : ContractAt data i out) :
    coin.countedOutpoint = some out.1 ∧ coin.fundingAmount = out.2.value := by
  obtain ⟨tx, htx, houtpoint, -, hamount⟩ := hout
  simp only [acceptContractAt, bind_ok_iff, okOr_eq_ok] at h
  obtain ⟨tx', htx', amount, hamount', _, -, _, -, _, -, _, -, _, -, _, -, _, -, _, -, _, -, _, -,
    h⟩ := h
  rw [htx, Option.some.injEq] at htx'
  rw [hamount, Option.some.injEq] at hamount'
  cases h
  exact ⟨by rw [houtpoint, htx']; rfl, hamount'.symm⟩

/-- **The counted contracts of Taproot contract data.** -/
theorem ContractsConfirmed.counted {incoming} (h : ContractsConfirmed w state data incoming) :
    ∃ outs, Counted w .taproot state incoming outs := by
  obtain ⟨hlength, hnodup, hcount, ⟨floor, hfloor, hfloors⟩, htotal, outs, houts⟩ :=
    h.toContractsOffered.outputs
  obtain ⟨env, hashlockPrivkey, hbuilt⟩ := h.built
  have hamounts : outs.map (·.2.value) = data.amounts := by
    have hvalue : ∀ i out amount, ContractAt data i out → data.amounts[i]? = some amount →
        out.2.value = id amount := by
      rintro i out amount ⟨-, -, -, -, hamount⟩ hamount'
      rw [hamount, Option.some.injEq] at hamount'
      exact hamount'
    rw [← data.amounts.map_id]
    exact map_eq_of_forall₂ houts (hlength ▸ forall₂_range data.amounts) hvalue
  have houtpoints : outs.map (·.1) = (data.contractTxs.map P.txid).map (OutPoint.mk · 0) := by
    have houtpoint : ∀ i out tx, ContractAt data i out → data.contractTxs[i]? = some tx →
        out.1 = OutPoint.mk (P.txid tx) 0 := by
      rintro i out tx ⟨tx', htx', houtpoint, -⟩ htx
      rw [htx', Option.some.injEq] at htx
      rw [houtpoint, htx]
    rw [map_map]
    exact map_eq_of_forall₂ houts (forall₂_range data.contractTxs) houtpoint
  refine ⟨outs, ?_, ?_, ?_, ?_, ?_, ⟨floor, hfloor, ?_⟩, ?_⟩
  · exact map_eq_of_forall₂ hbuilt houts fun _ _ _ hb ho => (acceptContractAt_counted hb ho).1
  · exact map_eq_of_forall₂ hbuilt houts fun _ _ _ hb ho => (acceptContractAt_counted hb ho).2
  · rw [houtpoints]
    exact hnodup.map fun a b hab => (OutPoint.mk.inj hab).1
  · rw [← houts.length_eq, length_range, hcount]
  · rintro ⟨outpoint, out⟩ hp
    obtain ⟨i, -, tx, htx, houtpoint, hout, -⟩ := exists_of_forall₂ houts hp
    have hmem := mem_of_getElem? htx
    have honChain := World.onChain_of_confirmed (h.txs tx hmem) (h.confirmed tx hmem) hout
    rwa [← houtpoint] at honChain
  · intro p hp
    exact hfloors _ (hamounts ▸ mem_map_of_mem hp)
  · rw [hamounts, htotal]

end Taproot

end OpenSwap
