import OpenSwap.Maker.Claims
import OpenSwap.Maker.FundingScript

/-!
# One funding outpoint, one swap

A replay of a funding outpoint is recognised by the contract derived from it, which
depends on the fee rate the swap negotiated.

* `contractTx_eq_of_bound`: at one rate, one outpoint gives one contract.
-/

namespace OpenSwap

open Btc Checked Run

variable {P : Prims}

/-! ## Acceptance -/

section Acceptance

variable {maker : Maker P}

/-- The proof of funding the next step of a connection accepts, with the coins it
writes into the live swap next to the outgoing coins built for them. -/
def acceptedProof (s : Server P) (conn : Nat) :
    Option (ProofOfFunding P × List (IncomingSwapCoin P)) :=
  match s.conns.lookup conn with
  | some ⟨state, some (.storeFunded pof coins outgoing fundingTxes)⟩ =>
    match storeConnectionState s.shared.ongoingSwaps pof.id
        (state.withFunding coins outgoing fundingTxes) with
    | .ok _ => some (pof, coins)
    | .error _ => none
  | _ => none

variable {pof : ProofOfFunding P} {coins : List (IncomingSwapCoin P)}

theorem acceptedProof_eq_some {s conn} (h : acceptedProof s conn = some (pof, coins)) :
    ∃ state outgoing fundingTxes stored,
      s.conns.lookup conn = some ⟨state, some (.storeFunded pof coins outgoing fundingTxes)⟩ ∧
      s.shared.ongoingSwaps.lookup pof.id = some stored ∧
      stored.swapStartTime = state.swapStartTime := by
  unfold acceptedProof at h
  split at h
  · rename_i state pof' coins' outgoing fundingTxes hlookup
    split at h
    · rename_i swaps hswaps
      cases h
      obtain ⟨stored, -, ⟨hstored, hstart⟩ | ⟨-, hdone, -⟩⟩ := storeConnectionState_ok hswaps
      · exact ⟨state, outgoing, fundingTxes, stored, hlookup, hstored, hstart⟩
      · cases hdone
    · cases h
  · cases h

theorem contractTx_eq_of_bound {fundingTxs : List Transaction} {w : WalletStore P}
    {c c' : IncomingSwapCoin P}
    (hcollision : ∀ tx ∈ fundingTxs, ∀ tx' ∈ fundingTxs, P.txid tx = P.txid tx' →
      tx.output = tx'.output)
    (hc : Bound fundingTxs w c) (hc' : Bound fundingTxs w c')
    (hout : c.fundingOutpoint = c'.fundingOutpoint)
    (hrate : c.negotiatedFeerate = c'.negotiatedFeerate) : c.contractTx = c'.contractTx := by
  obtain ⟨tx, htx, vout, output, fee, spk, houtput, -, hfee, heq, hbound⟩ := hc
  obtain ⟨tx', htx', vout', output', fee', spk', houtput', -, hfee', heq', hbound'⟩ := hc'
  simp only [IncomingSwapCoin.fundingOutpoint, heq, heq', mkContractTx, List.head?_cons,
    Option.map_some, Option.some.injEq, OutPoint.mk.injEq] at hout
  obtain ⟨htxid, rfl⟩ := hout
  rw [hcollision tx htx tx' htx' htxid, houtput'] at houtput
  obtain rfl : output' = output := Option.some.inj houtput
  rw [hrate, hfee'] at hfee
  obtain rfl : fee' = fee := Option.some.inj hfee
  rw [htxid, hbound'] at hbound
  obtain rfl : spk' = spk := Option.some.inj hbound
  rw [heq, heq', htxid]

theorem coin_of_entry {state infos info outpoint output}
    (h : List.Forall₂ (BuiltFrom maker state pof) infos coins) (hinfo : info ∈ infos)
    (hout : fundingOutput info = .ok (outpoint, output)) :
    ∃ c ∈ coins, c.fundingOutpoint = some outpoint := by
  obtain ⟨c, hc, hbuilt⟩ := exists_of_forall₂ (R := fun c info => BuiltFrom maker state pof info c)
    h.flip hinfo
  obtain ⟨_, _, _, outpoint', output', _, -, hout', -, -, -, -, -, -, htx, -⟩ :=
    receiverCoin_ok hbuilt
  rw [hout] at hout'
  cases hout'
  refine ⟨c, hc, ?_⟩
  rw [IncomingSwapCoin.fundingOutpoint, htx]
  rfl

/-- **One funding outpoint, one swap.**  In every run whose steps meet the guard: when a
proof of funding is accepted, whoever holds a coin over one of its outpoints, in a
live swap outgoing coins were built for or in the wallet, is the swap of the proof. -/
theorem funding_accepted_once {s : Server P} {conn : Nat} {answers : Answers P}
    {pof : ProofOfFunding P} {coins : List (IncomingSwapCoin P)}
    (hrun : Reachable (Server.step maker) replayGuard Server.init s)
    (hguard : replayGuard s (.run conn answers))
    (hcollision : ∀ tx ∈ s.shared.fundingTxs, ∀ tx' ∈ s.shared.fundingTxs,
      P.txid tx = P.txid tx' → tx.output = tx'.output)
    (haccept : acceptedProof s conn = some (pof, coins)) :
    ∀ info ∈ pof.confirmedFundingTxes, ∀ outpoint output,
      fundingOutput info = .ok (outpoint, output) →
      ∀ held ∈ s.shared.heldCoins, held.2.fundingOutpoint = some outpoint → held.1 = pof.id := by
  intro info hinfo outpoint output hout held hheld hover
  obtain ⟨state, outgoing, fundingTxes, stored, hlookup, hstored, hstart⟩ :=
    acceptedProof_eq_some haccept
  have hsound := sound_of_reachable hrun
  have hclaimed := claimed_of_reachable hrun
  obtain ⟨hbuilt, hvouched⟩ := (hsound.conns _ _ hlookup).task _ rfl
  obtain ⟨coin, hcoin, hover'⟩ := coin_of_entry hbuilt hinfo hout
  rw [replayGuard, hlookup] at hguard
  by_contra hne
  -- the accepting swap has claimed the txid of its coin
  have hholds : Holds s.shared pof.id coin.contractTxid :=
    .inl ⟨stored, hstored, (hclaimed.conns _ _ hlookup).task _ rfl coin hcoin stored hstored hstart⟩
  have hsame : coin.contractTx = held.2.contractTx → held.1 = pof.id := by
    intro htx
    refine hclaimed.shared.unique _ _ held.2.contractTxid ?_ ?_
    · rcases mem_heldCoins.mp hheld with ⟨r, hr, hlive, rfl⟩ | ⟨txid, hcoin', hid⟩
      · obtain ⟨e, he, hestart⟩ := liveAt_iff.mp hlive
        exact .inl ⟨e, he, (hclaimed.shared.built r hr).2 e he hestart⟩
      · obtain ⟨rfl, -⟩ := hsound.shared.wallet txid held.2 hcoin'
        exact .inr ⟨held.2, hcoin', hid⟩
    · rw [IncomingSwapCoin.contractTxid, ← htx]
      exact hholds
  refine hne (hsame (contractTx_eq_of_bound hcollision (hvouched coin hcoin).2 ?_ ?_ ?_))
  · rcases mem_heldCoins.mp hheld with ⟨r, hr, -, rfl⟩ | ⟨txid, hcoin', -⟩
    · exact (hsound.shared.built r hr).2
    · exact (hsound.shared.wallet txid held.2 hcoin').2
  · rw [hover, hover']
  · exact (hguard held hheld coin hcoin hne (hover.trans hover'.symm)).symm

end Acceptance

/-! ## Two swaps over one outpoint -/

/-- The next step accepts a proof over an outpoint another swap holds a coin over. -/
def replaysOutpoint (s : Server P) (conn : Nat) : Bool :=
  (acceptedProof s conn).any fun accepted =>
    accepted.1.confirmedFundingTxes.any fun info =>
      match fundingOutput info with
      | .ok (outpoint, _) => s.shared.heldCoins.any fun held =>
          held.2.fundingOutpoint = some outpoint && held.1 ≠ accepted.1.id
      | .error _ => false

theorem replaysOutpoint_iff {s : Server P} {conn : Nat} :
    replaysOutpoint s conn ↔ ∃ pof coins, acceptedProof s conn = some (pof, coins) ∧
      ∃ info ∈ pof.confirmedFundingTxes, ∃ outpoint output,
        fundingOutput info = .ok (outpoint, output) ∧ ∃ held ∈ s.shared.heldCoins,
          held.2.fundingOutpoint = some outpoint ∧ held.1 ≠ pof.id := by
  unfold replaysOutpoint
  rw [Option.any_eq_true]
  constructor
  · rintro ⟨⟨pof, coins⟩, haccept, hany⟩
    obtain ⟨info, hinfo, hheld⟩ := List.any_eq_true.mp hany
    split at hheld
    · rename_i outpoint output hout
      obtain ⟨held, hmem, hover⟩ := List.any_eq_true.mp hheld
      simp only [Bool.and_eq_true, decide_eq_true_eq] at hover
      exact ⟨pof, coins, haccept, info, hinfo, outpoint, output, hout, held, hmem, hover⟩
    · cases hheld
  · rintro ⟨pof, coins, haccept, info, hinfo, outpoint, output, hout, held, hmem, hover, hne⟩
    refine ⟨_, haccept, List.any_eq_true.mpr ⟨info, hinfo, ?_⟩⟩
    rw [hout]
    exact List.any_eq_true.mpr ⟨held, hmem, by simp [hover, hne]⟩

namespace SampleSwap

def maker : Maker prims where
  tweakablePrivkey := tweakablePrivkey
  calculateSwapFee _ _ := 1000

def details (id : String) (rate : Nat) : SwapDetails where
  id := id
  features := ["legacy"]
  amount := 100000
  txCount := 1
  incomingCount := 1
  maxInputBudget := 1
  feerate := rate.toUInt64
  timelock := 20
  refundLocktimeOffset := 0

def admission : AdmissionEnv prims where
  watchtowerAlive := true
  checkPins _ := .ok ()
  maxSwapAmount := 1000000
  currentHeight := .ok 900000
  now := 0
  calculateSwapFee _ _ := 1000
  store _ state := .ok state
  tweakablePoint := Prims.publicKey tweakablePrivkey

def answers (rate : Nat) : Answers prims where
  calls := .ok ()
  unspent := .ok true
  saved := .saved
  splits := [⟨nextFundingTx rate, 0, (12 : Fin 15), (13 : Fin 15)⟩]
  swept := true

def senderContract (timelockKey : Fin 15) (tx : Transaction) : ContractTxInfoForSender prims where
  multisigNonce := (1 : Fin 15)
  hashlockNonce := (3 : Fin 15)
  timelockPubkey := ⟨true, .mul timelockKey⟩
  sendersContractTx := tx
  multisigRedeemscript := multisig
  fundingInputValue := 100000

def request (id : String) (contracts : List (ContractTxInfoForSender prims)) :
    ReqContractSigsForSender prims where
  id := id
  txsInfo := contracts
  hashvalue := hash
  locktime := 20

def proof (id : String) : ProofOfFunding prims where
  id := id
  confirmedFundingTxes := [entry fundingTx multisig]
  nextOpenswapInfo := [⟨⟨true, .mul 10⟩, ⟨true, .mul 11⟩⟩]
  refundLocktime := 20

def negotiate (conn : Nat) (id : String) (rate : Nat) : List (Action prims) :=
  [.connect conn, .greet conn, .greet conn,
    .swapDetails conn (details id rate) admission
      (some [⟨[⟨List.replicate 32 0xbb, rate⟩], nextValue rate⟩])]

def sign (conn : Nat) (id : String) (contracts : List (ContractTxInfoForSender prims)) :
    List (Action prims) :=
  [.deliver conn (.reqContractSigsForSender (request id contracts)) (answers 1),
    .run conn (answers 1), .run conn (answers 1)]

def prove (conn : Nat) (id : String) (rate : Nat) : List (Action prims) :=
  .deliver conn (.proofOfFunding (proof id)) (answers rate) ::
    List.replicate 9 (.run conn (answers rate))

def oneSwap : List (Action prims) :=
  negotiate 1 "00000000000000aa" 1 ++
    (sign 1 "00000000000000aa" [senderContract 8 (contractTx 1)] ++ prove 1 "00000000000000aa" 1)

/-- A second swap, at twice the rate, proves the same funding. -/
def twoSwaps : List (Action prims) :=
  oneSwap ++ (.run 1 (answers 1) :: (negotiate 2 "00000000000000bb" 2 ++
    prove 2 "00000000000000bb" 2))

end SampleSwap

open SampleSwap in
/-- A run of one swap meets the guard, and at the acceptance of its proof the coins over
the outpoint are its own. -/
theorem funding_accepted_once_oneSwap :
    ∃ s pof coins, Reachable (Server.step maker) replayGuard Server.init s ∧
      acceptedProof s 1 = some (pof, coins) ∧
      (∀ info ∈ pof.confirmedFundingTxes, ∀ outpoint output,
        fundingOutput info = .ok (outpoint, output) →
        ∀ held ∈ s.shared.heldCoins, held.2.fundingOutpoint = some outpoint → held.1 = pof.id) ∧
      s.shared.heldCoins ≠ [] := by
  have hrun : (exec (Server.step maker) replayGuard Server.init
      oneSwap).any (fun s => (acceptedProof s 1).isSome &&
        decide (replayGuard s (.run 1 (answers 1))) && !s.shared.heldCoins.isEmpty &&
        decide (s.shared.fundingTxs = [fundingTx])) = true := by decide +kernel
  obtain ⟨s, hreach, hs⟩ := exists_reachable_of_exec _ hrun
  simp only [Bool.and_eq_true, decide_eq_true_eq, Option.isSome_iff_exists, Prod.exists,
    Bool.not_eq_true', List.isEmpty_eq_false_iff] at hs
  obtain ⟨⟨⟨⟨pof, coins, haccept⟩, hguard⟩, hheld⟩, hfunding⟩ := hs
  refine ⟨s, pof, coins, hreach, haccept, ?_, hheld⟩
  refine funding_accepted_once hreach hguard ?_ haccept
  rw [hfunding]
  simp

/-- **At two rates one outpoint is accepted twice**, while the first swap is live. -/
theorem one_outpoint_two_rates :
    ∃ s, Reachable (Server.step SampleSwap.maker) (fun _ _ => True) Server.init s ∧
      ∃ conn pof coins, acceptedProof s conn = some (pof, coins) ∧
        ∃ info ∈ pof.confirmedFundingTxes, ∃ outpoint output,
          fundingOutput info = .ok (outpoint, output) ∧ ∃ held ∈ s.shared.heldCoins,
            held.2.fundingOutpoint = some outpoint ∧ held.1 ≠ pof.id := by
  have hrun : (exec (Server.step SampleSwap.maker) (fun _ _ => True) Server.init
      SampleSwap.twoSwaps).any (replaysOutpoint · 2) = true := by decide +kernel
  obtain ⟨s, hreach, hs⟩ := exists_reachable_of_exec _ hrun
  exact ⟨s, hreach, 2, replaysOutpoint_iff.mp hs⟩

end OpenSwap
