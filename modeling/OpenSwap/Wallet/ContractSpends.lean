import OpenSwap.Maker.Preimage
import OpenSwap.Taker.Verification

/-!
# The branch of a Legacy contract a spend went through

A Legacy contract has a hash branch and a timelock branch.  Recovery never runs the
script of a spend it sees on chain: `isTimelockSpend` and `shownPreimage` look at the
shape of the witness only.
-/

namespace OpenSwap

open Btc

variable {P : Prims}

/-- What the script of an input sees of its transaction, for a signature check. -/
def inputCtx (P : Prims) (sigOk : Bytes → Bytes → Bool) (tx : Transaction) (i : Nat)
    (input : TxIn) : SpendCtx where
  sha256 := P.sha256
  hash160 := P.hash160
  sigOk := sigOk
  version := tx.version
  lockTime := tx.lockTime
  sequence := input.sequence
  otherSequences := (tx.input.eraseIdx i).map (·.sequence)

variable {input : TxIn} {script : Bytes}

theorem isTimelockSpend_legacy_iff {tx outpoint timelockScript stack}
    (hin : tx.input.find? (·.previousOutput = outpoint) = some input)
    (hwit : input.witness = stack ++ [script]) :
    isTimelockSpend tx outpoint .legacy (some script) timelockScript ↔
      ∃ sig, stack = [sig, []] := by
  simp only [isTimelockSpend, hin, hwit, Option.any_some, Bool.and_eq_true, decide_eq_true_eq,
    List.length_append, List.length_singleton, List.getLast?_concat, and_true]
  constructor
  · rintro ⟨hlen, hitem⟩
    obtain ⟨sig, x, rfl⟩ := List.length_eq_two.mp (show stack.length = 2 by omega)
    cases hitem
    exact ⟨sig, rfl⟩
  · rintro ⟨sig, rfl⟩
    exact ⟨rfl, rfl⟩

theorem shownPreimage_eq_some_iff {sig x y} (hwit : input.witness = [sig, x] ++ [script]) :
    shownPreimage input = some y ↔ x.length = 32 ∧ x = y := by
  by_cases hx : x.length = 32 <;> simp [shownPreimage, hwit, preimageLen, hx]

namespace SampleSwap

/-- The taker's spend of its incoming contract with the preimage, by sequence number. -/
def hashSpendInput (sequence : Nat) (signature : Bytes) : TxIn where
  previousOutput :=
    ⟨natBe 32 0x996592c2728d82791087f7a8b8a7fb8d57c79f90df7105b4bcdf5cc620d0831d, 0⟩
  scriptSig := []
  sequence := sequence
  witness := [signature ++ [sighashAll], List.replicate 32 0x11, nextContract]

def hashSpend (sequence : Nat) (signature : Bytes) : Transaction where
  version := 2
  lockTime := 0
  input := [hashSpendInput sequence signature]
  output := [⟨98000, 0 :: 20 :: List.replicate 20 0x77⟩]

/-- Digests and signatures of the spend with a sequence of zero blocks, and with one of
zero units of 512 seconds. -/
def blocksDigest : Bytes :=
  natBe 32 0x9c0a7d4723e986d39654232a25a827d18e9874bd082dcda4eee0fe0da56f4c7e
def blocksSig : Bytes :=
  natBe 71 0x3045022100df8d576c5c0afb9844cabd4b93b22a0916db24c2ac14feda21142163fed985d302202a5abff50f209b4e764178e9f92e315e746719dc1fb9c84c79248b47e43ba315
def secondsDigest : Bytes :=
  natBe 32 0x21ff08b550b0651f3c26a8cf5a37f6be4e47327f755d7b629da00d10f657cb73
def secondsSig : Bytes :=
  natBe 70 0x3044022028f339de3d912e3295eab518289f4610171a20db8027d89cdd4ea8c6076ece1a02207129654775a6b57007320ba17fb200cdc11776d64ee5028bd91299363566d172

def spendPrims : Prims :=
  { takerTables with
    sighash := [
      ((hashSpend 0 [] |>.stripWitness, 0, nextContract, 98535, sighashAll), blocksDigest),
      ((hashSpend 0x400000 [] |>.stripWitness, 0, nextContract, 98535, sighashAll), secondsDigest)]
    signatures := [((11, blocksDigest), blocksSig), ((11, secondsDigest), secondsSig)]
    : Tables }.prims

end SampleSwap

/-- **Spends of a Legacy contract** go through the hash branch or the timelock branch and in no
other way; a valid one has the shape `isTimelockSpend` looks for exactly in the second case, and
shows a preimage to `shownPreimage` exactly in the first. -/
theorem contract_spend_classified {pubHashlock pubTimelock : P.PublicKey} {hashvalue : Bytes}
    {locktime : Nat} (hhash : hashvalue.length = 20) (hlock : 1 ≤ locktime ∧ locktime ≤ 65535)
    {script : Bytes}
    (hscript : script = createContractRedeemscript pubHashlock pubTimelock hashvalue locktime)
    {sigOk : Bytes → Bytes → Bool} (hsigs : ∀ key sig, sigOk key sig = true → sig.length ≤ 73)
    {tx : Transaction} {i : Nat} {input : TxIn}
    (hversion : tx.version = 2) {ctx : SpendCtx} (hctx : ctx = inputCtx P sigOk tx i input) :
    (∀ sig x, satisfies ctx script [sig, x] = true ↔
      HashBranch ctx pubHashlock.toBytes hashvalue sig x ∨
        TimelockBranch ctx pubTimelock.toBytes hashvalue locktime sig x) ∧
    ∀ outpoint stack, tx.input.find? (·.previousOutput = outpoint) = some input →
      input.witness = stack ++ [script] → satisfies ctx script stack = true →
      (isTimelockSpend tx outpoint .legacy (some script) none = true ↔
        ∃ sig x, stack = [sig, x] ∧
          TimelockBranch ctx pubTimelock.toBytes hashvalue locktime sig x) ∧
      ∀ x, shownPreimage input = some x ↔
        ∃ sig, stack = [sig, x] ∧ HashBranch ctx pubHashlock.toBytes hashvalue sig x := by
  subst hscript hctx
  have hcollect : collect (instructions
      (createContractRedeemscript pubHashlock pubTimelock hashvalue locktime)) =
      .ok (contractInstrs pubHashlock.toBytes pubTimelock.toBytes hashvalue locktime) := by
    rw [instructions_createContractRedeemscript (by omega) (by omega), collect_map_ok]
  have hsat := fun stack => @satisfies_contract (inputCtx P sigOk tx i input) _ _ _ _ _ stack
    hcollect (by omega)
  simp only [show 2 ≤ (inputCtx P sigOk tx i input).version from Nat.le_of_eq hversion.symm,
    true_and] at hsat
  constructor
  · intro sig x
    rw [hsat]
    constructor
    · rintro ⟨_, _, hstack, -, hbranch⟩
      cases hstack
      exact hbranch
    · intro hbranch
      have hsig : sig.length ≤ 73 := by
        rcases hbranch with hbranch | hbranch
        · exact hsigs _ _ hbranch.sig
        · exact hsigs _ _ hbranch.sig
      exact ⟨sig, x, rfl, Nat.le_trans hsig (by decide), hbranch⟩
  · intro outpoint stack hfind hwit hvalid
    obtain ⟨sig, x, rfl, -, hbranch⟩ := (hsat stack).mp hvalid
    rw [isTimelockSpend_legacy_iff hfind hwit]
    constructor
    · constructor
      · rintro ⟨_, hstack⟩
        cases hstack
        -- the hash branch takes no empty item
        exact ⟨sig, [], rfl, hbranch.resolve_left fun h => nomatch h.length⟩
      · rintro ⟨_, _, hstack, h⟩
        cases hstack
        exact ⟨sig, by rw [h.empty]⟩
    · intro y
      rw [shownPreimage_eq_some_iff hwit]
      constructor
      · rintro ⟨hlen, rfl⟩
        refine ⟨sig, rfl, hbranch.resolve_right fun h => ?_⟩
        rw [h.empty] at hlen
        cases hlen
      · rintro ⟨_, hstack, h⟩
        cases hstack
        exact ⟨h.length, rfl⟩

open SampleSwap in
/-- The taker's claim with the preimage is a valid spend, and recognised as one of the hash
branch. -/
theorem hash_spend_classified :
    spendsScriptHash spendPrims (hashSpend 0 blocksSig) 0
      ⟨98535, p2wsh spendPrims nextContract⟩ = true ∧
    ∀ x, shownPreimage (hashSpendInput 0 blocksSig) = some x ↔ x = List.replicate 32 0x11 := by
  refine ⟨by decide +kernel, fun x => ?_⟩
  obtain ⟨hbranches, hshape⟩ := @contract_spend_classified spendPrims
    (Prims.publicKey (P := spendPrims) (11 : Fin 15))
    (Prims.publicKey (P := spendPrims) (13 : Fin 15))
    hash 20 (by decide) (by decide) nextContract (by decide +kernel)
    (segwitSigOk spendPrims (hashSpend 0 blocksSig) 0
      nextContract 98535)
    (fun _ _ => length_of_segwitSigOk) (hashSpend 0 blocksSig) 0
    (hashSpendInput 0 blocksSig) rfl _ rfl
  have hbranch := hbranches (blocksSig ++ [sighashAll]) (List.replicate 32 0x11)
  have hhash := hbranch.mpr
    (.inl ⟨by decide +kernel, by decide, by decide +kernel, by decide, by decide⟩)
  rw [(hshape (hashSpendInput 0 blocksSig).previousOutput [_, _]
    (by simp [hashSpend]) rfl hhash).2 x]
  constructor
  · rintro ⟨sig, hstack, -⟩
    cases hstack
    rfl
  · rintro rfl
    exact ⟨_, rfl, by decide +kernel, by decide, by decide +kernel, by decide, by decide⟩

open SampleSwap in
/-- A claim with the preimage and a valid signature whose sequence number is a relative
lock of zero units of time: the disable bit is clear, and the script fails. -/
theorem typed_sequence_rejected :
    let ctx := segwitCtx spendPrims (hashSpend 0x400000 secondsSig)
      0 (hashSpendInput 0x400000 secondsSig) nextContract 98535
    ctx.version = 2 ∧ ctx.sequence.testBit 31 = false ∧
      ctx.hash160 (List.replicate 32 0x11) = hash ∧
      ctx.sigOk (keyBytes 11) (secondsSig ++ [sighashAll]) = true ∧
      satisfies ctx nextContract [secondsSig ++ [sighashAll], List.replicate 32 0x11] = false := by
  decide +kernel

end OpenSwap
