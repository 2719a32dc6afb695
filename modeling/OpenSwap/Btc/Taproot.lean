import OpenSwap.Btc.Spend
import OpenSwap.Btc.Tables

/-!
# Spending a Taproot output by a leaf

The rule for a script-path spend, over what the libraries give for it: control blocks,
the digest of a leaf spend and Schnorr signatures.  `TapPrims` adds them to `Prims`, again
with shape laws only.  The second part is the rule for when a transaction with one input
may be in a block.

* `spendsTaprootLeaf` is the rule for the witness, `spendsTaprootLeaf_iff` its reading for
  a witness that is a stack, a leaf and a control block.
* `TapTables.tapPrims` is a lawful instance from tables.
-/

namespace Btc

/-! ## Primitives -/

/-- The functions taken from the libraries for Taproot spends.  An annex is left out. -/
structure TapPrims (P : Prims) where
  controlBlock : (leaf₁ leaf₂ internalKey leaf : Bytes) → Option Bytes
  /-- the control block shows that the output key commits to the leaf -/
  commits : (outputKey leaf control : Bytes) → Bool
  length_outputKey : ∀ {leaf₁ leaf₂ internalKey outputKey tweak},
    P.taproot leaf₁ leaf₂ internalKey = some (outputKey, tweak) → outputKey.length = 32
  exists_controlBlock : ∀ {leaf₁ leaf₂ internalKey outputKey tweak leaf},
    P.taproot leaf₁ leaf₂ internalKey = some (outputKey, tweak) → leaf = leaf₁ ∨ leaf = leaf₂ →
      ∃ version path, controlBlock leaf₁ leaf₂ internalKey leaf = some (version :: path) ∧
        version &&& 0xfe = 0xc0 ∧ commits outputKey leaf (version :: path)
  /-- the digest of an input that is spent by a leaf, for all outputs spent -/
  leafSighash : Transaction → Nat → List TxOut → Bytes → UInt8 → Bytes
  leafSighash_stripWitness : ∀ tx, leafSighash tx.stripWitness = leafSighash tx
  /-- the digest of an only input that is spent by its key -/
  keySighash : Transaction → (value : Nat) → (leaf₁ leaf₂ internalKey : Bytes) → Option Bytes
  schnorrVerify : (key digest sig : Bytes) → Bool
  schnorrSign : P.SecretKey → Bytes → Bytes
  schnorrVerify_sign : ∀ sk digest,
    schnorrVerify (Prims.xOnly (P.pubOf sk)) digest (schnorrSign sk digest)
  length_schnorrSign : ∀ sk digest, (schnorrSign sk digest).length = 64
  /-- the aggregated signature of two keys under a tweak -/
  musigSign : (my other : P.SecretKey) → (tweak digest : Bytes) → Option Bytes

/-! ## The rule -/

variable {P : Prims} (T : TapPrims P) (tx : Transaction)

/-- A signature as a leaf takes it: with the default digest, or with a byte that names
another one. -/
def tapSigOk (i : Nat) (prevouts : List TxOut) (leaf key sig : Bytes) : Bool :=
  key.length = 32 &&
    if sig.length = 64 then T.schnorrVerify key (T.leafSighash tx i prevouts leaf 0) sig
    else match sig.getLast? with
      | none => false
      | some sighashType => sig.length = 65 && sighashType ≠ 0 &&
          T.schnorrVerify key (T.leafSighash tx i prevouts leaf sighashType) sig.dropLast

def tapCtx (i : Nat) (input : TxIn) (prevouts : List TxOut) (leaf : Bytes) :
    SpendCtx where
  sha256 := P.sha256
  hash160 := P.hash160
  sigOk := tapSigOk T tx i prevouts leaf
  version := tx.version
  lockTime := tx.lockTime
  sequence := input.sequence
  otherSequences := (tx.input.eraseIdx i).map (·.sequence)

/-- Input `i` is a valid spend of its output by a leaf. -/
def spendsTaprootLeaf (i : Nat) (prevouts : List TxOut) : Bool :=
  match tx.input[i]?, prevouts[i]? with
  | some input, some output =>
    match input.witness.reverse with
    | control :: leaf :: stack =>
      let outputKey := output.scriptPubkey.drop 2
      input.scriptSig = [] && control.head? ≠ some 0x50 && outputKey.length = 32 &&
        output.scriptPubkey = p2tr outputKey && T.commits outputKey leaf control &&
        satisfies (tapCtx T tx i input prevouts leaf) leaf stack.reverse
    | _ => false
  | _, _ => false

variable {T}

theorem drop_p2tr {key} (h : key.length = 32) : (p2tr key).drop 2 = key := by
  simp [p2tr, encode, encodeInstr, intInstr, pushSlice, h]

theorem spendsTaprootLeaf_iff {tx : Transaction} {i : Nat} {prevouts : List TxOut} {input : TxIn}
    {value : Nat} {key leaf control : Bytes} {stack : List Bytes} (hin : tx.input[i]? = some input)
    (hout : prevouts[i]? = some ⟨value, p2tr key⟩) (hkey : key.length = 32)
    (hwit : input.witness = stack ++ [leaf, control]) :
    spendsTaprootLeaf T tx i prevouts ↔
      input.scriptSig = [] ∧ control.head? ≠ some 0x50 ∧ T.commits key leaf control ∧
        satisfies (tapCtx T tx i input prevouts leaf) leaf stack = true := by
  simp [spendsTaprootLeaf, hin, hout, hwit, drop_p2tr hkey, hkey, and_assoc]

theorem tapSigOk_default {tx i prevouts leaf sk} :
    tapSigOk T tx i prevouts leaf (Prims.xOnly (P.pubOf sk))
      (T.schnorrSign sk (T.leafSighash tx i prevouts leaf 0)) = true := by
  simp [tapSigOk, T.length_schnorrSign, T.schnorrVerify_sign]

theorem tapSigOk_named {tx i prevouts leaf sk sighashType} (h : sighashType ≠ 0) :
    tapSigOk T tx i prevouts leaf (Prims.xOnly (P.pubOf sk))
      (T.schnorrSign sk (T.leafSighash tx i prevouts leaf sighashType) ++ [sighashType]) =
      true := by
  simp [tapSigOk, T.length_schnorrSign, T.schnorrVerify_sign, h]

/-! ## When a transaction may be in a block -/

theorem cltvOk_height {ctx n} (hn : n < lockTimeThreshold) (hlock : ctx.lockTime = n)
    (hsequence : ctx.sequence ≠ sequenceFinal) :
    cltvOk ctx (scriptNum n) = true := by
  have hthreshold : n < 500000000 := hn
  have hlen : (scriptNum n).length ≤ 5 := length_scriptNum_le (j := 4) (by omega)
  simp [cltvOk, scriptNumDecode_scriptNum (show n < 2 ^ 64 by omega), hlen, hlock, hn, hsequence]

/-- BIP68: an input's relative lock, counted from the block of its coin. -/
def relativeLockOk (version sequence : Nat) (coin block : BlockTime) : Bool :=
  version < 2 || sequence.testBit 31 ||
    if sequence.testBit 22 then
      coin.medianTimePast + 512 * (sequence % 2 ^ 16) ≤ block.medianTimePast
    else coin.height + sequence % 2 ^ 16 ≤ block.height

/-- The transaction may be in a block, its only input spending a coin of that block or of
an earlier one. -/
def mayBeIn (coin block : BlockTime) : Bool :=
  match tx.input with
  | [input] =>
    let ctx : SpendCtx := ⟨id, id, fun _ _ => false, tx.version, tx.lockTime, input.sequence, []⟩
    coin.height ≤ block.height && isFinalIn ctx block &&
      relativeLockOk tx.version input.sequence coin block
  | _ => false

theorem mayBeIn_relative {tx input coin block} (hin : tx.input = [input])
    (hversion : tx.version = 2) (hlock : tx.lockTime = 0) (hsequence : input.sequence < 2 ^ 16) :
    mayBeIn tx coin block ↔ coin.height + input.sequence ≤ block.height := by
  have hbit : ∀ i, 16 ≤ i → input.sequence.testBit i = false := fun i hi =>
    Nat.testBit_lt_two_pow (hsequence.trans_le (Nat.pow_le_pow_right (by decide) hi))
  simp only [mayBeIn, hin, isFinalIn, hlock, decide_true, Bool.true_or, Bool.and_true,
    relativeLockOk, hversion, hbit 31 (by decide), hbit 22 (by decide), Nat.mod_eq_of_lt hsequence,
    Bool.and_eq_true, decide_eq_true_eq, Bool.or_false, Nat.lt_irrefl, decide_false, Bool.false_or,
    Bool.false_eq_true, if_false]
  omega

theorem mayBeIn_absolute {tx input coin block} (hin : tx.input = [input]) (hzero : tx.lockTime ≠ 0)
    (hheight : tx.lockTime < lockTimeThreshold) (hoptout : input.sequence.testBit 31)
    (hfinal : input.sequence ≠ sequenceFinal) :
    mayBeIn tx coin block ↔ coin.height ≤ block.height ∧ tx.lockTime < block.height := by
  simp [mayBeIn, hin, isFinalIn, hzero, hheight, hfinal, relativeLockOk, hoptout]

/-! ## Primitives from tables -/

structure TapTables where
  /-- control blocks by the leaves, the internal key and the leaf they are for -/
  controlBlocks : List ((Bytes × Bytes × Bytes × Bytes) × Bytes)
  leafSighash : List ((Transaction × Nat × List TxOut × Bytes × UInt8) × Bytes)
  signatures : List ((Fin 15 × Bytes) × Bytes)

namespace TapTables

def control (u : TapTables) (leaf₁ leaf₂ internalKey leaf : Bytes) : Option Bytes :=
  (u.controlBlocks.lookup (leaf₁, leaf₂, internalKey, leaf)).filter fun control =>
    control.head?.any fun version => version &&& 0xfe = 0xc0

def covers (u : TapTables) (t : Tables) : Bool :=
  t.taproot.all fun ((leaf₁, leaf₂, internalKey), (outputKey, _)) =>
    outputKey.length = 32 && (u.control leaf₁ leaf₂ internalKey leaf₁).isSome &&
      (u.control leaf₁ leaf₂ internalKey leaf₂).isSome

def signature (u : TapTables) (sk : Fin 15) (d : Bytes) : Bytes :=
  digest 64 u.signatures (sk, d)

variable {t : Tables} {leaf₁ leaf₂ internalKey outputKey tweak : Bytes} {u : TapTables}

theorem mem_of_taproot (h : t.prims.taproot leaf₁ leaf₂ internalKey = some (outputKey, tweak)) :
    ((leaf₁, leaf₂, internalKey), (outputKey, tweak)) ∈ t.taproot := by
  obtain ⟨_, _, hsplit, -⟩ := List.lookup_eq_some_iff.mp h
  simp [hsplit]

theorem covers_outputKey (h : u.covers t)
    (htaproot : t.prims.taproot leaf₁ leaf₂ internalKey = some (outputKey, tweak)) :
    outputKey.length = 32 ∧ (u.control leaf₁ leaf₂ internalKey leaf₁).isSome ∧
      (u.control leaf₁ leaf₂ internalKey leaf₂).isSome := by
  have hall := List.all_eq_true.mp h _ (mem_of_taproot htaproot)
  simpa [and_assoc] using hall

theorem control_eq_some {leaf} (h : (u.control leaf₁ leaf₂ internalKey leaf).isSome) :
    ∃ version path, u.control leaf₁ leaf₂ internalKey leaf = some (version :: path) ∧
      version &&& 0xfe = 0xc0 := by
  obtain ⟨control, hcontrol⟩ := Option.isSome_iff_exists.mp h
  obtain ⟨-, hversion⟩ := Option.filter_eq_some_iff.mp hcontrol
  cases control with
  | nil => cases hversion
  | cons version path => exact ⟨version, path, hcontrol, by simpa using hversion⟩

def tapPrims (u : TapTables) (t : Tables) (h : u.covers t = true) : TapPrims t.prims where
  controlBlock := u.control
  commits outputKey leaf control := t.taproot.any fun ((leaf₁, leaf₂, internalKey), (key, _)) =>
    key = outputKey && u.control leaf₁ leaf₂ internalKey leaf = some control
  length_outputKey htaproot := (covers_outputKey h htaproot).1
  exists_controlBlock := by
    intro leaf₁ leaf₂ internalKey outputKey tweak leaf htaproot hleaf
    obtain ⟨-, hleft, hright⟩ := covers_outputKey h htaproot
    have hsome : (u.control leaf₁ leaf₂ internalKey leaf).isSome := by
      rcases hleaf with rfl | rfl
      · exact hleft
      · exact hright
    obtain ⟨version, path, hcontrol, hversion⟩ := control_eq_some hsome
    refine ⟨version, path, hcontrol, hversion, List.any_eq_true.mpr ?_⟩
    exact ⟨_, mem_of_taproot htaproot, by simp [hcontrol]⟩
  leafSighash tx i prevouts leaf ty :=
    digest 32 u.leafSighash (tx.stripWitness, i, prevouts, leaf, ty)
  leafSighash_stripWitness tx := by
    funext
    simp [Transaction.stripWitness, Function.comp_def]
  keySighash _ _ _ _ _ := none
  schnorrVerify key d sig := (List.finRange 15).any fun sk =>
    Prims.xOnly (P := t.prims) (.mul sk) = key && sig = u.signature sk d
  schnorrSign := u.signature
  schnorrVerify_sign sk d :=
    List.any_eq_true.mpr ⟨sk, List.mem_finRange sk, by simp [Tables.prims]⟩
  length_schnorrSign sk d := length_digest 64 u.signatures (sk, d)
  musigSign _ _ _ _ := none

end TapTables

end Btc
