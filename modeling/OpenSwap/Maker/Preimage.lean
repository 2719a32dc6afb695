import OpenSwap.Maker.TaprootLocks
import OpenSwap.Wallet.Swapcoin

/-!
# Learning the preimage from a spend of the outgoing contract

`checkForPreimage` reads the spends of the maker's outgoing contracts and gives the
preimages it finds in them to the incoming coins.
-/

namespace OpenSwap

open Btc Checked List Option

variable {P : Prims}

def preimageLen : Nat := 32

abbrev IncomingStore (P : Prims) := Bytes → Option (IncomingSwapCoin P)

/-- What one pass asks of the watchtower or the backend, and the final save. -/
structure PreimageEnv where
  spendOf : OutPoint → Except MakerError (Option Transaction)
  save : Except MakerError Unit

/-- The item a hashlock spend shows its preimage in, if it has the right length. -/
def shownPreimage (input : TxIn) : Option Bytes :=
  match input.witness with
  | _ :: item :: _ => if item.length = preimageLen then some item else none
  | _ => none

/-- One input of a spend: skipped if its outpoint was already seen in this pass. -/
def scanInput (acc : List OutPoint × List Bytes) (input : TxIn) : List OutPoint × List Bytes :=
  if input.previousOutput ∈ acc.1 then acc
  else (input.previousOutput :: acc.1, acc.2 ++ (shownPreimage input).toList)

def preimagesOf (inputs : List TxIn) : List Bytes := (inputs.foldl scanInput ([], [])).2

variable (c : IncomingSwapCoin P)

def matchesHashlock (preimage : Bytes) : Bool :=
  match c.contractRedeemscript with
  | some redeemscript =>
    match readHashvalueFromContract redeemscript with
    | .ok h => h = P.hash160 preimage
    | .error _ => false
  | none =>
    match c.hashlockScript with
    | some script => 34 ≤ script.length && slice script 2 32 = P.sha256 preimage
    | none => false

def IncomingSwapCoin.learn (preimage : Bytes) : IncomingSwapCoin P :=
  if c.hashPreimage = none then { c with hashPreimage := some preimage } else c

def applyPreimage (preimages : List Bytes) (store : IncomingStore P) (c : IncomingSwapCoin P) :
    IncomingStore P :=
  match preimages.find? (matchesHashlock c) with
  | none => store
  | some preimage =>
    fun key => if key = c.contractTxid then (store key).map (·.learn preimage) else store key

def checkForPreimage (env : PreimageEnv) (outgoing : List (OutgoingSwapCoin P))
    (incoming : List (IncomingSwapCoin P)) (store : IncomingStore P) :
    Except MakerError Unit × IncomingStore P :=
  match collectM (fun o => env.spendOf (OutgoingSwapCoin.contractOutpoint o)) outgoing with
  | .error e => (.error e, store)
  | .ok spends =>
    let preimages := preimagesOf (spends.flatMap fun tx => (tx.map (·.input)).getD [])
    if preimages = [] then (.ok (), store)
    else (env.save, incoming.foldl (applyPreimage preimages) store)

/-! ## What one pass collects -/

/-- The chain's answers agree: an outpoint is spent by one input only. -/
def OneSpender (inputs : List TxIn) : Prop :=
  ∀ i ∈ inputs, ∀ j ∈ inputs, i.previousOutput = j.previousOutput → i.witness = j.witness

variable {i input : TxIn} {p : Bytes} {preimages : List Bytes}

theorem shownPreimage_congr {j} (h : i.witness = j.witness) :
    shownPreimage i = shownPreimage j := by
  unfold shownPreimage
  rw [h]

theorem shownPreimage_length (h : shownPreimage i = some p) :
    p.length = preimageLen := by
  unfold shownPreimage at h
  split at h
  · split at h
    · rename_i hlen
      cases h
      exact hlen
    · cases h
  · cases h

/-- What the scan has seen and collected after the inputs `done`. -/
structure Scanned (done : List TxIn) (acc : List OutPoint × List Bytes) : Prop where
  seen : ∀ o, o ∈ acc.1 ↔ ∃ i ∈ done, i.previousOutput = o
  found : ∀ p, p ∈ acc.2 ↔ ∃ i ∈ done, shownPreimage i = some p

theorem scanned_step {done acc} (h : Scanned done acc)
    (hone : ∀ i ∈ done, i.previousOutput = input.previousOutput →
      i.witness = input.witness) : Scanned (done ++ [input]) (scanInput acc input) := by
  unfold scanInput
  split
  · -- already seen: an equal input was scanned before
    rename_i hmem
    obtain ⟨i, hi, hprev⟩ := (h.seen _).mp hmem
    have hshown : shownPreimage input = shownPreimage i :=
      (shownPreimage_congr (hone i hi hprev)).symm
    constructor
    · intro o
      rw [h.seen]
      constructor
      · rintro ⟨k, hk, rfl⟩
        exact ⟨k, mem_append_left _ hk, rfl⟩
      · rintro ⟨k, hk, rfl⟩
        rcases mem_append.mp hk with hk | hk
        · exact ⟨k, hk, rfl⟩
        · rw [mem_singleton.mp hk]
          exact ⟨i, hi, hprev⟩
    · intro p
      rw [h.found]
      constructor
      · rintro ⟨k, hk, hp⟩
        exact ⟨k, mem_append_left _ hk, hp⟩
      · rintro ⟨k, hk, hp⟩
        rcases mem_append.mp hk with hk | hk
        · exact ⟨k, hk, hp⟩
        · rw [mem_singleton.mp hk, hshown] at hp
          exact ⟨i, hi, hp⟩
  · constructor
    · intro o
      simp only [mem_cons, h.seen, mem_append, not_mem_nil, or_false, or_and_right,
        exists_or, exists_eq_left, eq_comm (a := o)]
      exact or_comm
    · intro p
      simp only [mem_append, h.found, mem_toList, mem_singleton, or_and_right,
        exists_or, exists_eq_left]

/-- **The preimages of a pass** are those its inputs show. -/
theorem mem_preimagesOf {inputs} (hone : OneSpender inputs) :
    p ∈ preimagesOf inputs ↔ ∃ i ∈ inputs, shownPreimage i = some p := by
  suffices h : ∀ rest done acc, done ++ rest = inputs → Scanned done acc →
      Scanned inputs (rest.foldl scanInput acc) from
    (h inputs [] ([], []) rfl ⟨by simp, by simp⟩).found p
  intro rest
  induction rest with
  | nil =>
    intro done acc heq h
    rw [append_nil] at heq
    exact heq ▸ h
  | cons input rest ih =>
    intro done acc heq h
    refine ih (done ++ [input]) _ (by simpa using heq) (scanned_step h fun i hi hprev => ?_)
    exact hone i (heq ▸ mem_append_left _ hi) input
      (heq ▸ mem_append_right _ (mem_cons_self ..)) hprev

/-! ## What the coins hold afterwards -/

theorem IncomingSwapCoin.learn_hashPreimage (p : Bytes) :
    (c.learn p).hashPreimage = some (c.hashPreimage.getD p) := by
  unfold learn
  split
  · rename_i h
    rw [h]
    rfl
  · rename_i h
    obtain ⟨q, hq⟩ := ne_none_iff_exists'.mp h
    rw [hq]
    rfl

theorem IncomingSwapCoin.learn_learn (p : Bytes) : (c.learn p).learn p = c.learn p := by
  have h := c.learn_hashPreimage p
  rw [learn, if_neg (by rw [h]; exact some_ne_none _)]

theorem foldl_applyPreimage_none {incoming : List (IncomingSwapCoin P)}
    (h : ∀ c ∈ incoming, preimages.find? (matchesHashlock c) = none) (store : IncomingStore P) :
    incoming.foldl (applyPreimage preimages) store = store := by
  induction incoming with
  | nil => rfl
  | cons c rest ih =>
    have hc : applyPreimage preimages store c = store := by
      rw [applyPreimage, h c (mem_cons_self ..)]
    rw [foldl_cons, hc]
    exact ih fun d hd => h d (mem_cons_of_mem _ hd)

/-- Coins that agree on the first match all learn that preimage. -/
theorem foldl_applyPreimage_some {incoming : List (IncomingSwapCoin P)}
    (h : ∀ c ∈ incoming, preimages.find? (matchesHashlock c) = some p) (store : IncomingStore P)
    (key : Bytes) :
    incoming.foldl (applyPreimage preimages) store key =
      if key ∈ incoming.map IncomingSwapCoin.contractTxid then (store key).map (·.learn p)
      else store key := by
  induction incoming generalizing store with
  | nil => rfl
  | cons c rest ih =>
    have hc : applyPreimage preimages store c =
        fun key => if key = c.contractTxid then (store key).map (·.learn p) else store key := by
      rw [applyPreimage, h c (mem_cons_self ..)]
    rw [foldl_cons, ih (fun d hd => h d (mem_cons_of_mem _ hd)), hc]
    by_cases hk : key = c.contractTxid <;>
      by_cases hr : key ∈ rest.map IncomingSwapCoin.contractTxid
    · simp [hk, hk ▸ hr, Function.comp_def, IncomingSwapCoin.learn_learn]
    · simp [hk, hk ▸ hr]
    · simp [hk, hr]
    · simp [hk, hr]

/-! ## A hashlock spend hands the preimage over -/

/-- The preimage opens a hashlock leaf, with any valid signature. -/
def OpensHashlock (P : Prims) (script preimage : Bytes) : Prop :=
  ∀ (ctx : SpendCtx) (sig : Bytes), ctx.sha256 = P.sha256 → (∀ key, ctx.sigOk key sig = true) →
    sig.length ≤ maxElementSize → satisfies ctx script [sig, preimage] = true

theorem opensHashlock_iff {script hash key p}
    (hs : collect (instructions script) = .ok (hashLeaf hash key))
    (hp : p.length ≤ maxElementSize) :
    OpensHashlock P script p ↔ P.sha256 p = hash := by
  constructor
  · intro h
    let ctx : SpendCtx :=
      { sha256 := P.sha256, hash160 := P.hash160, sigOk := fun _ _ => true, version := 2
        lockTime := 0, sequence := 0, otherSequences := [] }
    have hsat := h ctx [] rfl (fun _ => rfl) (by decide)
    obtain ⟨sig, x, hwit, -, -, hx, -⟩ := (satisfies_hashLeaf hs).mp hsat
    obtain ⟨-, rfl⟩ : [] = sig ∧ p = x := by simpa using hwit
    exact hx
  · intro h ctx sig hsha hsig hlen
    exact (satisfies_hashLeaf hs).mpr ⟨sig, p, rfl, hlen, hp, by rw [hsha]; exact h, hsig key⟩

/-- The coin stored for a contract holds a preimage that opens its own leaf. -/
def HoldsOwnPreimage (store : IncomingStore P) (c : IncomingSwapCoin P) : Prop :=
  ∃ w p script, store c.contractTxid = some w ∧ w.hashPreimage = some p ∧
    c.hashlockScript = some script ∧ OpensHashlock P script p

def readInputs (env : PreimageEnv) (outgoing : List (OutgoingSwapCoin P)) : List TxIn :=
  outgoing.flatMap fun o =>
    match env.spendOf o.contractOutpoint with
    | .ok (some tx) => tx.input
    | _ => []

theorem collectM_spends {env : PreimageEnv} {outgoing : List (OutgoingSwapCoin P)}
    (h : ∀ o ∈ outgoing, (env.spendOf o.contractOutpoint).isOk) :
    ∃ spends, collectM (fun o => env.spendOf (OutgoingSwapCoin.contractOutpoint o)) outgoing
        = .ok spends ∧
      spends.flatMap (fun tx => (tx.map (·.input)).getD []) = readInputs env outgoing := by
  induction outgoing with
  | nil => exact ⟨[], rfl, rfl⟩
  | cons o rest ih =>
    obtain ⟨spends, hs, hin⟩ := ih fun d hd => h d (mem_cons_of_mem _ hd)
    cases hq : env.spendOf o.contractOutpoint with
    | error e =>
      have := h o (mem_cons_self ..)
      rw [hq] at this
      cases this
    | ok r =>
      refine ⟨r :: spends, ?_, ?_⟩
      · simp only [collectM, hq, hs]
        rfl
      · rw [flatMap_cons, hin]
        simp only [readInputs, flatMap_cons, hq]
        cases r <;> rfl

section Pass

variable {env : PreimageEnv} {outgoing : List (OutgoingSwapCoin P)}
  {incoming : List (IncomingSwapCoin P)} {store : IncomingStore P} {script hash key : Bytes}
  (hq : ∀ o ∈ outgoing, (env.spendOf o.contractOutpoint).isOk = true)
  (hone : OneSpender (readInputs env outgoing))
  (hleaf : collect (instructions script) = .ok (hashLeaf hash key)) (hlen : hash.length = 32)
  (hinc : ∀ c ∈ incoming, c.contractRedeemscript = none ∧ c.hashlockScript = some script)
  (hstore : ∀ c ∈ incoming, (store c.contractTxid).isSome = true)

include hq hone hleaf hlen hinc hstore

/-- **When a coin holds its own preimage after a pass**: it held one before, or it
held none, the leaf's hash stands at the offset the pass compares at, and some input
read shows a 32-byte preimage of it. -/
theorem checkForPreimage_holds_iff {c : IncomingSwapCoin P} (hc : c ∈ incoming) :
    HoldsOwnPreimage (checkForPreimage env outgoing incoming store).2 c ↔
      HoldsOwnPreimage store c ∨
        ((∀ w, store c.contractTxid = some w → w.hashPreimage = none) ∧ slice script 2 32 = hash ∧
          ∃ i ∈ readInputs env outgoing, ∃ p, shownPreimage i = some p ∧ P.sha256 p = hash) := by
  obtain ⟨w, hw⟩ := isSome_iff_exists.mp (hstore c hc)
  obtain ⟨spends, hspends, hinputs⟩ := collectM_spends hq
  have hopens : ∀ {p : Bytes}, p.length = preimageLen →
      (OpensHashlock P script p ↔ P.sha256 p = hash) := fun hp =>
    opensHashlock_iff hleaf (hp.trans_le (by decide))
  have hmatch : ∀ d ∈ incoming, ∀ p, matchesHashlock d p = true ↔
      34 ≤ script.length ∧ slice script 2 32 = P.sha256 p := by
    intro d hd p
    obtain ⟨hr, hs⟩ := hinc d hd
    simp [matchesHashlock, hr, hs]
  have hslice : slice script 2 32 = hash → 34 ≤ script.length := by
    intro h
    rw [← h, slice, length_take, length_drop] at hlen
    omega
  simp only [checkForPreimage, hspends, hinputs]
  generalize hpre : preimagesOf (readInputs env outgoing) = preimages
  have hmem : ∀ p, p ∈ preimages ↔ ∃ i ∈ readInputs env outgoing, shownPreimage i = some p :=
    fun p => hpre ▸ mem_preimagesOf hone
  -- whatever was found first, the store changes as the match says
  have hresult : (if preimages = [] then ((.ok () : Except MakerError Unit), store)
      else (env.save, incoming.foldl (applyPreimage preimages) store)).2 =
      incoming.foldl (applyPreimage preimages) store := by
    split
    · rename_i hnil
      rw [foldl_applyPreimage_none (fun d _ => by rw [hnil]; rfl)]
    · rfl
  rw [hresult]
  have hfind : ∀ d ∈ incoming,
      preimages.find? (matchesHashlock d) = preimages.find? (matchesHashlock c) := by
    intro d hd
    congr 1
    funext p
    rw [Bool.eq_iff_iff, hmatch d hd, hmatch c hc]
  cases hf : preimages.find? (matchesHashlock c) with
  | none =>
    rw [foldl_applyPreimage_none fun d hd => (hfind d hd).trans hf]
    refine ⟨Or.inl, ?_⟩
    rintro (h | ⟨-, hsl, i, hi, p, hshown, hp⟩)
    · exact h
    · have := find?_eq_none.mp hf p ((hmem p).mpr ⟨i, hi, hshown⟩)
      exact absurd ((hmatch c hc p).mpr ⟨hslice hsl, hsl.trans hp.symm⟩) this
  | some p =>
    have hsl : slice script 2 32 = P.sha256 p :=
      ((hmatch c hc p).mp (find?_some hf)).2
    obtain ⟨i, hi, hshown⟩ := (hmem p).mp (mem_of_find?_eq_some hf)
    have hkey : c.contractTxid ∈ incoming.map IncomingSwapCoin.contractTxid :=
      mem_map_of_mem hc
    have hafter : incoming.foldl (applyPreimage preimages) store c.contractTxid =
        some (w.learn p) := by
      rw [foldl_applyPreimage_some (fun d hd => (hfind d hd).trans hf), if_pos hkey, hw]
      rfl
    constructor
    · rintro ⟨w', q, script', hw', hq', hs', hopen⟩
      rw [hafter, Option.some.injEq] at hw'
      obtain rfl : script = script' := Option.some.inj ((hinc c hc).2.symm.trans hs')
      subst hw'
      rw [IncomingSwapCoin.learn_hashPreimage, Option.some.injEq] at hq'
      cases hwp : w.hashPreimage with
      | some q' =>
        rw [hwp, getD_some] at hq'
        exact Or.inl ⟨w, q, script, hw, hq' ▸ hwp, hs', hopen⟩
      | none =>
        rw [hwp, getD_none] at hq'
        subst hq'
        have hp : P.sha256 p = hash := (hopens (shownPreimage_length hshown)).mp hopen
        refine Or.inr ⟨fun w' hw' => ?_, hsl.trans hp, i, hi, p, hshown, hp⟩
        rw [hw, Option.some.injEq] at hw'
        exact hw' ▸ hwp
    · rintro (⟨w', q, script', hw', hq', hs', hopen⟩ | ⟨hnone, hsl', -⟩)
      · rw [hw, Option.some.injEq] at hw'
        subst hw'
        refine ⟨w.learn p, q, script', hafter, ?_, hs', hopen⟩
        rw [IncomingSwapCoin.learn_hashPreimage, hq', getD_some]
      · refine ⟨w.learn p, p, script, hafter, ?_, (hinc c hc).2,
          (hopens (shownPreimage_length hshown)).mpr (hsl.symm.trans hsl')⟩
        rw [IncomingSwapCoin.learn_hashPreimage, hnone w hw, getD_none]

end Pass

theorem mem_readInputs {env : PreimageEnv} {outgoing : List (OutgoingSwapCoin P)}
    {o : OutgoingSwapCoin P} {tx : Transaction} (ho : o ∈ outgoing)
    (hspend : env.spendOf o.contractOutpoint = .ok (some tx)) (hin : input ∈ tx.input) :
    input ∈ readInputs env outgoing := by
  refine mem_flatMap.mpr ⟨o, ho, ?_⟩
  rw [hspend]
  exact hin

theorem shownPreimage_scriptPath {leaf sig x} (h : IsScriptPath input.witness leaf [sig, x]) :
    shownPreimage input = if x.length = preimageLen then some x else none := by
  obtain ⟨control, annex, hwit, -⟩ := h
  simp only [shownPreimage, hwit, cons_append, nil_append]

/-- **When a hashlock claim hands the maker its own.**  Once a pass reads a spend of an outgoing
contract through its hash leaf, every incoming coin holds a preimage of its leaf exactly if it
held one, or the script has its hash where the pass compares and a 32-byte preimage of it was
read. -/
theorem hashlock_claim_hands_over_iff {tenv : TaprootEnv P} {state : ConnectionState P}
    {data : TaprootContractData P} {incoming : List (IncomingSwapCoin P)}
    {outgoing : List (OutgoingSwapCoin P)} {o : OutgoingSwapCoin P} {leaf : Bytes}
    {env : PreimageEnv} {store : IncomingStore P} {tx : Transaction} {input : TxIn}
    {stack : List Bytes} {ctx : SpendCtx}
    (hacc : processTaprootContract tenv state data = .ok (incoming, outgoing))
    (ho : o ∈ outgoing) (hleaf : o.hashlockScript = some leaf)
    (hspend : env.spendOf o.contractOutpoint = .ok (some tx)) (hin : input ∈ tx.input)
    (hpath : IsScriptPath input.witness leaf stack)
    (hsha : ctx.sha256 = P.sha256) (hsat : satisfies ctx leaf stack = true)
    (hq : ∀ o ∈ outgoing, (env.spendOf o.contractOutpoint).isOk = true)
    (hone : OneSpender (readInputs env outgoing))
    (hstore : ∀ c ∈ incoming, (store c.contractTxid).isSome = true) :
    ∃ hash sig x, extractHashFromHashlock data.hashlockScript = .ok hash ∧ stack = [sig, x] ∧
      P.sha256 x = hash ∧
      ((∀ c ∈ incoming, HoldsOwnPreimage (checkForPreimage env outgoing incoming store).2 c) ↔
        ∀ c ∈ incoming, HoldsOwnPreimage store c ∨
          ((∀ w, store c.contractTxid = some w → w.hashPreimage = none) ∧
            slice data.hashlockScript 2 32 = hash ∧
            (x.length = preimageLen ∨
              ∃ i ∈ readInputs env outgoing, i.previousOutput ≠ input.previousOutput ∧
                ∃ p, shownPreimage i = some p ∧ P.sha256 p = hash))) := by
  obtain ⟨hverify, hinc, hash, hkey, hextract, hkeylen, hout⟩ := processTaprootContract_ok hacc
  obtain ⟨⟨hash', key', hinstr, hlen, -⟩, -, -⟩ := verifyTaprootContractData_ok hverify
  obtain rfl : hash' = hash := by
    rw [extractHashFromHashlock_template hinstr hlen] at hextract
    exact Except.ok.inj hextract
  -- the outgoing leaf is built over the same hash, so the stack shows its preimage
  obtain ⟨-, hscript, -⟩ := hout o ho
  obtain rfl : leaf = createHashlockScript hash' hkey :=
    Option.some.inj (hleaf.symm.trans hscript)
  obtain ⟨sig, x, rfl, -, -, hx, -⟩ :=
    (satisfies_hashLeaf (createHashlockScript_instructions hlen hkeylen)).mp hsat
  rw [hsha] at hx
  have hshown := shownPreimage_scriptPath hpath
  have hread := mem_readInputs ho hspend hin
  have hreveal : (∃ i ∈ readInputs env outgoing, ∃ p, shownPreimage i = some p ∧
        P.sha256 p = hash') ↔
      x.length = preimageLen ∨ ∃ i ∈ readInputs env outgoing,
        i.previousOutput ≠ input.previousOutput ∧
          ∃ p, shownPreimage i = some p ∧ P.sha256 p = hash' := by
    constructor
    · rintro ⟨i, hi, p, hp, hhash⟩
      by_cases hprev : i.previousOutput = input.previousOutput
      · left
        rw [shownPreimage_congr (hone i hi input hread hprev), hshown] at hp
        by_contra hne
        rw [if_neg hne] at hp
        cases hp
      · exact Or.inr ⟨i, hi, hprev, p, hp, hhash⟩
    · rintro (hxlen | ⟨i, hi, -, p, hp, hhash⟩)
      · exact ⟨input, hread, x, by rw [hshown, if_pos hxlen], hx⟩
      · exact ⟨i, hi, p, hp, hhash⟩
  refine ⟨hash', sig, x, hextract, rfl, hx, forall₂_congr fun c hc => ?_⟩
  rw [← hreveal]
  exact checkForPreimage_holds_iff hq hone hinstr hlen
    (fun c hc => ⟨(hinc c hc).2.1, (hinc c hc).2.2.1⟩) hstore hc

/-! ### The hop of the samples, claimed by the next party -/

namespace SampleHop

variable (s : SampleHop)

def incoming : List (IncomingSwapCoin prims) := (s.run.map (·.2.1)).getD []

def outgoing : List (OutgoingSwapCoin prims) := (s.run.map (·.2.2)).getD []

def store (s : SampleHop) : IncomingStore prims := fun k =>
  s.incoming.find? (·.contractTxid = k)

def leaf : Bytes := createHashlockScript s.hash (xKey 10)

def claim (preimage : Bytes) : TxIn where
  previousOutput := ⟨s.nextContractTxid, 0⟩
  scriptSig := []
  sequence := 0
  witness := [List.replicate 64 1, preimage, s.leaf, 0xc0 :: internalKey ++ List.replicate 32 7]

def pass (preimage : Bytes) : PreimageEnv where
  spendOf _ := .ok (some ⟨2, 0, [s.claim preimage], [⟨98000, p2tr (xKey 10)⟩]⟩)
  save := .ok ()

def claimCtx : SpendCtx where
  sha256 := prims.sha256
  hash160 := prims.hash160
  sigOk _ _ := true
  version := 2
  lockTime := 0
  sequence := 0
  otherSequences := []

theorem run_spec {s : SampleHop} (h : s.run.isSome) :
    ∃ ack state, handleSwapDetails admission connection s.details = .ok (some ack, state) ∧
      processTaprootContract env state s.contractData = .ok (s.incoming, s.outgoing) := by
  obtain ⟨ack, state, coins, hadm, hacc, hrun⟩ := runHop_isSome h
  have hr : s.run = some (state, coins) := hrun
  refine ⟨ack, state, hadm, ?_⟩
  rw [incoming, outgoing, hr]
  exact hacc

theorem isScriptPath_claim (preimage : Bytes) :
    IsScriptPath (s.claim preimage).witness s.leaf [List.replicate 64 1, preimage] :=
  ⟨_, [], rfl, Or.inl rfl⟩

end SampleHop

open SampleHop in
/-- A claim with the 32-byte preimage leaves the maker's coin with it. -/
theorem hashlock_claim_honest :
    (∃ ack state, handleSwapDetails admission connection honest.details = .ok (some ack, state) ∧
      processTaprootContract env state honest.contractData
        = .ok (honest.incoming, honest.outgoing)) ∧
    ∀ c ∈ honest.incoming, HoldsOwnPreimage (checkForPreimage (honest.pass preimage) honest.outgoing
        honest.incoming honest.store).2 c := by
  obtain ⟨ack, state, hadm, hacc⟩ := run_spec (show honest.run.isSome = true by decide +kernel)
  refine ⟨⟨ack, state, hadm, hacc⟩, ?_⟩
  have hany : honest.outgoing.any
      (fun o => o.hashlockScript = some honest.leaf) = true := by decide +kernel
  obtain ⟨o, ho, hleaf⟩ := any_eq_true.mp hany
  have hone : OneSpender (readInputs (honest.pass preimage) honest.outgoing) := by
    intro i hi j hj _
    rw [mem_singleton.mp hi, mem_singleton.mp hj]
  have hsat : satisfies claimCtx honest.leaf
      [List.replicate 64 1, preimage] = true := by decide +kernel
  have hstore : ∀ c ∈ honest.incoming, (honest.store c.contractTxid).isSome = true :=
    all_eq_true.mp (by decide +kernel)
  have hnone : ∀ c ∈ honest.incoming,
      (honest.store c.contractTxid).all (·.hashPreimage.isNone) = true :=
    all_eq_true.mp (by decide +kernel)
  obtain ⟨hash, sig, x, hextract, hstack, -, hiff⟩ :=
    hashlock_claim_hands_over_iff hacc ho (of_decide_eq_true hleaf)
      (show (honest.pass preimage).spendOf o.contractOutpoint = .ok (some _) from rfl)
      (mem_singleton.mpr rfl) (isScriptPath_claim _ _) rfl hsat
      (fun _ _ => rfl) hone hstore
  obtain ⟨-, rfl⟩ : _ = sig ∧ preimage = x := by simpa only [List.cons.injEq, and_true] using hstack
  refine hiff.mpr fun c hc => Or.inr ⟨fun w hw => ?_, Except.ok.inj hextract, Or.inl (by decide)⟩
  have := hnone c hc
  rw [hw] at this
  exact isNone_iff_eq_none.mp this

open SampleHop in
/-- The same hop over the hash of 33 bytes: the next party's claim opens the outgoing
leaf, and the pass that reads it leaves the maker without a preimage. -/
theorem oversized_preimage_not_handed_over :
    (∃ ack state, handleSwapDetails admission connection
        longPreimage.details = .ok (some ack, state) ∧
      processTaprootContract env state longPreimage.contractData
        = .ok (longPreimage.incoming, longPreimage.outgoing)) ∧
    (∃ o ∈ longPreimage.outgoing, o.hashlockScript = some longPreimage.leaf ∧
      (longPreimage.claim oversizedPreimage).previousOutput = o.contractOutpoint) ∧
    satisfies claimCtx longPreimage.leaf [List.replicate 64 1, oversizedPreimage] = true ∧
    IsScriptPath (longPreimage.claim oversizedPreimage).witness
      longPreimage.leaf [List.replicate 64 1, oversizedPreimage] ∧
    ∃ c ∈ longPreimage.incoming, ¬ HoldsOwnPreimage
      (checkForPreimage (longPreimage.pass oversizedPreimage)
        longPreimage.outgoing longPreimage.incoming
        longPreimage.store).2 c := by
  obtain ⟨ack, state, hadm, hacc⟩ :=
    run_spec (show longPreimage.run.isSome = true by decide +kernel)
  have hany : longPreimage.outgoing.any (fun o => o.hashlockScript = some longPreimage.leaf ∧
        (longPreimage.claim oversizedPreimage).previousOutput
          = o.contractOutpoint) = true := by decide +kernel
  have hafter : longPreimage.incoming.any (fun c =>
      ((checkForPreimage (longPreimage.pass oversizedPreimage)
        longPreimage.outgoing longPreimage.incoming
        longPreimage.store).2 c.contractTxid).all (·.hashPreimage.isNone)) = true := by
    decide +kernel
  obtain ⟨o, ho, hleaf⟩ := any_eq_true.mp hany
  obtain ⟨c, hc, hnone⟩ := any_eq_true.mp hafter
  refine ⟨⟨ack, state, hadm, hacc⟩, ⟨o, ho, of_decide_eq_true hleaf⟩, by decide +kernel,
    isScriptPath_claim _ _, c, hc, ?_⟩
  rintro ⟨w, p, script, hw, hp, -⟩
  rw [hw] at hnone
  rw [isNone_iff_eq_none.mp hnone] at hp
  cases hp

end OpenSwap
