import OpenSwap.Btc.Script

/-!
# Executing Bitcoin scripts

The consensus meaning of the opcodes that hash time locks, multisig scripts and
lock times are built from, over an abstract signature check and abstract hash
functions.

* `exec` is one opcode on the stack, `run` a whole script with its conditionals,
  `satisfies` the rule for witness programs: the run succeeds and leaves exactly
  one true element.
* `cltvOk` and `csvOk` are the lock-time checks of BIP65 and BIP112; `isFinalIn`
  says in which blocks a transaction with a lock time may appear.
* `satisfies_cltvLeaf` and `satisfies_hashLeaf` state which witnesses the two
  leaf shapes accept.
-/

namespace Btc

structure SpendCtx where
  sha256 : Bytes → Bytes
  hash160 : Bytes → Bytes
  /-- `sigOk key sig`: the signature is valid for this input under the key -/
  sigOk : Bytes → Bytes → Bool
  version : Nat
  lockTime : Nat
  /-- the sequence number of the input that carries the script -/
  sequence : Nat
  otherSequences : List Nat

/-- Lock times below this value are block heights, the others Unix times. -/
def lockTimeThreshold : Nat := 500000000

/-- The sequence number that opts an input out of every lock time. -/
def sequenceFinal : Nat := 0xffffffff

/-! ## Lock times -/

/-- BIP65: the operand and the transaction's lock time are of one kind, the
operand is reached, and this input does not opt out. -/
def cltvOk (ctx : SpendCtx) (operand : Bytes) : Bool :=
  let n := scriptNumDecode operand
  operand.length ≤ 5 && 0 ≤ n &&
    (decide (n < lockTimeThreshold) == decide (ctx.lockTime < lockTimeThreshold)) &&
    n ≤ ctx.lockTime && ctx.sequence ≠ sequenceFinal

/-- BIP112: an operand with bit 31 set is a no-op; otherwise the input's sequence
must be a relative lock of the same kind and of at least that length. -/
def csvOk (ctx : SpendCtx) (operand : Bytes) : Bool :=
  let n := scriptNumDecode operand
  operand.length ≤ 5 && 0 ≤ n &&
    (n.toNat.testBit 31 ||
      (2 ≤ ctx.version && !ctx.sequence.testBit 31 &&
        n.toNat.testBit 22 == ctx.sequence.testBit 22 &&
        n.toNat % 2 ^ 16 ≤ ctx.sequence % 2 ^ 16))

variable {ctx : SpendCtx} {n : Nat} {is : List Instr} {st : List Bytes} {i lock : Instr}
  {elem : Bytes} {witness : List Bytes} {script hash key : Bytes}

theorem csvOk_scriptNum (h : n < 2 ^ 16) :
    csvOk ctx (scriptNum n) ↔
      2 ≤ ctx.version ∧ ctx.sequence.testBit 31 = false ∧ ctx.sequence.testBit 22 = false ∧
        n ≤ ctx.sequence % 2 ^ 16 := by
  have hlen : (scriptNum n).length ≤ 5 :=
    Nat.le_trans (length_scriptNum_le (j := 2) h) (by decide)
  have hbit : ∀ i, 16 ≤ i → n.testBit i = false := fun i hi =>
    Nat.testBit_lt_two_pow (Nat.lt_of_lt_of_le h (Nat.pow_le_pow_right (by decide) hi))
  simp only [csvOk, scriptNumDecode_scriptNum (Nat.lt_trans h (by decide)), Int.toNat_natCast,
    hbit 31 (by decide), hbit 22 (by decide), Nat.mod_eq_of_lt h, hlen, decide_true, Bool.true_and,
    Bool.false_or, Bool.and_eq_true, decide_eq_true_eq, Bool.not_eq_true', beq_iff_eq,
    Int.natCast_nonneg]
  constructor
  · rintro ⟨⟨⟨hv, h31⟩, h22⟩, hn⟩
    exact ⟨hv, h31, h22.symm, hn⟩
  · rintro ⟨hv, h31, h22, hn⟩
    exact ⟨⟨⟨hv, h31⟩, h22.symm⟩, hn⟩

/-- The two measures of time a block has for lock times. -/
structure BlockTime where
  height : Nat
  medianTimePast : Nat

/-- A transaction may be in a block once its lock time is strictly past, or when
every input opts out. -/
def isFinalIn (ctx : SpendCtx) (block : BlockTime) : Bool :=
  ctx.lockTime = 0 ||
    ctx.lockTime < (if ctx.lockTime < lockTimeThreshold then block.height
      else block.medianTimePast) ||
    (ctx.sequence :: ctx.otherSequences).all (· = sequenceFinal)

theorem height_of_cltvOk {block operand} (hn : scriptNumDecode operand = n)
    (hlt : n < lockTimeThreshold) (hok : cltvOk ctx operand) (hfin : isFinalIn ctx block) :
    n = 0 ∨ n < block.height := by
  simp only [cltvOk, hn, Bool.and_eq_true, decide_eq_true_eq, beq_iff_eq] at hok
  obtain ⟨⟨⟨-, hkind⟩, hle⟩, hseq⟩ := hok
  have hkind' : ctx.lockTime < lockTimeThreshold := by
    have : decide ((n : Int) < lockTimeThreshold) = true := by simpa using hlt
    rw [this] at hkind
    exact of_decide_eq_true hkind.symm
  simp only [isFinalIn, Bool.or_eq_true, decide_eq_true_eq, List.all_cons, Bool.and_eq_true,
    hkind', ↓reduceIte] at hfin
  rcases hfin with (h0 | hlt) | ⟨h, -⟩
  · left; omega
  · right; omega
  · exact absurd h hseq

/-! ## Opcodes -/

inductive Op where
  | opIf | opElse | opEndIf
  | num (n : Int)
  | drop | rot | swap | size | equal | equalVerify | sha256 | hash160
  | checkSig | checkMultiSig | cltv | csv
deriving DecidableEq, Repr

def Op.ofCode (code : UInt8) : Option Op :=
  if code = Opcode.opIf then some .opIf
  else if code = Opcode.opElse then some .opElse
  else if code = Opcode.opEndIf then some .opEndIf
  else if code = Opcode.drop then some .drop
  else if code = Opcode.rot then some .rot
  else if code = Opcode.swap then some .swap
  else if code = Opcode.size then some .size
  else if code = Opcode.equal then some .equal
  else if code = Opcode.equalVerify then some .equalVerify
  else if code = Opcode.sha256 then some .sha256
  else if code = Opcode.hash160 then some .hash160
  else if code = Opcode.checkSig then some .checkSig
  else if code = Opcode.checkMultiSig then some .checkMultiSig
  else if code = Opcode.cltv then some .cltv
  else if code = Opcode.csv then some .csv
  else (Opcode.pushNum code).map .num

/-- An element is false when its magnitude is zero, whatever its sign. -/
def truthy (b : Bytes) : Bool := b.any (· ≠ 0) && !isNegativeZero b

def ofBool (b : Bool) : Bytes := if b then [1] else []

/-- The number an opcode pushes, as the stack element it is. -/
def numElem (n : Int) : Bytes := if n < 0 then [0x81] else scriptNum n.toNat

/-- Match signatures against keys in order; both lists are top of stack first. -/
def multiSigOk (ok : Bytes → Bytes → Bool) : List Bytes → List Bytes → Bool
  | _, [] => true
  | [], _ :: _ => false
  | key :: keys, sig :: sigs =>
    if ok key sig then multiSigOk ok keys sigs else multiSigOk ok keys (sig :: sigs)

/-- `OP_CHECKMULTISIG`: key count, keys, signature count, signatures and the empty
dummy element, from the top of the stack. -/
def execMultiSig (ctx : SpendCtx) : List Bytes → Option (List Bytes)
  | [] => none
  | nElem :: st =>
    let n := (scriptNumDecode nElem).toNat
    match st.drop n with
    | [] => none
    | mElem :: st' =>
      let m := (scriptNumDecode mElem).toNat
      match st'.drop m with
      | [] => none
      | dummy :: rest =>
        if nElem.length ≤ 4 ∧ 0 ≤ scriptNumDecode nElem ∧ n ≤ 20 ∧ mElem.length ≤ 4 ∧
            0 ≤ scriptNumDecode mElem ∧ m ≤ n ∧ dummy = [] then
          some (ofBool (multiSigOk ctx.sigOk (st.take n) (st'.take m)) :: rest)
        else none

/-- One opcode outside of control flow; `none` is a failed script.  The stack has
its top first. -/
def exec (ctx : SpendCtx) : Op → List Bytes → Option (List Bytes)
  | .num n, st => some (numElem n :: st)
  | .drop, _ :: st => some st
  | .rot, a :: b :: c :: st => some (c :: a :: b :: st)
  | .swap, a :: b :: st => some (b :: a :: st)
  | .size, a :: st => some (scriptNum a.length :: a :: st)
  | .equal, a :: b :: st => some (ofBool (a = b) :: st)
  | .equalVerify, a :: b :: st => if a = b then some st else none
  | .sha256, a :: st => some (ctx.sha256 a :: st)
  | .hash160, a :: st => some (ctx.hash160 a :: st)
  | .checkSig, key :: sig :: st => some (ofBool (ctx.sigOk key sig) :: st)
  | .checkMultiSig, st => execMultiSig ctx st
  | .cltv, a :: st => if cltvOk ctx a then some (a :: st) else none
  | .csv, a :: st => if csvOk ctx a then some (a :: st) else none
  | _, _ => none

/-- Run a script.  `cond` holds the truth of the enclosing conditionals, innermost
first; instructions in a branch not taken are skipped. -/
def run (ctx : SpendCtx) : List Instr → List Bool → List Bytes → Option (List Bytes)
  | [], [], st => some st
  | [], _ :: _, _ => none
  | .push data :: is, cond, st =>
    if cond.all id then run ctx is cond (data :: st) else run ctx is cond st
  | .op code :: is, cond, st =>
    match Op.ofCode code, cond, st with
    | none, _, _ => none
    | some .opIf, cond, st =>
      if cond.all id then
        match st with
        | [] => none
        | a :: st => run ctx is (truthy a :: cond) st
      else run ctx is (false :: cond) st
    | some .opElse, c :: cond, st => run ctx is ((!c) :: cond) st
    | some .opElse, [], _ => none
    | some .opEndIf, _ :: cond, st => run ctx is cond st
    | some .opEndIf, [], _ => none
    | some op, cond, st =>
      if cond.all id then (exec ctx op st).bind (run ctx is cond) else run ctx is cond st

/-- The largest element a witness may put on the stack. -/
def maxElementSize : Nat := 520

/-- A witness (bottom of the stack first) satisfies a script: every element has
an admissible size, the script runs, and one true element is left. -/
def satisfies (ctx : SpendCtx) (script : Bytes) (witness : List Bytes) : Bool :=
  witness.all (·.length ≤ maxElementSize) &&
    match collect (instructions script) with
    | .error _ => false
    | .ok is =>
      match run ctx is [] witness.reverse with
      | some [a] => truthy a
      | _ => false

/-! ## Running straight-line code -/

/-- The element an instruction puts on the stack, for pushes and number opcodes. -/
def Instr.pushes : Instr → Option Bytes
  | .push data => some data
  | .op code =>
    match Op.ofCode code with
    | some (.num n) => some (numElem n)
    | _ => none

def Op.isControl : Op → Bool
  | .opIf | .opElse | .opEndIf => true
  | _ => false

@[simp] theorem run_nil (ctx : SpendCtx) (st : List Bytes) : run ctx [] [] st = some st := rfl

@[simp] theorem run_push (ctx : SpendCtx) (data : Bytes) (is : List Instr) (st : List Bytes) :
    run ctx (.push data :: is) [] st = run ctx is [] (data :: st) := rfl

theorem run_op {code} (op : Op) (hop : Op.ofCode code = some op) (hctl : op.isControl = false) :
    run ctx (.op code :: is) [] st = (exec ctx op st).bind (run ctx is []) := by
  cases op <;> simp_all [run, Op.isControl]

theorem run_pushes (h : i.pushes = some elem) :
    run ctx (i :: is) [] st = run ctx is [] (elem :: st) := by
  cases i with
  | push data => cases h; rfl
  | op code =>
    simp only [Instr.pushes] at h
    split at h
    · rename_i n hn
      cases h
      rw [run_op _ hn rfl]
      rfl
    · cases h

theorem run_pushes_cond {cond} (h : i.pushes = some elem) :
    run ctx (i :: is) cond st = run ctx is cond (if cond.all id then elem :: st else st) := by
  cases i with
  | push data =>
    cases h
    rw [run]
    split <;> rfl
  | op code =>
    simp only [Instr.pushes] at h
    split at h
    · rename_i n hn
      cases h
      simp only [run, hn, exec, Option.bind_some]
      split <;> rfl
    · cases h

theorem intInstr_pushes : (intInstr n).pushes = some (scriptNum n) := by
  unfold intInstr
  split_ifs with hn
  · obtain ⟨h1, h2⟩ := hn
    interval_cases n <;> decide
  · rfl

@[simp] theorem truthy_ofBool (b : Bool) : truthy (ofBool b) = b := by
  cases b <;> rfl

/-! ## Which witnesses the leaf shapes accept -/

/-- A leaf `<lock> OP_CLTV OP_DROP <key> OP_CHECKSIG`. -/
def cltvLeaf (lock : Instr) (key : Bytes) : List Instr :=
  [lock, .op Opcode.cltv, .op Opcode.drop, .push key, .op Opcode.checkSig]

/-- A leaf `OP_SHA256 <hash> OP_EQUALVERIFY <key> OP_CHECKSIG`. -/
def hashLeaf (hash key : Bytes) : List Instr :=
  [.op Opcode.sha256, .push hash, .op Opcode.equalVerify, .push key, .op Opcode.checkSig]

theorem run_cltvLeaf (h : lock.pushes = some elem) :
    run ctx (cltvLeaf lock key) [] st =
      match st with
      | sig :: st => if cltvOk ctx elem then some (ofBool (ctx.sigOk key sig) :: st) else none
      | [] => none := by
  rw [cltvLeaf, run_pushes h, run_op .cltv rfl rfl]
  cases hc : cltvOk ctx elem with
  | false => cases st <;> simp [exec, hc]
  | true =>
    simp only [exec, hc, ↓reduceIte, Option.bind_some]
    cases st <;> rfl

/-- **The time-lock leaf accepts one signature, once its lock is reached.** -/
theorem satisfies_cltvLeaf
    (hs : collect (instructions script) = .ok (cltvLeaf lock key)) (hl : lock.pushes = some elem) :
    satisfies ctx script witness ↔
      ∃ sig, witness = [sig] ∧ sig.length ≤ maxElementSize ∧ cltvOk ctx elem ∧
        ctx.sigOk key sig = true := by
  simp only [satisfies, hs, run_cltvLeaf hl, Bool.and_eq_true]
  constructor
  · rintro ⟨hlen, hrun⟩
    rcases hw : witness.reverse with _ | ⟨sig, _ | ⟨a, st⟩⟩ <;> rw [hw] at hrun
    · cases hrun
    · obtain rfl : witness = [sig] := by
        rw [← List.reverse_reverse witness, hw]
        rfl
      cases hc : cltvOk ctx elem with
      | false => simp [hc] at hrun
      | true => exact ⟨sig, rfl, by simpa using hlen, rfl, by simpa [hc] using hrun⟩
    · cases hc : cltvOk ctx elem <;> simp [hc] at hrun
  · rintro ⟨sig, rfl, hlen, hc, hsig⟩
    exact ⟨by simpa using hlen, by simp [hc, hsig]⟩

theorem run_hashLeaf :
    run ctx (hashLeaf hash key) [] st =
      match st with
      | x :: sig :: st =>
        if hash = ctx.sha256 x then some (ofBool (ctx.sigOk key sig) :: st) else none
      | _ => none := by
  rw [hashLeaf, run_op .sha256 rfl rfl]
  rcases st with _ | ⟨x, st⟩
  · rfl
  simp only [exec, Option.bind_some, run_push]
  rw [run_op .equalVerify rfl rfl]
  by_cases hx : hash = ctx.sha256 x
  · simp only [exec, hx, ↓reduceIte, Option.bind_some, run_push]
    rw [run_op .checkSig rfl rfl]
    rcases st with _ | ⟨sig, st⟩ <;> simp [exec]
  · simp only [exec, hx, ↓reduceIte, Option.bind_none]
    rcases st with _ | ⟨sig, st⟩ <;> simp [hx]

/-- **The hash leaf accepts a signature and a preimage, in this order.**  Nothing
in it bounds the preimage's length below the element limit. -/
theorem satisfies_hashLeaf (hs : collect (instructions script) = .ok (hashLeaf hash key)) :
    satisfies ctx script witness ↔
      ∃ sig x, witness = [sig, x] ∧ sig.length ≤ maxElementSize ∧ x.length ≤ maxElementSize ∧
        ctx.sha256 x = hash ∧ ctx.sigOk key sig = true := by
  simp only [satisfies, hs, run_hashLeaf, Bool.and_eq_true]
  constructor
  · rintro ⟨hlen, hrun⟩
    rcases hw : witness.reverse with _ | ⟨x, _ | ⟨sig, _ | ⟨a, st⟩⟩⟩ <;> rw [hw] at hrun
    · cases hrun
    · cases hrun
    · obtain rfl : witness = [sig, x] := by
        rw [← List.reverse_reverse witness, hw]
        rfl
      by_cases hx : hash = ctx.sha256 x
      · have hlen' : sig.length ≤ maxElementSize ∧ x.length ≤ maxElementSize := by
          simpa using hlen
        exact ⟨sig, x, rfl, hlen'.1, hlen'.2, hx.symm, by simpa [hx] using hrun⟩
      · simp [hx] at hrun
    · by_cases hx : hash = ctx.sha256 x <;> simp [hx] at hrun
  · rintro ⟨sig, x, rfl, hsig, hx, rfl, hok⟩
    exact ⟨by simp [hsig, hx], by simp [hok]⟩

/-- A Taproot script-path witness: the stack for the leaf, the leaf, its control
block and at most an annex. -/
def IsScriptPath (witness : List Bytes) (leaf : Bytes) (stack : List Bytes) : Prop :=
  ∃ control annex, witness = stack ++ [leaf, control] ++ annex ∧
    (annex = [] ∨ ∃ a, annex = [0x50 :: a])

/-! ## When a time-lock leaf opens -/

/-- The script can be satisfied only in blocks of height at least `h`, whatever the
spending transaction, its signatures and the clock of the chain. -/
def OnlyFromHeight (script : Bytes) (h : Nat) : Prop :=
  ∀ (ctx : SpendCtx) (block : BlockTime) (witness : List Bytes),
    satisfies ctx script witness = true → isFinalIn ctx block = true → h ≤ block.height

section CltvLeaf

variable {script elem key : Bytes} {lock : Instr}
  (hs : collect (instructions script) = .ok (cltvLeaf lock key))
  (hl : lock.pushes = some elem)

include hs hl

variable {h : Nat}

theorem onlyFromHeight_of_height (hn : scriptNumDecode elem = n)
    (hlt : n < lockTimeThreshold) : OnlyFromHeight script n := by
  intro ctx block witness hsat hfin
  obtain ⟨sig, -, -, hok, -⟩ := (satisfies_cltvLeaf hs hl).mp hsat
  rcases height_of_cltvOk hn hlt hok hfin with h | h <;> omega

theorem onlyFromHeight_of_neg (hneg : scriptNumDecode elem < 0) :
    OnlyFromHeight script h := by
  intro ctx block witness hsat _
  obtain ⟨sig, -, -, hok, -⟩ := (satisfies_cltvLeaf hs hl).mp hsat
  simp only [cltvOk, Bool.and_eq_true, decide_eq_true_eq] at hok
  omega

theorem satisfies_of_decode (hn : scriptNumDecode elem = n) (hlen : elem.length ≤ 5)
    (hlt : ctx.lockTime = n) (hseq : ctx.sequence = 0)
    (hsig : ctx.sigOk key []) : satisfies ctx script [[]] = true := by
  refine (satisfies_cltvLeaf hs hl).mpr ⟨[], rfl, by decide, ?_, hsig⟩
  simp [cltvOk, hn, hlen, hlt, hseq, sequenceFinal]

theorem not_onlyFromHeight_of_time (hn : scriptNumDecode elem = n) (hlen : elem.length ≤ 5)
    (hge : lockTimeThreshold ≤ n) (hpos : 0 < h) :
    ¬ OnlyFromHeight script h := by
  intro hall
  let ctx : SpendCtx :=
    { sha256 := id, hash160 := id, sigOk := fun _ _ => true, version := 2, lockTime := n
      sequence := 0, otherSequences := [] }
  have hsat : satisfies ctx script [[]] = true := satisfies_of_decode hs hl hn hlen rfl rfl rfl
  have hfin : isFinalIn ctx ⟨0, n + 1⟩ = true := by
    simp [isFinalIn, ctx, Nat.not_lt.mpr hge]
  have := hall ctx ⟨0, n + 1⟩ [[]] hsat hfin
  simp only at this
  omega

theorem not_onlyFromHeight_of_zero (hn : scriptNumDecode elem = 0) (hlen : elem.length ≤ 5)
    (hpos : 0 < h) : ¬ OnlyFromHeight script h := by
  intro hall
  let ctx : SpendCtx :=
    { sha256 := id, hash160 := id, sigOk := fun _ _ => true, version := 2, lockTime := 0
      sequence := 0, otherSequences := [] }
  have hsat : satisfies ctx script [[]] = true :=
    satisfies_of_decode hs hl (n := 0) hn hlen rfl rfl rfl
  have hfin : isFinalIn ctx ⟨0, 0⟩ = true := by
    simp [isFinalIn, ctx]
  have := hall ctx ⟨0, 0⟩ [[]] hsat hfin
  simp only at this
  omega

end CltvLeaf

end Btc
