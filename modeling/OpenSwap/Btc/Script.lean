import Mathlib

/-!
# Bitcoin Script: bytes and instructions

The wire format of a Bitcoin script, independent of any program that reads it.

* `next` decodes one instruction; `instructions` is the iterator over a whole
  script.  As in the usual libraries, a failing read ends the iteration, so an
  error can only be the last item.
* `pushSlice` and `encode` write scripts with the shortest push for
  the length of the data.
* `scriptNum` and `scriptNumDecode` are the numbers a script computes with: sign
  and magnitude, so that zero also has negative spellings (`isNegativeZero`).
* `instructions_cons` unrolls the iterator by one instruction,
  `instructions_encodeInstr` and `instructions_encode` are the round trip for
  scripts in the encoder's own form.
-/

namespace Btc

open List

abbrev Bytes := List UInt8

instance : LawfulBEq Bytes := inferInstance

/-- One decoded script instruction: a data push, or an opcode that is no push. -/
inductive Instr where
  | push (data : Bytes)
  | op (code : UInt8)
deriving DecidableEq, Repr

/-- The one way reading a script can fail: it ends inside a push. -/
inductive ScriptError where
  | earlyEndOfScript
deriving DecidableEq, Repr

/-! ## Opcodes -/

namespace Opcode

def pushData1 : UInt8 := 0x4c
def pushData2 : UInt8 := 0x4d
def pushData4 : UInt8 := 0x4e
def negOne : UInt8 := 0x4f
def pushNum2 : UInt8 := 0x52
def opIf : UInt8 := 0x63
def opElse : UInt8 := 0x67
def opEndIf : UInt8 := 0x68
def drop : UInt8 := 0x75
def rot : UInt8 := 0x7b
def swap : UInt8 := 0x7c
def size : UInt8 := 0x82
def equal : UInt8 := 0x87
def equalVerify : UInt8 := 0x88
def sha256 : UInt8 := 0xa8
def hash160 : UInt8 := 0xa9
def checkSig : UInt8 := 0xac
def checkMultiSig : UInt8 := 0xae
/-- `OP_CHECKLOCKTIMEVERIFY` -/
def cltv : UInt8 := 0xb1
/-- `OP_CHECKSEQUENCEVERIFY` -/
def csv : UInt8 := 0xb2

/-- The number an opcode pushes: `OP_1NEGATE` and `OP_1` to `OP_16`. -/
def pushNum (code : UInt8) : Option Int :=
  if code = negOne then some (-1)
  else if 0x51 ≤ code.toNat ∧ code.toNat ≤ 0x60 then some (code.toNat - 0x50)
  else none

end Opcode

/-! ## Little-endian numbers -/

/-- The number a little-endian byte string denotes. -/
def leNat : Bytes → Nat
  | [] => 0
  | b :: bs => b.toNat + 256 * leNat bs

/-- `n` in exactly `k` little-endian bytes (higher bytes are dropped). -/
def natLe : Nat → Nat → Bytes
  | 0, _ => []
  | k + 1, n => UInt8.ofNat (n % 256) :: natLe k (n / 256)

variable {n k : Nat} {i : Instr} {b : Bytes} {ε α : Type} {data : Bytes} {last : UInt8} {j : Nat}
  {rest rest' init : Bytes}

@[simp] theorem length_natLe (k n : Nat) : (natLe k n).length = k := by
  induction k generalizing n with
  | zero => rfl
  | succ k ih => simp [natLe, ih]

theorem leNat_natLe (k : Nat) : ∀ {n : Nat}, n < 256 ^ k → leNat (natLe k n) = n := by
  induction k with
  | zero => intro n h; simp at h; simp [natLe, leNat, h]
  | succ k ih =>
    intro n h
    have hq : n / 256 < 256 ^ k := by
      omega
    have hr : (UInt8.ofNat (n % 256)).toNat = n % 256 := by
      simp
    simp only [natLe, leNat, ih hq, hr]
    omega

theorem leNat_lt (bs : Bytes) : leNat bs < 256 ^ bs.length := by
  induction bs with
  | nil => simp [leNat]
  | cons b bs ih =>
    have hb := b.toNat_lt
    simp only [leNat, length_cons, Nat.pow_succ]
    omega

/-! ## Decoding -/

/-- Take a push of `n` bytes off the rest of the script. -/
def takePush (n : Nat) (rest : Bytes) : Except ScriptError (Instr × Bytes) :=
  if n ≤ rest.length then .ok (.push (rest.take n), rest.drop n)
  else .error .earlyEndOfScript

/-- Read a `k`-byte little-endian length, then a push of that many bytes. -/
def takeSizedPush (k : Nat) (rest : Bytes) : Except ScriptError (Instr × Bytes) :=
  if k ≤ rest.length then takePush (leNat (rest.take k)) (rest.drop k)
  else .error .earlyEndOfScript

/-- Decode the instruction that starts with the byte `code`. -/
def next (code : UInt8) (rest : Bytes) : Except ScriptError (Instr × Bytes) :=
  if code.toNat ≤ 0x4b then takePush code.toNat rest
  else if code = Opcode.pushData1 then takeSizedPush 1 rest
  else if code = Opcode.pushData2 then takeSizedPush 2 rest
  else if code = Opcode.pushData4 then takeSizedPush 4 rest
  else .ok (.op code, rest)

@[simp] theorem next_pushData1 (rest : Bytes) :
    next Opcode.pushData1 rest = takeSizedPush 1 rest := rfl

@[simp] theorem next_pushData2 (rest : Bytes) :
    next Opcode.pushData2 rest = takeSizedPush 2 rest := rfl

@[simp] theorem next_pushData4 (rest : Bytes) :
    next Opcode.pushData4 rest = takeSizedPush 4 rest := rfl

/-- The iterator with a bound on the number of instructions. -/
def instructionsUpTo : Nat → Bytes → List (Except ScriptError Instr)
  | 0, _ => []
  | _ + 1, [] => []
  | n + 1, code :: rest =>
    match next code rest with
    | .ok (instr, rest') => .ok instr :: instructionsUpTo n rest'
    | .error e => [.error e]

/-- All instructions of a script; every instruction takes at least one byte. -/
def instructions (script : Bytes) : List (Except ScriptError Instr) :=
  instructionsUpTo script.length script

/-- Collect a list of results, stopping at the first error. -/
def collect {ε α : Type} : List (Except ε α) → Except ε (List α)
  | [] => .ok []
  | .ok a :: rest => (collect rest).map (a :: ·)
  | .error e :: _ => .error e

theorem collect_map_ok (xs : List α) :
    collect (xs.map (Except.ok (ε := ε))) = .ok xs := by
  induction xs with
  | nil => rfl
  | cons a rest ih => simp [collect, ih, Except.map]

theorem collect_eq_ok {rs : List (Except ε α)} {xs : List α} :
    collect rs = .ok xs ↔ rs = xs.map .ok := by
  constructor
  · intro h
    induction rs generalizing xs with
    | nil => cases h; rfl
    | cons r rest ih =>
      cases r with
      | error e => cases h
      | ok a =>
        cases hr : collect rest with
        | error e => simp [collect, hr, Except.map] at h
        | ok ys =>
          simp only [collect, hr, Except.map, Except.ok.injEq] at h
          subst h
          rw [ih hr, map_cons]
  · rintro rfl
    exact collect_map_ok xs

theorem takePush_ok (h : takePush n rest = .ok (i, rest')) :
    ∃ data, i = .push data ∧ data.length = n ∧ rest = data ++ rest' := by
  unfold takePush at h
  split at h
  · rename_i hn
    cases h
    exact ⟨rest.take n, rfl, by simp [hn], (take_append_drop n rest).symm⟩
  · cases h

@[simp] theorem takePush_append (data rest : Bytes) :
    takePush data.length (data ++ rest) = .ok (.push data, rest) := by
  simp [takePush]

theorem takeSizedPush_ok (h : takeSizedPush k rest = .ok (i, rest')) :
    ∃ len data, i = .push data ∧ len.length = k ∧ leNat len = data.length ∧
      rest = len ++ data ++ rest' := by
  unfold takeSizedPush at h
  split at h
  · rename_i hk
    obtain ⟨data, rfl, hlen, hrest⟩ := takePush_ok h
    refine ⟨rest.take k, data, rfl, by simp [hk], hlen.symm, ?_⟩
    rw [append_assoc, ← hrest, take_append_drop]
  · cases h

theorem takeSizedPush_length (h : takeSizedPush k rest = .ok (i, rest')) :
    rest'.length ≤ rest.length := by
  obtain ⟨len, data, -, -, -, rfl⟩ := takeSizedPush_ok h
  simp only [length_append]
  omega

theorem next_length {code} (h : next code rest = .ok (i, rest')) :
    rest'.length ≤ rest.length := by
  unfold next at h
  split_ifs at h
  · obtain ⟨data, -, -, rfl⟩ := takePush_ok h
    simp
  · exact takeSizedPush_length h
  · exact takeSizedPush_length h
  · exact takeSizedPush_length h
  · cases h
    exact Nat.le_refl _

theorem instructionsUpTo_eq {script} (h : script.length ≤ n) :
    instructionsUpTo n script = instructions script := by
  suffices ∀ m n (s : Bytes), s.length ≤ m → s.length ≤ n →
      instructionsUpTo m s = instructionsUpTo n s from this _ _ _ h (Nat.le_refl _)
  intro m
  induction m with
  | zero =>
    intro n s hm _
    obtain rfl := length_eq_zero_iff.mp (Nat.le_zero.mp hm)
    cases n <;> rfl
  | succ m ih =>
    intro n s hm hn
    cases s with
    | nil => cases n <;> rfl
    | cons code rest =>
      obtain _ | n := n
      · simp at hn
      · simp only [instructionsUpTo]
        cases hx : next code rest with
        | error e => rfl
        | ok p =>
          have : p.2.length ≤ rest.length := next_length hx
          simp only [length_cons, Nat.add_le_add_iff_right] at hm hn
          simp only [List.cons.injEq, true_and]
          exact ih n p.2 (by omega) (by omega)

@[simp] theorem instructions_nil : instructions [] = [] := rfl

theorem instructions_cons (code : UInt8) (rest : Bytes) :
    instructions (code :: rest) =
      match next code rest with
      | .ok (instr, rest') => .ok instr :: instructions rest'
      | .error e => [.error e] := by
  simp only [instructions, length_cons, instructionsUpTo]
  cases hx : next code rest with
  | error e => rfl
  | ok p =>
    have hle : p.2.length ≤ rest.length := next_length hx
    simp only [instructionsUpTo_eq hle, instructions]

/-! ## Encoding -/

/-- A push of `data` with the shortest length encoding. -/
def pushSlice (data : Bytes) : Bytes :=
  if data.length ≤ 0x4b then UInt8.ofNat data.length :: data
  else if data.length < 0x100 then Opcode.pushData1 :: (natLe 1 data.length ++ data)
  else if data.length < 0x10000 then Opcode.pushData2 :: (natLe 2 data.length ++ data)
  else Opcode.pushData4 :: (natLe 4 data.length ++ data)

def encodeInstr : Instr → Bytes
  | .push data => pushSlice data
  | .op code => [code]

/-- The script the builder writes for a list of instructions. -/
def encode (is : List Instr) : Bytes := is.flatMap encodeInstr

@[simp] theorem encode_nil : encode [] = [] := rfl

@[simp] theorem encode_cons (i : Instr) (is : List Instr) :
    encode (i :: is) = encodeInstr i ++ encode is := rfl

/-- An instruction the encoder can write and the decoder reads back: the opcode
is not itself a push opcode, the data length fits the four length bytes. -/
def Instr.WellFormed : Instr → Prop
  | .push data => data.length < 2 ^ 32
  | .op code => 0x4e < code.toNat

instance : DecidablePred Instr.WellFormed
  | .push data => inferInstanceAs (Decidable (data.length < 2 ^ 32))
  | .op code => inferInstanceAs (Decidable (0x4e < code.toNat))

@[simp] theorem takeSizedPush_append (rest : Bytes) (h : data.length < 256 ^ k) :
    takeSizedPush k (natLe k data.length ++ (data ++ rest)) = .ok (.push data, rest) := by
  have hk : k ≤ (natLe k data.length ++ (data ++ rest)).length := by
    rw [length_append, length_natLe]
    omega
  rw [takeSizedPush, if_pos hk, take_left' (length_natLe _ _),
    drop_left' (length_natLe _ _), leNat_natLe k h, takePush_append]

theorem next_direct (rest : Bytes) (h : data.length ≤ 0x4b) :
    next (UInt8.ofNat data.length) (data ++ rest) = .ok (.push data, rest) := by
  have hn : (UInt8.ofNat data.length).toNat = data.length := by
    rw [UInt8.toNat_ofNat']
    omega
  rw [next, hn, if_pos h, takePush_append]

/-- The decoder reads an encoded instruction back and continues after it. -/
theorem instructions_encodeInstr (hi : i.WellFormed) (rest : Bytes) :
    instructions (encodeInstr i ++ rest) = .ok i :: instructions rest := by
  cases i with
  | op code =>
    have hc : 0x4e < code.toNat := hi
    have hne : ∀ c : UInt8, c.toNat ≤ 0x4e → code ≠ c := by
      rintro c h rfl
      omega
    rw [encodeInstr, singleton_append, instructions_cons, next, if_neg (by omega),
      if_neg (hne _ (by decide)), if_neg (hne _ (by decide)), if_neg (hne _ (by decide))]
  | push data =>
    have hd : data.length < 2 ^ 32 := hi
    rw [encodeInstr, pushSlice]
    split_ifs with h1 h2 h3
    · rw [cons_append, instructions_cons, next_direct rest h1]
    · rw [cons_append, instructions_cons, append_assoc, next_pushData1,
        takeSizedPush_append rest (by omega)]
    · rw [cons_append, instructions_cons, append_assoc, next_pushData2,
        takeSizedPush_append rest (by omega)]
    · rw [cons_append, instructions_cons, append_assoc, next_pushData4,
        takeSizedPush_append rest (by omega)]

/-- **Round trip**: decoding what the encoder wrote gives the instructions back. -/
theorem instructions_encode {is} (h : ∀ i ∈ is, i.WellFormed) :
    instructions (encode is) = is.map .ok := by
  induction is with
  | nil => rfl
  | cons i is ih =>
    rw [encode_cons, instructions_encodeInstr (h i (mem_cons_self ..)),
      ih fun j hj => h j (mem_cons_of_mem _ hj), map_cons]

/-! ## Script numbers -/

/-- The little-endian digits of `n > 0`, with a zero byte on top when the highest
digit would otherwise read as a sign.  Eight digits hold every 64-bit number. -/
def scriptNumDigits : Nat → Nat → Bytes
  | 0, _ => []
  | k + 1, n =>
    if n < 0x80 then [UInt8.ofNat n]
    else if n < 0x100 then [UInt8.ofNat n, 0]
    else UInt8.ofNat (n % 256) :: scriptNumDigits k (n / 256)

/-- The script-number encoding of a non-negative 64-bit integer. -/
def scriptNum (n : Nat) : Bytes := if n = 0 then [] else scriptNumDigits 8 n

/-- The instruction a builder writes for the non-negative integer `n`: `OP_1` to
`OP_16` for the numbers with an opcode, else a push of the script number. -/
def intInstr (n : Nat) : Instr :=
  if 1 ≤ n ∧ n ≤ 16 then .op (UInt8.ofNat (0x50 + n)) else .push (scriptNum n)

/-- The top bit of the last byte is the sign, the other bits are the magnitude. -/
def scriptNumDecode (b : Bytes) : Int :=
  match b.getLast? with
  | none => 0
  | some last =>
    if last.toNat < 0x80 then leNat b
    else -((leNat b : Int) - 0x80 * 256 ^ (b.length - 1))

/-- A byte string whose magnitude is zero and whose sign bit is set. -/
def isNegativeZero (b : Bytes) : Bool :=
  b.getLast? = some 0x80 && b.dropLast.all (· = 0)

theorem leNat_append (a b : Bytes) : leNat (a ++ b) = leNat a + 256 ^ a.length * leNat b := by
  induction a with
  | nil => simp [leNat]
  | cons x a ih =>
    simp only [cons_append, leNat, ih, length_cons, Nat.pow_succ]
    ring

theorem leNat_eq_zero : leNat b = 0 ↔ b.all (· = 0) = true := by
  induction b with
  | nil => simp [leNat]
  | cons x b ih =>
    have hx : x.toNat = 0 ↔ x = 0 := by
      rw [← UInt8.toNat_inj]
      rfl
    rw [leNat, all_cons, Bool.and_eq_true, decide_eq_true_eq, ← ih, ← hx]
    omega

theorem leNat_eq_leNat_take (h : (b.drop k).all (· = 0)) :
    leNat b = leNat (b.take k) := by
  conv_lhs => rw [← take_append_drop k b, leNat_append, leNat_eq_zero.mpr h]
  simp

theorem scriptNumDecode_concat_lt (h : last.toNat < 0x80) :
    scriptNumDecode (init ++ [last]) = leNat (init ++ [last]) := by
  simp [scriptNumDecode, h]

theorem scriptNumDecode_concat_ge {init last} (h : 0x80 ≤ last.toNat) :
    scriptNumDecode (init ++ [last])
      = -((leNat init + 256 ^ init.length * (last.toNat - 0x80) : Nat) : Int) := by
  have hlast : ¬ last.toNat < 0x80 := by omega
  simp only [scriptNumDecode, getLast?_append, getLast?_singleton, Option.some_or,
    hlast, ↓reduceIte, leNat_append, leNat, length_append, length_singleton,
    Nat.add_sub_cancel]
  push_cast [h]
  ring

theorem isNegativeZero_concat :
    isNegativeZero (init ++ [last]) ↔ last.toNat = 0x80 ∧ leNat init = 0 := by
  have hl : last.toNat = 0x80 ↔ last = 0x80 := by
    rw [← UInt8.toNat_inj]
    rfl
  simp only [isNegativeZero, getLast?_append, getLast?_singleton, Option.some_or,
    Option.some.injEq, dropLast_concat, Bool.and_eq_true, decide_eq_true_eq, hl,
    leNat_eq_zero]

/-- The three readings of a non-empty number: its unsigned value, a negative zero,
or a negative number. -/
theorem scriptNumDecode_cases (hb : b ≠ []) :
    (isNegativeZero b = false ∧ scriptNumDecode b = leNat b ∧ 2 * leNat b < 256 ^ b.length) ∨
    (isNegativeZero b ∧ scriptNumDecode b = 0) ∨
    (isNegativeZero b = false ∧ scriptNumDecode b < 0 ∧ 256 ^ b.length ≤ 2 * leNat b) := by
  obtain ⟨init, last, rfl⟩ : ∃ init last, b = init ++ [last] :=
    ⟨b.dropLast, b.getLast hb, (dropLast_append_getLast hb).symm⟩
  have hi := leNat_lt init
  have hval : leNat (init ++ [last]) = leNat init + 256 ^ init.length * last.toNat := by
    rw [leNat_append]
    simp [leNat]
  have hpow : 256 ^ (init ++ [last]).length = 256 ^ init.length * 256 := by
    rw [length_append, length_singleton, Nat.pow_succ]
  rcases Nat.lt_or_ge last.toNat 0x80 with hlt | hge
  · left
    refine ⟨?_, scriptNumDecode_concat_lt hlt, ?_⟩
    · rw [Bool.eq_false_iff, ne_eq, isNegativeZero_concat]
      omega
    · have hmul : 256 ^ init.length * last.toNat ≤ 256 ^ init.length * 127 :=
        Nat.mul_le_mul_left _ (by omega)
      omega
  · have hdec := @scriptNumDecode_concat_ge init last hge
    by_cases hz : last.toNat = 0x80 ∧ leNat init = 0
    · right; left
      exact ⟨isNegativeZero_concat.mpr hz, by rw [hdec, hz.1, hz.2]; simp⟩
    · right; right
      have hmul : 256 ^ init.length * 128 ≤ 256 ^ init.length * last.toNat :=
        Nat.mul_le_mul_left _ hge
      have hpos : 0 < 256 ^ init.length := Nat.pow_pos (by decide)
      have hmag : 0 < leNat init + 256 ^ init.length * (last.toNat - 0x80) := by
        rcases Nat.eq_zero_or_pos (leNat init) with h0 | h0
        · have hl : 0 < last.toNat - 0x80 := by omega
          have := Nat.mul_pos hpos hl
          omega
        · omega
      refine ⟨?_, by rw [hdec]; omega, by rw [hval, hpow]; omega⟩
      rw [Bool.eq_false_iff, ne_eq, isNegativeZero_concat]
      exact hz

theorem length_scriptNumDigits_le (h : n < 256 ^ j) :
    (scriptNumDigits k n).length ≤ j + 1 := by
  induction k generalizing j n with
  | zero => simp [scriptNumDigits]
  | succ k ih =>
    unfold scriptNumDigits
    split_ifs with h1 h2
    · simp
    · cases j with
      | zero => simp at h; omega
      | succ j => simp
    · cases j with
      | zero => simp at h; omega
      | succ j =>
        have := ih (j := j) (n := n / 256) (by omega)
        simp only [length_cons]
        omega

theorem length_scriptNum_le (h : n < 256 ^ j) : (scriptNum n).length ≤ j + 1 := by
  unfold scriptNum
  split_ifs
  · simp
  · exact length_scriptNumDigits_le h

theorem scriptNumDigits_spec : ∀ {n : Nat}, n < 256 ^ k → k ≠ 0 →
    ∃ init last, scriptNumDigits k n = init ++ [last] ∧ last.toNat < 0x80 ∧
      leNat (scriptNumDigits k n) = n := by
  induction k with
  | zero => intro n _ h; exact absurd rfl h
  | succ k ih =>
    intro n hn _
    have hlt : n / 256 < 256 ^ k := by
      omega
    unfold scriptNumDigits
    split_ifs with h1 h2
    · have hr : (UInt8.ofNat n).toNat = n := by rw [UInt8.toNat_ofNat']; omega
      exact ⟨[], _, rfl, by omega, by simp [leNat, hr]⟩
    · have hr : (UInt8.ofNat n).toNat = n := by rw [UInt8.toNat_ofNat']; omega
      exact ⟨[UInt8.ofNat n], 0, rfl, by decide, by simp [leNat, hr]⟩
    · have hk : k ≠ 0 := by
        rintro rfl
        omega
      obtain ⟨init, last, heq, hlast, hval⟩ := ih hlt hk
      have hr : (UInt8.ofNat (n % 256)).toNat = n % 256 := by rw [UInt8.toNat_ofNat']; omega
      refine ⟨UInt8.ofNat (n % 256) :: init, last, by rw [heq]; rfl, hlast, ?_⟩
      simp only [leNat, hval, hr]
      omega

theorem leNat_scriptNum (h : n < 2 ^ 64) : leNat (scriptNum n) = n := by
  unfold scriptNum
  split_ifs with h0
  · simp [h0, leNat]
  · obtain ⟨-, -, -, -, hval⟩ :=
      scriptNumDigits_spec (k := 8) (n := n) (by omega) (by decide)
    exact hval

theorem scriptNumDecode_scriptNum (h : n < 2 ^ 64) :
    scriptNumDecode (scriptNum n) = n := by
  unfold scriptNum
  split_ifs with h0
  · simp [h0, scriptNumDecode]
  · obtain ⟨init, last, heq, hlast, hval⟩ :=
      scriptNumDigits_spec (k := 8) (n := n) (by omega) (by decide)
    rw [heq] at hval ⊢
    rw [scriptNumDecode_concat_lt hlast, hval]

theorem scriptNum_inj {m} (hm : m < 2 ^ 64) (hn : n < 2 ^ 64) (h : scriptNum m = scriptNum n) :
    m = n := by
  have hdec := scriptNumDecode_scriptNum hm
  rw [h, scriptNumDecode_scriptNum hn] at hdec
  exact (Int.ofNat.inj hdec).symm

theorem Opcode.pushNum_ofNat (h1 : 1 ≤ n) (h2 : n ≤ 16) :
    Opcode.pushNum (UInt8.ofNat (0x50 + n)) = some (n : Int) := by
  have hcode : (UInt8.ofNat (0x50 + n)).toNat = 0x50 + n := by
    rw [UInt8.toNat_ofNat']
    omega
  have hne : UInt8.ofNat (0x50 + n) ≠ Opcode.negOne := by
    intro heq
    rw [← UInt8.toNat_inj, hcode] at heq
    change 0x50 + n = 0x4f at heq
    omega
  rw [Opcode.pushNum, if_neg hne, hcode, if_pos (by omega)]
  congr 1
  omega

theorem intInstr_wellFormed (h : n < 2 ^ 32) : (intInstr n).WellFormed := by
  unfold intInstr
  split_ifs with hn
  · show 0x4e < (UInt8.ofNat (0x50 + n)).toNat
    rw [UInt8.toNat_ofNat']
    omega
  · show (scriptNum n).length < 2 ^ 32
    have hlen : (scriptNum n).length ≤ 5 := length_scriptNum_le (j := 4) (by omega)
    omega

end Btc
