import OpenSwap.Btc.Script

/-!
# Maker addresses

`is_valid_maker_address` decodes the label of an onion address by a bit buffer of sixteen bits
and compares a checksum.  Strings are their bytes.
-/

namespace OpenSwap

open Btc List

/-- `.onion` -/
def onionSuffix : Bytes := [46, 111, 110, 105, 111, 110]

/-- `.onion checksum` -/
def checksumText : Bytes := onionSuffix ++ [32, 99, 104, 101, 99, 107, 115, 117, 109]

def base32Value (byte : UInt8) : Option Nat :=
  if 97 ≤ byte.toNat ∧ byte.toNat ≤ 122 then some (byte.toNat - 97)
  else if 50 ≤ byte.toNat ∧ byte.toNat ≤ 55 then some (byte.toNat - 50 + 26)
  else none

/-- The variables of the loop; `output_index` is the length of `decoded`. -/
structure LabelState where
  decoded : Bytes
  buffer : Nat
  bits : Nat

/-- One character, with a buffer of `width` bits. -/
def LabelState.absorb (width : Nat) (s : LabelState) (value : Nat) : LabelState :=
  let buffer := (s.buffer <<< 5) % 2 ^ width ||| value
  let bits := s.bits + 5
  if 8 ≤ bits then
    let bits := bits - 8
    ⟨s.decoded ++ [UInt8.ofNat (buffer >>> bits)], buffer &&& (1 <<< bits - 1), bits⟩
  else ⟨s.decoded, buffer, bits⟩

def decodeFrom (width : Nat) : LabelState → Bytes → Option LabelState
  | s, [] => some s
  | s, byte :: label => do
    let value ← base32Value byte
    decodeFrom width (s.absorb width value) label

def decodeLabel (width : Nat) : Bytes → Option LabelState := decodeFrom width ⟨[], 0, 0⟩

/-- `sha3` is SHA3-256. -/
def isValidMakerAddress (sha3 : Bytes → List.Vector UInt8 32) (address : Bytes) : Bool :=
  let label := address.take (address.length - onionSuffix.length)
  if ¬ onionSuffix <:+ address ∨ label.length ≠ 56 then false
  else match decodeLabel 16 label with
    | none => false
    | some s =>
      if s.decoded.length ≠ 35 ∨ s.bits ≠ 0 ∨ s.decoded.drop 34 ≠ [3] then false
      else
        let expected := sha3 (checksumText ++ s.decoded.take 32 ++ s.decoded.drop 34)
        (s.decoded.drop 32).take 2 = expected.toList.take 2

/-! ## Base32 -/

/-- The number some bytes denote, the first being the highest. -/
def beNat (data : Bytes) : Nat := Nat.ofDigits 256 (data.map UInt8.toNat).reverse

def base32Char (digit : Nat) : UInt8 := UInt8.ofNat (if digit < 26 then 97 + digit else 24 + digit)

/-- Lowercase base32 without padding, of whole groups of five bytes. -/
def base32 (data : Bytes) : Bytes :=
  (Nat.digitsAppend 32 (data.length * 8 / 5) (beNat data)).reverse.map base32Char

/-- A key, two bytes of checksum and the version. -/
def onionPayload (sha3 : Bytes → List.Vector UInt8 32) (key : List.Vector UInt8 32) : Bytes :=
  key.toList ++ ((sha3 (checksumText ++ key.toList ++ [3])).toList.take 2 ++ [3])

variable {s s' : LabelState} {digits more : List Nat} {width value : Nat} {label data : Bytes}

theorem base32Value_eq_some {byte} : base32Value byte = some value ↔
    value < 32 ∧ byte = base32Char value := by
  have hlt := byte.toNat_lt
  rw [← UInt8.toNat_inj]
  unfold base32Value base32Char
  split_ifs <;> simp <;> omega

theorem digits_lt (data : Bytes) : ∀ n ∈ (data.map UInt8.toNat).reverse, n < 256 := by
  intro n hn
  obtain ⟨b, -, rfl⟩ := mem_map.mp (mem_reverse.mp hn)
  exact b.toNat_lt

theorem beNat_inj {data'} (hlen : data.length = data'.length) (h : beNat data = beNat data') :
    data = data' := by
  have heq := Nat.ofDigits_inj_of_len_eq (by norm_num) (by simpa using hlen) (digits_lt _)
    (digits_lt _) h
  exact map_injective_iff.mpr (fun _ _ => UInt8.toNat_inj.mp) (reverse_injective heq)

/-! ## The loop -/

/-- The state after some digits: nothing of them is lost. -/
structure LabelState.Holds (s : LabelState) (digits : List Nat) : Prop where
  bits : s.bits < 8
  buffer : s.buffer < 2 ^ s.bits
  count : 8 * s.decoded.length + s.bits = 5 * digits.length
  value : beNat s.decoded * 2 ^ s.bits + s.buffer = Nat.ofDigits 32 digits.reverse

theorem LabelState.Holds.absorb (hs : s.Holds digits) (hwidth : 13 ≤ width) (hvalue : value < 32) :
    (s.absorb width value).Holds (digits ++ [value]) := by
  obtain ⟨hbits, hbuffer, hcount, hs⟩ := hs
  have hwide : (s.buffer <<< 5) % 2 ^ width ||| value = s.buffer * 32 + value := by
    have h7 : 2 ^ s.bits ≤ 2 ^ 7 := Nat.pow_le_pow_right (by norm_num) (by omega)
    have h13 : 2 ^ 13 ≤ 2 ^ width := Nat.pow_le_pow_right (by norm_num) hwidth
    have hshift : s.buffer <<< 5 = s.buffer * 32 := Nat.shiftLeft_eq _ _
    rw [Nat.mod_eq_of_lt (by omega), ← Nat.shiftLeft_add_eq_or_of_lt (by omega), hshift]
  have hdigits : Nat.ofDigits 32 (digits ++ [value]).reverse =
      beNat s.decoded * 2 ^ (s.bits + 5) + (s.buffer * 32 + value) := by
    simp [Nat.ofDigits_cons, ← hs]
    ring
  have hlt : s.buffer * 32 + value < 2 ^ (s.bits + 5) := by
    rw [pow_add]
    omega
  unfold LabelState.absorb
  rw [hwide]
  dsimp only
  split_ifs with h8
  · obtain ⟨left, hleft⟩ := Nat.exists_eq_add_of_le' h8
    rw [hleft, Nat.add_sub_cancel, Nat.shiftRight_eq_div_pow, Nat.one_shiftLeft,
      Nat.and_two_pow_sub_one_eq_mod]
    rw [hleft, pow_add] at hdigits hlt
    have hbyte : (s.buffer * 32 + value) / 2 ^ left < 256 := Nat.div_lt_of_lt_mul hlt
    refine ⟨by dsimp only; omega, Nat.mod_lt _ (by positivity), by simp; omega, ?_⟩
    have happend : beNat (s.decoded ++ [UInt8.ofNat ((s.buffer * 32 + value) / 2 ^ left)]) =
        beNat s.decoded * 256 + (s.buffer * 32 + value) / 2 ^ left := by
      simp [beNat, Nat.ofDigits_cons, Nat.mod_eq_of_lt hbyte]
      ring
    have := Nat.div_add_mod (s.buffer * 32 + value) (2 ^ left)
    dsimp only
    rw [happend, hdigits]
    linarith
  · exact ⟨by dsimp only; omega, hlt, by simp; omega, hdigits.symm⟩

theorem decodeFrom_map (hs : s.Holds digits) (hwidth : 13 ≤ width)
    (hmore : ∀ d ∈ more, d < 32) :
    ∃ s', decodeFrom width s (more.map base32Char) = some s' ∧ s'.Holds (digits ++ more) := by
  induction more generalizing s digits with
  | nil => exact ⟨s, rfl, by simpa using hs⟩
  | cons d more ih =>
    rw [forall_mem_cons] at hmore
    obtain ⟨s', hdecode, hs'⟩ := ih (hs.absorb hwidth hmore.1) hmore.2
    rw [map_cons, decodeFrom, base32Value_eq_some.mpr ⟨hmore.1, rfl⟩]
    exact ⟨s', hdecode, by simpa using hs'⟩

theorem chars_of_decodeFrom (h : decodeFrom width s label = some s') :
    ∃ more : List Nat, label = more.map base32Char ∧ ∀ d ∈ more, d < 32 := by
  induction label generalizing s with
  | nil => exact ⟨[], rfl, by simp⟩
  | cons byte label ih =>
    rw [decodeFrom, Option.bind_eq_bind, Option.bind_eq_some_iff] at h
    obtain ⟨value, hvalue, h⟩ := h
    obtain ⟨hlt, rfl⟩ := base32Value_eq_some.mp hvalue
    obtain ⟨more, rfl, hmore⟩ := ih h
    exact ⟨value :: more, rfl, forall_mem_cons.mpr ⟨hlt, hmore⟩⟩

theorem decodeLabel_eq_some (hwidth : 13 ≤ width) (hlabel : label.length = 56) :
    decodeLabel width label = some s ↔
      ∃ data, data.length = 35 ∧ label = base32 data ∧ s = ⟨data, 0, 0⟩ := by
  -- 56 characters are 35 bytes, with the same number
  have hread : ∀ {more : List Nat}, (∀ d ∈ more, d < 32) → more.length = 56 → ∃ data,
      data.length = 35 ∧ decodeLabel width (more.map base32Char) = some ⟨data, 0, 0⟩ ∧
      beNat data = Nat.ofDigits 32 more.reverse := by
    intro more hmore hlen
    obtain ⟨⟨data, buffer, bits⟩, h, hbits, hbuffer, hcount, hvalue⟩ :=
      @decodeFrom_map ⟨[], 0, 0⟩ [] more width ⟨by decide, by decide, rfl, rfl⟩ hwidth hmore
    simp only [nil_append] at hcount hvalue hbits
    obtain rfl : bits = 0 := by omega
    obtain rfl : buffer = 0 := by simpa using hbuffer
    exact ⟨data, by omega, h, by simpa using hvalue⟩
  constructor
  · intro h
    obtain ⟨more, rfl, hmore⟩ := chars_of_decodeFrom h
    rw [length_map] at hlabel
    obtain ⟨data, h35, hdata, hvalue⟩ := hread hmore hlabel
    have hdigits : Nat.digitsAppend 32 56 (Nat.ofDigits 32 more.reverse) = more.reverse :=
      (Nat.setInvOn_digitsAppend_ofDigits (by norm_num) 56).1 (by simpa [hlabel] using hmore)
    refine ⟨data, h35, ?_, Option.some.inj (h.symm.trans hdata)⟩
    rw [base32, h35, hvalue, hdigits, reverse_reverse]
  · rintro ⟨data, h35, rfl, rfl⟩
    rw [base32, h35] at hlabel ⊢
    rw [length_map] at hlabel
    obtain ⟨data', h35', hdata, hvalue⟩ := hread (fun d hd =>
      Nat.lt_of_mem_digitsAppend (by norm_num) 56 d (mem_reverse.mp hd)) hlabel
    rw [reverse_reverse, Nat.digitsAppend, Nat.ofDigits_append_replicate_zero,
      Nat.ofDigits_digits] at hvalue
    rwa [beNat_inj (h35'.trans h35.symm) hvalue] at hdata

theorem length_base32 (h35 : data.length = 35) : (base32 data).length = 56 := by
  have hlt := Nat.ofDigits_lt_base_pow_length (by norm_num) (digits_lt data)
  rw [length_reverse, length_map, h35] at hlt
  rw [base32, h35, length_map, length_reverse]
  exact Nat.length_digitsAppend (by norm_num) 56 (hlt.trans_le (by norm_num))

theorem decodeLabel_base32 (h35 : data.length = 35) :
    decodeLabel 16 (base32 data) = some ⟨data, 0, 0⟩ :=
  (decodeLabel_eq_some (by norm_num) (length_base32 h35)).mpr ⟨data, h35, rfl, rfl⟩

variable {sha3 : Bytes → List.Vector UInt8 32}

theorem checked_iff : data.length = 35 ∧ data.drop 34 = [3] ∧ (data.drop 32).take 2 =
      (sha3 (checksumText ++ data.take 32 ++ data.drop 34)).toList.take 2 ↔
    ∃ key, data = onionPayload sha3 key := by
  constructor
  · rintro ⟨h35, h3, hsum⟩
    refine ⟨⟨data.take 32, by simp [h35]⟩, ?_⟩
    have hrest := take_append_drop 2 (data.drop 32)
    rw [drop_drop, hsum, h3] at hrest
    exact (take_append_drop 32 data).symm.trans (congrArg _ hrest.symm)
  · rintro ⟨key, rfl⟩
    have hkey := key.toList_length
    simp [onionPayload, drop_append, drop_of_length_le, hkey]

theorem isValidMakerAddress_iff {address} : isValidMakerAddress sha3 address ↔
    ∃ key, address = base32 (onionPayload sha3 key) ++ onionSuffix := by
  unfold isValidMakerAddress
  dsimp only
  constructor
  · intro h
    split_ifs at h with hlabel
    obtain ⟨⟨label, rfl⟩, hlen⟩ := by simpa only [not_or, not_not] using hlabel
    rw [length_append, Nat.add_sub_cancel, take_left] at hlen h
    split at h
    · cases h
    next hs =>
      obtain ⟨data, h35, rfl, rfl⟩ := (decodeLabel_eq_some (by norm_num) hlen).mp hs
      split_ifs at h with hshape
      simp only [not_or, not_not] at hshape
      obtain ⟨key, rfl⟩ := checked_iff.mp ⟨h35, hshape.2.2, of_decide_eq_true h⟩
      exact ⟨key, rfl⟩
  · rintro ⟨key, rfl⟩
    obtain ⟨h35, h3, hsum⟩ := (@checked_iff _ sha3).mpr ⟨key, rfl⟩
    have hlen := length_base32 h35
    rw [length_append, Nat.add_sub_cancel, take_left, if_neg (by simp [hlen]),
      decodeLabel_base32 h35]
    simp [h35, h3, hsum]

/-- **Maker addresses.**  A string is accepted exactly if it is the address of some key, each
key has one accepted address, and a wider buffer would decode the same. -/
theorem valid_maker_address_iff (sha3 : Bytes → List.Vector UInt8 32) :
    (∀ address, isValidMakerAddress sha3 address ↔
      ∃ key, address = base32 (onionPayload sha3 key) ++ onionSuffix) ∧
    (∀ key : List.Vector UInt8 32, ∃! address, isValidMakerAddress sha3 address ∧
      ∃ tail, tail.length = 3 ∧ address = base32 (key.toList ++ tail) ++ onionSuffix) ∧
    ∀ label width, label.length = 56 → 16 ≤ width →
      decodeLabel width label = decodeLabel 16 label := by
  refine ⟨fun _ => isValidMakerAddress_iff, fun key => ?_, fun label width hlen hwidth => ?_⟩
  · refine ⟨_, ⟨isValidMakerAddress_iff.mpr ⟨key, rfl⟩, _, by simp, rfl⟩, ?_⟩
    rintro _ ⟨hvalid, tail, htail, rfl⟩
    obtain ⟨key', heq⟩ := isValidMakerAddress_iff.mp hvalid
    have hdecode := decodeLabel_base32 ((@checked_iff _ sha3).mpr ⟨key', rfl⟩).1
    rw [← append_cancel_right heq, decodeLabel_base32 (by simp [htail])] at hdecode
    have hpayload : key.toList ++ tail = onionPayload sha3 key' := by simpa using hdecode
    obtain ⟨hkey, -⟩ := append_inj hpayload (by simp)
    rw [heq, List.Vector.eq key key' hkey]
  · ext s
    rw [decodeLabel_eq_some (by omega) hlen, decodeLabel_eq_some (by norm_num) hlen]

end OpenSwap
