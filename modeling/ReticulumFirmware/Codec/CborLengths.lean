import ReticulumFirmware.Codec.Cbor

/-!
# The lengths of CBOR tokens

What the widest values of each type take, and the tokens that take one byte.
-/

namespace Cbor

open Nor

/-- A head has at most nine bytes. -/
theorem headLength_le (argument : ℕ) : headLength argument ≤ 9 := by
  unfold headLength
  split_ifs <;> omega

/-- A head with an argument of two bytes has at most three. -/
theorem headLength_le_three {argument : ℕ} (h : argument < 2 ^ 16) : headLength argument ≤ 3 := by
  unfold headLength
  split_ifs <;> omega

/-- A head with an argument of one byte has at most two. -/
theorem headLength_le_two {argument : ℕ} (h : argument < 2 ^ 8) : headLength argument ≤ 2 := by
  unfold headLength
  split_ifs <;> omega

/-- A head with a short argument is one byte. -/
theorem headLength_of_short {argument : ℕ} (h : argument < 24) : headLength argument = 1 :=
  if_pos h

/-- A head with an argument of four bytes has at most five. -/
theorem headLength_le_five {argument : ℕ} (h : argument < 2 ^ 32) : headLength argument ≤ 5 := by
  unfold headLength
  split_ifs <;> omega

/-- A signed number of two bytes takes at most three. -/
theorem width_int16_le (value : BitVec 16) : (Token.int value.toInt).width ≤ 3 := by
  have hlow := BitVec.le_toInt value
  have hhigh := BitVec.toInt_lt (x := value)
  cases hvalue : value.toInt with
  | ofNat number =>
    rw [hvalue, Int.ofNat_eq_natCast] at hhigh
    exact headLength_le_three (by omega)
  | negSucc number =>
    rw [hvalue, Int.negSucc_eq] at hlow
    exact headLength_le_three (by omega)

namespace Writer.Lawful

variable {writer : Writer} {next : List Byte → Option (Token × List Byte)}

/-- A number of one byte is written in at most two. -/
theorem length_u8_le (h : writer.Lawful next) (value : BitVec 8) : (writer.u8 value).length ≤ 2 :=
  (h.u8 value).length.trans_le (headLength_le_two value.isLt)

/-- A number of two bytes is written in at most three. -/
theorem length_u16_le (h : writer.Lawful next) (value : BitVec 16) :
    (writer.u16 value).length ≤ 3 :=
  (h.u16 value).length.trans_le (headLength_le_three value.isLt)

/-- A number of four bytes is written in at most five. -/
theorem length_u32_le (h : writer.Lawful next) (value : BitVec 32) :
    (writer.u32 value).length ≤ 5 :=
  (h.u32 value).length.trans_le (headLength_le_five value.isLt)

/-- A number of eight bytes is written in at most nine. -/
theorem length_u64_le (h : writer.Lawful next) (value : BitVec 64) :
    (writer.u64 value).length ≤ 9 :=
  (h.u64 value).length.trans_le (headLength_le _)

/-- A signed number of two bytes is written in at most three. -/
theorem length_i16_le (h : writer.Lawful next) (value : BitVec 16) :
    (writer.i16 value).length ≤ 3 :=
  (h.i16 value).length.trans_le (width_int16_le value)

/-- A short number takes one byte. -/
theorem length_code (h : writer.Lawful next) {code : BitVec 8} (hcode : code.toNat < 24) :
    (writer.u8 code).length = 1 :=
  (h.u8 code).length.trans (headLength_of_short hcode)

/-- A truth value is written in one byte. -/
theorem length_bool (h : writer.Lawful next) (value : Bool) : (writer.bool value).length = 1 :=
  (h.bool value).length

/-- The null is written in one byte. -/
theorem length_null (h : writer.Lawful next) : writer.null.length = 1 := h.null.length

/-- The head of an array of fewer than 24 items is written in one byte. -/
theorem length_array (h : writer.Lawful next) {length : ℕ} (hlength : length < 24) :
    (writer.array length).length = 1 :=
  (h.array length (hlength.trans (by decide))).length.trans (headLength_of_short hlength)

/-- The head of a map of fewer than 24 entries is written in one byte. -/
theorem length_map (h : writer.Lawful next) {length : ℕ} (hlength : length < 24) :
    (writer.map length).length = 1 :=
  (h.map length (hlength.trans (by decide))).length.trans (headLength_of_short hlength)

/-- A byte string is written as its head and its content. -/
theorem length_bytes (h : writer.Lawful next) {content : List Byte}
    (hcontent : content.length < 2 ^ 64) :
    (writer.bytes content).length = headLength content.length + content.length :=
  (h.bytes content hcontent).length

end Writer.Lawful

end Cbor
