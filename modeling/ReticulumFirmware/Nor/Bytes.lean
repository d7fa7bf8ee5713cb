import Mathlib.Data.List.Basic
import Mathlib.Data.Nat.Log
import Mathlib.Tactic.Ring

/-!
# Bytes, fixed-offset fields, and little-endian integers

Flash formats are byte arrays whose fields stand at fixed offsets and are read back
by slicing the same offsets. This file collects the bit order of a byte, slices of
byte lists and of concatenated fields, and little-endian numerals. Nothing here
depends on a particular format.
-/

namespace Nor

/-- One stored byte, as its eight bits. -/
abbrev Byte := BitVec 8

/-- The value of every byte of an erased sector. -/
abbrev erasedByte : Byte := 0xff#8

/-- Every one bit of `x` is a one bit of `y`. Programming moves a byte down in this
order and erasing moves it up. -/
def BitsLE (x y : Byte) : Prop := x &&& y = x

/-- The order of bits is decided by one operation. -/
instance (x y : Byte) : Decidable (BitsLE x y) := inferInstanceAs (Decidable (_ = _))

/-- The bit order read bit by bit. -/
theorem bitsLE_iff {x y : Byte} :
    BitsLE x y ↔ ∀ i, x.getLsbD i = true → y.getLsbD i = true := by
  constructor
  · intro h i hi
    have hbit := congrArg (fun b : Byte => b.getLsbD i) h
    simp only [BitVec.getLsbD_and, hi, Bool.true_and] at hbit
    exact hbit
  · intro h
    apply BitVec.eq_of_getLsbD_eq
    intro i _
    rw [BitVec.getLsbD_and]
    cases hi : x.getLsbD i with
    | false => rfl
    | true => simp [h i hi]

/-- The bit order is reflexive. -/
theorem BitsLE.refl (x : Byte) : BitsLE x x := BitVec.and_self

/-- The bit order is transitive. -/
theorem BitsLE.trans {x y z : Byte} (hxy : BitsLE x y) (hyz : BitsLE y z) : BitsLE x z :=
  bitsLE_iff.mpr fun i hi => bitsLE_iff.mp hyz i (bitsLE_iff.mp hxy i hi)

/-- The bit order is antisymmetric. -/
theorem BitsLE.antisymm {x y : Byte} (hxy : BitsLE x y) (hyx : BitsLE y x) : x = y := by
  rw [← hxy, BitVec.and_comm, hyx]

/-- A conjunction of bytes is below its left operand. -/
theorem bitsLE_and_left (x y : Byte) : BitsLE (x &&& y) x :=
  bitsLE_iff.mpr fun i hi => by
    rw [BitVec.getLsbD_and, Bool.and_eq_true] at hi
    exact hi.1

/-- A conjunction of bytes is below its right operand. -/
theorem bitsLE_and_right (x y : Byte) : BitsLE (x &&& y) y := by
  rw [BitVec.and_comm]
  exact bitsLE_and_left y x

/-- Every byte is below the erased byte. -/
theorem bitsLE_erased (x : Byte) : BitsLE x erasedByte := BitVec.and_allOnes

/-- Only the erased byte is above the erased byte. -/
theorem eq_erased_of_bitsLE {x : Byte} (h : BitsLE erasedByte x) : x = erasedByte :=
  (bitsLE_erased x).antisymm h

/-- A byte between `y` and its conjunction with `x` is fixed by a second conjunction. -/
theorem BitsLE.and_eq {x y z : Byte} (hlow : BitsLE (y &&& z) x) (hhigh : BitsLE x y) :
    x &&& z = y &&& z := by
  apply BitsLE.antisymm
  · apply bitsLE_iff.mpr
    intro i hi
    rw [BitVec.getLsbD_and, Bool.and_eq_true] at hi ⊢
    exact ⟨bitsLE_iff.mp hhigh i hi.1, hi.2⟩
  · apply bitsLE_iff.mpr
    intro i hi
    have hx := bitsLE_iff.mp hlow i hi
    rw [BitVec.getLsbD_and, Bool.and_eq_true] at hi ⊢
    exact ⟨hx, hi.2⟩

/-- The `length` bytes of a buffer that start at `offset`. -/
def slice (buffer : List Byte) (offset length : ℕ) : List Byte :=
  (buffer.drop offset).take length

/-- A slice inside a buffer has the requested length. -/
theorem length_slice {buffer : List Byte} {offset length : ℕ}
    (h : offset + length ≤ buffer.length) : (slice buffer offset length).length = length := by
  simp only [slice, List.length_take, List.length_drop]
  omega

/-- The entry of a slice is the entry of the buffer at the shifted position. -/
theorem getElem?_slice {buffer : List Byte} {offset length i : ℕ} (hi : i < length) :
    (slice buffer offset length)[i]? = buffer[offset + i]? := by
  simp [slice, hi]

/-- A slice is split into two consecutive slices. -/
theorem slice_add (buffer : List Byte) (offset m n : ℕ) :
    slice buffer offset (m + n) = slice buffer offset m ++ slice buffer (offset + m) n := by
  simp [slice, List.take_add, List.drop_drop]

/-- A slice inside a slice. -/
theorem slice_slice {buffer : List Byte} {offset length at_ n : ℕ} (h : at_ + n ≤ length) :
    slice (slice buffer offset length) at_ n = slice buffer (offset + at_) n := by
  simp only [slice, List.drop_take, List.take_take, List.drop_drop]
  rw [Nat.min_eq_left (by omega)]

/-- The slice of everything is the buffer. -/
theorem slice_all {buffer : List Byte} {length : ℕ} (h : buffer.length = length) :
    slice buffer 0 length = buffer := by
  simp [slice, ← h]

/-- A one-byte field is read by indexing. -/
theorem getD_of_slice {buffer : List Byte} {offset : ℕ} {byte : Byte}
    (h : slice buffer offset 1 = [byte]) : buffer.getD offset 0 = byte := by
  have hget : (slice buffer offset 1)[0]? = buffer[offset + 0]? := getElem?_slice Nat.one_pos
  rw [h] at hget
  rw [List.getD_eq_getElem?_getD, show offset = offset + 0 from rfl, ← hget]
  rfl

/-- The fields of a record that start at a field boundary. -/
theorem drop_flatten {fields : List (List Byte)} {widths : List ℕ}
    (hwidths : fields.map List.length = widths) (i : ℕ) :
    fields.flatten.drop (widths.take i).sum = (fields.drop i).flatten := by
  induction fields generalizing widths i with
  | nil => simp
  | cons field fields ih =>
    subst hwidths
    cases i with
    | zero => simp
    | succ i =>
      simp only [List.map_cons, List.take_succ_cons, List.sum_cons, List.flatten_cons,
        List.drop_succ_cons]
      rw [← List.drop_drop, List.drop_left, ih rfl]

/-- The fields of a record that end at a field boundary. -/
theorem take_flatten {fields : List (List Byte)} {widths : List ℕ}
    (hwidths : fields.map List.length = widths) (i : ℕ) :
    fields.flatten.take (widths.take i).sum = (fields.take i).flatten := by
  induction fields generalizing widths i with
  | nil => simp
  | cons field fields ih =>
    subst hwidths
    cases i with
    | zero => simp
    | succ i =>
      simp only [List.map_cons, List.take_succ_cons, List.sum_cons, List.flatten_cons]
      rw [List.take_length_add_append, ih rfl]

/-- The field of a record that starts at the sum of the widths before it. -/
theorem slice_flatten {fields : List (List Byte)} {widths : List ℕ}
    (hwidths : fields.map List.length = widths) {i offset length : ℕ} {field : List Byte}
    (hfield : fields[i]? = some field) (hoffset : (widths.take i).sum = offset)
    (hlength : field.length = length) : slice fields.flatten offset length = field := by
  obtain ⟨hi, rfl⟩ := List.getElem?_eq_some_iff.mp hfield
  rw [slice, ← hoffset, drop_flatten hwidths, List.drop_eq_getElem_cons hi, List.flatten_cons,
    ← hlength, List.take_left]

/-- Whether programming `expected` over these bytes can still succeed: no bit that
`expected` keeps has been cleared. -/
def covers (actual expected : List Byte) : Bool :=
  (actual.zip expected).all fun (a, e) => a &&& e == e

/-- The bytes of an ASCII text. -/
def ascii (text : String) : List Byte := text.toList.map fun c => BitVec.ofNat 8 c.toNat

/-- The little-endian bytes of a natural number, truncated to `width` bytes. -/
def leBytes : ℕ → ℕ → List Byte
  | 0, _ => []
  | width + 1, n => BitVec.ofNat 8 n :: leBytes width (n / 256)

/-- The natural number a little-endian byte list denotes. -/
def leNat : List Byte → ℕ
  | [] => 0
  | b :: bs => b.toNat + 256 * leNat bs

/-- The big-endian bytes of a natural number, truncated to `width` bytes. -/
def beBytes (width n : ℕ) : List Byte := (leBytes width n).reverse

/-- The natural number a big-endian byte list denotes. -/
def beNat (bytes : List Byte) : ℕ := leNat bytes.reverse

/-- A numeral has exactly the requested width. -/
@[simp] theorem length_leBytes (width n : ℕ) : (leBytes width n).length = width := by
  induction width generalizing n with
  | zero => rfl
  | succ width ih => simp [leBytes, ih]

/-- Reading a written numeral gives the number modulo its range. -/
theorem leNat_leBytes (width n : ℕ) : leNat (leBytes width n) = n % 256 ^ width := by
  induction width generalizing n with
  | zero => simp [leBytes, leNat, Nat.mod_one]
  | succ width ih =>
    have hpow : 256 ^ (width + 1) = 256 * 256 ^ width := by ring
    rw [leBytes, leNat, ih, BitVec.toNat_ofNat, hpow, Nat.mod_mul]

/-- A number in range is read back exactly. -/
theorem leNat_leBytes_of_lt {width n : ℕ} (h : n < 256 ^ width) : leNat (leBytes width n) = n := by
  rw [leNat_leBytes, Nat.mod_eq_of_lt h]

/-- A word is read back from the numeral of a width that holds it. -/
theorem ofNat_leNat_leBytes {w n : ℕ} (hwidth : w ≤ 8 * n) (word : BitVec w) :
    BitVec.ofNat w (leNat (leBytes n word.toNat)) = word := by
  have hlt : word.toNat < 256 ^ n := by
    rw [show 256 = 2 ^ 8 by decide, ← Nat.pow_mul]
    exact word.isLt.trans_le (Nat.pow_le_pow_right (by decide) hwidth)
  rw [leNat_leBytes_of_lt hlt, BitVec.ofNat_toNat, BitVec.setWidth_eq]

/-- A numeral of `width` bytes stays below `256 ^ width`. -/
theorem leNat_lt (bytes : List Byte) : leNat bytes < 256 ^ bytes.length := by
  induction bytes with
  | nil => simp [leNat]
  | cons b bs ih =>
    have hb := b.isLt
    simp only [leNat, List.length_cons, pow_succ]
    omega

/-- A number is written in the given width. -/
@[simp] theorem length_beBytes (width n : ℕ) : (beBytes width n).length = width := by
  simp [beBytes]

/-- A number in range is read back exactly, most significant byte first. -/
theorem beNat_beBytes_of_lt {width n : ℕ} (h : n < 256 ^ width) : beNat (beBytes width n) = n := by
  rw [beNat, beBytes, List.reverse_reverse, leNat_leBytes_of_lt h]

/-- The numeral of the number that bytes denote is these bytes. -/
theorem leBytes_leNat (bytes : List Byte) : leBytes bytes.length (leNat bytes) = bytes := by
  induction bytes with
  | nil => rfl
  | cons b bs ih =>
    have hb := b.isLt
    have hdiv : (b.toNat + 256 * leNat bs) / 256 = leNat bs := by omega
    have hlow : BitVec.ofNat 8 (b.toNat + 256 * leNat bs) = b := by
      apply BitVec.eq_of_toNat_eq
      rw [BitVec.toNat_ofNat]
      omega
    rw [List.length_cons, leNat, leBytes, hdiv, hlow, ih]

/-- The number in bytes is written back as them. -/
theorem beBytes_beNat (bytes : List Byte) : beBytes bytes.length (beNat bytes) = bytes := by
  have h := leBytes_leNat bytes.reverse
  rw [List.length_reverse] at h
  rw [beBytes, beNat, h, List.reverse_reverse]

/-- Bytes hold a number of their width. -/
theorem beNat_lt (bytes : List Byte) : beNat bytes < 256 ^ bytes.length := by
  have h := leNat_lt bytes.reverse
  rwa [List.length_reverse] at h

/-- A positive number that fits 64 bits. -/
structure NonZeroU64 where
  get : ℕ
  pos : 0 < get
  lt : get < 2 ^ 64
  deriving DecidableEq

/-- The number, unless it is zero. -/
def NonZeroU64.new (value : ℕ) : Option NonZeroU64 :=
  if h : 0 < value ∧ value < 2 ^ 64 then some ⟨value, h.1, h.2⟩ else none

/-- An accepted value is accepted again. -/
@[simp] theorem NonZeroU64.new_get (value : NonZeroU64) : new value.get = some value :=
  dif_pos ⟨value.pos, value.lt⟩

/-- A number that is accepted is the number kept. -/
theorem NonZeroU64.get_of_new {number : ℕ} {value : NonZeroU64} (h : new number = some value) :
    value.get = number := by
  unfold new at h
  split at h
  · cases h
    rfl
  · cases h

/-- One fits into eight bytes. -/
theorem one_lt_two_pow_64 : 1 < 2 ^ 64 := by decide

/-- A positive number is read back from its numeral. -/
@[simp] theorem NonZeroU64.leNat_leBytes (value : NonZeroU64) :
    leNat (leBytes 8 value.get) = value.get :=
  leNat_leBytes_of_lt value.lt

/-- A hash function with digests of 32 bytes. -/
abbrev Sha256 := List Byte → Vector Byte 32

/-- Copy a byte list of any length into a fixed array, padding with zero bytes. -/
def copyArray (n : ℕ) (bytes : List Byte) : Vector Byte n :=
  Vector.ofFn fun i => bytes.getD i 0

/-- Copying the bytes of an array restores the array. -/
@[simp] theorem copyArray_toList {n : ℕ} (v : Vector Byte n) : copyArray n v.toList = v := by
  apply Vector.ext
  intro i hi
  simp [copyArray]

/-- A byte list of the array's length survives the copy. -/
theorem toList_copyArray {n : ℕ} {bytes : List Byte} (h : bytes.length = n) :
    (copyArray n bytes).toList = bytes := by
  apply List.ext_getElem
  · simp [h]
  · intro i _ hi
    simp [copyArray, hi]

end Nor
