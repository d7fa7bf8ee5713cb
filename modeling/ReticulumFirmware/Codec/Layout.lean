import ReticulumFirmware.Nor.Bytes

/-!
# Formats of fixed fields

A buffer is the concatenation of its fields, whatever they hold. A format is canonical when its
reader accepts exactly the bytes that its writer gives, each as the value they were written from.
-/

namespace Codec

open Nor

/-- The consecutive fields of a buffer. -/
def fieldsAt (buffer : List Byte) : ℕ → List ℕ → List (List Byte)
  | _, [] => []
  | offset, width :: widths => slice buffer offset width :: fieldsAt buffer (offset + width) widths

/-- A slice and what is behind it are what is behind its offset. -/
theorem slice_append_drop (buffer : List Byte) (offset width : ℕ) :
    slice buffer offset width ++ buffer.drop (offset + width) = buffer.drop offset := by
  rw [slice, ← List.drop_drop, List.take_append_drop]

/-- A buffer is its fields and what follows them. -/
theorem flatten_fieldsAt (buffer : List Byte) (offset : ℕ) (widths : List ℕ) :
    (fieldsAt buffer offset widths).flatten ++ buffer.drop (offset + widths.sum) =
      buffer.drop offset := by
  induction widths generalizing offset with
  | nil => simp [fieldsAt]
  | cons width widths ih =>
    rw [fieldsAt, List.flatten_cons, List.sum_cons, ← Nat.add_assoc, List.append_assoc, ih,
      slice_append_drop]

/-- A one-byte field holds the numeral of its value. -/
theorem slice_one {buffer : List Byte} {offset : ℕ} (h : offset < buffer.length) :
    slice buffer offset 1 = [BitVec.ofNat 8 (leNat (slice buffer offset 1))] := by
  have hlength : (slice buffer offset 1).length = 1 := length_slice h
  have hbytes := leBytes_leNat (slice buffer offset 1)
  rw [hlength] at hbytes
  exact hbytes.symm

/-- One byte reads as its value. -/
theorem leNat_singleton {n : ℕ} (h : n < 256) : leNat [BitVec.ofNat 8 n] = n := by
  rw [leNat, leNat, BitVec.toNat_ofNat, Nat.mod_eq_of_lt h, Nat.mul_zero, Nat.add_zero]

/-- The number in a slice is written back as the slice. -/
theorem beBytes_slice {buffer : List Byte} {offset width : ℕ} (h : offset + width ≤ buffer.length) :
    beBytes width (beNat (slice buffer offset width)) = slice buffer offset width := by
  have hbytes := beBytes_beNat (slice buffer offset width)
  rwa [length_slice h] at hbytes

/-- A slice holds a number of its width. -/
theorem beNat_slice_lt {buffer : List Byte} {offset width : ℕ} :
    beNat (slice buffer offset width) < 256 ^ width :=
  (beNat_lt _).trans_le (Nat.pow_le_pow_right (by decide) (List.length_take_le _ _))

/-- A one-byte field is its byte. -/
theorem slice_eq_getD {buffer : List Byte} {offset : ℕ} (h : offset < buffer.length) :
    slice buffer offset 1 = [buffer.getD offset 0] := by
  rw [slice, List.drop_eq_getElem_cons h, List.take_succ_cons, List.take_zero,
    List.getD_eq_getElem?_getD, List.getElem?_eq_getElem h]
  rfl

variable {α ε : Type}

/-- A reader accepts exactly what the writer gives for the valid values. -/
structure Canonical (valid : α → Prop) (encode : α → List Byte)
    (decode : List Byte → Except ε α) : Prop where
  round_trip : ∀ a, valid a → decode (encode a) = .ok a
  exact : ∀ bytes a, decode bytes = .ok a → valid a ∧ encode a = bytes

/-- Write a message to the front of a buffer: its length and the buffer afterwards. -/
def writeFront (short : ε) (message output : List Byte) : Except ε (ℕ × List Byte) :=
  if output.length < message.length then .error short
  else .ok (message.length, message ++ output.drop message.length)

/-- The same for a writer that fills the front of a buffer, which `capacity` bytes are enough
for. -/
structure CanonicalWriter (capacity : ℕ) (valid : α → Prop)
    (write : α → List Byte → Except ε (ℕ × List Byte)) (decode : List Byte → Except ε α) :
    Prop where
  enough : ∀ a output, valid a → capacity ≤ output.length → ∃ n output',
    write a output = .ok (n, output')
  round_trip : ∀ a output n output', valid a → write a output = .ok (n, output') →
    n ≤ output'.length ∧ decode (output'.take n) = .ok a
  exact : ∀ bytes a, decode bytes = .ok a →
    valid a ∧ ∀ output, output.length = bytes.length → write a output = .ok (bytes.length, bytes)

/-- A canonical encoding is canonical when it is written to the front of a buffer. -/
theorem Canonical.writer {valid : α → Prop} {encode : α → List Byte}
    {decode : List Byte → Except ε α} (h : Canonical valid encode decode) {capacity : ℕ}
    (hcapacity : ∀ a, (encode a).length ≤ capacity) (short : ε) :
    CanonicalWriter capacity valid (fun a => writeFront short (encode a)) decode where
  enough := by
    intro a output _ hroom
    have hfits := hcapacity a
    exact ⟨_, _, if_neg (by omega)⟩
  round_trip := by
    intro a output n output' ha hwrite
    unfold writeFront at hwrite
    split_ifs at hwrite
    obtain ⟨rfl, rfl⟩ := Prod.mk.inj (Except.ok.inj hwrite)
    rw [List.take_left, List.length_append]
    exact ⟨Nat.le_add_right _ _, h.round_trip a ha⟩
  exact := by
    intro bytes a hdecode
    obtain ⟨ha, rfl⟩ := h.exact bytes a hdecode
    refine ⟨ha, fun output hlength => ?_⟩
    rw [writeFront, if_neg (by omega), List.drop_of_length_le (by omega), List.append_nil]

end Codec
