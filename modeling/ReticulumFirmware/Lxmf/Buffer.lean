import ReticulumFirmware.Nor.Bytes

/-!
# Writes into a buffer

A function writes its parts one after the other into a buffer of the caller. Where the parts fit,
what the buffer holds afterwards is their concatenation.
-/

namespace Lxmf

open Nor

/-- A buffer of the caller that is too small. -/
structure BufferError where
  required : ℕ
  available : ℕ
  deriving DecidableEq

/-- A buffer, and the position of the next write. -/
structure Target where
  bytes : List Byte
  cursor : ℕ

/-- Write at the cursor. There is no result if the bytes do not fit, which is a panic. -/
def putBytes (value : List Byte) (target : Target) : Option Target :=
  if target.cursor + value.length ≤ target.bytes.length then
    some ⟨target.bytes.take target.cursor ++ value ++
      target.bytes.drop (target.cursor + value.length), target.cursor + value.length⟩
  else none

section Writes

/-- At every cursor with enough room behind it, the bytes are written and the cursor moves behind
them. -/
def Writes (put : Target → Option Target) (bytes : List Byte) : Prop :=
  ∀ written rest, bytes.length ≤ rest.length →
    put ⟨written ++ rest, written.length⟩ =
      some ⟨(written ++ bytes) ++ rest.drop bytes.length, (written ++ bytes).length⟩

/-- Two writers one after another write their bytes one after another. -/
theorem Writes.bind {put next : Target → Option Target} {bytes others : List Byte}
    (h : Writes put bytes) (hnext : Writes next others) :
    Writes (fun target => put target >>= next) (bytes ++ others) := by
  intro written rest hroom
  rw [List.length_append] at hroom
  have hrest : others.length ≤ (rest.drop bytes.length).length := by
    rw [List.length_drop]
    omega
  dsimp only
  rw [h written rest (by omega), Option.bind_eq_bind, Option.bind_some, hnext _ _ hrest,
    List.drop_drop, List.append_assoc written, @List.length_append _ bytes]

/-- The writer of bytes writes them. -/
theorem writes_putBytes (bytes : List Byte) : Writes (putBytes bytes) bytes := by
  intro written rest hroom
  have hfits : written.length + bytes.length ≤ (written ++ rest).length := by
    rw [List.length_append]
    omega
  rw [putBytes, if_pos hfits]
  simp [List.drop_append]

/-- A write into the first bytes of a buffer. -/
theorem Writes.run {put : Target → Option Target} {bytes output : List Byte} (h : Writes put bytes)
    (hroom : bytes.length ≤ output.length) :
    put ⟨output.take bytes.length, 0⟩ = some ⟨bytes, bytes.length⟩ := by
  have hput := h [] (output.take bytes.length) (by rw [List.length_take]; omega)
  simpa using hput

end Writes

end Lxmf
