import ReticulumFirmware.Nor.Bytes

/-!
# NOR flash contents

A flash region is a total map from addresses to bytes. Programming can only clear
bits and erasing can only set them; an operation that is interrupted leaves every
bit it targets either at its old value or at the value it would have had.
-/

namespace Nor

/-- The contents of a flash region, addressed from its first byte. -/
abbrev Flash := ℕ → Byte

namespace Flash

/-- The flash in which every byte is erased. -/
def erased : Flash := fun _ => erasedByte

/-- The bytes in `[offset, offset + length)`. -/
def read (f : Flash) (offset length : ℕ) : List Byte :=
  (List.range length).map fun i => f (offset + i)

/-- Program a byte list: every stored byte is conjoined with the supplied one. -/
def program (f : Flash) (offset : ℕ) (bytes : List Byte) : Flash := fun a =>
  if offset ≤ a ∧ a < offset + bytes.length then f a &&& bytes.getD (a - offset) 0 else f a

/-- Erase `[start, stop)`. -/
def erase (f : Flash) (start stop : ℕ) : Flash := fun a =>
  if start ≤ a ∧ a < stop then erasedByte else f a

/-- Every byte of `[offset, offset + length)` is erased. -/
def Erased (f : Flash) (offset length : ℕ) : Prop := ∀ i < length, f (offset + i) = erasedByte

/-- Every bit that `bytes` keeps is still set in the range at `offset`. -/
def Covers (f : Flash) (offset : ℕ) (bytes : List Byte) : Prop :=
  ∀ i < bytes.length, BitsLE (bytes.getD i 0) (f (offset + i))

/-- Two flash contents agree on `[start, stop)`. -/
def Agree (f g : Flash) (start stop : ℕ) : Prop := ∀ a, start ≤ a → a < stop → f a = g a

/-- Every bit of `g` is the bit of `f` or the bit of `target`. This is what an
interrupted operation from `f` towards `target` may leave behind. -/
def Torn (f target g : Flash) : Prop :=
  ∀ a i, (g a).getLsbD i = (f a).getLsbD i ∨ (g a).getLsbD i = (target a).getLsbD i

/-- An operation that has not changed any bit yet. -/
theorem Torn.start (f target : Flash) : Torn f target f := fun _ _ => Or.inl rfl

/-- An operation that has changed every bit it targets. -/
theorem Torn.finish (f target : Flash) : Torn f target target := fun _ _ => Or.inr rfl

/-- Addresses an operation does not change keep their byte when it is interrupted. -/
theorem Torn.eq_of_eq {f target g : Flash} (h : Torn f target g) {a : ℕ}
    (ha : target a = f a) : g a = f a := by
  apply BitVec.eq_of_getLsbD_eq
  intro i _
  rcases h a i with hi | hi
  · exact hi
  · rw [hi, ha]

/-- An interrupted operation stays between its end points when the target is below. -/
theorem Torn.between {f target g : Flash} (h : Torn f target g) {a : ℕ}
    (hle : BitsLE (target a) (f a)) : BitsLE (target a) (g a) ∧ BitsLE (g a) (f a) := by
  constructor
  · apply bitsLE_iff.mpr
    intro i hi
    rcases h a i with hg | hg
    · rw [hg]
      exact bitsLE_iff.mp hle i hi
    · rwa [hg]
  · apply bitsLE_iff.mpr
    intro i hi
    rcases h a i with hg | hg
    · rwa [hg] at hi
    · rw [hg] at hi
      exact bitsLE_iff.mp hle i hi

/-- An interrupted operation keeps every one bit that its target keeps. -/
theorem Torn.above {f target g : Flash} (h : Torn f target g) {a : ℕ}
    (hle : BitsLE (f a) (target a)) : BitsLE (f a) (g a) := by
  apply bitsLE_iff.mpr
  intro i hi
  rcases h a i with hg | hg
  · rwa [hg]
  · rw [hg]
    exact bitsLE_iff.mp hle i hi

/-- Every byte between the target and the start of a program is a possible torn byte. -/
theorem torn_of_between {f target g : Flash}
    (h : ∀ a, BitsLE (target a) (g a) ∧ BitsLE (g a) (f a)) : Torn f target g := by
  intro a i
  cases hg : (g a).getLsbD i with
  | true => exact Or.inl (bitsLE_iff.mp (h a).2 i hg).symm
  | false =>
    right
    cases ht : (target a).getLsbD i with
    | false => rfl
    | true =>
      have := bitsLE_iff.mp (h a).1 i ht
      rw [hg] at this
      exact this

/-- As many bytes are read as are asked for. -/
@[simp] theorem length_read (f : Flash) (offset length : ℕ) :
    (f.read offset length).length = length := by
  simp [read]

/-- A byte that is read is the one at its address. -/
theorem getElem?_read {f : Flash} {offset length i : ℕ} (hi : i < length) :
    (f.read offset length)[i]? = some (f (offset + i)) := by
  simp [read, hi]

/-- Two reads agree exactly when the flash agrees on the range. -/
theorem read_eq_read_iff {f g : Flash} {offset length : ℕ} :
    f.read offset length = g.read offset length ↔
      ∀ i < length, f (offset + i) = g (offset + i) := by
  simp [read, List.map_inj_left]

/-- A read is a given list exactly when every byte is the listed one. -/
theorem read_eq_iff {f : Flash} {offset : ℕ} {bytes : List Byte} :
    f.read offset bytes.length = bytes ↔ ∀ i < bytes.length, f (offset + i) = bytes.getD i 0 := by
  constructor
  · intro h i hi
    have hget : (f.read offset bytes.length)[i]? = some (f (offset + i)) := getElem?_read hi
    rw [h] at hget
    simp [hget]
  · intro h
    apply List.ext_getElem?
    intro i
    by_cases hi : i < bytes.length
    · rw [getElem?_read hi, h i hi, List.getElem?_eq_getElem hi]
      simp [hi]
    · rw [List.getElem?_eq_none (by simp; omega), List.getElem?_eq_none (by omega)]

/-- A byte of a range that holds a given list. -/
theorem byte_of_read_eq {f : Flash} {offset : ℕ} {bytes : List Byte}
    (h : f.read offset bytes.length = bytes) {i : ℕ} (hi : i < bytes.length) :
    f (offset + i) = bytes.getD i 0 := read_eq_iff.mp h i hi

/-- Reads of agreeing flash contents agree. -/
theorem Agree.read_eq {f g : Flash} {start stop offset length : ℕ} (h : Agree f g start stop)
    (hstart : start ≤ offset) (hstop : offset + length ≤ stop) :
    f.read offset length = g.read offset length :=
  read_eq_read_iff.mpr fun i hi => h (offset + i) (by omega) (by omega)

/-- Agreement is symmetric. -/
theorem Agree.symm {f g : Flash} {start stop : ℕ} (h : Agree f g start stop) :
    Agree g f start stop := fun a h₁ h₂ => (h a h₁ h₂).symm

/-- Agreement on a range is agreement on a smaller one. -/
theorem Agree.mono {f g : Flash} {start stop start' stop' : ℕ} (h : Agree f g start stop)
    (hstart : start ≤ start') (hstop : stop' ≤ stop) : Agree f g start' stop' :=
  fun a h₁ h₂ => h a (by omega) (by omega)

/-- A range is split into two consecutive reads. -/
theorem read_add (f : Flash) (offset m n : ℕ) :
    f.read offset (m + n) = f.read offset m ++ f.read (offset + m) n := by
  simp [read, List.range_add, Nat.add_assoc]

/-- Dropping the start of a read leaves the read of the rest. -/
theorem drop_read (f : Flash) (offset m n : ℕ) :
    (f.read offset (m + n)).drop m = f.read (offset + m) n := by
  have hlength : (f.read offset m).length = m := length_read ..
  rw [read_add]
  exact List.drop_left' hlength

/-- A slice of a read is a read of the shifted range. -/
theorem slice_read {f : Flash} {offset length at_ n : ℕ} (h : at_ + n ≤ length) :
    slice (f.read offset length) at_ n = f.read (offset + at_) n := by
  apply List.ext_getElem?
  intro i
  by_cases hi : i < n
  · rw [getElem?_slice hi, getElem?_read (by omega), getElem?_read hi, Nat.add_assoc]
  · have hlen : (slice (f.read offset length) at_ n).length = n := length_slice (by simpa using h)
    rw [List.getElem?_eq_none (by omega), List.getElem?_eq_none (by simp; omega)]

/-- The check that every byte read is erased decides `Erased`. -/
theorem read_all_erased {f : Flash} {offset length : ℕ} :
    (f.read offset length).all (· == erasedByte) = true ↔ f.Erased offset length := by
  simp [read, Erased]

/-- An erased range reads as erased bytes. -/
theorem Erased.read_eq {f : Flash} {offset length : ℕ} (h : f.Erased offset length) :
    f.read offset length = List.replicate length erasedByte := by
  apply List.ext_getElem?
  intro i
  by_cases hi : i < length
  · rw [getElem?_read hi, h i hi, List.getElem?_replicate, if_pos hi]
  · rw [List.getElem?_eq_none (by simp; omega), List.getElem?_eq_none (by simp; omega)]

/-- A part of an erased range is erased. -/
theorem Erased.mono {f : Flash} {offset length at_ n : ℕ} (h : f.Erased offset length)
    (hstart : offset ≤ at_) (hstop : at_ + n ≤ offset + length) : f.Erased at_ n := by
  intro i hi
  have := h (at_ + i - offset) (by omega)
  rwa [show offset + (at_ + i - offset) = at_ + i by omega] at this

/-- A range is erased in every flash that agrees on it. -/
theorem Erased.congr {f g : Flash} {offset length : ℕ} (h : f.Erased offset length)
    (hagree : Agree f g offset (offset + length)) : g.Erased offset length :=
  fun i hi => by rw [← hagree (offset + i) (by omega) (by omega)]; exact h i hi

/-- The cover check on a read decides `Covers`. -/
theorem covers_read {f : Flash} {offset : ℕ} {bytes : List Byte} :
    covers (f.read offset bytes.length) bytes = true ↔ f.Covers offset bytes := by
  simp only [covers, List.all_eq_true, Prod.forall, beq_iff_eq]
  constructor
  · intro h i hi
    have := h (f (offset + i)) (bytes.getD i 0) (List.mem_iff_getElem?.mpr ⟨i, by
      rw [List.getElem?_zip_eq_some, getElem?_read hi]
      simp [hi]⟩)
    rwa [BitVec.and_comm] at this
  · intro h a e hmem
    obtain ⟨i, hi⟩ := List.mem_iff_getElem?.mp hmem
    obtain ⟨ha, he⟩ := List.getElem?_zip_eq_some.mp hi
    have hlt := (List.getElem?_eq_some_iff.mp he).1
    rw [getElem?_read hlt] at ha
    have hcover := h i hlt
    rw [List.getD_eq_getElem?_getD, he, Option.some.inj ha] at hcover
    rwa [BitVec.and_comm]

/-- An erased range covers everything. -/
theorem Erased.covers {f : Flash} {offset : ℕ} {bytes : List Byte}
    (h : f.Erased offset bytes.length) : f.Covers offset bytes := by
  intro i hi
  rw [h i hi]
  exact bitsLE_erased _

/-- Setting bits keeps a cover. -/
theorem Covers.mono {f g : Flash} {offset : ℕ} {bytes : List Byte} (h : f.Covers offset bytes)
    (hle : ∀ a, BitsLE (f a) (g a)) : g.Covers offset bytes :=
  fun i hi => (h i hi).trans (hle _)

/-- A range that covers a list and is below it holds exactly that list. -/
theorem Covers.read_eq {f : Flash} {offset : ℕ} {bytes : List Byte} (h : f.Covers offset bytes)
    (hle : ∀ i < bytes.length, BitsLE (f (offset + i)) (bytes.getD i 0)) :
    f.read offset bytes.length = bytes :=
  read_eq_iff.mpr fun i hi => (hle i hi).antisymm (h i hi)

/-- Programming never changes a byte outside its range. -/
theorem program_of_not_mem {f : Flash} {offset : ℕ} {bytes : List Byte} {a : ℕ}
    (h : a < offset ∨ offset + bytes.length ≤ a) : f.program offset bytes a = f a := by
  rw [program, if_neg (by omega)]

/-- Programming conjoins inside its range. -/
theorem program_of_mem {f : Flash} {offset : ℕ} {bytes : List Byte} {i : ℕ}
    (hi : i < bytes.length) :
    f.program offset bytes (offset + i) = f (offset + i) &&& bytes.getD i 0 := by
  rw [program, if_pos (by omega), Nat.add_sub_cancel_left]

/-- Programming only clears bits. -/
theorem program_le (f : Flash) (offset : ℕ) (bytes : List Byte) (a : ℕ) :
    BitsLE (f.program offset bytes a) (f a) := by
  rw [program]
  split
  · exact bitsLE_and_left _ _
  · exact BitsLE.refl _

/-- Programming an erased range stores exactly the supplied bytes. -/
theorem read_program_erased {f : Flash} {offset : ℕ} {bytes : List Byte}
    (h : f.Erased offset bytes.length) :
    (f.program offset bytes).read offset bytes.length = bytes :=
  read_eq_iff.mpr fun i hi => by
    rw [program_of_mem hi, h i hi]
    exact BitVec.allOnes_and

/-- An interrupted program does not disturb addresses outside its range. -/
theorem Torn.program_of_not_mem {f g : Flash} {offset : ℕ} {bytes : List Byte} {a : ℕ}
    (ht : Torn f (f.program offset bytes) g) (h : a < offset ∨ offset + bytes.length ≤ a) :
    g a = f a :=
  ht.eq_of_eq (Flash.program_of_not_mem h)

/-- An interrupted program does not disturb a read of a disjoint range. -/
theorem Torn.program_read {f g : Flash} {offset at_ length : ℕ} {bytes : List Byte}
    (ht : Torn f (f.program offset bytes) g)
    (h : at_ + length ≤ offset ∨ offset + bytes.length ≤ at_) :
    g.read at_ length = f.read at_ length :=
  read_eq_read_iff.mpr fun i hi => ht.program_of_not_mem (by omega)

/-- An interrupted program leaves a disjoint erased range erased. -/
theorem Torn.program_erased {f g : Flash} {offset at_ length : ℕ} {bytes : List Byte}
    (ht : Torn f (f.program offset bytes) g) (hf : f.Erased at_ length)
    (h : at_ + length ≤ offset ∨ offset + bytes.length ≤ at_) : g.Erased at_ length :=
  fun i hi => (ht.program_of_not_mem (by omega)).trans (hf i hi)

/-- Programming a first part of the bytes is an interruption of programming all of them. -/
theorem torn_program_append (f : Flash) (offset : ℕ) (head rest : List Byte) :
    Torn f (f.program offset (head ++ rest)) (f.program offset head) := by
  intro a i
  by_cases ha : offset ≤ a ∧ a < offset + head.length
  · right
    rw [program, if_pos ha, program, if_pos (by rw [List.length_append]; omega),
      List.getD_eq_getElem?_getD, List.getD_eq_getElem?_getD,
      List.getElem?_append_left (by omega)]
  · exact Or.inl (by rw [Flash.program_of_not_mem (by omega)])

/-- An interrupted program stays between the programmed and the old contents. -/
theorem Torn.program_between {f g : Flash} {offset : ℕ} {bytes : List Byte}
    (ht : Torn f (f.program offset bytes) g) (a : ℕ) :
    BitsLE (f.program offset bytes a) (g a) ∧ BitsLE (g a) (f a) :=
  ht.between (program_le f offset bytes a)

/-- An interrupted program over an erased range still covers its bytes. -/
theorem Torn.program_covers {f g : Flash} {offset : ℕ} {bytes : List Byte}
    (ht : Torn f (f.program offset bytes) g) (h : f.Erased offset bytes.length) :
    g.Covers offset bytes := by
  intro i hi
  have hlow := (ht.program_between (offset + i)).1
  rw [program_of_mem hi, h i hi] at hlow
  have hself : erasedByte &&& bytes.getD i 0 = bytes.getD i 0 := BitVec.allOnes_and
  rwa [hself] at hlow

/-- Completing an interrupted program gives the same contents as the program itself. -/
theorem Torn.program_again {f g : Flash} {offset : ℕ} {bytes : List Byte}
    (ht : Torn f (f.program offset bytes) g) :
    g.program offset bytes = f.program offset bytes := by
  funext a
  have hb := ht.program_between a
  by_cases hmem : offset ≤ a ∧ a < offset + bytes.length
  · rw [program, if_pos hmem] at hb
    rw [program, if_pos hmem, program, if_pos hmem]
    exact hb.1.and_eq hb.2
  · rw [Flash.program_of_not_mem (by omega), Flash.program_of_not_mem (by omega)]
    exact ht.program_of_not_mem (by omega)

/-- A second interruption of the same program is an interruption of the first one. -/
theorem Torn.program_trans {f g g' : Flash} {offset : ℕ} {bytes : List Byte}
    (ht : Torn f (f.program offset bytes) g) (ht' : Torn g (g.program offset bytes) g') :
    Torn f (f.program offset bytes) g' := by
  apply torn_of_between
  intro a
  have h := ht.program_between a
  have h' := ht'.program_between a
  rw [ht.program_again] at h'
  exact ⟨h'.1, h'.2.trans h.2⟩

/-- Programming contents that are already below the supplied bytes changes nothing. -/
theorem program_eq_self {f : Flash} {offset : ℕ} {bytes : List Byte}
    (h : ∀ i < bytes.length, BitsLE (f (offset + i)) (bytes.getD i 0)) :
    f.program offset bytes = f := by
  funext a
  by_cases hmem : offset ≤ a ∧ a < offset + bytes.length
  · have := h (a - offset) (by omega)
    rw [show offset + (a - offset) = a by omega] at this
    rw [program, if_pos hmem]
    exact this
  · exact program_of_not_mem (by omega)

/-- The only interruption of an operation that changes nothing is the contents itself. -/
theorem Torn.eq_of_target_eq {f target g : Flash} (ht : Torn f target g) (h : target = f) :
    g = f :=
  funext fun a => ht.eq_of_eq (congrFun h a)

/-- An erase leaves its range erased. -/
theorem erase_erased (f : Flash) (start length : ℕ) :
    (f.erase start (start + length)).Erased start length := by
  intro i hi
  rw [erase, if_pos (by omega)]

/-- An erasure changes nothing outside its range. -/
theorem erase_of_not_mem {f : Flash} {start stop a : ℕ} (h : a < start ∨ stop ≤ a) :
    f.erase start stop a = f a := by
  rw [erase, if_neg (by omega)]

/-- Erasing only sets bits. -/
theorem le_erase (f : Flash) (start stop a : ℕ) : BitsLE (f a) (f.erase start stop a) := by
  rw [erase]
  split
  · exact bitsLE_erased _
  · exact BitsLE.refl _

/-- An interrupted erase keeps every one bit. -/
theorem Torn.le_erase {f g : Flash} {start stop : ℕ} (ht : Torn f (f.erase start stop) g)
    (a : ℕ) : BitsLE (f a) (g a) :=
  ht.above (Flash.le_erase f start stop a)

end Flash

end Nor
