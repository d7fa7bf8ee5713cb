import ReticulumFirmware.Settings.Atomic

/-!
# The appliance-settings record

`appliance_settings.rs`: one optional display label in a mirrored record, with the codec of
the label and the two operations of its owner.
-/

namespace Appliance

open Nor Settings

/-- Maximum UTF-8 bytes of a label. -/
abbrev applianceLabelBytes : ℕ := 32

/-- Policy faults of this owner. -/
inductive LabelFault where
  | invalidLabel
  deriving DecidableEq

/-- `char::is_control`. -/
def isControl (c : Char) : Bool := c.toNat < 0x20 || (0x7f ≤ c.toNat && c.toNat < 0xa0)

/-- A character that a label must not contain. -/
def breaksLine (c : Char) : Bool := isControl c || c == '\u2028' || c == '\u2029'

/-- A validated label. -/
structure ApplianceLabel where
  text : String
  nonempty : text.isEmpty = false
  bounded : text.utf8ByteSize ≤ applianceLabelBytes
  singleLine : text.toList.any breaksLine = false
  deriving DecidableEq

/-- Validate one non-empty single-line label. -/
def ApplianceLabel.new (label : String) : Except (Fault LabelFault) ApplianceLabel :=
  if h : label.isEmpty = true ∨ applianceLabelBytes < label.utf8ByteSize ∨
      label.toList.any breaksLine = true then .error (.policy .invalidLabel)
  else .ok ⟨label, by simpa using fun he => h (Or.inl he),
    not_lt.mp fun hb => h (Or.inr (Or.inl hb)), by
      rw [← Bool.not_eq_true]
      exact fun hl => h (Or.inr (Or.inr hl))⟩

/-- The UTF-8 bytes of a string. -/
def utf8Bytes (text : String) : List Byte := text.toByteArray.data.toList.map UInt8.toBitVec

/-- `core::str::from_utf8`. -/
def fromUtf8 (bytes : List Byte) : Option String :=
  String.fromUTF8? ⟨(bytes.map UInt8.ofBitVec).toArray⟩

/-- A text is read back from its bytes. -/
theorem fromUtf8_utf8Bytes (text : String) : fromUtf8 (utf8Bytes text) = some text := by
  have hmap : (utf8Bytes text).map UInt8.ofBitVec = text.toByteArray.data.toList := by
    simp [utf8Bytes, Function.comp_def]
  unfold fromUtf8
  rw [hmap]
  exact dif_pos text.isValidUTF8

/-- A text has as many bytes as its encoding. -/
theorem length_utf8Bytes (text : String) : (utf8Bytes text).length = text.utf8ByteSize := by
  unfold utf8Bytes
  rw [List.length_map, Array.length_toList]
  rfl

abbrev labelLengthOffset : ℕ := 64
abbrev labelOffset : ℕ := 68
abbrev labelEnd : ℕ := labelOffset + applianceLabelBytes

/-- The bytes of an optional label. -/
def labelBytes : Option ApplianceLabel → List Byte
  | none => []
  | some label => utf8Bytes label.text

/-- The label fields of a record: length, bytes and zeroed rest. -/
def labelFields (label : Option ApplianceLabel) : List (List Byte) := [
  beBytes 4 (labelBytes label).length,
  labelBytes label,
  List.replicate (applianceLabelBytes - (labelBytes label).length) 0,
  List.replicate (digestOffset - labelEnd) 0]

/-- The label of a record, with the zeroed bytes around it checked. -/
def parseLabel (record : List Byte) : Option (Option ApplianceLabel) :=
  if (slice record 12 (generationOffset - 12)).any (· != 0)
    ∨ (slice record labelEnd (digestOffset - labelEnd)).any (· != 0)
  then none
  else
    let labelLen := beNat (slice record labelLengthOffset 4)
    if applianceLabelBytes < labelLen
      ∨ (slice record (labelOffset + labelLen) (applianceLabelBytes - labelLen)).any (· != 0)
    then none
    else if labelLen = 0 then some none
    else (fromUtf8 (slice record labelOffset labelLen)).bind fun text =>
      (ApplianceLabel.new text).toOption.map some

/-- A label has at most 32 bytes. -/
theorem length_labelBytes_le (label : Option ApplianceLabel) : (labelBytes label).length ≤ 32 := by
  cases label with
  | none => simp [labelBytes]
  | some label =>
    rw [labelBytes, length_utf8Bytes]
    exact label.bounded

/-- The fields of a label fill their record. -/
theorem labelFields_widths (label : Option ApplianceLabel) :
    (labelFields label).map List.length =
      [4, (labelBytes label).length, 32 - (labelBytes label).length, 92] := by
  simp [labelFields]
  decide

/-- A validated label is accepted again. -/
theorem new_text (label : ApplianceLabel) : ApplianceLabel.new label.text = .ok label := by
  unfold ApplianceLabel.new
  rw [dif_neg]
  rintro (h | h | h)
  · simp [label.nonempty] at h
  · exact absurd label.bounded (by omega)
  · simp [label.singleLine] at h

/-- A record with the fields of a label is parsed to it. -/
theorem parseLabel_of_fields (label : Option ApplianceLabel) (record : List Byte)
    (hextra : slice record 12 4 = List.replicate 4 0)
    (hpayload : slice record 64 128 = (labelFields label).flatten) :
    parseLabel record = some label := by
  have hbound := length_labelBytes_le label
  have hfield : ∀ (i offset length : ℕ) (field : List Byte), (labelFields label)[i]? = some field →
      (List.take i [4, (labelBytes label).length, 32 - (labelBytes label).length, 92]).sum =
        offset → field.length = length → offset + length ≤ 128 →
      slice record (64 + offset) length = field := by
    intro i offset length field hfield hoffset hlength hle
    rw [← slice_slice hle, hpayload]
    exact slice_flatten (labelFields_widths label) hfield hoffset hlength
  have hlength : beNat (slice record 64 4) = (labelBytes label).length := by
    have hslice : slice record (64 + 0) 4 = beBytes 4 (labelBytes label).length :=
      hfield 0 0 4 _ rfl rfl (length_beBytes ..) (by omega)
    rw [Nat.add_zero] at hslice
    rw [hslice]
    exact beNat_beBytes_of_lt (by omega)
  have hbytes : slice record 68 (labelBytes label).length = labelBytes label :=
    hfield 1 4 _ _ rfl (by simp) rfl (by omega)
  have hpad : slice record (68 + (labelBytes label).length) (32 - (labelBytes label).length) =
      List.replicate (32 - (labelBytes label).length) 0 := by
    have h := hfield 2 (4 + (labelBytes label).length) (32 - (labelBytes label).length)
      (List.replicate (32 - (labelBytes label).length) 0) rfl (by simp) (by simp) (by omega)
    rwa [← Nat.add_assoc] at h
  have hrest : slice record 100 92 = List.replicate 92 0 :=
    hfield 3 36 92 _ rfl (by simp; omega) (by simp) (by omega)
  have hzero : (slice record 12 (generationOffset - 12)).any (· != 0) = false := by
    change (slice record 12 4).any (· != 0) = false
    simp [hextra]
  have hzero' : (slice record labelEnd (digestOffset - labelEnd)).any (· != 0) = false := by
    change (slice record 100 92).any (· != 0) = false
    simp [hrest]
  unfold parseLabel
  rw [if_neg (by simp only [hzero, hzero']; decide)]
  simp only [hlength]
  rw [if_neg (by simp [hpad, hbound])]
  cases label with
  | none => rfl
  | some label =>
    have hnonempty : (labelBytes (some label)).length ≠ 0 := by
      rw [labelBytes, length_utf8Bytes]
      have := label.nonempty
      simp only [String.isEmpty, beq_eq_false_iff_ne] at this
      exact this
    rw [if_neg hnonempty, hbytes, labelBytes, fromUtf8_utf8Bytes]
    simp [new_text, Except.toOption]

/-- The appliance-settings format. -/
def format : Format (Option ApplianceLabel) where
  magic := ascii "E290LBL1"
  commitMarker := [
    0xc7, 0x19, 0x4e, 0xa2, 0x53, 0xb8, 0x0d, 0x91, 0x6f, 0x35, 0xea, 0x48, 0x07, 0xdc, 0xb1, 0x62,
    0x8a, 0xf0, 0x2d, 0x75, 0x3c, 0x99, 0xe4, 0x16, 0xb7, 0x43, 0x58, 0xcd, 0x20, 0x6e, 0x81, 0x3a]
  empty := none
  extra _ := List.replicate 4 0
  payload label := (labelFields label).flatten
  parsePayload := parseLabel
  length_magic := by decide
  length_commitMarker := by decide
  length_extra _ := by decide
  length_payload label := by
    have hbound := length_labelBytes_le label
    rw [List.length_flatten, labelFields_widths]
    simp
    omega
  commitMarker_ne_erased := by decide
  parsePayload_of_fields label record := parseLabel_of_fields label record

/-- The mounted settings; the value is the optional label. -/
abbrev ApplianceSettings := Generation (Option ApplianceLabel)

/-- Result of a label update. -/
inductive ApplianceSettingsCommit where
  | unchanged (revision : ℕ)
  | updated (revision : ℕ)
  deriving DecidableEq

section Programs

variable {ε : Type} (sha256 : Sha256) (geometry : Geometry)

/-- Mount the newest valid settings without changing the flash. -/
def mountApplianceSettings : SettingsAction ε LabelFault ApplianceSettings :=
  mount format sha256 geometry

/-- Commit a replacement label to the inactive mirror and verify the remount. The answer
carries the settings that `current` is left with. -/
def setApplianceLabel (current : ApplianceSettings) (label : Option ApplianceLabel) :
    SettingsAction ε LabelFault (ApplianceSettingsCommit × ApplianceSettings) := do
  validateGeometry geometry
  if current.value = label then pure (.unchanged current.generation, current)
  else
    let mounted ← commitSuccessor format sha256 geometry current label (· = label)
    pure (.updated (current.generation + 1), mounted)

end Programs

end Appliance
