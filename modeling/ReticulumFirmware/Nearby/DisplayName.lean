import ReticulumFirmware.Collections.Words
import ReticulumFirmware.Lxmf.MsgpackParts
import ReticulumFirmware.Settings.ApplianceSettings

/-!
# Announced display names

`appliance-runtime/src/nearby.rs`: the name that the application data of an announce carries. The
data are the name itself, or an array whose first element is the name.
-/

namespace Nearby

open Nor Lxmf
open Appliance (fromUtf8 isControl)

/-- The limits that announced data are scanned with. -/
def announceLimits : WireLimits := ⟨256, 256, 32, 128, 2048, 8⟩

/-- `char::is_whitespace`. -/
def isWhitespace (character : Char) : Bool :=
  let code := character.toNat
  code == 0x20 || (0x09 ≤ code && code ≤ 0x0d) || code == 0x85 || code == 0xa0 || code == 0x1680 ||
    (0x2000 ≤ code && code ≤ 0x200a) || code == 0x2028 || code == 0x2029 || code == 0x202f ||
    code == 0x205f || code == 0x3000

/-- What a name loses without a trace. -/
def isBidiOrInvisibleFormatControl (character : Char) : Bool :=
  let code := character.toNat
  code == 0x061c || code == 0x200e || code == 0x200f || (0x202a ≤ code && code ≤ 0x202e) ||
    (0x2066 ≤ code && code ≤ 0x2069) || (0x200b ≤ code && code ≤ 0x200d) ||
    (0x2060 ≤ code && code ≤ 0x2065) || (0x206a ≤ code && code ≤ 0x206f) || code == 0xfeff

/-- What stands between the words of a name. -/
def isSeparator (character : Char) : Bool := isWhitespace character || isControl character

/-- One character of a name. -/
def sanitizeCharacter (pass : Words.Pass Char) (character : Char) : Words.Pass Char :=
  if isBidiOrInvisibleFormatControl character then pass
  else if isSeparator character then { pass with separatorPending := !pass.kept.isEmpty }
  else ⟨(if pass.separatorPending then pass.kept ++ [' '] else pass.kept) ++ [character], false⟩

/-- The words of a name, with one space between them. -/
def sanitizeDisplayName (decoded : String) : Option String :=
  let sanitized := (decoded.toList.foldl sanitizeCharacter ⟨[], false⟩).kept
  if sanitized.isEmpty then none else some (String.ofList sanitized)

/-- `bytes.get(offset..offset + length)`. -/
def payload (bytes : List Byte) (offset length : ℕ) : Option (List Byte) :=
  if offset + length ≤ bytes.length then some (slice bytes offset length) else none

/-- The number of items of an array, and where they start. -/
def arrayHeader (bytes : List Byte) : Option (ℕ × ℕ) := do
  let marker ← bytes.head?
  if 0x90 ≤ marker.toNat ∧ marker.toNat ≤ 0x9f then some (marker.toNat % 0x10, 1)
  else match marker.toNat with
    | 0xdc => (keyNumber bytes 2).map fun count => (count, 3)
    | 0xdd => (keyNumber bytes 4).map fun count => (count, 5)
    | _ => none

/-- The bytes of a text or of a binary value. -/
def displayValue (bytes : List Byte) : Option (List Byte) := do
  let marker ← bytes.head?
  if 0xa0 ≤ marker.toNat ∧ marker.toNat ≤ 0xbf then payload bytes 1 (marker.toNat % 0x20)
  else match marker.toNat with
    | 0xc4 | 0xd9 => (keyNumber bytes 1).bind (payload bytes 2)
    | 0xc5 | 0xda => (keyNumber bytes 2).bind (payload bytes 3)
    | 0xc6 | 0xdb => (keyNumber bytes 4).bind (payload bytes 5)
    | _ => none

/-- The first byte says that the data are an array. -/
def isArrayMarker (marker : Byte) : Bool :=
  (0x90 ≤ marker.toNat && marker.toNat ≤ 0x9f) || marker.toNat == 0xdc || marker.toNat == 0xdd

/-- The bytes of the name, if there are any. There is no result if the slice from the first item
on starts behind the end, which is a panic. -/
def rawName (appData : List Byte) : Option (Option (List Byte)) :=
  match appData.head? with
  | none => some none
  | some marker =>
    if isArrayMarker marker then
      match validateMessagepackValue announceLimits appData with
      | .error _ => some none
      | .ok value =>
        if value.kind ≠ .array then some none
        else match arrayHeader appData with
          | none => some none
          | some (items, firstOffset) =>
            if items = 0 then some none
            else (getFrom appData firstOffset).map displayValue
    else some (some appData)

/-- The name in announced data, if they hold one. -/
def decodeDisplayName (appData : List Byte) : Option (Option String) :=
  (rawName appData).map fun rawName? =>
    rawName?.bind fun rawName => (fromUtf8 rawName).bind sanitizeDisplayName

end Nearby
