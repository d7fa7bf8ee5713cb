import ReticulumFirmware.Nearby.DisplayName

/-!
# Display names are safe

A name is the words of what an announce carries, joined by single spaces. The reader of the array
finds the first element where the validator has found it.
-/

namespace Nearby

open Nor MessagePack Lxmf
open Appliance (fromUtf8 isControl)

section Sanitizing

/-- The words of a name, once what does not show is deleted. -/
def nameWords (name : String) : List (List Char) :=
  Words.words isSeparator (name.toList.filter (!isBidiOrInvisibleFormatControl ·))

/-- The words of a name, joined by single spaces. -/
def spacedName (name : String) : List Char := [' '].intercalate (nameWords name)

/-- Sanitizing keeps what is left without controls when separators are collapsed. -/
theorem kept_sanitize (characters : List Char) :
    (characters.foldl sanitizeCharacter ⟨[], false⟩).kept =
      Words.collapse isSeparator ' ' (characters.filter (!isBidiOrInvisibleFormatControl ·)) := by
  rw [Words.collapse, List.foldl_filter]
  congr 2
  funext pass character
  unfold sanitizeCharacter
  cases isBidiOrInvisibleFormatControl character <;> rfl

/-- A sanitized name is its words with spaces between them, if it has any. -/
theorem sanitizeDisplayName_eq (name : String) : sanitizeDisplayName name =
    if nameWords name = [] then none else some (String.ofList (spacedName name)) := by
  unfold sanitizeDisplayName
  rw [kept_sanitize, Words.collapse_eq_spaced]
  dsimp only
  by_cases hwords : nameWords name = []
  · rw [if_pos hwords, Words.spaced_eq_nil.mpr hwords]
    rfl
  · rw [if_neg hwords, if_neg]
    · rfl
    · rw [List.isEmpty_iff, Words.spaced_eq_nil]
      exact hwords

/-- A name is sanitized to a text exactly where it has words. -/
theorem sanitizeDisplayName_eq_some {name shown : String} :
    sanitizeDisplayName name = some shown ↔
      nameWords name ≠ [] ∧ shown.toList = spacedName name := by
  rw [sanitizeDisplayName_eq]
  split_ifs with hwords
  · simp [hwords]
  · rw [Option.some.injEq]
    constructor
    · rintro rfl
      exact ⟨hwords, String.toList_ofList⟩
    · rintro ⟨-, hshown⟩
      rw [← hshown, String.ofList_toList]

/-- A name is dropped exactly where it has no words. -/
theorem sanitizeDisplayName_eq_none {name : String} :
    sanitizeDisplayName name = none ↔ nameWords name = [] := by
  rw [sanitizeDisplayName_eq]
  split_ifs with hwords <;> simp [hwords]

/-- A space is a separator. -/
theorem isSeparator_space : isSeparator ' ' = true := rfl

/-- A character of a shown name is the space, or is neither a separator nor invisible. -/
theorem mem_spacedName {name : String} {character : Char} (h : character ∈ spacedName name) :
    character = ' ' ∨
      isSeparator character = false ∧ isBidiOrInvisibleFormatControl character = false := by
  rcases Words.mem_spaced h with hspace | ⟨hmem, hseparator⟩
  · exact Or.inl hspace
  · have hvisible := (List.mem_filter.mp hmem).2
    exact Or.inr ⟨hseparator, by simpa using hvisible⟩

/-- Sanitizing a name again does not change it. -/
theorem sanitizeDisplayName_idem {name shown : String}
    (h : sanitizeDisplayName name = some shown) : sanitizeDisplayName shown = some shown := by
  obtain ⟨hwords, hshown⟩ := sanitizeDisplayName_eq_some.mp h
  have hvisible : shown.toList.filter (!isBidiOrInvisibleFormatControl ·) = shown.toList := by
    refine List.filter_eq_self.mpr fun character hmem => ?_
    rcases mem_spacedName (hshown ▸ hmem) with rfl | ⟨-, hvisible⟩
    · rfl
    · rw [hvisible]
      rfl
  have hsame : nameWords shown = nameWords name := by
    rw [nameWords, hvisible, hshown]
    exact Words.words_spaced isSeparator_space _
  rw [sanitizeDisplayName_eq_some, spacedName, hsame]
  exact ⟨hwords, hshown⟩

end Sanitizing

section Reading

/-- The bytes of a string or of binary. -/
def nameOf : Value → Option (List Byte)
  | .str text => some text
  | .bin bytes => some bytes
  | _ => none

/-- The bytes behind a marker, whose number the argument tells. -/
def payloadBehind (bytes : List Byte) : Argument → Option (List Byte)
  | .marker length => payload bytes 1 length
  | .bytes width => (keyNumber bytes width).bind (payload bytes (1 + width))

/-- The bytes of a name, as the form of its marker finds them. -/
def named (bytes : List Byte) : MarkerForm → Option (List Byte)
  | .string argument _ | .blob argument _ => payloadBehind bytes argument
  | _ => none

/-- The reader of a name and the validator tell the same markers apart. -/
theorem displayValue_cons (marker : Byte) (tail : List Byte) :
    displayValue (marker :: tail) = named (marker :: tail) (markerForm marker) := by
  have hlt := marker.isLt
  simp only [displayValue, markerForm, List.head?_cons, Option.bind_eq_bind, Option.bind_some]
  generalize marker.toNat = code at hlt
  by_cases hlow : code ≤ 0x7f ∨ 0xe0 ≤ code
  · rw [if_pos hlow, if_neg (by omega)]
    split
    all_goals first | omega | rfl
  · rw [if_neg hlow]
    split_ifs
    all_goals first
      | omega
      | rfl
      | (split <;> first | omega | rfl)
      | (have hhigh : 0xc0 ≤ code := by omega
         have hbelow : code < 0xe0 := by omega
         interval_cases code <;> rfl)

/-- The content behind a head is found. -/
theorem payload_append (head content tail : List Byte) :
    payload (head ++ (content ++ tail)) head.length content.length = some content := by
  rw [payload, if_pos (by simp), slice, List.drop_left, List.take_left]

/-- The content behind a head of its length is found. -/
theorem payloadBehind_of_holds {argument : Argument} {marker : Byte} {rest : List Byte} {n : ℕ}
    (h : argument.Holds rest n) {content : List Byte} (hlength : n = content.length)
    (tail : List Byte) :
    payloadBehind (marker :: (rest ++ (content ++ tail))) argument = some content := by
  subst hlength
  generalize hn : content.length = n at h
  cases h with
  | marker n =>
    subst hn
    exact payload_append [marker] content tail
  | bytes rest =>
    have hnumber : keyNumber (marker :: (rest ++ (content ++ tail))) rest.length =
        some content.length := by
      rw [keyNumber, if_pos (by simp; omega), slice, List.drop_succ_cons, List.drop_zero,
        List.take_left, hn]
    rw [payloadBehind, hnumber, Option.bind_some, Nat.add_comm]
    exact payload_append (marker :: rest) content tail

/-- A form of a head is read by its marker. -/
theorem reads_of_form {head : Head} {raw : List Byte} (h : head.Form raw) :
    ∃ marker rest canonical, raw = marker :: rest ∧
      (markerForm marker).Reads rest head canonical := by
  obtain ⟨marker, rest, hraw, hreads⟩ : Described (fun _ => 0) head raw := described_of_form h
  exact ⟨marker, rest, _, hraw, hreads⟩

variable {widen : BitVec 32 → BitVec 64} {depth : ℕ} {value : Value} {raw : List Byte}
  {shortest : Bool}

/-- What is read at the front of an encoding is the name that the value is. -/
theorem displayValue_of_encodes (h : Encodes widen depth value raw shortest) (tail : List Byte) :
    displayValue (raw ++ tail) = nameOf value := by
  obtain ⟨levels, head, body, all, rfl, hform, hbody, rfl⟩ := encodes_parts h
  obtain ⟨marker, rest, canonical, rfl, hreads⟩ := reads_of_form hform
  rw [List.append_assoc, List.cons_append, displayValue_cons]
  generalize markerForm marker = form at hreads
  cases hbody with
  | str =>
    cases hreads with
    | scalar hwhole => exact hwhole.elim
    | string hholds => exact payloadBehind_of_holds hholds rfl tail
  | bin =>
    cases hreads with
    | scalar hwhole => exact hwhole.elim
    | blob hholds => exact payloadBehind_of_holds hholds rfl tail
  | _ => cases hreads <;> rfl

/-- Whether a form of marker starts an array. -/
def startsArray : MarkerForm → Bool
  | .array _ _ => true
  | _ => false

/-- The markers of arrays are those whose forms are. -/
theorem isArrayMarker_eq (marker : Byte) :
    isArrayMarker marker = startsArray (markerForm marker) := by
  have hlt := marker.isLt
  simp only [isArrayMarker, markerForm]
  generalize marker.toNat = code at hlt
  by_cases hlow : code < 0xc0 ∨ 0xe0 ≤ code
  · split_ifs
    all_goals first
      | omega
      | (simp only [startsArray, Bool.or_eq_true, Bool.and_eq_true, decide_eq_true_eq, beq_iff_eq,
          Bool.or_eq_false_iff, Bool.and_eq_false_iff, decide_eq_false_iff_not, beq_eq_false_iff_ne]
         omega)
  · have hhigh : 0xc0 ≤ code := by omega
    have hbelow : code < 0xe0 := by omega
    interval_cases code <;> rfl

/-- The data start with the marker of an array exactly if they are an array. -/
theorem isArrayMarker_of_encodes {marker : Byte} {tail : List Byte}
    (h : Encodes widen depth value (marker :: tail) shortest) :
    isArrayMarker marker = true ↔ ∃ items, value = .array items := by
  obtain ⟨levels, head, body, all, rfl, hform, hbody, hraw⟩ := encodes_parts h
  obtain ⟨first, rest, canonical, rfl, hreads⟩ := reads_of_form hform
  obtain ⟨rfl, -⟩ := List.cons.inj hraw
  rw [isArrayMarker_eq]
  generalize markerForm marker = form at hreads
  cases hbody with
  | array => cases hreads with
    | scalar hwhole => exact hwhole.elim
    | array => simp [startsArray]
  | _ => cases hreads <;> simp [startsArray]

end Reading

section Names

/-- The first byte of the data is the marker of an array. -/
def StartsArray (appData : List Byte) : Prop :=
  ∃ marker, appData.head? = some marker ∧ isArrayMarker marker = true

/-- The data are one value, which is within the limits of an announce. -/
def Accepted (widen : BitVec 32 → BitVec 64) (appData : List Byte) (value : Value) : Prop :=
  (∃ result, validateMessagepackValue announceLimits appData = .ok result) ∧
    ∃ shortest, Encodes widen (effectiveMaximum announceLimits) value appData shortest

/-- The raw name of an announce: all its data, or the first element of the array that they are. -/
inductive Carries (widen : BitVec 32 → BitVec 64) (appData : List Byte) : List Byte → Prop
  | whole (h : ¬StartsArray appData) : Carries widen appData appData
  | first {first : Value} {items : List Value} {raw : List Byte}
      (h : Accepted widen appData (.array (first :: items))) (hname : nameOf first = some raw) :
      Carries widen appData raw

variable {widen : BitVec 32 → BitVec 64} {appData raw : List Byte}

/-- Application data that is no array is the name as a whole. -/
theorem rawName_whole (h : ¬StartsArray appData) (hsome : appData ≠ []) :
    rawName appData = some (some appData) := by
  obtain ⟨marker, tail, rfl⟩ := List.exists_cons_of_ne_nil hsome
  have hmarker : isArrayMarker marker = false :=
    Bool.eq_false_iff.mpr fun hmarker => h ⟨marker, rfl, hmarker⟩
  simp [rawName, hmarker]

/-- An array that the scanner rejects has no name. -/
theorem rawName_rejected (h : StartsArray appData)
    (hrejected : ∀ result, validateMessagepackValue announceLimits appData ≠ .ok result) :
    rawName appData = some none := by
  obtain ⟨marker, hhead, hmarker⟩ := h
  unfold rawName
  rw [hhead]
  dsimp only
  rw [if_pos hmarker]
  cases hvalidate : validateMessagepackValue announceLimits appData with
  | error error => rfl
  | ok result => exact absurd hvalidate (hrejected result)

/-- The name of accepted data is read from the first element, where there is one. -/
theorem rawName_accepted {items : List Value} (h : Accepted widen appData (.array items)) :
    rawName appData = some (items.head?.bind nameOf) := by
  obtain ⟨⟨result, hresult⟩, shortest, hencodes⟩ := h
  obtain ⟨value, other, hvalue, -, hkind⟩ := (@validate_ok_iff _ _ widen _).mp hresult
  obtain rfl := encodes_injective hvalue hencodes
  obtain ⟨levels, head, body, all, hdepth, hform, hbody, rfl⟩ := encodes_parts hencodes
  obtain ⟨marker, tail, hraw⟩ := List.exists_cons_of_ne_nil (ne_nil_of_encodes hencodes)
  have hmarker : isArrayMarker marker = true := by
    rw [hraw] at hencodes
    exact (isArrayMarker_of_encodes hencodes).mpr ⟨items, rfl⟩
  have hheader : arrayHeader (head ++ body) = some (items.length, head.length) :=
    arrayHeader_append hform body
  unfold rawName
  rw [show (head ++ body).head? = some marker by rw [hraw]; rfl]
  dsimp only
  rw [if_pos hmarker, hresult]
  dsimp only
  rw [hkind, if_neg (by simp [kindOf, Value.head]), hheader]
  dsimp only
  cases hbody with
  | array hitems =>
    cases hitems with
    | nil => rfl
    | cons hfirst _ =>
      rw [if_neg (by simp), getFrom_append, Option.map_some,
        displayValue_of_encodes hfirst]
      rfl

/-- The data are an array without a name. -/
def Nameless (widen : BitVec 32 → BitVec 64) (appData : List Byte) : Prop :=
  (StartsArray appData ∧
    ∀ result, validateMessagepackValue announceLimits appData ≠ .ok result) ∨
  Accepted widen appData (.array []) ∨
  ∃ first items, Accepted widen appData (.array (first :: items)) ∧ nameOf first = none

/-- An array without a name has none. -/
theorem rawName_nameless (h : Nameless widen appData) : rawName appData = some none := by
  rcases h with ⟨harray, hrejected⟩ | hempty | ⟨first, items, haccepted, hname⟩
  · exact rawName_rejected harray hrejected
  · exact rawName_accepted hempty
  · rw [rawName_accepted haccepted]
    exact congrArg some hname

/-- The name that an array carries is found. -/
theorem rawName_carries (h : Carries widen appData raw) (hsome : appData ≠ []) :
    rawName appData = some (some raw) := by
  cases h with
  | whole hwhole => exact rawName_whole hwhole hsome
  | first haccepted hname =>
    rw [rawName_accepted haccepted]
    exact congrArg some hname

/-- The data carry a name, or are an array without one. -/
theorem carries_or_nameless (widen : BitVec 32 → BitVec 64) (appData : List Byte) :
    (∃ raw, Carries widen appData raw) ∨ Nameless widen appData := by
  by_cases harray : StartsArray appData
  · by_cases hok : ∃ result, validateMessagepackValue announceLimits appData = .ok result
    · obtain ⟨result, hresult⟩ := hok
      obtain ⟨value, shortest, hencodes, -, -⟩ := (@validate_ok_iff _ _ widen _).mp hresult
      obtain ⟨marker, hhead, hmarker⟩ := harray
      obtain ⟨tail, rfl⟩ := List.head?_eq_some_iff.mp hhead
      obtain ⟨items, rfl⟩ := (isArrayMarker_of_encodes hencodes).mp hmarker
      have haccepted : Accepted widen (marker :: tail) (.array items) :=
        ⟨⟨result, hresult⟩, shortest, hencodes⟩
      cases items with
      | nil => exact Or.inr (Or.inr (Or.inl haccepted))
      | cons first items =>
        cases hname : nameOf first with
        | none => exact Or.inr (Or.inr (Or.inr ⟨first, items, haccepted, hname⟩))
        | some raw => exact Or.inl ⟨raw, .first haccepted hname⟩
    · exact Or.inr (Or.inl ⟨harray, not_exists.mp hok⟩)
  · exact Or.inl ⟨appData, .whole harray⟩

/-- What decoding makes of the raw name. -/
def shownName (raw : List Byte) : Option String := (fromUtf8 raw).bind sanitizeDisplayName

/-- A carried name is decoded as it is shown. -/
theorem decodeDisplayName_carries (h : Carries widen appData raw) :
    decodeDisplayName appData = some (shownName raw) := by
  by_cases hempty : appData = []
  · subst hempty
    cases h with
    | whole => rfl
    | first haccepted =>
      obtain ⟨-, shortest, hencodes⟩ := haccepted
      exact absurd rfl (ne_nil_of_encodes hencodes)
  · rw [decodeDisplayName, rawName_carries h hempty]
    rfl

/-- Without a name none is decoded. -/
theorem decodeDisplayName_nameless (h : Nameless widen appData) :
    decodeDisplayName appData = some none := by
  rw [decodeDisplayName, rawName_nameless h]
  rfl

/-- A name is shown exactly where its bytes are text with words. -/
theorem shownName_eq_some {shown : String} : shownName raw = some shown ↔
    ∃ name, fromUtf8 raw = some name ∧ nameWords name ≠ [] ∧ shown.toList = spacedName name := by
  rw [shownName, Option.bind_eq_some_iff]
  simp only [sanitizeDisplayName_eq_some]

/-- A name is not shown exactly where its bytes are no text or have no words. -/
theorem shownName_eq_none : shownName raw = none ↔
    fromUtf8 raw = none ∨ ∃ name, fromUtf8 raw = some name ∧ nameWords name = [] := by
  rw [shownName]
  cases fromUtf8 raw with
  | none => simp
  | some name => simp [sanitizeDisplayName_eq_none]

/-- A name that is decoded is carried and shown as its words. -/
theorem shown_of_decode {shown : String} (h : decodeDisplayName appData = some (some shown)) :
    ∃ raw name, Carries widen appData raw ∧ fromUtf8 raw = some name ∧ nameWords name ≠ [] ∧
      shown.toList = spacedName name := by
  rcases carries_or_nameless widen appData with ⟨raw, hraw⟩ | hnameless
  · rw [decodeDisplayName_carries hraw, Option.some_inj, shownName_eq_some] at h
    obtain ⟨name, hname, hwords, hshown⟩ := h
    exact ⟨raw, name, hraw, hname, hwords, hshown⟩
  · rw [decodeDisplayName_nameless hnameless] at h
    cases h

/-- A character of a shown name neither controls nor reorders the text around it. -/
theorem safe_of_mem {name : String} {character : Char} (h : character ∈ spacedName name) :
    isControl character = false ∧ isBidiOrInvisibleFormatControl character = false ∧
      (isWhitespace character = true → character = ' ') := by
  rcases mem_spacedName h with rfl | ⟨hseparator, hvisible⟩
  · exact ⟨rfl, rfl, fun _ => rfl⟩
  · obtain ⟨hwhitespace, hcontrol⟩ := Bool.or_eq_false_iff.mp hseparator
    exact ⟨hcontrol, hvisible, fun h => absurd h (Bool.eq_false_iff.mp hwhitespace)⟩

/-- Display names are safe and canonical: decoding does not panic, and a name that it shows is the
words of the raw name with single spaces between them, which neither controls nor reorders the
text around it and is not changed by sanitizing it again. There is no name exactly if the data are
an array that has none, or the raw name is not UTF-8 or has no words. -/
theorem display_names_safe (widen : BitVec 32 → BitVec 64) (appData : List Byte) :
    (∃ result, decodeDisplayName appData = some result) ∧
    (∀ shown, decodeDisplayName appData = some (some shown) ↔
      ∃ raw name, Carries widen appData raw ∧ fromUtf8 raw = some name ∧ nameWords name ≠ [] ∧
        shown.toList = [' '].intercalate (nameWords name)) ∧
    (∀ shown, decodeDisplayName appData = some (some shown) →
      shown.toList ≠ [] ∧
      (∀ character ∈ shown.toList, isControl character = false ∧
        isBidiOrInvisibleFormatControl character = false ∧
        (isWhitespace character = true → character = ' ')) ∧
      shown.toList.head? ≠ some ' ' ∧ shown.toList.getLast? ≠ some ' ' ∧
      ¬[' ', ' '] <:+: shown.toList ∧
      sanitizeDisplayName shown = some shown) ∧
    (decodeDisplayName appData = some none ↔
      (StartsArray appData ∧
        ∀ result, validateMessagepackValue announceLimits appData ≠ .ok result) ∨
      Accepted widen appData (.array []) ∨
      (∃ first items, Accepted widen appData (.array (first :: items)) ∧ nameOf first = none) ∨
      ∃ raw, Carries widen appData raw ∧
        (fromUtf8 raw = none ∨ ∃ name, fromUtf8 raw = some name ∧ nameWords name = [])) := by
  refine ⟨?_, fun shown => ⟨shown_of_decode, ?_⟩, fun shown h => ?_, ?_, ?_⟩
  · rcases carries_or_nameless widen appData with ⟨raw, hraw⟩ | hnameless
    · exact ⟨_, decodeDisplayName_carries hraw⟩
    · exact ⟨_, decodeDisplayName_nameless hnameless⟩
  · rintro ⟨raw, name, hraw, hname, hwords, hshown⟩
    rw [decodeDisplayName_carries hraw, shownName_eq_some.mpr ⟨name, hname, hwords, hshown⟩]
  · obtain ⟨raw, name, -, -, hwords, hshown⟩ := @shown_of_decode widen _ _ h
    have hsanitized := sanitizeDisplayName_eq_some.mpr ⟨hwords, hshown⟩
    refine ⟨?_, ?_, ?_, ?_, ?_, sanitizeDisplayName_idem hsanitized⟩
    all_goals rw [hshown]
    · exact Words.spaced_eq_nil.not.mpr hwords
    · exact fun character hmem => safe_of_mem hmem
    · exact Words.head?_spaced_ne isSeparator_space _
    · exact Words.getLast?_spaced_ne isSeparator_space _
    · exact Words.not_infix_spaced isSeparator_space _
  · intro h
    rcases carries_or_nameless widen appData with ⟨raw, hraw⟩ | hnameless
    · rw [decodeDisplayName_carries hraw, Option.some_inj] at h
      exact Or.inr (Or.inr (Or.inr ⟨raw, hraw, shownName_eq_none.mp h⟩))
    · exact hnameless.imp_right (Or.imp_right Or.inl)
  · rintro (hrejected | hempty | hfirst | ⟨raw, hraw, hnone⟩)
    · exact @decodeDisplayName_nameless widen _ (Or.inl hrejected)
    · exact decodeDisplayName_nameless (Or.inr (Or.inl hempty))
    · exact decodeDisplayName_nameless (Or.inr (Or.inr hfirst))
    · rw [decodeDisplayName_carries hraw, shownName_eq_none.mpr hnone]

/-- The name of an array whose first element is binary, with characters that do not show. -/
example : decodeDisplayName ([0x92, 0xc4, 0x05, 0x20, 0x41, 0x09, 0x20, 0x42, 0xc0] : List Byte) =
    some (some "A B") := by
  rfl

end Names

end Nearby
