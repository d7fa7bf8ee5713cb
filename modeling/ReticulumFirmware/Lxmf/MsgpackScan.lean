import ReticulumFirmware.Lxmf.MsgpackCost
import ReticulumFirmware.Lxmf.MsgpackKeys
import ReticulumFirmware.Codec.Guarded

/-!
# Scanning an encoded value

At an encoding of a value the scanner returns the end of the encoding, its kind and whether it is
shortest, provided that the limits afford the cost of the value. Otherwise a limit is exceeded.
-/

namespace Lxmf

open Nor MessagePack Codec

/-- A limit was exceeded. -/
def Exceeds (error : WireError) : Prop :=
  ∃ kind actual maximum offset, error = .limitExceeded kind actual maximum offset

/-- The bytes stand in the buffer at this offset. -/
def Occurs (bytes : List Byte) (offset : ℕ) (raw : List Byte) : Prop := raw <+: bytes.drop offset

section Occurs

variable {bytes raw left right : List Byte} {offset : ℕ}

/-- Two pieces occur together where the second occurs behind the first. -/
theorem occurs_append :
    Occurs bytes offset (left ++ right) ↔
      Occurs bytes offset left ∧ Occurs bytes (offset + left.length) right := by
  constructor
  · rintro ⟨rest, h⟩
    refine ⟨⟨right ++ rest, by rw [← h, List.append_assoc]⟩, rest, ?_⟩
    rw [← List.drop_drop, ← h, List.append_assoc, List.drop_left]
  · rintro ⟨⟨rest, h⟩, tail, htail⟩
    rw [← List.drop_drop, ← h, List.drop_left] at htail
    exact ⟨tail, by rw [← h, ← htail, List.append_assoc]⟩

/-- Bytes that occur are the slice of their length. -/
theorem Occurs.slice_eq (h : Occurs bytes offset raw) : slice bytes offset raw.length = raw :=
  (List.prefix_iff_eq_take.mp h).symm

/-- Bytes that occur lie in the buffer. -/
theorem Occurs.le (h : Occurs bytes offset raw) (hraw : raw ≠ []) :
    offset + raw.length ≤ bytes.length := by
  have hlength := h.length_le
  have hpos := List.length_pos_of_ne_nil hraw
  rw [List.length_drop] at hlength
  omega

/-- The first byte that occurs is the one at the offset. -/
theorem Occurs.getElem? {byte : Byte} {rest : List Byte} (h : Occurs bytes offset (byte :: rest)) :
    bytes[offset]? = some byte := by
  obtain ⟨tail, htail⟩ := h
  rw [List.cons_append] at htail
  have hget := congrArg (·[0]?) htail
  simpa using hget.symm

/-- The bytes behind the first occur behind it. -/
theorem Occurs.tail {byte : Byte} {rest : List Byte} (h : Occurs bytes offset (byte :: rest)) :
    Occurs bytes (offset + 1) rest := by
  rw [← List.singleton_append, occurs_append] at h
  exact h.2

/-- A byte occurs with what occurs behind it. -/
theorem Occurs.cons {byte : Byte} {rest : List Byte} (h : Occurs bytes offset [byte])
    (hrest : Occurs bytes (offset + 1) rest) : Occurs bytes offset (byte :: rest) := by
  rw [← List.singleton_append, occurs_append]
  exact ⟨h, hrest⟩

/-- A slice occurs at its offset, in its length. -/
theorem occurs_slice {length : ℕ} (h : offset + length ≤ bytes.length) :
    Occurs bytes offset (slice bytes offset length) ∧
      (slice bytes offset length).length = length :=
  ⟨List.take_prefix .., length_slice h⟩

end Occurs

section Steps

variable (limits : WireLimits) (bytes : List Byte) {scanner : Scanner} {offset : ℕ}

/-- A limit is checked exactly. -/
theorem guarded_checkLimit (kind : LimitKind) (actual maximum offset : ℕ) :
    Guarded Exceeds (actual ≤ maximum) (checkLimit kind actual maximum offset) () where
  ok h := if_neg (by omega)
  error h := ⟨_, ⟨kind, actual, maximum, offset, rfl⟩, if_pos (by omega)⟩

/-- A scan step is counted exactly where it is afforded. -/
theorem guarded_bumpScanStep :
    Guarded Exceeds (scanner.Affords limits .visit) (bumpScanStep limits offset scanner)
      (scanner.spend .visit) := by
  refine ((guarded_checkLimit ..).bind (f := fun _ => pure (scanner.spend .visit)) (.pure _)).congr
    ?_
  simp [Scanner.Affords, Cost.visit]

/-- A value is noted exactly where it is afforded in the mode. -/
theorem guarded_noteValue (countValues : Bool) :
    Guarded Exceeds (scanner.Affords limits (Cost.value.mode countValues))
      (noteValue limits offset countValues scanner)
      (scanner.spend (Cost.value.mode countValues)) := by
  cases countValues with
  | false => exact (Guarded.pure scanner).congr (iff_of_true trivial Scanner.affords_zero)
  | true =>
    refine ((guarded_checkLimit ..).bind (f := fun _ => pure (scanner.spend .value))
      (.pure _)).congr ?_
    simp [Scanner.Affords, Cost.mode, Cost.value]

/-- A container passes exactly where it is afforded. -/
theorem guarded_checkContainer (count : ℕ) :
    Guarded Exceeds (scanner.Affords limits (.container count))
      (checkContainer limits offset count) () := by
  refine (guarded_checkLimit ..).congr ?_
  simp [Scanner.Affords, Cost.container]

/-- A payload passes exactly where it is afforded. -/
theorem guarded_checkValueBytes (length : ℕ) :
    Guarded Exceeds (scanner.Affords limits (.payload length))
      (checkValueBytes limits offset length) () := by
  refine (guarded_checkLimit ..).congr ?_
  simp [Scanner.Affords, Cost.payload]

end Steps

section Containers

variable {limits : WireLimits} {bytes : List Byte} {child : ScanChild}
variable {encodes : Value → List Byte → Bool → Prop} {countValues : Bool}

/-- The result of a scan at an encoding. -/
def scannedAt (offset : ℕ) (value : Value) (raw : List Byte) (shortest : Bool) : Scanned :=
  ⟨offset + raw.length, kindOf value.head, .ofBool shortest⟩

/-- At every encoding that stands in the buffer, the scan returns the result for it if the limits
afford its cost, and otherwise exceeds a limit. -/
def ScansExactly (limits : WireLimits) (bytes : List Byte)
    (encodes : Value → List Byte → Bool → Prop) (child : ScanChild) : Prop :=
  ∀ {value raw shortest}, encodes value raw shortest → ∀ {offset}, Occurs bytes offset raw →
    ∀ {countValues scanner},
      Guarded Exceeds (scanner.Affords limits ((costOf value).mode countValues))
        (child offset countValues scanner)
        (scannedAt offset value raw shortest, scanner.spend ((costOf value).mode countValues))

/-- Two answers are merged as their conjunction. -/
@[simp] theorem merge_ofBool (canonicality : Canonicality) (left right : Bool) :
    (canonicality.merge (.ofBool left)).merge (.ofBool right) =
      canonicality.merge (.ofBool (left && right)) := by
  cases canonicality <;> cases left <;> cases right <;> rfl

/-- A canonical part leaves the canonicality. -/
@[simp] theorem merge_ofBool_true (canonicality : Canonicality) :
    canonicality.merge (.ofBool true) = canonicality := by
  cases canonicality <;> rfl

/-- Two answers merged are the answer of both. -/
theorem ofBool_merge_ofBool (left right : Bool) :
    (Canonicality.ofBool left).merge (.ofBool right) = .ofBool (left && right) := by
  cases left <;> cases right <;> rfl

/-- Items are scanned exactly where their costs are afforded. -/
theorem guarded_scanItems (hchild : ScansExactly limits bytes encodes child) {items : List Value}
    {raw : List Byte} {all : Bool} (h : Sequence encodes items raw all) {cursor : ℕ}
    (hraw : Occurs bytes cursor raw) {canonicality : Canonicality} {scanner : Scanner} :
    Guarded Exceeds (scanner.Affords limits ((items.map costOf).sum.mode countValues))
      (scanItems child countValues items.length cursor canonicality scanner)
      (cursor + raw.length, canonicality.merge (.ofBool all),
        scanner.spend ((items.map costOf).sum.mode countValues)) := by
  induction h generalizing cursor canonicality scanner with
  | nil =>
    simp only [List.map_nil, List.sum_nil, Cost.mode_zero, Scanner.spend_zero, merge_ofBool_true,
      List.length_nil, Nat.add_zero]
    exact (Guarded.pure _).congr (iff_of_true trivial Scanner.affords_zero)
  | cons head tail ih =>
    obtain ⟨hhead, htail⟩ := occurs_append.mp hraw
    simp only [List.map_cons, List.sum_cons, Cost.mode_add, Scanner.affords_add,
      Scanner.spend_add, List.length_append, ← Nat.add_assoc, ← merge_ofBool]
    exact (hchild head hhead).bind (ih htail)

/-- The search for an equal key succeeds exactly where the earlier entries are afforded again. -/
theorem guarded_hasPriorEqualKey (hchild : ScansExactly limits bytes encodes child)
    (hclass : ∀ {value raw shortest}, encodes value raw shortest → keyClass raw = classOf value)
    {done : List (Value × Value)} {raw : List Byte} {all : Bool}
    (h : Sequence (Entry encodes) done raw all) {current : List Byte} {key : Value}
    (hcurrent : keyClass current = classOf key) (hkey : key.key ≠ none)
    (hfresh : ∀ entry ∈ done, entry.1.key ≠ key.key) {cursor : ℕ}
    (hraw : Occurs bytes cursor raw) {scanner : Scanner} :
    Guarded Exceeds (scanner.Affords limits ((done.map entryCost).sum.mode false))
      (hasPriorEqualKey bytes child current done.length cursor scanner)
      (false, scanner.spend ((done.map entryCost).sum.mode false)) := by
  induction h generalizing cursor scanner with
  | nil => exact (Guarded.pure _).congr (iff_of_true trivial Scanner.affords_zero)
  | @cons entry rest raw rawRest _ _ head tail ih =>
    obtain ⟨hhead, htail⟩ := occurs_append.mp hraw
    cases head with
    | @mk prior value rawPrior rawValue _ _ hprior hvalue =>
    obtain ⟨hpriorAt, hvalueAt⟩ := occurs_append.mp hhead
    have hdifferent : sameKey rawPrior current = false := by
      rw [← Bool.not_eq_true, sameKey_iff (hclass hprior) hcurrent hkey]
      exact hfresh _ List.mem_cons_self
    have hslice : slice bytes cursor (cursor + rawPrior.length - cursor) = rawPrior := by
      rw [Nat.add_sub_cancel_left, hpriorAt.slice_eq]
    rw [List.length_append, ← Nat.add_assoc] at htail
    simp only [List.map_cons, List.sum_cons, entryCost, Cost.mode_add, add_assoc,
      Scanner.affords_add, Scanner.spend_add, List.length_cons, hasPriorEqualKey]
    refine (hchild hprior hpriorAt).bind ?_
    simp only [scannedAt, hslice, hdifferent, Bool.false_eq_true, if_false]
    refine (hchild hvalue hvalueAt).bind ?_
    exact ih (fun entry h => hfresh entry (List.mem_cons_of_mem _ h)) htail

/-- A key that is new is accepted exactly where the search for an equal one is afforded. -/
theorem guarded_checkKey (hchild : ScansExactly limits bytes encodes child)
    (hclass : ∀ {value raw shortest}, encodes value raw shortest → keyClass raw = classOf value)
    {done : List (Value × Value)} {raw rawKey : List Byte} {all shortest : Bool} {key : Value}
    (hdone : Sequence (Entry encodes) done raw all) (hkey : encodes key rawKey shortest)
    (hsome : key.key ≠ none) (hfresh : ∀ entry ∈ done, entry.1.key ≠ key.key) {entriesOffset : ℕ}
    (hraw : Occurs bytes entriesOffset raw)
    (hrawKey : Occurs bytes (entriesOffset + raw.length) rawKey) {scanner : Scanner} :
    Guarded Exceeds (scanner.Affords limits ((done.map entryCost).sum.mode false))
      (checkKey bytes child entriesOffset done.length (entriesOffset + raw.length)
        (entriesOffset + raw.length + rawKey.length) scanner)
      (scanner.spend ((done.map entryCost).sum.mode false)) := by
  have hslice : slice bytes (entriesOffset + raw.length)
      (entriesOffset + raw.length + rawKey.length - (entriesOffset + raw.length)) = rawKey := by
    rw [Nat.add_sub_cancel_left, hrawKey.slice_eq]
  have hclassKey : keyClass rawKey ≠ none := by
    intro hnone
    rw [key_eq_map, ← hclass hkey, hnone] at hsome
    exact hsome rfl
  simp only [checkKey, hslice, if_neg hclassKey]
  exact (guarded_hasPriorEqualKey hchild hclass hdone (hclass hkey) hsome hfresh hraw).map rfl

/-- Entries are scanned exactly where their costs and the searches are afforded. -/
theorem guarded_scanEntries (hchild : ScansExactly limits bytes encodes child)
    (hclass : ∀ {value raw shortest}, encodes value raw shortest → keyClass raw = classOf value)
    {entries : List (Value × Value)} {raw : List Byte} {all : Bool}
    (h : Sequence (Entry encodes) entries raw all) {done : List (Value × Value)}
    {rawDone : List Byte} {allDone : Bool} (hdone : Sequence (Entry encodes) done rawDone allDone)
    (hkeys : KeysDistinct (done ++ entries)) {entriesOffset : ℕ}
    (hrawDone : Occurs bytes entriesOffset rawDone)
    (hraw : Occurs bytes (entriesOffset + rawDone.length) raw) {canonicality : Canonicality}
    {scanner : Scanner} :
    Guarded Exceeds
      (scanner.Affords limits ((Cost.entries (done.map entryCost).sum
        (entries.map (Prod.map costOf costOf))).mode countValues))
      (scanEntries bytes child countValues entriesOffset entries.length done.length
        (entriesOffset + rawDone.length) canonicality scanner)
      (entriesOffset + rawDone.length + raw.length, canonicality.merge (.ofBool all),
        scanner.spend ((Cost.entries (done.map entryCost).sum
          (entries.map (Prod.map costOf costOf))).mode countValues)) := by
  induction h generalizing done rawDone allDone canonicality scanner with
  | nil =>
    simp only [List.map_nil, Cost.entries, Cost.mode_zero, Scanner.spend_zero, merge_ofBool_true,
      List.length_nil, Nat.add_zero]
    exact (Guarded.pure _).congr (iff_of_true trivial Scanner.affords_zero)
  | @cons entry rest raw rawRest _ allRest head tail ih =>
    obtain ⟨hsome, hfresh⟩ := hkeys.middle
    have hdone' := hdone.append (.singleton head)
    cases head with
    | @mk key value rawKey rawValue shortestKey shortestValue hkey hvalue =>
    obtain ⟨hhead, htail⟩ := occurs_append.mp hraw
    obtain ⟨hkeyAt, hvalueAt⟩ := occurs_append.mp hhead
    have hsum : ((done ++ [(key, value)]).map entryCost).sum =
        (done.map entryCost).sum + (costOf key + costOf value) := by
      simp [entryCost]
    have hend : entriesOffset + (rawDone ++ (rawKey ++ rawValue)).length =
        entriesOffset + rawDone.length + rawKey.length + rawValue.length := by
      simp only [List.length_append]
      omega
    have hlength : (done ++ [(key, value)]).length = done.length + 1 := by simp
    simp only [List.map_cons, Prod.map_apply, Cost.entries, Cost.mode_add, Cost.mode_uncounted,
      Scanner.affords_add, Scanner.spend_add, List.length_cons, scanEntries]
    refine (hchild hkey hkeyAt).bind ?_
    refine (guarded_checkKey hchild hclass hdone hkey hsome hfresh hrawDone hkeyAt).bind ?_
    refine (hchild hvalue hvalueAt).bind ?_
    have htotal : entriesOffset + rawDone.length + (rawKey ++ rawValue ++ rawRest).length =
        entriesOffset + (rawDone ++ (rawKey ++ rawValue)).length + rawRest.length := by
      simp only [List.length_append]
      omega
    rw [← hsum, ← hlength, htotal]
    simp only [scannedAt, merge_ofBool canonicality shortestKey, ← hend]
    rw [← merge_ofBool canonicality (shortestKey && shortestValue) allRest]
    exact ih hdone' (by simpa using hkeys) (occurs_append.mpr ⟨hrawDone, hhead⟩)
      (by rw [hend]; simpa [Nat.add_assoc] using htail)

/-- A range in the buffer is taken. -/
theorem takeEnd_of_le {offset length : ℕ} (h : offset + length ≤ bytes.length)
    (markerOffset : ℕ) : takeEnd bytes offset length markerOffset = .ok (offset + length) :=
  if_neg (by omega)

/-- A number that occurs is read. -/
theorem numberAt_of_occurs {offset : ℕ} {raw : List Byte} (h : Occurs bytes offset raw)
    (hle : offset + raw.length ≤ bytes.length) (markerOffset : ℕ) :
    numberAt bytes raw.length offset markerOffset = .ok (beNat raw) := by
  rw [numberAt, takeEnd_of_le hle, h.slice_eq]
  rfl

/-- An argument that occurs behind its marker is read. -/
theorem readArgument_of_holds {argument : Argument} {rest : List Byte} {n offset : ℕ}
    (h : argument.Holds rest n) (hraw : Occurs bytes (offset + 1) rest)
    (hle : offset + 1 + rest.length ≤ bytes.length) :
    readArgument bytes offset argument = .ok (n, offset + 1 + rest.length) := by
  cases h with
  | marker n => rfl
  | bytes rest =>
    rw [readArgument, numberAt_of_occurs hraw hle]
    rfl

/-- Text is accepted exactly where it is UTF-8. -/
theorem fromUtf8Ok_iff (text : List Byte) : fromUtf8Ok text = true ↔ IsUtf8 text :=
  ByteArray.validateUTF8_eq_true_iff

/-- A head that is the whole value is scanned as it. -/
theorem scanForm_of_isWhole {head : Head} {form : MarkerForm} {marker : Byte} {rest : List Byte}
    {canonical : Bool} (hreads : form.Reads rest head canonical) (hwhole : IsWhole head)
    {offset : ℕ} (hraw : Occurs bytes offset (marker :: rest)) (scanner : Scanner) :
    scanForm limits bytes child offset countValues scanner form =
      .ok (⟨offset + (marker :: rest).length, kindOf head, .ofBool canonical⟩, scanner) := by
  have hle := hraw.le (by simp)
  rw [List.length_cons] at hle ⊢
  cases hreads with
  | scalar h =>
    rw [scanForm, scalar, takeEnd_of_le (by omega)]
    rfl
  | integer rest value =>
    rw [scanForm, numberAt_of_occurs hraw.tail (by omega), ok_bind, scalar,
      takeEnd_of_le (by omega), Nat.add_comm 1]
    rfl
  | string h | blob h | extension h | array h | map h => cases hwhole

/-- A payload in the buffer is scanned exactly where it is afforded. -/
theorem guarded_scanBlob {payload : List Byte} {offset : ℕ}
    (hle : offset + payload.length ≤ bytes.length)
    (markerOffset : ℕ) (kind : MessagePackKind) (canonical : Bool) {scanner : Scanner} :
    Guarded Exceeds (scanner.Affords limits (.payload payload.length))
      (scanBlob limits bytes markerOffset offset payload.length kind canonical)
      ⟨offset + payload.length, kind, .ofBool canonical⟩ := by
  refine (guarded_checkValueBytes limits _).map ?_
  rw [takeEnd_of_le hle]
  rfl

/-- A string that occurs is scanned exactly where it is afforded. -/
theorem guarded_scanString {text : List Byte} {offset : ℕ} (htext : IsUtf8 text)
    (hraw : Occurs bytes offset text) (hle : offset + text.length ≤ bytes.length)
    (markerOffset : ℕ) (canonical : Bool) {scanner : Scanner} :
    Guarded Exceeds (scanner.Affords limits (.payload text.length))
      (scanString limits bytes markerOffset offset text.length canonical)
      ⟨offset + text.length, .string, .ofBool canonical⟩ := by
  refine (guarded_scanBlob hle _ _ _).map ?_
  rw [Nat.add_sub_cancel_left, hraw.slice_eq, if_pos ((fromUtf8Ok_iff text).mpr htext)]
  rfl

/-- An extension that occurs is scanned exactly where it is afforded. -/
theorem guarded_scanExtension {type : Byte} {payload : List Byte} {offset : ℕ}
    (htype : type ≠ timestampType) (hraw : Occurs bytes offset (type :: payload))
    (markerOffset : ℕ) (canonical : Bool) {scanner : Scanner} :
    Guarded Exceeds (scanner.Affords limits (.payload payload.length))
      (scanExtension limits bytes markerOffset offset payload.length canonical)
      ⟨offset + (type :: payload).length, .extension, .ofBool canonical⟩ := by
  have hle := hraw.le (by simp)
  rw [List.length_cons, Nat.add_comm payload.length, ← Nat.add_assoc] at hle ⊢
  refine (guarded_checkValueBytes limits _).map ?_
  rw [takeEnd_of_le hle, ok_bind, byteAt, hraw.getElem?]
  exact if_neg htype

/-- What the scanner returns for a value whose marker and argument were read. -/
theorem guarded_scanForm (hchild : ScansExactly limits bytes encodes child)
    (hclass : ∀ {value raw shortest}, encodes value raw shortest → keyClass raw = classOf value)
    {value : Value} {form : MarkerForm} {marker : Byte} {rest body : List Byte}
    {canonical all : Bool} (hreads : form.Reads rest value.head canonical)
    (hbody : Body encodes value body all) {offset : ℕ}
    (hraw : Occurs bytes offset (marker :: rest ++ body)) {scanner : Scanner} :
    Guarded Exceeds (scanner.Affords limits ((bodyCost value).mode countValues))
      (scanForm limits bytes child offset countValues scanner form)
      (⟨offset + (marker :: rest ++ body).length, kindOf value.head, .ofBool (canonical && all)⟩,
        scanner.spend ((bodyCost value).mode countValues)) := by
  have hle := hraw.le (by simp)
  obtain ⟨hhead, hbodyAt⟩ := occurs_append.mp hraw
  have hlength : offset + (marker :: rest ++ body).length =
      offset + 1 + rest.length + body.length := by
    rw [List.length_append, List.length_cons]
    omega
  have hstart : offset + (marker :: rest).length = offset + 1 + rest.length := by
    rw [List.length_cons]
    omega
  rw [hlength] at hle ⊢
  rw [hstart] at hbodyAt
  have hwhole : ∀ {value : Value}, IsWhole value.head → bodyCost value = 0 →
      form.Reads rest value.head canonical →
      Guarded Exceeds (scanner.Affords limits ((bodyCost value).mode countValues))
        (scanForm limits bytes child offset countValues scanner form)
        (⟨offset + 1 + rest.length, kindOf value.head, .ofBool canonical⟩,
          scanner.spend ((bodyCost value).mode countValues)) := by
    intro value hwhole hcost hreads
    rw [hcost, Cost.mode_zero, ← hstart]
    refine Guarded.congr (p := True) ⟨fun _ => ?_, fun h => absurd trivial h⟩
      (iff_of_true trivial Scanner.affords_zero)
    exact scanForm_of_isWhole hreads hwhole hhead scanner
  cases hbody with
  | nil | bool | int | float32 | float64 =>
    rw [Bool.and_true, List.length_nil, Nat.add_zero]
    exact hwhole trivial rfl hreads
  | @str text h =>
    cases hreads with
    | scalar hfalse => exact hfalse.elim
    | string hholds =>
    rw [scanForm, readArgument_of_holds hholds hhead.tail (by omega), Bool.and_true]
    simp only [bodyCost, Cost.mode_payload]
    exact (guarded_scanString h hbodyAt hle offset _).map rfl
  | bin bytes =>
    cases hreads with
    | scalar hfalse => exact hfalse.elim
    | blob hholds =>
    rw [scanForm, readArgument_of_holds hholds hhead.tail (by omega), Bool.and_true]
    simp only [bodyCost, Cost.mode_payload]
    exact (guarded_scanBlob hle offset _ _).map rfl
  | ext payload h =>
    cases hreads with
    | scalar hfalse => exact hfalse.elim
    | extension hholds =>
    rw [scanForm, readArgument_of_holds hholds hhead.tail (by omega), Bool.and_true]
    simp only [bodyCost, Cost.mode_payload]
    exact (guarded_scanExtension h hbodyAt offset _).map rfl
  | array h =>
    cases hreads with
    | scalar hfalse => exact hfalse.elim
    | array hholds =>
    rw [scanForm, readArgument_of_holds hholds hhead.tail (by omega)]
    simp only [bodyCost, Cost.mode_add, Cost.mode_container, Scanner.affords_add]
    refine (guarded_checkContainer limits _).bind ?_
    refine (guarded_scanItems hchild h hbodyAt).map ?_
    rw [ofBool_merge_ofBool, Scanner.spend_add]
    rfl
  | map h hkeys =>
    cases hreads with
    | scalar hfalse => exact hfalse.elim
    | map hholds =>
    rw [scanForm, readArgument_of_holds hholds hhead.tail (by omega)]
    simp only [bodyCost, Cost.mode_add, Cost.mode_container, Scanner.affords_add]
    refine (guarded_checkContainer limits _).bind ?_
    refine (guarded_scanEntries hchild hclass h .nil (by simpa using hkeys) ?_ hbodyAt).map ?_
    · exact List.nil_prefix
    rw [ofBool_merge_ofBool, Scanner.spend_add]
    rfl

end Containers

section Values

variable (limits : WireLimits) (bytes : List Byte) {widen : BitVec 32 → BitVec 64}

/-- Every encoding of a value has its class as a key. -/
theorem keyClass_of_encodes {levels : ℕ} {value : Value} {raw : List Byte} {shortest : Bool}
    (h : Encodes widen levels value raw shortest) : keyClass raw = classOf value := by
  cases levels with
  | zero => cases h
  | succ levels =>
    obtain ⟨head, body, all, hform, hbody, rfl, -⟩ := h
    exact keyClass_append hform hbody

/-- The scanner is exact at every encoding whose nesting fits the levels that are left. -/
theorem scansExactly_scanValueMode (levels depth : ℕ) :
    ScansExactly limits bytes (Encodes widen levels)
      (fun offset => scanValueMode limits bytes levels offset depth) := by
  induction levels generalizing depth with
  | zero =>
    intro value raw shortest h
    cases h
  | succ levels ih =>
    rintro value raw shortest ⟨head, body, all, hform, hbody, rfl, rfl⟩ offset hraw countValues
      scanner
    have hdescribed : Described widen value.head head := described_of_form hform
    obtain ⟨marker, rest, rfl, hreads⟩ := hdescribed
    have hbyte : byteAt bytes offset offset = .ok marker := by
      rw [byteAt, hraw.getElem?]
      rfl
    simp only [costOf_eq value, Cost.mode_add, Cost.mode_visit, Scanner.affords_add,
      Scanner.spend_add]
    refine (guarded_bumpScanStep limits).bind ?_
    refine (guarded_noteValue limits countValues).bind ?_
    rw [hbyte, ok_bind]
    exact guarded_scanForm (ih (depth + 1)) keyClass_of_encodes hreads hbody hraw

end Values

end Lxmf
