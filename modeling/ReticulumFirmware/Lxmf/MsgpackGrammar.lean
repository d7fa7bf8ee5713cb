import ReticulumFirmware.Lxmf.MsgpackScan

/-!
# The scanner accepts its grammar

Where a scan succeeds, an encoding of a value stands. With the exactness of the scanner at
encodings this gives the exact language that validation accepts, and its classification.
-/

namespace Lxmf

open Nor MessagePack Codec

variable {limits : WireLimits} {bytes : List Byte} {widen : BitVec 32 → BitVec 64}

section Containers

variable {child : ScanChild} {encodes : Value → List Byte → Bool → Prop} {countValues : Bool}

/-- An encoding stands wherever the scan succeeds. -/
def FindsEncodings (bytes : List Byte) (encodes : Value → List Byte → Bool → Prop)
    (child : ScanChild) : Prop :=
  ∀ {offset countValues scanner result}, child offset countValues scanner = .ok result →
    ∃ value raw shortest, encodes value raw shortest ∧ Occurs bytes offset raw

/-- A scan that succeeds returns the result for the encoding that stands there. -/
theorem scan_result (hexact : ScansExactly limits bytes encodes child)
    (hfinds : FindsEncodings bytes encodes child) {offset : ℕ} {scanner : Scanner}
    {result : Scanned × Scanner} (h : child offset countValues scanner = .ok result) :
    ∃ value raw shortest, encodes value raw shortest ∧ Occurs bytes offset raw ∧
      result.1 = scannedAt offset value raw shortest := by
  obtain ⟨value, raw, shortest, hencodes, hraw⟩ := hfinds h
  obtain ⟨-, rfl⟩ := (hexact hencodes hraw).of_ok h
  exact ⟨value, raw, shortest, hencodes, hraw, rfl⟩

/-- Scanned items are a sequence of encoded values. -/
theorem sequence_of_scanItems (hexact : ScansExactly limits bytes encodes child)
    (hfinds : FindsEncodings bytes encodes child) {count cursor : ℕ} {canonicality : Canonicality}
    {scanner : Scanner} {result : ℕ × Canonicality × Scanner}
    (h : scanItems child countValues count cursor canonicality scanner = .ok result) :
    ∃ items raw all, items.length = count ∧ Sequence encodes items raw all ∧
      Occurs bytes cursor raw := by
  induction count generalizing cursor canonicality scanner with
  | zero => exact ⟨[], [], true, rfl, .nil, List.nil_prefix⟩
  | succ count ih =>
    obtain ⟨⟨item, next⟩, hitem, hrest⟩ := bind_ok.mp h
    obtain ⟨value, raw, shortest, hvalue, hraw, rfl⟩ := scan_result hexact hfinds hitem
    obtain ⟨items, rest, all, rfl, hitems, hrestAt⟩ := ih hrest
    exact ⟨value :: items, raw ++ rest, shortest && all, rfl, .cons hvalue hitems,
      occurs_append.mpr ⟨hraw, hrestAt⟩⟩

/-- The comparison with the entries before finds every equal key. -/
theorem fresh_of_hasPriorEqualKey (hexact : ScansExactly limits bytes encodes child)
    (hclass : ∀ {value raw shortest}, encodes value raw shortest → keyClass raw = classOf value)
    {done : List (Value × Value)} {raw : List Byte} {all : Bool}
    (h : Sequence (Entry encodes) done raw all) {current : List Byte} {key : Value}
    (hcurrent : keyClass current = classOf key) (hkey : key.key ≠ none) {cursor : ℕ}
    (hraw : Occurs bytes cursor raw) {scanner next : Scanner}
    (hfresh : hasPriorEqualKey bytes child current done.length cursor scanner =
      .ok (false, next)) : ∀ entry ∈ done, entry.1.key ≠ key.key := by
  induction h generalizing cursor scanner with
  | nil => exact fun entry hentry => absurd hentry List.not_mem_nil
  | cons head tail ih =>
    cases head with
    | @mk prior value rawPrior rawValue _ _ hprior hvalue =>
    obtain ⟨hhead, htail⟩ := occurs_append.mp hraw
    obtain ⟨hpriorAt, hvalueAt⟩ := occurs_append.mp hhead
    obtain ⟨⟨priorScan, afterPrior⟩, hpriorScan, hfresh⟩ := bind_ok.mp hfresh
    obtain ⟨-, hpriorEq⟩ := (hexact hprior hpriorAt).of_ok hpriorScan
    cases hpriorEq
    dsimp only [scannedAt] at hfresh
    rw [Nat.add_sub_cancel_left, hpriorAt.slice_eq] at hfresh
    by_cases hsame : sameKey rawPrior current = true
    · rw [if_pos hsame] at hfresh
      cases hfresh
    · rw [if_neg hsame] at hfresh
      obtain ⟨⟨valueScan, afterValue⟩, hvalueScan, hfresh⟩ := bind_ok.mp hfresh
      obtain ⟨-, hvalueEq⟩ := (hexact hvalue hvalueAt).of_ok hvalueScan
      cases hvalueEq
      rw [List.length_append, ← Nat.add_assoc] at htail
      rw [sameKey_iff (hclass hprior) hcurrent hkey] at hsame
      intro entry hentry
      cases hentry with
      | head => exact hsame
      | tail _ hentry => exact ih htail hfresh entry hentry

/-- An entry whose key passes the check continues the map. -/
theorem keysDistinct_of_checkKey (hexact : ScansExactly limits bytes encodes child)
    (hclass : ∀ {value raw shortest}, encodes value raw shortest → keyClass raw = classOf value)
    {done : List (Value × Value)} {raw rawKey : List Byte} {all shortest : Bool} {key : Value}
    (hdone : Sequence (Entry encodes) done raw all) (hkeys : KeysDistinct done)
    (hkey : encodes key rawKey shortest) {entriesOffset : ℕ} (hraw : Occurs bytes entriesOffset raw)
    (hrawKey : Occurs bytes (entriesOffset + raw.length) rawKey) {scanner next : Scanner}
    (h : checkKey bytes child entriesOffset done.length (entriesOffset + raw.length)
      (entriesOffset + raw.length + rawKey.length) scanner = .ok next) (value : Value) :
    KeysDistinct (done ++ [(key, value)]) := by
  have hslice : slice bytes (entriesOffset + raw.length)
      (entriesOffset + raw.length + rawKey.length - (entriesOffset + raw.length)) = rawKey := by
    rw [Nat.add_sub_cancel_left, hrawKey.slice_eq]
  simp only [checkKey, hslice, hclass hkey] at h
  by_cases hnone : classOf key = none
  · rw [if_pos hnone] at h
    cases h
  have hsome : key.key ≠ none := by
    rw [key_eq_map]
    exact fun hmap => hnone (Option.map_eq_none_iff.mp hmap)
  rw [if_neg hnone] at h
  obtain ⟨⟨duplicate, after⟩, hprior, hduplicate⟩ := bind_ok.mp h
  cases duplicate with
  | true => cases hduplicate
  | false =>
    exact hkeys.snoc hsome (fresh_of_hasPriorEqualKey hexact hclass hdone (hclass hkey) hsome hraw
      hprior)

/-- Scanned entries are a sequence of encoded entries with distinct keys. -/
theorem sequence_of_scanEntries (hexact : ScansExactly limits bytes encodes child)
    (hclass : ∀ {value raw shortest}, encodes value raw shortest → keyClass raw = classOf value)
    (hfinds : FindsEncodings bytes encodes child) {entriesOffset count : ℕ}
    {done : List (Value × Value)} {rawDone : List Byte} {allDone : Bool}
    (hdone : Sequence (Entry encodes) done rawDone allDone) (hkeys : KeysDistinct done)
    (hrawDone : Occurs bytes entriesOffset rawDone) {canonicality : Canonicality}
    {scanner : Scanner} {result : ℕ × Canonicality × Scanner}
    (h : scanEntries bytes child countValues entriesOffset count done.length
      (entriesOffset + rawDone.length) canonicality scanner = .ok result) :
    ∃ entries raw all, entries.length = count ∧ Sequence (Entry encodes) entries raw all ∧
      Occurs bytes (entriesOffset + rawDone.length) raw ∧ KeysDistinct (done ++ entries) := by
  induction count generalizing done rawDone allDone canonicality scanner with
  | zero => exact ⟨[], [], true, rfl, .nil, List.nil_prefix, by simpa using hkeys⟩
  | succ count ih =>
    obtain ⟨⟨keyScan, afterKey⟩, hkeyScan, h⟩ := bind_ok.mp h
    obtain ⟨key, rawKey, shortestKey, hkey, hkeyAt, rfl⟩ := scan_result hexact hfinds hkeyScan
    obtain ⟨afterCheck, hcheck, h⟩ := bind_ok.mp h
    obtain ⟨⟨valueScan, afterValue⟩, hvalueScan, h⟩ := bind_ok.mp h
    obtain ⟨value, rawValue, shortestValue, hvalue, hvalueAt, rfl⟩ :=
      scan_result hexact hfinds hvalueScan
    have hnext := keysDistinct_of_checkKey hexact hclass hdone hkeys hkey hrawDone hkeyAt hcheck
      value
    have hentry : Entry encodes (key, value) (rawKey ++ rawValue) _ := .mk hkey hvalue
    have hentryAt := occurs_append.mpr ⟨hkeyAt, hvalueAt⟩
    have hend : entriesOffset + rawDone.length + rawKey.length + rawValue.length =
        entriesOffset + (rawDone ++ (rawKey ++ rawValue)).length := by
      simp only [List.length_append]
      omega
    have hlength : done.length + 1 = (done ++ [(key, value)]).length := by simp
    dsimp only [scannedAt] at h
    rw [hend, hlength] at h
    obtain ⟨entries, raw, all, rfl, hentries, hraw, hdistinct⟩ :=
      ih (hdone.append (.singleton hentry)) hnext (occurs_append.mpr ⟨hrawDone, hentryAt⟩) h
    refine ⟨(key, value) :: entries, (rawKey ++ rawValue) ++ raw, _, rfl, .cons hentry hentries,
      occurs_append.mpr ⟨hentryAt, ?_⟩, by simpa using hdistinct⟩
    rwa [← hend, Nat.add_assoc (entriesOffset + rawDone.length), ← List.length_append] at hraw

/-- A byte that is read is in the buffer. -/
theorem byteAt_ok {offset markerOffset : ℕ} {byte : Byte}
    (h : byteAt bytes offset markerOffset = .ok byte) : bytes[offset]? = some byte := by
  rw [byteAt] at h
  split at h
  · next found hfound =>
    cases h
    exact hfound
  · cases h

/-- A byte occurs where it is read. -/
theorem occurs_singleton {offset : ℕ} {byte : Byte} (h : bytes[offset]? = some byte) :
    Occurs bytes offset [byte] := by
  obtain ⟨hlt, hget⟩ := List.getElem?_eq_some_iff.mp h
  rw [Occurs, List.drop_eq_getElem_cons hlt, hget]
  exact ⟨_, rfl⟩

/-- A range that is taken lies in the buffer. -/
theorem takeEnd_ok {offset length markerOffset end_ : ℕ}
    (h : takeEnd bytes offset length markerOffset = .ok end_) : offset + length ≤ bytes.length := by
  by_contra hlt
  rw [takeEnd, if_pos (by omega)] at h
  cases h

/-- A number that is read lies in the buffer. -/
theorem numberAt_ok {width offset markerOffset n : ℕ}
    (h : numberAt bytes width offset markerOffset = .ok n) : offset + width ≤ bytes.length := by
  obtain ⟨end_, hend, -⟩ := bind_ok.mp h
  exact takeEnd_ok hend

/-- An argument that is read lies in the buffer. -/
theorem readArgument_ok {argument : Argument} {offset : ℕ} {result : ℕ × ℕ}
    (hoffset : offset < bytes.length) (h : readArgument bytes offset argument = .ok result) :
    offset + 1 + argument.width ≤ bytes.length := by
  cases argument with
  | marker value => exact hoffset
  | bytes width =>
    obtain ⟨n, hn, -⟩ := bind_ok.mp h
    exact numberAt_ok hn

/-- A form whose scan succeeds has its head inside the buffer. -/
theorem width_le_of_scanForm {form : MarkerForm} {offset : ℕ} {scanner : Scanner}
    {result : Scanned × Scanner} (hoffset : offset < bytes.length)
    (h : scanForm limits bytes child offset countValues scanner form = .ok result) :
    form ≠ .reserved ∧ offset + 1 + form.width ≤ bytes.length := by
  cases form with
  | reserved => cases h
  | scalar length kind canonical =>
    obtain ⟨scanned, hscanned, -⟩ := bind_ok.mp h
    obtain ⟨end_, hend, -⟩ := bind_ok.mp hscanned
    have hle := takeEnd_ok hend
    refine ⟨nofun, ?_⟩
    rw [MarkerForm.width]
    omega
  | integer width canonical =>
    obtain ⟨n, hn, -⟩ := bind_ok.mp h
    exact ⟨nofun, numberAt_ok hn⟩
  | string argument canonical | blob argument canonical | extension argument canonical
  | array argument canonical | map argument canonical =>
    obtain ⟨read, hread, -⟩ := bind_ok.mp h
    exact ⟨nofun, readArgument_ok hoffset hread⟩

/-- A payload that is scanned lies in the buffer and ends the value. -/
theorem scanBlob_ok {markerOffset offset length : ℕ} {kind : MessagePackKind} {canonical : Bool}
    {scanned : Scanned}
    (h : scanBlob limits bytes markerOffset offset length kind canonical = .ok scanned) :
    offset + length ≤ bytes.length ∧ scanned.end_ = offset + length := by
  obtain ⟨-, -, h⟩ := bind_ok.mp h
  obtain ⟨end_, hend, h⟩ := bind_ok.mp h
  have hle := takeEnd_ok hend
  rw [takeEnd_of_le hle] at hend
  cases hend
  cases h
  exact ⟨hle, rfl⟩

/-- A whole head is the head of a value without a body. -/
theorem exists_of_isWhole {head : Head} (h : IsWhole head) :
    ∃ value : Value, value.head = head ∧ Body encodes value [] true := by
  cases head with
  | nil => exact ⟨.nil, rfl, .nil⟩
  | bool value => exact ⟨.bool value, rfl, .bool value⟩
  | int value => exact ⟨.int value, rfl, .int value⟩
  | float32 bits => exact ⟨.float32 bits, rfl, .float32 bits⟩
  | float64 bits => exact ⟨.float64 bits, rfl, .float64 bits⟩
  | _ => cases h

/-- Behind a head that was read, the body of a value stands if the scan succeeds. -/
theorem body_of_scanForm (hexact : ScansExactly limits bytes encodes child)
    (hclass : ∀ {value raw shortest}, encodes value raw shortest → keyClass raw = classOf value)
    (hfinds : FindsEncodings bytes encodes child) {form : MarkerForm} {rest : List Byte}
    {head : Head} {canonical : Bool} (hreads : form.Reads rest head canonical) {offset : ℕ}
    (hrest : Occurs bytes (offset + 1) rest) (hle : offset + 1 + rest.length ≤ bytes.length)
    {scanner : Scanner} {result : Scanned × Scanner}
    (h : scanForm limits bytes child offset countValues scanner form = .ok result) :
    ∃ (value : Value) (body : List Byte) (all : Bool), value.head = head ∧
      Body encodes value body all ∧ Occurs bytes (offset + 1 + rest.length) body := by
  cases hreads with
  | scalar hwhole =>
    obtain ⟨value, hhead, hbody⟩ := exists_of_isWhole hwhole
    exact ⟨value, [], true, hhead, hbody, List.nil_prefix⟩
  | integer rest value => exact ⟨.int value, [], true, rfl, .int value, List.nil_prefix⟩
  | string hholds =>
    rw [scanForm, readArgument_of_holds hholds hrest hle, ok_bind] at h
    obtain ⟨scanned, hscanned, -⟩ := bind_ok.mp h
    obtain ⟨blob, hblob, hutf8⟩ := bind_ok.mp hscanned
    obtain ⟨hfits, hend⟩ := scanBlob_ok hblob
    obtain ⟨hraw, hlength⟩ := occurs_slice hfits
    rw [hend, Nat.add_sub_cancel_left] at hutf8
    refine ⟨.str _, _, true, congrArg Head.str hlength, .str ?_, hraw⟩
    by_contra hinvalid
    rw [← fromUtf8Ok_iff] at hinvalid
    rw [if_neg hinvalid] at hutf8
    cases hutf8
  | blob hholds =>
    rw [scanForm, readArgument_of_holds hholds hrest hle, ok_bind] at h
    obtain ⟨scanned, hscanned, -⟩ := bind_ok.mp h
    obtain ⟨hraw, hlength⟩ := occurs_slice (scanBlob_ok hscanned).1
    exact ⟨.bin _, _, true, congrArg Head.bin hlength, .bin _, hraw⟩
  | extension hholds =>
    rw [scanForm, readArgument_of_holds hholds hrest hle, ok_bind] at h
    obtain ⟨scanned, hscanned, -⟩ := bind_ok.mp h
    obtain ⟨-, -, hscanned⟩ := bind_ok.mp hscanned
    obtain ⟨end_, hend, hscanned⟩ := bind_ok.mp hscanned
    obtain ⟨type, htype, hscanned⟩ := bind_ok.mp hscanned
    have hfits := takeEnd_ok hend
    obtain ⟨hraw, hlength⟩ := occurs_slice hfits
    have htypeAt := occurs_singleton (byteAt_ok htype)
    have hsupported : type ≠ timestampType := by
      intro htimestamp
      rw [if_pos htimestamp] at hscanned
      cases hscanned
    exact ⟨.ext type _, _, true, congrArg Head.ext hlength, .ext _ hsupported,
      htypeAt.cons hraw⟩
  | array hholds =>
    rw [scanForm, readArgument_of_holds hholds hrest hle, ok_bind] at h
    obtain ⟨-, -, h⟩ := bind_ok.mp h
    obtain ⟨scanned, hscanned, -⟩ := bind_ok.mp h
    obtain ⟨items, raw, all, rfl, hitems, hraw⟩ := sequence_of_scanItems hexact hfinds hscanned
    exact ⟨.array items, raw, all, rfl, .array hitems, hraw⟩
  | map hholds =>
    rw [scanForm, readArgument_of_holds hholds hrest hle, ok_bind] at h
    obtain ⟨-, -, h⟩ := bind_ok.mp h
    obtain ⟨scanned, hscanned, -⟩ := bind_ok.mp h
    obtain ⟨entries, raw, all, rfl, hentries, hraw, hkeys⟩ := sequence_of_scanEntries hexact hclass
      hfinds .nil ⟨[], rfl, List.nodup_nil⟩ List.nil_prefix hscanned
    exact ⟨.map entries, raw, all, rfl, .map hentries (by simpa using hkeys), hraw⟩

end Containers

/-- A scan that succeeds stands at an encoding whose nesting fits the levels that are left. -/
theorem findsEncodings_scanValueMode (levels depth : ℕ) :
    FindsEncodings bytes (Encodes widen levels)
      (fun offset => scanValueMode limits bytes levels offset depth) := by
  induction levels generalizing depth with
  | zero =>
    intro offset countValues scanner result h
    obtain ⟨next, -, h⟩ := bind_ok.mp h
    cases h
  | succ levels ih =>
    intro offset countValues scanner result h
    obtain ⟨next, -, h⟩ := bind_ok.mp h
    obtain ⟨counted, -, h⟩ := bind_ok.mp h
    obtain ⟨marker, hmarker, h⟩ := bind_ok.mp h
    have hmarkerAt := occurs_singleton (byteAt_ok hmarker)
    have hoffset : offset + 1 ≤ bytes.length := hmarkerAt.le (by simp)
    obtain ⟨hreserved, hfits⟩ := width_le_of_scanForm hoffset h
    obtain ⟨hrest, hwidth⟩ := occurs_slice hfits
    obtain ⟨head, hform⟩ := announces_of_width hreserved hwidth
    have hdescribed : Described widen head _ := described_of_form hform
    obtain ⟨_, _, hraw, hreads⟩ := hdescribed
    cases hraw
    obtain ⟨value, body, all, rfl, hbody, hbodyAt⟩ :=
      body_of_scanForm (scansExactly_scanValueMode limits bytes levels (depth + 1))
        keyClass_of_encodes (ih (depth + 1)) hreads hrest (by rw [hwidth]; exact hfits) h
    have hheadAt : Occurs bytes offset
        (marker :: slice bytes (offset + 1) (markerForm marker).width) :=
      hmarkerAt.cons hrest
    exact ⟨value, _, _, ⟨_, body, all, hform, hbody, rfl, rfl⟩,
      occurs_append.mpr ⟨hheadAt, by rwa [List.length_cons, Nat.add_comm _ 1, ← Nat.add_assoc]⟩⟩

/-- An encoded value is scanned exactly where its cost is afforded. -/
theorem guarded_scanValue {value : Value} {raw : List Byte} {shortest : Bool} {offset depth : ℕ}
    (h : Encodes widen (effectiveMaximum limits + 1 - depth) value raw shortest)
    (hraw : Occurs bytes offset raw) {scanner : Scanner} :
    Guarded Exceeds (scanner.Affords limits (costOf value))
      (scanValue limits bytes offset depth scanner)
      (scannedAt offset value raw shortest, scanner.spend (costOf value)) := by
  have hscan := @scansExactly_scanValueMode limits bytes widen _ depth value raw shortest h offset
    hraw true scanner
  exact hscan

/-- An encoded value is accepted exactly where it fits the wire and its cost is afforded. -/
theorem guarded_validate {value : Value} {shortest : Bool}
    (h : Encodes widen (effectiveMaximum limits) value bytes shortest) :
    Guarded Exceeds (bytes.length ≤ limits.maxWireBytes ∧ Scanner.new.Affords limits (costOf value))
      (validateMessagepackValue limits bytes) ⟨bytes, kindOf value.head, .ofBool shortest⟩ := by
  have hraw : Occurs bytes 0 bytes := List.prefix_refl bytes
  refine (guarded_checkLimit ..).bind ((guarded_scanValue h hraw).map ?_)
  exact if_neg (by simp [scannedAt])

/-- Validation succeeds exactly if the bytes encode one value whose cost the limits afford. -/
theorem validate_ok_iff {result : MessagePackValue} :
    validateMessagepackValue limits bytes = .ok result ↔
      ∃ value shortest, Encodes widen (effectiveMaximum limits) value bytes shortest ∧
        (bytes.length ≤ limits.maxWireBytes ∧ Scanner.new.Affords limits (costOf value)) ∧
        result = ⟨bytes, kindOf value.head, .ofBool shortest⟩ := by
  constructor
  · intro h
    obtain ⟨-, -, hscanned⟩ := bind_ok.mp h
    obtain ⟨⟨scanned, scanner⟩, hscan, hend⟩ := bind_ok.mp hscanned
    have hfinds := @findsEncodings_scanValueMode limits bytes widen (effectiveMaximum limits) 1 0
      true .new (scanned, scanner)
    obtain ⟨value, raw, shortest, hencodes, hraw⟩ := hfinds hscan
    obtain ⟨-, hresult⟩ := (guarded_scanValue hencodes hraw).of_ok hscan
    cases hresult
    have hlength : raw.length = bytes.length := by
      by_contra hne
      dsimp only [scannedAt] at hend
      rw [Nat.zero_add, if_pos hne] at hend
      cases hend
    have hall : raw = bytes := List.IsPrefix.eq_of_length hraw hlength
    subst hall
    obtain ⟨haffords, hresult⟩ := (guarded_validate hencodes).of_ok h
    exact ⟨value, shortest, hencodes, haffords, hresult⟩
  · rintro ⟨value, shortest, hencodes, haffords, rfl⟩
    exact (guarded_validate hencodes).ok haffords

/-- Limits that afford a cost. -/
def roomFor (a : Cost) : WireLimits := ⟨0, a.bytes, a.items, a.values, a.visits, 0⟩

/-- With room for two costs a new scanner affords each of them. -/
theorem affords_roomFor_add (a b : Cost) :
    Scanner.new.Affords (roomFor (a + b)) a ∧ Scanner.new.Affords (roomFor (a + b)) b := by
  simp [Scanner.Affords, Scanner.new, roomFor]

/-- Two encodings that are the same bytes are both shortest or both not, and take the same number
of steps. -/
theorem encodes_unique {depth : ℕ} {left right : Value} {raw : List Byte} {shortest other : Bool}
    (hleft : Encodes widen depth left raw shortest) (hright : Encodes widen depth right raw other) :
    shortest = other ∧ (costOf left).visits = (costOf right).visits := by
  obtain ⟨haffordsLeft, haffordsRight⟩ := affords_roomFor_add (costOf left) (costOf right)
  have hraw : Occurs raw 0 raw := List.prefix_refl raw
  have hexact := @scansExactly_scanValueMode
    (roomFor (costOf left + costOf right)) raw widen depth 1
  have hresult := ((@hexact _ _ _ hleft 0 hraw true .new).ok haffordsLeft).symm.trans
    ((@hexact _ _ _ hright 0 hraw true .new).ok haffordsRight)
  have hsame : Canonicality.ofBool shortest = .ofBool other :=
    congrArg Scanned.canonicality (congrArg Prod.fst (Except.ok.inj hresult))
  have hvisits : 0 + (costOf left).visits = 0 + (costOf right).visits :=
    congrArg Scanner.scanSteps (congrArg Prod.snd (Except.ok.inj hresult))
  refine ⟨?_, by omega⟩
  cases shortest <;> cases other <;> first | rfl | cases hsame

/-- An encoding is shortest exactly if writing the decoded value again gives the same bytes. -/
theorem shortest_iff_encode {depth : ℕ} {value : Value} {raw : List Byte} {shortest : Bool}
    (h : Encodes widen depth value raw shortest) :
    shortest = true ↔ value.encode widen = raw := by
  constructor
  · rintro rfl
    exact (eq_encode_of_shortest h).symm
  · rintro rfl
    exact (encodes_unique h (encodes_encode h)).1

/-- Every counter of the limits is at least `room`. -/
structure WireLimits.Admits (limits : WireLimits) (room : ℕ) : Prop where
  wireBytes : room ≤ limits.maxWireBytes
  valueBytes : room ≤ limits.maxValueBytes
  containerItems : room ≤ limits.maxContainerItems
  totalValues : room ≤ limits.maxTotalValues
  scanSteps : room ≤ limits.maxScanSteps

/-- Enough room for the length and the steps of a value affords its cost. -/
theorem admits_affords {limits : WireLimits} {depth : ℕ} {value : Value} {raw : List Byte}
    {shortest : Bool} (h : Encodes widen depth value raw shortest)
    (hadmits : limits.Admits (raw.length + (costOf value).visits)) :
    raw.length ≤ limits.maxWireBytes ∧ Scanner.new.Affords limits (costOf value) := by
  obtain ⟨-, hvalues, hitems, hbytes⟩ := costOf_within h
  obtain ⟨hwire, hvalueBytes, hcontainer, htotal, hsteps⟩ := hadmits
  refine ⟨by omega, Or.inr ?_, Or.inr ?_, by omega, by omega⟩ <;>
    simp only [Scanner.new, Nat.zero_add] <;> omega

/-- Validation with unbounded counters accepts exactly the bytes of one value whose nesting depth
is within the limit, whose strings are UTF-8, which has no timestamp extension, and whose maps
have distinct keys. It reports the bytes as canonical exactly if every length, count and number in
them takes its shortest form, that is, if writing the decoded value again gives the same bytes. -/
theorem validate_accepts_grammar (widen : BitVec 32 → BitVec 64) (bytes : List Byte) (depth : ℕ) :
    ∃ room : ℕ, ∀ limits : WireLimits, limits.maxNestingDepth = depth → limits.Admits room →
      ((∃ result, validateMessagepackValue limits bytes = .ok result) ↔
        ∃ value shortest,
          Encodes widen (min depth absoluteMaxNestingDepth) value bytes shortest) ∧
      ∀ result value shortest, validateMessagepackValue limits bytes = .ok result →
        Encodes widen (min depth absoluteMaxNestingDepth) value bytes shortest →
          (result.canonicality = .canonical ↔ shortest = true) ∧
          (result.canonicality = .canonical ↔ value.encode widen = bytes) := by
  obtain ⟨room, hroom⟩ : ∃ room, ∀ limits : WireLimits, limits.Admits room →
      ∀ {value shortest}, Encodes widen (min depth absoluteMaxNestingDepth) value bytes shortest →
        bytes.length ≤ limits.maxWireBytes ∧ Scanner.new.Affords limits (costOf value) := by
    by_cases hsome : ∃ value shortest,
        Encodes widen (min depth absoluteMaxNestingDepth) value bytes shortest
    · obtain ⟨first, firstShortest, hfirst⟩ := hsome
      refine ⟨bytes.length + (costOf first).visits, fun limits hadmits value shortest h => ?_⟩
      rw [← (encodes_unique h hfirst).2] at hadmits
      exact admits_affords h hadmits
    · exact ⟨0, fun _ _ value shortest h => absurd ⟨value, shortest, h⟩ hsome⟩
  refine ⟨room, fun limits hdepth hadmits => ?_⟩
  have hmaximum : effectiveMaximum limits = min depth absoluteMaxNestingDepth := by
    rw [effectiveMaximum, hdepth]
  refine ⟨⟨?_, ?_⟩, ?_⟩
  · rintro ⟨result, h⟩
    obtain ⟨value, shortest, hencodes, -, -⟩ := (@validate_ok_iff _ _ widen _).mp h
    rw [hmaximum] at hencodes
    exact ⟨value, shortest, hencodes⟩
  · rintro ⟨value, shortest, hencodes⟩
    have hafford := hroom limits hadmits hencodes
    rw [← hmaximum] at hencodes
    exact ⟨_, validate_ok_iff.mpr ⟨value, shortest, hencodes, hafford, rfl⟩⟩
  · intro result value shortest h hencodes
    obtain ⟨_, other, hother, -, rfl⟩ := (@validate_ok_iff _ _ widen _).mp h
    rw [hmaximum] at hother
    rw [← shortest_iff_encode hencodes, and_self, (encodes_unique hencodes hother).1]
    cases other <;> simp [Canonicality.ofBool]

end Lxmf
