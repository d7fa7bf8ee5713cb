import ReticulumFirmware.Collections.Fold
import ReticulumFirmware.Lxmf.MsgpackParts
import ReticulumFirmware.Lxmf.Wire

/-!
# The grammar of payloads

A payload is accepted exactly if it is an array of four or five encoded items whose cost the
limits afford, and the items mean a message.
-/

namespace Lxmf

open Nor MessagePack Codec

/-- An item of a payload: a value, its encoding, and whether that is the shortest one. -/
structure EncodedItem where
  value : Value
  raw : List Byte
  shortest : Bool

/-- What the scan of an item finds. -/
def EncodedItem.scanned (item : EncodedItem) : List Byte × Canonicality :=
  (item.raw, .ofBool item.shortest)

/-- The items of a payload, one after the other. -/
def flatItems (items : List EncodedItem) : List Byte := items.flatMap EncodedItem.raw

/-- The bytes of the first item come before those of the others. -/
@[simp] theorem flatItems_cons (item : EncodedItem) (items : List EncodedItem) :
    flatItems (item :: items) = item.raw ++ flatItems items := rfl

/-- The cost of the items of a payload. -/
def itemsCost (items : List EncodedItem) : Cost := (items.map fun item => costOf item.value).sum

/-- The cost of a payload. -/
def payloadCost (items : List EncodedItem) : Cost :=
  .visit + (.value + .container items.length) + itemsCost items

section Scan

variable {limits : WireLimits} {raw : List Byte} {widen : BitVec 32 → BitVec 64}

/-- The items are encoded one level inside. -/
def Encoded (limits : WireLimits) (widen : BitVec 32 → BitVec 64) (items : List EncodedItem) :
    Prop :=
  ∀ item ∈ items, Encodes widen (effectiveMaximum limits - 1) item.value item.raw item.shortest

/-- The payload array is noted exactly where one level and its cost are afforded. -/
theorem guarded_noteContainer (count : ℕ) {scanner : Scanner} :
    Guarded Exceeds (1 ≤ effectiveMaximum limits ∧
        scanner.Affords limits (.visit + (.value + .container count)))
      (noteContainer limits 0 1 count scanner)
      (scanner.spend (.visit + (.value + .container count))) := by
  have hcontainer : ∀ next : Scanner, Guarded Exceeds (next.Affords limits (.container count))
      (checkContainer limits 0 count >>= fun _ => pure next) (next.spend (.container count)) :=
    fun next => (guarded_checkContainer limits count).map rfl
  have hvalue := @guarded_noteValue limits (scanner.spend .visit) 0 true
  refine ((guarded_bumpScanStep limits).bind ((guarded_checkLimit ..).bind
    (hvalue.bind (hcontainer _)))).congr ?_
  simp only [Scanner.affords_add]
  tauto

/-- A value one level inside, where a scan succeeds. -/
theorem scanValue_ok_iff {cursor : ℕ} {scanner : Scanner} {result : Scanned × Scanner} :
    scanValue limits raw cursor 2 scanner = .ok result ↔
      ∃ value bytes shortest,
        Encodes widen (effectiveMaximum limits - 1) value bytes shortest ∧
        Occurs raw cursor bytes ∧ scanner.Affords limits (costOf value) ∧
        result = (scannedAt cursor value bytes shortest, scanner.spend (costOf value)) := by
  have hlevels : effectiveMaximum limits + 1 - 2 = effectiveMaximum limits - 1 := by omega
  constructor
  · intro h
    have hfinds := @findsEncodings_scanValueMode limits raw widen (effectiveMaximum limits + 1 - 2)
      2 cursor true scanner result
    obtain ⟨value, bytes, shortest, hencodes, hraw⟩ := hfinds h
    obtain ⟨hroom, hresult⟩ := (guarded_scanValue hencodes hraw).of_ok h
    rw [hlevels] at hencodes
    exact ⟨value, bytes, shortest, hencodes, hraw, hroom, hresult⟩
  · rintro ⟨value, bytes, shortest, hencodes, hraw, hroom, rfl⟩
    rw [← hlevels] at hencodes
    exact (guarded_scanValue hencodes hraw).ok hroom

/-- The items are scanned exactly where encodings stand that the limits afford. -/
theorem scanPayloadItems_ok_iff {count cursor : ℕ} {scanner : Scanner}
    {result : List (List Byte × Canonicality) × ℕ} :
    scanPayloadItems limits raw count cursor scanner = .ok result ↔
      ∃ items : List EncodedItem, items.length = count ∧ Encoded limits widen items ∧
        Occurs raw cursor (flatItems items) ∧ scanner.Affords limits (itemsCost items) ∧
        result = (items.map EncodedItem.scanned, cursor + (flatItems items).length) := by
  induction count generalizing cursor scanner result with
  | zero =>
    constructor
    · rintro ⟨⟩
      exact ⟨[], rfl, nofun, List.nil_prefix, Scanner.affords_zero, rfl⟩
    · rintro ⟨items, hlength, -, -, -, rfl⟩
      rw [List.length_eq_zero_iff.mp hlength]
      rfl
  | succ count ih =>
    constructor
    · intro h
      obtain ⟨scanned, hscanned, h⟩ := bind_ok.mp h
      obtain ⟨value, bytes, shortest, hencodes, hraw, hroom, rfl⟩ :=
        (@scanValue_ok_iff _ _ widen _ _ _).mp hscanned
      obtain ⟨rest, hrest, h⟩ := bind_ok.mp h
      obtain ⟨items, rfl, hitems, hrestAt, hrestRoom, rfl⟩ := ih.mp hrest
      cases h
      refine ⟨⟨value, bytes, shortest⟩ :: items, rfl, ?_, ?_, ?_, ?_⟩
      · exact List.forall_mem_cons.mpr ⟨hencodes, hitems⟩
      · exact occurs_append.mpr ⟨hraw, hrestAt⟩
      · exact Scanner.affords_add.mpr ⟨hroom, hrestRoom⟩
      · simp [scannedAt, EncodedItem.scanned, hraw.slice_eq, Nat.add_assoc]
    · rintro ⟨items, hlength, hitems, hraw, hroom, rfl⟩
      cases items with
      | nil => cases hlength
      | cons item items =>
        obtain ⟨hitem, hitems⟩ := List.forall_mem_cons.mp hitems
        obtain ⟨hitemAt, hrestAt⟩ := occurs_append.mp hraw
        obtain ⟨hitemRoom, hrestRoom⟩ := Scanner.affords_add.mp hroom
        have hscan := (@scanValue_ok_iff _ _ widen _ _ _).mpr
          ⟨_, _, _, hitem, hitemAt, hitemRoom, rfl⟩
        have hrest := ih.mpr ⟨items, Nat.succ.inj hlength, hitems, hrestAt, hrestRoom, rfl⟩
        rw [scanPayloadItems, hscan, ok_bind]
        dsimp only [scannedAt]
        rw [hrest, ok_bind]
        simp [EncodedItem.scanned, hitemAt.slice_eq, Nat.add_assoc, pure, Except.pure]

end Scan

section Markers

variable {widen : BitVec 32 → BitVec 64} {depth : ℕ} {value : Value} {raw : List Byte}
  {shortest : Bool}

/-- The kind of the values that a form of marker starts. -/
def MarkerForm.kind : MarkerForm → Option MessagePackKind
  | .scalar _ kind _ => some kind
  | .reserved => none
  | .integer .. => some .integer
  | .string .. => some .string
  | .blob .. => some .binary
  | .extension .. => some .extension
  | .array .. => some .array
  | .map .. => some .map

/-- A form that reads a head has its kind. -/
theorem kind_of_reads {form : MarkerForm} {rest : List Byte} {head : Head} {canonical : Bool}
    (h : form.Reads rest head canonical) : form.kind = some (kindOf head) := by
  cases h <;> rfl

/-- The marker of an encoding tells the kind of the value. -/
theorem kind_of_encodes (h : Encodes widen depth value raw shortest) :
    ∃ rest, raw = markerOf raw :: rest ∧
      (markerForm (markerOf raw)).kind = some (kindOf value.head) := by
  obtain ⟨levels, head, body, all, -, hform, -, rfl⟩ := encodes_parts h
  have hdescribed : Described widen value.head head := described_of_form hform
  obtain ⟨marker, rest, rfl, hreads⟩ := hdescribed
  exact ⟨rest ++ body, rfl, kind_of_reads hreads⟩

/-- Only the marker of eight byte numbers has their kind. -/
theorem kind_float64_iff : ∀ marker : Byte,
    (markerForm marker).kind = some .float64 ↔ marker = msgpackF64 := by
  decide +kernel

/-- Exactly the markers of byte strings have their kind. -/
theorem kind_binary_iff : ∀ marker : Byte,
    (markerForm marker).kind = some .binary ↔ (binaryPrefix marker).isSome := by
  decide +kernel

/-- Exactly the markers of maps have their kind. -/
theorem kind_map_iff : ∀ marker : Byte, (markerForm marker).kind = some .map ↔
    (0x80 ≤ marker.toNat ∧ marker.toNat ≤ 0x8f) ∨ marker = 0xde ∨ marker = 0xdf := by
  decide +kernel

/-- The number that a timestamp is. -/
def timestampOf : Value → Option (BitVec 64)
  | .float64 bits => some bits
  | _ => none

/-- The time is parsed from every encoding as its value says. -/
theorem parseTimestamp_of_encodes (h : Encodes widen depth value raw shortest) :
    parseTimestamp raw = match timestampOf value with
      | some bits => .ok bits
      | none => .error (.invalidTimestamp (markerOf raw)) := by
  obtain ⟨rest, hraw, hkind⟩ := kind_of_encodes h
  obtain ⟨levels, head, body, all, -, hform, hbody, hparts⟩ := encodes_parts h
  cases value with
  | float64 bits =>
    cases hform
    cases hbody
    rw [hparts, List.append_nil, parseTimestamp]
    rw [if_neg (by simp)]
    simp only [timestampOf, List.drop_succ_cons, List.drop_zero]
    rw [beNat_beBytes_of_lt bits.isLt, BitVec.ofNat_toNat, BitVec.setWidth_eq]
  | _ =>
    have hmarker : raw.head? ≠ some msgpackF64 := by
      intro hhead
      rw [hraw, List.head?_cons, Option.some.injEq] at hhead
      rw [(kind_float64_iff _).mpr hhead] at hkind
      cases hkind
    rw [parseTimestamp, if_pos (.inl hmarker)]
    rfl

/-- The prefix of a byte string is its head. -/
theorem binaryPrefix_eq_length {n : ℕ} {head body : List Byte} (h : (Head.bin n).Form head) :
    binaryPrefix (markerOf (head ++ body)) = some head.length := by
  cases h with
  | @bin k n hk hn =>
    rw [length_tagged]
    interval_cases k <;> rfl

/-- An encoding has a prefix of a byte string exactly where its value is one. -/
theorem binaryPrefix_of_encodes (h : Encodes widen depth value raw shortest) :
    (∃ bytes headLen, value = .bin bytes ∧ binaryPrefix (markerOf raw) = some headLen ∧
      raw.drop headLen = bytes) ∨ binaryOf value = none ∧ binaryPrefix (markerOf raw) = none := by
  obtain ⟨rest, hraw, hkind⟩ := kind_of_encodes h
  obtain ⟨levels, head, body, all, -, hform, hbody, hparts⟩ := encodes_parts h
  cases value with
  | bin bytes =>
    have hbody : body = bytes := by cases hbody; rfl
    refine .inl ⟨bytes, head.length, rfl, ?_, ?_⟩
    · rw [hparts]
      exact binaryPrefix_eq_length hform
    · rw [hparts, List.drop_left, hbody]
  | _ =>
    refine .inr ⟨rfl, Option.not_isSome_iff_eq_none.mp fun hsome => ?_⟩
    rw [(kind_binary_iff _).mpr hsome] at hkind
    cases hkind

/-- The error of a title or of a content that is not binary. -/
def binaryError (title : Bool) (raw : List Byte) : WireError :=
  if title then .invalidTitle (markerOf raw) else .invalidContent (markerOf raw)

/-- A text is parsed from every encoding as its value says. -/
theorem parseBinary_of_encodes (h : Encodes widen depth value raw shortest) (title : Bool) :
    parseBinary raw title = match binaryOf value with
      | some bytes => .ok ⟨bytes, raw.length⟩
      | none => .error (binaryError title raw) := by
  obtain ⟨bytes, headLen, rfl, hmarker, hbytes⟩ | ⟨hnone, hmarker⟩ := binaryPrefix_of_encodes h
  · rw [parseBinary, hmarker]
    dsimp only
    rw [hbytes]
    rfl
  · rw [parseBinary, hmarker, hnone]
    rfl

/-- A stamp of sixteen or thirty-two bytes. -/
def IsStamp (bytes : List Byte) : Prop :=
  bytes.length = ticketLength ∨ bytes.length = powStampLength

/-- A stamp is parsed exactly from a byte string of one of the two lengths. -/
theorem parseStamp_ok_iff (h : Encodes widen depth value raw shortest) {stamp : BinaryView} :
    parseStamp raw = .ok stamp ↔
      ∃ bytes, value = .bin bytes ∧ IsStamp bytes ∧ stamp = ⟨bytes, raw.length⟩ := by
  obtain ⟨bytes, headLen, rfl, hmarker, hbytes⟩ | ⟨hnone, hmarker⟩ := binaryPrefix_of_encodes h
  · rw [parseStamp, hmarker]
    dsimp only
    rw [hbytes]
    split_ifs with hlength
    · exact ⟨fun hok => ⟨bytes, rfl, hlength, (Except.ok.inj hok).symm⟩, by
        rintro ⟨_, ⟨⟩, -, rfl⟩
        rfl⟩
    · exact ⟨nofun, by rintro ⟨_, ⟨⟩, hstamp, -⟩; exact absurd hstamp hlength⟩
  · rw [parseStamp, hmarker]
    refine ⟨nofun, ?_⟩
    rintro ⟨bytes, rfl, -, -⟩
    cases hnone

/-- Fields are parsed exactly from a map. -/
theorem parseFields_ok_iff (h : Encodes widen depth value raw shortest)
    {canonicality : Canonicality} {fields : MessagePackValue} :
    parseFields raw canonicality = .ok fields ↔
      kindOf value.head = .map ∧ fields = ⟨raw, .map, canonicality⟩ := by
  obtain ⟨rest, -, hkind⟩ := kind_of_encodes h
  have hmap : kindOf value.head = .map ↔ (0x80 ≤ (markerOf raw).toNat ∧
      (markerOf raw).toNat ≤ 0x8f) ∨ markerOf raw = 0xde ∨ markerOf raw = 0xdf := by
    rw [← kind_map_iff, hkind, Option.some.injEq]
  rw [hmap, parseFields]
  split_ifs with hmarker
  · rw [and_iff_right hmarker, Except.ok.injEq]
    exact eq_comm
  · exact iff_of_false nofun fun h => hmarker h.1

end Markers

section Header

variable {raw : List Byte} {count headLen : ℕ}

/-- A marker and enough bytes for its argument. -/
theorem exists_tagged {marker k : ℕ} {rest : List Byte} (h : 2 ^ k ≤ rest.length) :
    ∃ n < range k, beNat (rest.take (2 ^ k)) = n ∧
      BitVec.ofNat 8 (marker + k) :: rest = tagged marker k n ++ rest.drop (2 ^ k) := by
  have hlength : (rest.take (2 ^ k)).length = 2 ^ k := by
    rw [List.length_take, Nat.min_eq_left h]
  have hlt := beNat_lt (rest.take (2 ^ k))
  have hbytes := beBytes_beNat (rest.take (2 ^ k))
  rw [hlength] at hlt hbytes
  refine ⟨_, hlt, rfl, ?_⟩
  rw [tagged, hbytes, List.cons_append, List.take_append_drop]

/-- The header of a payload is any head of an array of four or five. -/
theorem payloadHeader_of_form {head rest : List Byte} (h : (Head.array count).Form head)
    (hcount : count = 4 ∨ count = 5) : payloadHeader (head ++ rest) = .ok (count, head.length) := by
  cases h with
  | fixarray => rcases hcount with rfl | rfl <;> rfl
  | @array k n hlow hk hn =>
    have hnumber : beNat (slice (tagged 0xdb k count ++ rest) 1 (2 ^ k)) = count := by
      have hslice : slice (tagged 0xdb k count ++ rest) 1 (2 ^ k) = beBytes (2 ^ k) count := by
        simp [slice, tagged]
      rw [hslice, beNat_beBytes_of_lt hn]
    have hhead : (tagged 0xdb k count ++ rest).head? = some (BitVec.ofNat 8 (0xdb + k)) := rfl
    have hroom : ¬(tagged 0xdb k count ++ rest).length < 2 ^ k + 1 := by simp [tagged]
    rw [length_tagged]
    generalize tagged 0xdb k count ++ rest = raw at hnumber hhead hroom
    interval_cases k
    · unfold payloadHeader
      rw [hhead]
      simp only [Nat.reduceAdd, Nat.reducePow] at hroom hnumber ⊢
      rw [if_neg (by decide), if_neg (by decide), if_pos (by decide), if_neg hroom, hnumber]
    · unfold payloadHeader
      rw [hhead]
      simp only [Nat.reduceAdd, Nat.reducePow] at hroom hnumber ⊢
      rw [if_neg (by decide), if_neg (by decide), if_neg (by decide), if_pos (by decide),
        if_neg hroom, hnumber]

/-- A payload header that is accepted is a head of an array. -/
theorem form_of_payloadHeader (h : payloadHeader raw = .ok (count, headLen)) :
    ∃ head rest, (Head.array count).Form head ∧ raw = head ++ rest ∧ headLen = head.length := by
  cases raw with
  | nil => cases h
  | cons marker rest =>
    unfold payloadHeader at h
    simp only [List.head?_cons] at h
    split_ifs at h with h4 h5 h16 hroom h32 hroom
    · cases h
      exact ⟨[marker], rest, h4 ▸ .fixarray (by decide : 4 < 16), rfl, rfl⟩
    · cases h
      exact ⟨[marker], rest, h5 ▸ .fixarray (by decide : 5 < 16), rfl, rfl⟩
    · obtain ⟨n, hn, hnumber, hraw⟩ := @exists_tagged 0xdb 1 rest
        (by rw [List.length_cons] at hroom; omega)
      cases h
      rw [h16, show slice (0xdc :: rest) 1 2 = rest.take 2 by rfl]
      have hform := Head.Form.array (le_refl 1) (by decide) hn
      exact ⟨_, _, hnumber ▸ hform, hnumber ▸ hraw, by rw [length_tagged]; rfl⟩
    · obtain ⟨n, hn, hnumber, hraw⟩ := @exists_tagged 0xdb 2 rest
        (by rw [List.length_cons] at hroom; omega)
      cases h
      rw [h32, show slice (0xdd :: rest) 1 4 = rest.take 4 by rfl]
      have hform := Head.Form.array (by decide) (le_refl 2) hn
      exact ⟨_, _, hnumber ▸ hform, hnumber ▸ hraw, by rw [length_tagged]; rfl⟩

end Header

section Payload

variable {limits : WireLimits} {raw : List Byte} {widen : BitVec 32 → BitVec 64}
  {timestamp title content fields : EncodedItem} {rest : List EncodedItem} {view : PayloadView}

/-- The view shows the meaning of four items. -/
structure Shows (timestamp title content fields : EncodedItem) (view : PayloadView) : Prop where
  isTimestamp : timestamp.value = .float64 view.timestampBits
  isTitle : title.value = .bin view.title.bytes
  titleLen : view.title.encodedLen = title.raw.length
  isContent : content.value = .bin view.content.bytes
  contentLen : view.content.encodedLen = content.raw.length
  isMap : kindOf fields.value.head = .map
  isFields : view.fields = ⟨fields.raw, .map, .ofBool fields.shortest⟩
  firstFour : view.firstFour = [timestamp.raw, title.raw, content.raw, fields.raw]

/-- The time is parsed exactly from a number of eight bytes. -/
theorem parseTimestamp_ok_iff {item : EncodedItem} {depth : ℕ}
    (h : Encodes widen depth item.value item.raw item.shortest) {bits : BitVec 64} :
    parseTimestamp item.raw = .ok bits ↔ item.value = .float64 bits := by
  rw [parseTimestamp_of_encodes h]
  cases item.value <;> simp [timestampOf]

/-- A text is parsed exactly from a byte string. -/
theorem parseBinary_ok_iff {item : EncodedItem} {depth : ℕ}
    (h : Encodes widen depth item.value item.raw item.shortest) {isTitle : Bool}
    {binary : BinaryView} :
    parseBinary item.raw isTitle = .ok binary ↔
      item.value = .bin binary.bytes ∧ binary.encodedLen = item.raw.length := by
  rw [parseBinary_of_encodes h]
  cases item.value <;> simp [binaryOf, BinaryView.ext_iff, eq_comm]

/-- The items mean what their view shows. -/
theorem parseItems_ok_iff (h : Encoded limits widen
    (timestamp :: title :: content :: fields :: rest)) :
    parseItems raw ((timestamp :: title :: content :: fields :: rest).map EncodedItem.scanned) =
        .ok view ↔
      Shows timestamp title content fields view ∧ view.raw = raw ∧
        parseFifth ((timestamp :: title :: content :: fields :: rest).map EncodedItem.scanned) =
          .ok view.stamp := by
  obtain ⟨htimestamp, h⟩ := List.forall_mem_cons.mp h
  obtain ⟨htitle, h⟩ := List.forall_mem_cons.mp h
  obtain ⟨hcontent, h⟩ := List.forall_mem_cons.mp h
  obtain ⟨hfields, -⟩ := List.forall_mem_cons.mp h
  constructor
  · intro hparse
    obtain ⟨bits, hbits, hparse⟩ := bind_ok.mp hparse
    obtain ⟨titleView, htitleView, hparse⟩ := bind_ok.mp hparse
    obtain ⟨contentView, hcontentView, hparse⟩ := bind_ok.mp hparse
    obtain ⟨fieldsView, hfieldsView, hparse⟩ := bind_ok.mp hparse
    obtain ⟨stamp, hstamp, hparse⟩ := bind_ok.mp hparse
    cases hparse
    obtain ⟨htitleValue, htitleLen⟩ := (parseBinary_ok_iff htitle).mp htitleView
    obtain ⟨hcontentValue, hcontentLen⟩ := (parseBinary_ok_iff hcontent).mp hcontentView
    obtain ⟨hmap, hfieldsEq⟩ := (parseFields_ok_iff hfields).mp hfieldsView
    exact ⟨⟨(parseTimestamp_ok_iff htimestamp).mp hbits, htitleValue, htitleLen, hcontentValue,
      hcontentLen, hmap, hfieldsEq, rfl⟩, rfl, hstamp⟩
  · rintro ⟨hshows, rfl, hstamp⟩
    have hbits := (parseTimestamp_ok_iff htimestamp).mpr hshows.isTimestamp
    have htitleView := (@parseBinary_ok_iff _ _ _ htitle true _).mpr
      ⟨hshows.isTitle, hshows.titleLen⟩
    have hcontentView := (@parseBinary_ok_iff _ _ _ hcontent false _).mpr
      ⟨hshows.isContent, hshows.contentLen⟩
    have hfieldsView := (@parseFields_ok_iff _ _ _ _ _ hfields (.ofBool fields.shortest) _).mpr
      ⟨hshows.isMap, hshows.isFields⟩
    refine bind_ok.mpr ⟨_, hbits, bind_ok.mpr ⟨_, htitleView, bind_ok.mpr ⟨_, hcontentView,
      bind_ok.mpr ⟨_, hfieldsView, bind_ok.mpr ⟨_, hstamp, ?_⟩⟩⟩⟩⟩
    exact congrArg Except.ok (PayloadView.ext rfl hshows.firstFour.symm rfl rfl rfl rfl rfl)

/-- A payload of four items has no stamp. -/
theorem parseFifth_four {stamp : Option BinaryView} :
    parseFifth ([timestamp, title, content, fields].map EncodedItem.scanned) = .ok stamp ↔
      stamp = none := by
  have hnone : parseFifth ([timestamp, title, content, fields].map EncodedItem.scanned) =
      .ok none := rfl
  rw [hnone, Except.ok.injEq, eq_comm]

/-- The fifth item of a payload is parsed as its stamp. -/
theorem parseFifth_five {fifth : EncodedItem} {depth : ℕ}
    (h : Encodes widen depth fifth.value fifth.raw fifth.shortest) {stamp : Option BinaryView} :
    parseFifth ([timestamp, title, content, fields, fifth].map EncodedItem.scanned) = .ok stamp ↔
      (∀ item ∈ [timestamp, title, content, fields], item.shortest = true) ∧
        ∃ bytes, fifth.value = .bin bytes ∧ IsStamp bytes ∧
          stamp = some ⟨bytes, fifth.raw.length⟩ := by
  have hall : ((([timestamp, title, content, fields, fifth].map EncodedItem.scanned).take 4).all
      fun item => item.2 = .canonical) = true ↔
        ∀ item ∈ [timestamp, title, content, fields], item.shortest = true := by
    have hcanonical : ∀ item : EncodedItem,
        Canonicality.ofBool item.shortest = .canonical ↔ item.shortest = true := by
      rintro ⟨_, _, _ | _⟩ <;> simp [Canonicality.ofBool]
    simp [EncodedItem.scanned, hcanonical]
  have hfifth : parseFifth ([timestamp, title, content, fields, fifth].map EncodedItem.scanned) =
      if (([timestamp, title, content, fields, fifth].map EncodedItem.scanned).take 4).all
        fun item => item.2 = .canonical then (parseStamp fifth.raw).map some
      else .error .nonCanonicalStampedPayload := rfl
  rw [hfifth, ← hall]
  by_cases hcanonical : ((([timestamp, title, content, fields, fifth].map
      EncodedItem.scanned).take 4).all fun item => item.2 = .canonical) = true
  · rw [if_pos hcanonical, and_iff_right hcanonical]
    constructor
    · intro hstamp
      obtain ⟨binary, hbinary, rfl⟩ := Except.map_eq_ok.mp hstamp
      obtain ⟨bytes, hvalue, hlength, rfl⟩ := (parseStamp_ok_iff h).mp hbinary
      exact ⟨bytes, hvalue, hlength, rfl⟩
    · rintro ⟨bytes, hvalue, hlength, rfl⟩
      exact Except.map_eq_ok.mpr ⟨_, (parseStamp_ok_iff h).mpr ⟨bytes, hvalue, hlength, rfl⟩, rfl⟩
  · rw [if_neg hcanonical]
    refine iff_of_false (fun h => ?_) fun h => hcanonical h.1
    cases h

/-- The bytes are an array of encoded items, and the limits afford them. -/
structure LaidOut (limits : WireLimits) (widen : BitVec 32 → BitVec 64) (raw head : List Byte)
    (items : List EncodedItem) : Prop where
  form : (Head.array items.length).Form head
  raw_eq : raw = head ++ flatItems items
  encoded : Encoded limits widen items
  affords : Scanner.new.Affords limits (payloadCost items)

/-- A payload is parsed exactly where its bytes lay out four or five items that are parsed. -/
theorem parsePayload_ok_iff :
    parsePayload limits raw = .ok view ↔
      ∃ head items, (items.length = 4 ∨ items.length = 5) ∧ LaidOut limits widen raw head items ∧
        parseItems raw (items.map EncodedItem.scanned) = .ok view := by
  constructor
  · intro h
    obtain ⟨⟨count, headLen⟩, hheader, h⟩ := bind_ok.mp h
    dsimp only at h
    split_ifs at h with hcount
    obtain ⟨scanner, hnoted, hitems⟩ := bind_ok.mp h
    obtain ⟨⟨-, hcontainer⟩, rfl⟩ := (guarded_noteContainer count).of_ok hnoted
    obtain ⟨⟨scanned, cursor⟩, hscanned, hparse⟩ := bind_ok.mp hitems
    obtain ⟨items, rfl, hencoded, hraw, hroom, hresult⟩ :=
      (@scanPayloadItems_ok_iff _ _ widen _ _ _ _).mp hscanned
    obtain ⟨rfl, rfl⟩ := Prod.mk.inj hresult
    dsimp only at hparse
    split_ifs at hparse with hend
    obtain ⟨head, rest, hform, rfl, rfl⟩ := form_of_payloadHeader hheader
    have hrest : flatItems items = rest := by
      rw [Occurs, List.drop_left] at hraw
      refine hraw.eq_of_length ?_
      rw [not_not, List.length_append] at hend
      omega
    exact ⟨head, items, by omega, ⟨hform, by rw [hrest], hencoded,
      Scanner.affords_add.mpr ⟨hcontainer, hroom⟩⟩, hparse⟩
  · rintro ⟨head, items, hcount, ⟨hform, rfl, hitems, haffords⟩, h⟩
    obtain ⟨hcontainer, hroom⟩ := Scanner.affords_add.mp haffords
    have hlevels : 1 ≤ effectiveMaximum limits := by
      obtain ⟨item, hitem⟩ := List.exists_mem_of_length_pos (l := items) (by omega)
      by_contra hzero
      have hencodes := hitems item hitem
      rw [show effectiveMaximum limits - 1 = 0 by omega] at hencodes
      exact hencodes
    have hnoted := (guarded_noteContainer items.length).ok ⟨hlevels, hcontainer⟩
    have hscanned := (@scanPayloadItems_ok_iff limits (head ++ flatItems items) widen _ head.length
      (Scanner.new.spend (.visit + (.value + .container items.length))) _).mpr
      ⟨items, rfl, hitems, by simp [Occurs], hroom, rfl⟩
    refine bind_ok.mpr ⟨_, payloadHeader_of_form hform hcount, ?_⟩
    dsimp only
    rw [if_neg (by omega)]
    refine bind_ok.mpr ⟨_, hnoted, bind_ok.mpr ⟨_, hscanned, ?_⟩⟩
    dsimp only
    rw [if_neg (by simp), h]

/-- Four items that a view shows are its payload. -/
theorem LaidOut.parse_four {head : List Byte}
    (h : LaidOut limits widen raw head [timestamp, title, content, fields])
    (hshows : Shows timestamp title content fields view) (hraw : view.raw = raw)
    (hstamp : view.stamp = none) : parsePayload limits raw = .ok view := by
  refine parsePayload_ok_iff.mpr ⟨head, _, .inl rfl, h, ?_⟩
  exact (parseItems_ok_iff h.encoded).mpr ⟨hshows, hraw, parseFifth_four.mpr hstamp⟩

/-- The items of an accepted payload. -/
theorem parsePayload_cases (widen : BitVec 32 → BitVec 64)
    (h : parsePayload limits raw = .ok view) :
    ∃ head timestamp title content fields, Shows timestamp title content fields view ∧
      view.raw = raw ∧
      ((LaidOut limits widen raw head [timestamp, title, content, fields] ∧ view.stamp = none) ∨
        ∃ fifth bytes, LaidOut limits widen raw head [timestamp, title, content, fields, fifth] ∧
          (∀ item ∈ [timestamp, title, content, fields], item.shortest = true) ∧
          fifth.value = .bin bytes ∧ IsStamp bytes ∧
          view.stamp = some ⟨bytes, fifth.raw.length⟩) := by
  obtain ⟨head, items, hcount, hlaid, hparse⟩ := (@parsePayload_ok_iff _ _ widen _).mp h
  match items, hcount with
  | [timestamp, title, content, fields], _ =>
    obtain ⟨hshows, hraw, hfifth⟩ := (parseItems_ok_iff hlaid.encoded).mp hparse
    exact ⟨head, _, _, _, _, hshows, hraw, .inl ⟨hlaid, parseFifth_four.mp hfifth⟩⟩
  | [timestamp, title, content, fields, fifth], _ =>
    obtain ⟨hshows, hraw, hfifth⟩ := (parseItems_ok_iff hlaid.encoded).mp hparse
    have hencodes := hlaid.encoded fifth (by simp)
    obtain ⟨hshortest, bytes, hvalue, hlength, hstamp⟩ := (parseFifth_five hencodes).mp hfifth
    exact ⟨head, _, _, _, _, hshows, hraw,
      .inr ⟨fifth, bytes, hlaid, hshortest, hvalue, hlength, hstamp⟩⟩

end Payload

end Lxmf
