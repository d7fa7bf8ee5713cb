import ReticulumFirmware.Lxmf.Compose
import ReticulumFirmware.Lxmf.Ingress

/-!
# What is composed is parsed

The composer lays out the bytes of a message, its identifier and the input of its signature by
hand, and the parser derives each of them again.
-/

namespace Lxmf

open Nor MessagePack Codec

/-- What a composition leaves: its result, the buffer of the caller, and what the signer was asked
to sign. -/
structure Composition where
  result : Except BasicLxmfComposeError PreparedBasicLxmf
  output : List Byte
  handed : Option (List Byte)

section Composition

variable (sha256 : Sha256) (signLxmf : List Byte → Vector Byte 64)
  (unixSeconds : ℕ → BitVec 64) (destination source : Vector Byte 16) (timestampUnixMs : ℕ)
  (title content : List Byte) (fields : Option (List Byte)) (runtimeCarrierLimit : ℕ)
  (output : List Byte)

/-- The checks before the buffer is written, and the payload behind the room for its prefix. -/
def prepareScratch : Except BasicLxmfComposeError (List Byte) :=
  if timestampUnixMs = 0 then .error .invalidTimestamp
  else if maxLxmfTimestampUnixMs < timestampUnixMs then
    .error (.timestampTooLarge timestampUnixMs maxLxmfTimestampUnixMs)
  else
    let fields := fields.getD [0x80]
    (validateFields fields).bind fun _ =>
    if !basicLxmfPayloadFitsContentLimit title.length content.length fields.length
        pythonOpportunisticContentBytes then .error .pythonOpportunisticLimit
    else
      (pushPayload unixSeconds timestampUnixMs title content fields).bind fun scratch =>
      let carrierLen := scratch.length - destinationHashLength
      if runtimeCarrierLimit < carrierLen then
        .error (.runtimeCarrierLimit carrierLen runtimeCarrierLimit)
      else if output.length < scratch.length then
        .error (.outputTooSmall scratch.length output.length)
      else .ok scratch

/-- The composer with its effects. The message is copied before its lengths are converted. -/
def runComposer : Composition :=
  match prepareScratch unixSeconds timestampUnixMs title content fields runtimeCarrierLimit
    output with
  | .error error => ⟨.error error, output, none⟩
  | .ok scratch =>
    let payload := scratch.drop completeWirePrefixBytes
    let carrierLen := scratch.length - destinationHashLength
    let messageId := sha256 (destination.toList ++ source.toList ++ payload)
    match signatureInput destination source payload messageId with
    | .error error => ⟨.error error, output, none⟩
    | .ok input =>
      let wire := destination.toList ++ source.toList ++ (signLxmf input).toList ++ payload
      { result := if 65535 < scratch.length ∨ 65535 < carrierLen then .error .messageTooLarge
          else .ok ⟨scratch.length, carrierLen, messageId⟩
        output := wire ++ output.drop wire.length
        handed := some input }

/-- The composer prepares the scratch buffer and then finishes the message. -/
theorem compose_eq_bind :
    composeBasicOpportunisticLxmf sha256 signLxmf unixSeconds destination source timestampUnixMs
        title content fields runtimeCarrierLimit output =
      (prepareScratch unixSeconds timestampUnixMs title content fields runtimeCarrierLimit
        output).bind fun scratch => finishMessage sha256 signLxmf destination source scratch output
          (scratch.length - destinationHashLength) := by
  unfold composeBasicOpportunisticLxmf prepareScratch
  dsimp only
  cases validateFields (fields.getD [0x80]) with
  | error error =>
    dsimp only [Except.bind]
    split_ifs <;> rfl
  | ok =>
    dsimp only [Except.bind]
    cases pushPayload unixSeconds timestampUnixMs title content (fields.getD [0x80]) with
    | error error =>
      dsimp only
      split_ifs <;> rfl
    | ok scratch =>
      dsimp only
      split_ifs <;> rfl

/-- The composer without its effects returns the same. -/
theorem composeBasicOpportunisticLxmf_eq :
    composeBasicOpportunisticLxmf sha256 signLxmf unixSeconds destination source timestampUnixMs
        title content fields runtimeCarrierLimit output =
      (runComposer sha256 signLxmf unixSeconds destination source timestampUnixMs title content
        fields runtimeCarrierLimit output).result.map fun prepared => (prepared,
      (runComposer sha256 signLxmf unixSeconds destination source timestampUnixMs title content
        fields runtimeCarrierLimit output).output) := by
  rw [compose_eq_bind]
  unfold runComposer
  cases prepareScratch unixSeconds timestampUnixMs title content fields runtimeCarrierLimit
    output with
  | error error => rfl
  | ok scratch =>
    dsimp only [Except.bind]
    unfold finishMessage
    dsimp only
    cases signatureInput destination source (scratch.drop completeWirePrefixBytes)
      (sha256 (destination.toList ++ source.toList ++ scratch.drop completeWirePrefixBytes)) with
    | error error => rfl
    | ok input =>
      rw [ok_bind]
      split_ifs <;> rfl

end Composition

section Layout

/-- Appended bytes are behind the others, within the bound. -/
theorem pushBytes_inv {written value result : List Byte}
    (h : pushBytes written value = .ok result) :
    result = written ++ value ∧ result.length ≤ maxBasicLxmfWireBytes := by
  unfold pushBytes at h
  split_ifs at h with hroom
  cases h
  exact ⟨rfl, by rw [List.length_append]; omega⟩

/-- A binary value is written behind its shortest head. -/
theorem pushBinary_inv {written value result : List Byte}
    (h : pushBinary written value = .ok result) :
    ∃ head, (Head.bin value.length).Form head ∧ result = written ++ (head ++ value) := by
  have hpush : ∀ {head : List Byte},
      (pushBytes written head).bind (pushBytes · value) = .ok result →
        result = written ++ (head ++ value) := by
    intro head hbind
    obtain ⟨middle, hmiddle, hresult⟩ := bind_ok.mp hbind
    rw [(pushBytes_inv hresult).1, (pushBytes_inv hmiddle).1, List.append_assoc]
  unfold pushBinary at h
  split_ifs at h with h8 h16 h32
  · refine ⟨tagged 0xc4 0 value.length, .bin (by decide) (by norm_num; omega), ?_⟩
    rw [hpush h]
    rfl
  · exact ⟨tagged 0xc4 1 value.length, .bin (by decide) (by norm_num; omega), hpush h⟩
  · exact ⟨tagged 0xc4 2 value.length, .bin (by decide) (by norm_num; omega), hpush h⟩

/-- A head of a byte string and its bytes encode it. -/
theorem encodes_binary {widen : BitVec 32 → BitVec 64} (depth : ℕ) {head bytes : List Byte}
    (h : (Head.bin bytes.length).Form head) :
    ∃ shortest, Encodes widen (depth + 1) (.bin bytes) (head ++ bytes) shortest :=
  ⟨_, head, bytes, true, h, .bin bytes, rfl, rfl⟩

/-- A number of eight bytes is encoded behind its marker. -/
theorem encodes_float64 {widen : BitVec 32 → BitVec 64} (depth : ℕ) (bits : BitVec 64) :
    Encodes widen (depth + 1) (.float64 bits) (0xcb :: beBytes 8 bits.toNat) true :=
  ⟨_, [], true, .float64 bits, .float64 bits, (List.append_nil _).symm, by simp [Value.head,
    Head.shortest]⟩

/-- An appended payload is four items: the time, two byte strings and the fields. -/
theorem pushPayload_inv {unixSeconds : ℕ → BitVec 64} {timestampUnixMs : ℕ}
    {title content fields scratch : List Byte}
    (h : pushPayload unixSeconds timestampUnixMs title content fields = .ok scratch) :
    ∃ titleHead contentHead, (Head.bin title.length).Form titleHead ∧
      (Head.bin content.length).Form contentHead ∧
      scratch = List.replicate completeWirePrefixBytes 0 ++ ([payloadArray4] ++
        ((msgpackF64 :: beBytes 8 (unixSeconds timestampUnixMs).toNat) ++
          ((titleHead ++ title) ++ ((contentHead ++ content) ++ fields)))) ∧
      scratch.length ≤ maxBasicLxmfWireBytes := by
  obtain ⟨afterHead, hafterHead, h⟩ := bind_ok.mp h
  obtain ⟨afterMarker, hafterMarker, h⟩ := bind_ok.mp h
  obtain ⟨afterTime, hafterTime, h⟩ := bind_ok.mp h
  obtain ⟨afterTitle, hafterTitle, h⟩ := bind_ok.mp h
  obtain ⟨afterContent, hafterContent, hscratch⟩ := bind_ok.mp h
  obtain ⟨titleHead, htitle, rfl⟩ := pushBinary_inv hafterTitle
  obtain ⟨contentHead, hcontent, rfl⟩ := pushBinary_inv hafterContent
  obtain ⟨rfl, -⟩ := pushBytes_inv hafterHead
  obtain ⟨rfl, -⟩ := pushBytes_inv hafterMarker
  obtain ⟨rfl, -⟩ := pushBytes_inv hafterTime
  obtain ⟨rfl, hlength⟩ := pushBytes_inv hscratch
  refine ⟨titleHead, contentHead, htitle, hcontent, ?_, hlength⟩
  simp [List.append_assoc]

/-- A prepared scratch buffer holds a prefix and the payload, within the carrier limit. -/
theorem prepareScratch_inv {unixSeconds : ℕ → BitVec 64} {timestampUnixMs : ℕ}
    {title content : List Byte} {fields : Option (List Byte)} {runtimeCarrierLimit : ℕ}
    {output scratch : List Byte}
    (h : prepareScratch unixSeconds timestampUnixMs title content fields runtimeCarrierLimit
      output = .ok scratch) :
    validateFields (fields.getD [0x80]) = .ok () ∧
      pushPayload unixSeconds timestampUnixMs title content (fields.getD [0x80]) = .ok scratch ∧
      scratch.length ≤ output.length ∧
      scratch.length - destinationHashLength ≤ runtimeCarrierLimit := by
  unfold prepareScratch at h
  split_ifs at h
  obtain ⟨⟨⟩, hvalid, hchecked⟩ := bind_ok.mp h
  split_ifs at hchecked
  obtain ⟨pushed, hpushed, hroom⟩ := bind_ok.mp hchecked
  dsimp only at hroom
  split_ifs at hroom with hcarrier hfits
  cases hroom
  exact ⟨hvalid, hpushed, by omega, by omega⟩

/-- The fields of a composed message are a map that costs at most sixteen steps for each byte. -/
theorem validateFields_inv (widen : BitVec 32 → BitVec 64) {fields : List Byte}
    (h : validateFields fields = .ok ()) :
    ∃ value, Encodes widen 16 value fields true ∧ kindOf value.head = .map ∧
      (costOf value).visits ≤ max (fields.length * 16) 32 := by
  have hvalid : ∃ scanned, validateMessagepackValue (fieldsLimits fields) fields = .ok scanned ∧
      scanned.kind = .map ∧ scanned.canonicality = .canonical := by
    unfold validateFields at h
    split at h
    · cases h
    · split_ifs at h with hmap
      exact ⟨_, ‹_›, by tauto, by tauto⟩
  obtain ⟨scanned, hscanned, hmap, hcanonical⟩ := hvalid
  obtain ⟨value, shortest, hencodes, haffords, rfl⟩ := (@validate_ok_iff _ _ widen _).mp hscanned
  cases shortest with
  | false => cases hcanonical
  | true => exact ⟨value, hencodes, hmap, (affords_fieldsLimits hencodes).mp haffords.2⟩

end Layout

section Parsing

variable {limits : WireLimits} {sha256 : Sha256} {signLxmf : List Byte → Vector Byte 64}
  {unixSeconds : ℕ → BitVec 64} {destination source : Vector Byte 16} {timestampUnixMs : ℕ}
  {title content encodedFields scratch output : List Byte} {fields : Option (List Byte)}
  {runtimeCarrierLimit : ℕ}

/-- The limits have room for the largest composed message. -/
structure LeavesRoom (limits : WireLimits) : Prop where
  wireBytes : maxBasicLxmfWireBytes ≤ limits.maxWireBytes
  valueBytes : maxBasicLxmfWireBytes ≤ limits.maxValueBytes
  containerItems : maxBasicLxmfWireBytes ≤ limits.maxContainerItems
  totalValues : maxBasicLxmfWireBytes ≤ limits.maxTotalValues
  scanSteps : 16 * maxBasicLxmfWireBytes ≤ limits.maxScanSteps
  nestingDepth : 18 ≤ limits.maxNestingDepth

/-- The items of a payload without a stamp. -/
structure PayloadShows (timestampBits : BitVec 64) (title content fields : List Byte)
    (view : PayloadView) : Prop where
  timestampBits : view.timestampBits = timestampBits
  title : view.title.bytes = title
  content : view.content.bytes = content
  fields : view.fields = ⟨fields, .map, .canonical⟩
  stamp : view.stamp = none

/-- Limits with room for a message allow its nesting. -/
theorem LeavesRoom.maximum (h : LeavesRoom limits) : 18 ≤ effectiveMaximum limits :=
  le_min h.nestingDepth (by decide)

/-- Items cost the first one and the others. -/
theorem itemsCost_cons (item : EncodedItem) (items : List EncodedItem) :
    itemsCost (item :: items) = costOf item.value + itemsCost items := by
  rw [itemsCost, List.map_cons, List.sum_cons]
  rfl

/-- Encoded items cost no more than their bytes. -/
theorem itemsCost_within {widen : BitVec 32 → BitVec 64} {depth : ℕ} {items : List EncodedItem}
    (hencoded : ∀ item ∈ items, Encodes widen depth item.value item.raw item.shortest) :
    (itemsCost items).Within (flatItems items).length := by
  induction items with
  | nil => exact ⟨le_rfl, le_rfl, le_rfl⟩
  | cons item items ih =>
    obtain ⟨hitem, hitems⟩ := List.forall_mem_cons.mp hencoded
    have hrest := ih hitems
    have hfirst := (costOf_within hitem).2
    rw [itemsCost_cons, flatItems_cons, List.length_append]
    refine ⟨Nat.add_le_add hfirst.values hrest.values, ?_, ?_⟩
    · exact (max_le_max hfirst.items hrest.items).trans (max_le_add_of_nonneg (by omega) (by omega))
    · exact (max_le_max hfirst.bytes hrest.bytes).trans (max_le_add_of_nonneg (by omega) (by omega))

/-- Four items with the scan steps of composed fields are afforded. -/
theorem LeavesRoom.affords (h : LeavesRoom limits) {widen : BitVec 32 → BitVec 64} {depth : ℕ}
    {items : List EncodedItem} (hcount : items.length = 4)
    (hencoded : ∀ item ∈ items, Encodes widen depth item.value item.raw item.shortest)
    (hlength : (flatItems items).length + 97 ≤ maxBasicLxmfWireBytes)
    (hvisits : (itemsCost items).visits + 1 ≤ limits.maxScanSteps) :
    Scanner.new.Affords limits (payloadCost items) := by
  have hwithin := itemsCost_within hencoded
  have hvalues := hwithin.values
  have hitems := hwithin.items
  have hbytes := hwithin.bytes
  have hroomValues := h.totalValues
  have hroomItems := h.containerItems
  have hroomBytes := h.valueBytes
  simp only [maxBasicLxmfWireBytes] at *
  simp only [Scanner.Affords, Scanner.new, payloadCost, Cost.values_add, Cost.visits_add,
    Cost.items_add, Cost.bytes_add, Cost.visit, Cost.value, Cost.container, hcount]
  omega

/-- A payload that was laid out is parsed to what was laid out. -/
theorem parse_pushPayload (hroom : LeavesRoom limits)
    (hvalid : validateFields encodedFields = .ok ())
    (hpush : pushPayload unixSeconds timestampUnixMs title content encodedFields = .ok scratch) :
    ∃ view, parsePayload limits (scratch.drop completeWirePrefixBytes) = .ok view ∧
      view.raw = scratch.drop completeWirePrefixBytes ∧
      PayloadShows (unixSeconds timestampUnixMs) title content encodedFields view := by
  obtain ⟨titleHead, contentHead, htitle, hcontent, hscratch, hlength⟩ := pushPayload_inv hpush
  obtain ⟨value, hfields, hmap, hvisits⟩ := validateFields_inv (fun _ => 0) hvalid
  obtain ⟨depth, hdepth⟩ := Nat.exists_eq_add_of_le hroom.maximum
  have hinside : effectiveMaximum limits - 1 = 16 + depth + 1 := by omega
  obtain ⟨titleShortest, htitle⟩ := @encodes_binary (fun _ => 0) (16 + depth) _ title htitle
  obtain ⟨contentShortest, hcontent⟩ := @encodes_binary (fun _ => 0) (16 + depth) _ content hcontent
  let items : List EncodedItem := [
    ⟨.float64 (unixSeconds timestampUnixMs),
      msgpackF64 :: beBytes 8 (unixSeconds timestampUnixMs).toNat, true⟩,
    ⟨.bin title, titleHead ++ title, titleShortest⟩,
    ⟨.bin content, contentHead ++ content, contentShortest⟩, ⟨value, encodedFields, true⟩]
  have hflat : flatItems items = (msgpackF64 :: beBytes 8 (unixSeconds timestampUnixMs).toNat) ++
      ((titleHead ++ title) ++ ((contentHead ++ content) ++ encodedFields)) := by
    simp [items, flatItems]
  rw [← hflat] at hscratch
  have hdrop : scratch.drop completeWirePrefixBytes = [payloadArray4] ++ flatItems items := by
    rw [hscratch, List.drop_left' List.length_replicate]
  have htotal : (flatItems items).length + 97 ≤ maxBasicLxmfWireBytes := by
    rw [hscratch, List.length_append, List.length_append, List.length_replicate] at hlength
    simp only [completeWirePrefixBytes, List.length_singleton] at hlength
    omega
  have hencoded : ∀ item ∈ items,
      Encodes (fun _ => 0) (16 + depth + 1) item.value item.raw item.shortest := by
    simp only [items, List.forall_mem_cons]
    exact ⟨encodes_float64 _ _, htitle, hcontent, hfields.mono (by omega), fun _ h => by cases h⟩
  have hsteps : (itemsCost items).visits + 1 ≤ limits.maxScanSteps := by
    have hcost : (itemsCost items).visits = 3 + (costOf value).visits := by
      have hscalar : ∀ bits, (costOf (.float64 bits)).visits = 1 := fun _ => rfl
      have hbinary : ∀ bytes, (costOf (.bin bytes)).visits = 1 := fun _ => rfl
      have hnone : (itemsCost []).visits = 0 := rfl
      simp only [items, itemsCost_cons, Cost.visits_add, hscalar, hbinary, hnone]
      omega
    have hfieldsLength : encodedFields.length ≤ (flatItems items).length := by
      simp [hflat]
      omega
    have hscanSteps := hroom.scanSteps
    simp only [maxBasicLxmfWireBytes] at htotal hscanSteps
    omega
  refine ⟨{
    raw := scratch.drop completeWirePrefixBytes
    firstFour := items.map EncodedItem.raw
    timestampBits := unixSeconds timestampUnixMs
    title := ⟨title, (titleHead ++ title).length⟩
    content := ⟨content, (contentHead ++ content).length⟩
    fields := ⟨encodedFields, .map, .canonical⟩
    stamp := none }, ?_, rfl, rfl, rfl, rfl, rfl, rfl⟩
  have hlaid : LaidOut limits (fun _ => 0) (scratch.drop completeWirePrefixBytes) [payloadArray4]
      items :=
    ⟨.fixarray (by decide : 4 < 16), hdrop, by rw [Encoded, hinside]; exact hencoded,
      hroom.affords rfl hencoded htotal hsteps⟩
  exact hlaid.parse_four ⟨rfl, rfl, rfl, rfl, rfl, hmap, rfl, rfl⟩ rfl rfl

/-- The bytes that are signed are the addresses, the payload and the identifier. -/
theorem signatureInput_inv {payload input : List Byte} {messageId : Vector Byte 32}
    (h : signatureInput destination source payload messageId = .ok input) :
    input = destination.toList ++ source.toList ++ payload ++ messageId.toList := by
  obtain ⟨afterDestination, hafterDestination, h⟩ := bind_ok.mp h
  obtain ⟨afterSource, hafterSource, h⟩ := bind_ok.mp h
  obtain ⟨afterPayload, hafterPayload, hinput⟩ := bind_ok.mp h
  obtain ⟨rfl, -⟩ := pushBytes_inv hafterDestination
  obtain ⟨rfl, -⟩ := pushBytes_inv hafterSource
  obtain ⟨rfl, -⟩ := pushBytes_inv hafterPayload
  obtain ⟨rfl, -⟩ := pushBytes_inv hinput
  rw [List.nil_append]

/-- A field in the middle of some bytes. -/
theorem fixedField_middle {n : ℕ} (front : List Byte) (field : Vector Byte n) (rest : List Byte) :
    fixedField n front.length (front ++ (field.toList ++ rest)) = field := by
  refine Vector.ext fun i hi => ?_
  have hlength : i < field.toList.length := by
    rw [Vector.length_toList]
    exact hi
  simp [fixedField, List.getElem?_append_right, List.getElem?_append_left hlength, hi]

/-- A message as it was composed. -/
structure Renders (sha256 : Sha256) (destination source : Vector Byte 16)
    (signature : Vector Byte 64) (timestampBits : BitVec 64) (title content fields : List Byte)
    (messageId : Vector Byte 32) (input : List Byte) (view : MessageView) : Prop where
  destination : view.destinationHash = destination
  source : view.sourceHash = source
  signature : view.signature = signature
  payload : PayloadShows timestampBits title content fields view.payload
  messageId : view.messageId sha256 = messageId
  signatureInput : view.signatureInput sha256 = input

/-- A view with the composed parts renders the message. -/
theorem renders_of {message : MessageView} {signature : Vector Byte 64} {timestampBits : BitVec 64}
    (hdestination : message.destinationHash = destination) (hsource : message.sourceHash = source)
    (hsignature : message.signature = signature)
    (hshows : PayloadShows timestampBits title content encodedFields message.payload) :
    Renders sha256 destination source signature timestampBits title content encodedFields
      (sha256 (destination.toList ++ source.toList ++ message.payload.raw))
      (destination.toList ++ source.toList ++ message.payload.raw ++
        (sha256 (destination.toList ++ source.toList ++ message.payload.raw)).toList) message := by
  have hauthenticated : message.authenticated =
      destination.toList ++ source.toList ++ message.payload.raw := by
    rw [MessageView.authenticated, PayloadView.stampless, hshows.stamp, hdestination, hsource]
    rfl
  refine ⟨hdestination, hsource, hsignature, hshows, ?_, ?_⟩
  · rw [MessageView.messageId_eq, hauthenticated]
  · rw [MessageView.signatureInput, MessageView.messageId_eq, hauthenticated]

/-- The message with a body whose payload is parsed. -/
theorem parsesBody_of_payload {body : List Byte} {view : PayloadView}
    (hlength : opportunisticHeaderLength + 1 ≤ body.length)
    (hlimit : body.length + destinationHashLength ≤ limits.maxWireBytes)
    (hpayload : parsePayload limits (body.drop opportunisticHeaderLength) = .ok view)
    (kind : CarrierProvenance) (bound : Bool) :
    ∃ message, ParsesBody limits destination body kind bound message ∧
      message.destinationHash = destination ∧ message.sourceHash = fixedField 16 0 body ∧
      message.signature = fixedField 64 16 body ∧ message.payload = view :=
  ⟨_, parsesBody_iff.mpr ⟨hlength, hlimit, view, hpayload, rfl⟩, rfl, rfl, rfl, rfl⟩

/-- The body behind the destination of a composed message is parsed in every form. -/
theorem parsesBody_composed (hroom : LeavesRoom limits) {view : PayloadView}
    (hpayload : parsePayload limits view.raw = .ok view) {timestampBits : BitVec 64}
    (hshows : PayloadShows timestampBits title content encodedFields view)
    (hpos : 0 < view.raw.length)
    (hlength : view.raw.length + completeWirePrefixBytes ≤ maxBasicLxmfWireBytes)
    (signature : Vector Byte 64) (kind : CarrierProvenance) (bound : Bool) :
    ∃ message, ParsesBody limits destination
        (source.toList ++ (signature.toList ++ view.raw)) kind bound message ∧
      Renders sha256 destination source signature timestampBits title content encodedFields
        (sha256 (destination.toList ++ source.toList ++ view.raw))
        (destination.toList ++ source.toList ++ view.raw ++
          (sha256 (destination.toList ++ source.toList ++ view.raw)).toList) message := by
  have hbody : (source.toList ++ (signature.toList ++ view.raw)).length =
      opportunisticHeaderLength + view.raw.length := by
    simp only [List.length_append, Vector.length_toList, opportunisticHeaderLength]
    omega
  have hdrop : (source.toList ++ (signature.toList ++ view.raw)).drop opportunisticHeaderLength =
      view.raw := by
    rw [← List.append_assoc]
    exact List.drop_left' (by simp)
  have hsource : fixedField 16 0 (source.toList ++ (signature.toList ++ view.raw)) = source :=
    fixedField_append source _
  have hsignature : fixedField 64 16 (source.toList ++ (signature.toList ++ view.raw)) =
      signature := by
    have hmiddle := fixedField_middle source.toList signature view.raw
    rwa [Vector.length_toList] at hmiddle
  have hlimit : (source.toList ++ (signature.toList ++ view.raw)).length + destinationHashLength ≤
      limits.maxWireBytes := by
    have hwireBytes := hroom.wireBytes
    rw [hbody]
    simp only [completeWirePrefixBytes, maxBasicLxmfWireBytes, opportunisticHeaderLength,
      destinationHashLength] at *
    omega
  obtain ⟨message, hparses, hdestination, hsource', hsignature', hview⟩ := @parsesBody_of_payload
    limits destination _ view (hbody.ge.trans' (Nat.add_le_add_left hpos _)) hlimit
    (by rw [hdrop, hpayload]) kind bound
  subst hview
  exact ⟨message, hparses, renders_of hdestination (hsource'.trans hsource)
    (hsignature'.trans hsignature) hshows⟩

/-- What a composition comes to: a failure that leaves the buffer, or a signed message in it. -/
inductive ComposeEnd (sha256 : Sha256) (signLxmf : List Byte → Vector Byte 64)
    (unixSeconds : ℕ → BitVec 64) (destination source : Vector Byte 16) (timestampUnixMs : ℕ)
    (title content : List Byte) (fields : Option (List Byte)) (runtimeCarrierLimit : ℕ)
    (output : List Byte) : Composition → Prop
  | failed (error : BasicLxmfComposeError) :
      ComposeEnd sha256 signLxmf unixSeconds destination source timestampUnixMs title content fields
        runtimeCarrierLimit output ⟨.error error, output, none⟩
  | composed {scratch payload input : List Byte}
      (hprepare : prepareScratch unixSeconds timestampUnixMs title content fields
        runtimeCarrierLimit output = .ok scratch)
      (hpayload : scratch.drop completeWirePrefixBytes = payload)
      (hinput : signatureInput destination source payload
        (sha256 (destination.toList ++ source.toList ++ payload)) = .ok input) :
      ComposeEnd sha256 signLxmf unixSeconds destination source timestampUnixMs title content fields
        runtimeCarrierLimit output
        ⟨.ok ⟨scratch.length, scratch.length - destinationHashLength,
            sha256 (destination.toList ++ source.toList ++ payload)⟩,
          destination.toList ++ source.toList ++ (signLxmf input).toList ++ payload ++
            output.drop (destination.toList ++ source.toList ++ (signLxmf input).toList ++
              payload).length, some input⟩

/-- Every run of the composer ends as one of its ends. -/
theorem composeEnd :
    ComposeEnd sha256 signLxmf unixSeconds destination source timestampUnixMs title content fields
      runtimeCarrierLimit output (runComposer sha256 signLxmf unixSeconds destination source
        timestampUnixMs title content fields runtimeCarrierLimit output) := by
  unfold runComposer
  cases hprepare : prepareScratch unixSeconds timestampUnixMs title content fields
    runtimeCarrierLimit output with
  | error error => exact .failed error
  | ok scratch =>
    obtain ⟨-, hpush, -, -⟩ := prepareScratch_inv hprepare
    obtain ⟨-, -, -, -, -, hlength⟩ := pushPayload_inv hpush
    dsimp only
    cases hinput : signatureInput destination source (scratch.drop completeWirePrefixBytes)
      (sha256 (destination.toList ++ source.toList ++ scratch.drop completeWirePrefixBytes)) with
    | error error => exact .failed error
    | ok input =>
      have hsmall : ¬(65535 < scratch.length ∨ 65535 < scratch.length - destinationHashLength) := by
        simp only [maxBasicLxmfWireBytes] at hlength
        omega
      dsimp only
      rw [if_neg hsmall]
      exact .composed hprepare rfl hinput

/-- A message that was composed is parsed as it was composed. As a complete wire and in every form
of carrier, under any limits with room for it, it has the addresses, the texts, the fields and the
time that it was composed of, the identifier that was returned, no stamp, and as input of its
signature the bytes that were handed to the signer. A carrier is shorter by the destination. Where
the composer fails, the buffer stays as it was. -/
theorem composed_parses (hroom : LeavesRoom limits) :
    (∀ error, composeBasicOpportunisticLxmf sha256 signLxmf unixSeconds destination source
        timestampUnixMs title content fields runtimeCarrierLimit output = .error error →
      (runComposer sha256 signLxmf unixSeconds destination source timestampUnixMs title content
        fields runtimeCarrierLimit output).output = output) ∧
    ∀ prepared written, composeBasicOpportunisticLxmf sha256 signLxmf unixSeconds destination source
        timestampUnixMs title content fields runtimeCarrierLimit output = .ok (prepared, written) →
      ∃ body input, written = destination.toList ++ body ++ output.drop prepared.wireLen ∧
        prepared.wireLen = (destination.toList ++ body).length ∧
        prepared.carrierLen = body.length ∧ prepared.carrierLen ≤ runtimeCarrierLimit ∧
        (runComposer sha256 signLxmf unixSeconds destination source timestampUnixMs title content
          fields runtimeCarrierLimit output).handed = some input ∧
        (∃ view, parseComplete limits (written.take prepared.wireLen) = .ok view ∧
          Renders sha256 destination source (signLxmf input) (unixSeconds timestampUnixMs) title
            content (fields.getD [0x80]) prepared.messageId input view) ∧
        ∀ carrier : CarrierIngress, carrier.Delivers destination body →
          ∃ view, parseIngress limits carrier = .ok view ∧
            Renders sha256 destination source (signLxmf input) (unixSeconds timestampUnixMs) title
              content (fields.getD [0x80]) prepared.messageId input view := by
  rw [composeBasicOpportunisticLxmf_eq]
  have hend := @composeEnd sha256 signLxmf unixSeconds destination source timestampUnixMs title
    content output fields runtimeCarrierLimit
  generalize runComposer sha256 signLxmf unixSeconds destination source timestampUnixMs title
    content
    fields runtimeCarrierLimit output = composition at hend ⊢
  cases hend with
  | failed error => exact ⟨fun _ _ => rfl, fun _ _ h => by cases h⟩
  | @composed scratch payload input hprepare hdrop hinput =>
    obtain ⟨hvalid, hpush, -, hcarrier⟩ := prepareScratch_inv hprepare
    obtain ⟨titleHead, contentHead, -, -, hscratch, hlength⟩ := pushPayload_inv hpush
    obtain ⟨view, hpayload, hraw, hshows⟩ := parse_pushPayload hroom hvalid hpush
    have hpos : completeWirePrefixBytes + 1 ≤ scratch.length := by
      rw [hscratch, List.length_append, List.length_append, List.length_replicate,
        List.length_singleton]
      omega
    have htotal : scratch.length = completeWirePrefixBytes + payload.length := by
      rw [← hdrop, List.length_drop]
      omega
    obtain rfl : view.raw = payload := hraw.trans hdrop
    rw [hdrop] at hpayload
    have hwire : (destination.toList ++ source.toList ++ (signLxmf input).toList ++ view.raw) =
        destination.toList ++ (source.toList ++ ((signLxmf input).toList ++ view.raw)) := by
      simp only [List.append_assoc]
    have hbody : (source.toList ++ ((signLxmf input).toList ++ view.raw)).length =
        scratch.length - destinationHashLength := by
      rw [htotal]
      simp only [List.length_append, Vector.length_toList, completeWirePrefixBytes,
        destinationHashLength]
      omega
    have hwireLen : scratch.length =
        (destination.toList ++
          (source.toList ++ ((signLxmf input).toList ++ view.raw))).length := by
      rw [List.length_append, hbody, Vector.length_toList]
      simp only [completeWirePrefixBytes, destinationHashLength] at hpos ⊢
      omega
    have hparses : ∀ kind bound, ∃ message, ParsesBody limits destination
        (source.toList ++ ((signLxmf input).toList ++ view.raw)) kind bound message ∧
        Renders sha256 destination source (signLxmf input) (unixSeconds timestampUnixMs) title
          content (fields.getD [0x80]) (sha256 (destination.toList ++ source.toList ++ view.raw))
          input message := by
      intro kind bound
      have hsigned := signatureInput_inv hinput
      have hcomposed := @parsesBody_composed limits sha256 destination source title content
        (fields.getD [0x80]) hroom view hpayload _ hshows (by omega) (by omega)
          (signLxmf input) kind
        bound
      rwa [← hsigned] at hcomposed
    refine ⟨fun error h => (by cases h), fun prepared written h => ?_⟩
    obtain ⟨rfl, rfl⟩ := Prod.mk.inj (Except.ok.inj h)
    refine ⟨_, input, ?_, hwireLen, hbody.symm, hcarrier, rfl, ?_, fun carrier hdelivers => ?_⟩
    · rw [hwire, ← hwireLen]
    · rw [hwire, hwireLen, List.take_left]
      obtain ⟨message, hmessage, hrenders⟩ := hparses .complete false
      exact ⟨message, parseComplete_append.mpr hmessage, hrenders⟩
    · obtain ⟨message, hmessage, hrenders⟩ := hparses carrier.kind true
      exact ⟨message, parseIngress_ok_iff.mpr ⟨_, _, hdelivers, hmessage⟩, hrenders⟩

/-- Limits with room for any composed message. -/
def roomyLimits : WireLimits := ⟨512, 512, 512, 512, 8192, 18⟩

/-- A short text is composed and parsed. -/
theorem composed_parses_sample : ∃ prepared written view,
    composeBasicOpportunisticLxmf (fun _ => Vector.replicate 32 3) (fun _ => Vector.replicate 64 4)
        (fun _ => 0) (Vector.replicate 16 1) (Vector.replicate 16 2) 1 [0x68] [0x69] none 500
        (List.replicate 128 0) = .ok (prepared, written) ∧
      parseComplete roomyLimits (written.take prepared.wireLen) = .ok view ∧
      view.payload.content.bytes = [0x69] := by
  obtain ⟨prepared, written, hcomposed⟩ : ∃ prepared written, composeBasicOpportunisticLxmf
      (fun _ => Vector.replicate 32 3) (fun _ => Vector.replicate 64 4) (fun _ => 0)
      (Vector.replicate 16 1) (Vector.replicate 16 2) 1 [0x68] [0x69] none 500
      (List.replicate 128 0) = .ok (prepared, written) := ⟨_, _, rfl⟩
  have hroom : LeavesRoom roomyLimits := ⟨by decide, by decide, by decide, by decide, by decide,
    by decide⟩
  obtain ⟨-, hparses⟩ := composed_parses hroom
  obtain ⟨body, input, -, -, -, -, -, ⟨view, hview, hrenders⟩, -⟩ := hparses _ _ hcomposed
  exact ⟨prepared, written, view, hcomposed, hview, hrenders.payload.content⟩

end Parsing

end Lxmf
