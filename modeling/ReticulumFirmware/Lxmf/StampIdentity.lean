import ReticulumFirmware.Lxmf.Ingress

/-!
# A stamp and the message that it is on

A wire without its stamp is the wire with a short array head and four items. It is accepted under
the same limits, and it is the same message: the stamp is in neither the identifier, nor the
fingerprint, nor the input of the signature.
-/

namespace Lxmf

open Nor MessagePack Codec

variable {limits : WireLimits} {raw body : List Byte} {destination : DestinationHash}

section Payload

variable {widen : BitVec 32 → BitVec 64} {timestamp title content fields : EncodedItem}
  {view : PayloadView}

/-- Four items cost no more than five. -/
theorem payloadCost_le (items : List EncodedItem) (fifth : EncodedItem) :
    payloadCost items ≤ payloadCost (items ++ [fifth]) := by
  have hitems : itemsCost (items ++ [fifth]) = itemsCost items + costOf fifth.value := by
    simp [itemsCost]
  have hcontainer : Cost.container items.length ≤ Cost.container (items ++ [fifth]).length := by
    simp [Cost.le_def, Cost.container]
  rw [payloadCost, payloadCost, hitems]
  refine add_le_add (add_le_add le_rfl (add_le_add le_rfl hcontainer)) ?_
  exact le_add_of_nonneg_right (Cost.zero_le _)

/-- The items without the fifth behind the head of a short array. -/
theorem LaidOut.drop_fifth {head : List Byte} {fifth : EncodedItem}
    (h : LaidOut limits widen raw head [timestamp, title, content, fields, fifth]) :
    LaidOut limits widen ([payloadArray4] ++ flatItems [timestamp, title, content, fields])
      [payloadArray4] [timestamp, title, content, fields] where
  form := .fixarray (show 4 < 16 by decide)
  raw_eq := rfl
  encoded item hitem := h.encoded item (List.mem_append_left [fifth] hitem)
  affords := h.affords.mono (payloadCost_le _ _)

/-- A payload without its stamp is accepted under the same limits and shows the same. -/
theorem parse_stampless (h : parsePayload limits raw = .ok view) :
    parsePayload limits view.stampless =
      .ok { view with raw := view.stampless, stamp := none } := by
  obtain ⟨head, timestamp, title, content, fields, hshows, rfl, hlaid⟩ :=
    parsePayload_cases (fun _ => 0) h
  obtain ⟨-, hnone⟩ | ⟨fifth, bytes, hlaid, -, -, -, hstamp⟩ := hlaid
  · have hstampless : view.stampless = view.raw := by
      rw [PayloadView.stampless, hnone]
      rfl
    rw [hstampless, h]
    exact congrArg Except.ok (PayloadView.ext rfl rfl rfl rfl rfl rfl hnone)
  · have hstampless : view.stampless =
        [payloadArray4] ++ flatItems [timestamp, title, content, fields] := by
      rw [PayloadView.stampless, hstamp, hshows.firstFour]
      rfl
    rw [hstampless]
    exact hlaid.drop_fifth.parse_four ⟨hshows.isTimestamp, hshows.isTitle, hshows.titleLen,
      hshows.isContent, hshows.contentLen, hshows.isMap, hshows.isFields, hshows.firstFour⟩ rfl rfl

/-- A stamp only lengthens a payload. -/
theorem length_stampless_le (h : parsePayload limits raw = .ok view) :
    view.stampless.length ≤ raw.length := by
  obtain ⟨head, timestamp, title, content, fields, hshows, rfl, hlaid⟩ :=
    parsePayload_cases (fun _ => 0) h
  obtain ⟨-, hnone⟩ | ⟨fifth, bytes, hlaid, -, -, -, hstamp⟩ := hlaid
  · rw [PayloadView.stampless, hnone]
    exact le_rfl
  · have hhead := length_pos_of_form hlaid.form
    have hraw := congrArg List.length hlaid.raw_eq
    simp only [flatItems_cons, List.length_append] at hraw
    rw [PayloadView.stampless, hstamp, hshows.firstFour]
    simp only [Option.isNone_some, Bool.false_eq_true, if_false, List.length_cons,
      List.flatten_cons, List.flatten_nil, List.length_append, List.length_nil]
    omega

end Payload

section Message

variable {view : MessageView} {carrier : CarrierProvenance} {destinationBound : Bool}

/-- The body without its stamp. -/
def MessageView.stamplessBody (view : MessageView) : List Byte :=
  view.body.take opportunisticHeaderLength ++ view.payload.stampless

/-- A message without its stamp. -/
def MessageView.withoutStamp (view : MessageView) : MessageView :=
  { view with
    body := view.stamplessBody
    payload := { view.payload with raw := view.payload.stampless, stamp := none }
    normalizedWireLen := view.stamplessBody.length + destinationHashLength }

/-- A field before the cut is the same in the cut body. -/
theorem fixedField_take {n offset stop : ℕ} (rest : List Byte) (hfield : offset + n ≤ stop)
    (hlength : stop ≤ body.length) :
    fixedField n offset (body.take stop ++ rest) = fixedField n offset body := by
  refine Vector.ext fun i hi => ?_
  have hinside : offset + i < (body.take stop).length := by
    rw [List.length_take]
    omega
  have hstop : offset + i < stop := by omega
  simp [fixedField, List.getElem?_append_left hinside, hstop]

/-- The wire without its stamp is no longer. -/
theorem ParsesBody.length_withoutStamp
    (h : ParsesBody limits destination body carrier destinationBound view) :
    view.withoutStamp.normalizedWireLen ≤ view.normalizedWireLen := by
  obtain ⟨hlength, -, payload, hpayload, rfl⟩ := parsesBody_iff.mp h
  have hle := length_stampless_le hpayload
  rw [List.length_drop] at hle
  refine Nat.add_le_add_right ?_ _
  rw [MessageView.stamplessBody, List.length_append,
    List.length_take_of_le (Nat.le_of_succ_le hlength)]
  exact Nat.add_le_of_le_sub' (Nat.le_of_succ_le hlength) hle

/-- The body of a message without its stamp is accepted where the message is. -/
theorem ParsesBody.withoutStamp
    (h : ParsesBody limits destination body carrier destinationBound view) :
    ParsesBody limits destination view.stamplessBody carrier destinationBound
      view.withoutStamp := by
  have hshorter := h.length_withoutStamp
  obtain ⟨hlength, hlimit, payload, hpayload, rfl⟩ := parsesBody_iff.mp h
  have hstampless := parse_stampless hpayload
  obtain ⟨hminimum, -⟩ := parts_le_of_parse hstampless
  have htake : (body.take opportunisticHeaderLength).length = opportunisticHeaderLength :=
    List.length_take_of_le (Nat.le_of_succ_le hlength)
  have hbody : (body.take opportunisticHeaderLength ++ payload.stampless).length =
      opportunisticHeaderLength + payload.stampless.length := by
    rw [List.length_append, htake]
  have hdrop : (body.take opportunisticHeaderLength ++ payload.stampless).drop
      opportunisticHeaderLength = payload.stampless := List.drop_left' htake
  have hpos : 0 < payload.stampless.length := by
    simp only [DeviceApi.minimumWireLen, DeviceApi.lxmfNormalizedWirePrefixBytes,
      DeviceApi.lxmfPayloadArrayHeaderBytes, wireHeaderLength] at hminimum
    omega
  refine parsesBody_iff.mpr ⟨?_, ?_, { payload with raw := payload.stampless, stamp := none }, ?_,
    ?_⟩
  · rw [MessageView.stamplessBody, hbody]
    exact Nat.add_le_add_left hpos _
  · exact hshorter.trans hlimit
  · rw [MessageView.stamplessBody, hdrop]
    exact hstampless
  · rw [MessageView.withoutStamp, MessageView.stamplessBody]
    simp only [MessageView.mk.injEq, true_and, and_true]
    exact ⟨(fixedField_take _ (by decide) (Nat.le_of_succ_le hlength)).symm,
      (fixedField_take _ (by decide) (Nat.le_of_succ_le hlength)).symm⟩

variable (sha256 : Sha256) (view)

/-- A message authenticates the same without its stamp and in every form of carrier. -/
theorem authenticated_withoutStamp (carrier : CarrierProvenance) (destinationBound : Bool) :
    (view.withoutStamp.retag carrier destinationBound).authenticated = view.authenticated := rfl

variable {view} {other : MessageView}

/-- Views with one authenticated part have one message identifier. -/
theorem messageId_congr (h : other.authenticated = view.authenticated) :
    other.messageId sha256 = view.messageId sha256 := by
  rw [MessageView.messageId_eq, MessageView.messageId_eq, h]

/-- Views with one authenticated part have one fingerprint. -/
theorem fingerprint_congr (h : other.authenticated = view.authenticated) :
    other.authenticatedMaterialFingerprint sha256 =
      view.authenticatedMaterialFingerprint sha256 := by
  rw [MessageView.authenticatedMaterialFingerprint_eq,
    MessageView.authenticatedMaterialFingerprint_eq, h]

/-- Views with one authenticated part have one signature input. -/
theorem signatureInput_congr (h : other.authenticated = view.authenticated) :
    other.signatureInput sha256 = view.signatureInput sha256 := by
  rw [MessageView.signatureInput, MessageView.signatureInput, h, messageId_congr sha256 h]

variable (view)

/-- Everything that leaves out the stamp of a message uses the same bytes. -/
structure UsesStampless (sha256 : Sha256) (view : MessageView) : Prop where
  length : view.payload.payloadWithoutStampLen = view.payload.stampless.length
  write : ∀ output, view.payload.stampless.length ≤ output.length →
    view.payload.writePayloadWithoutStamp output = some (.ok (view.payload.stampless.length,
      view.payload.stampless ++ output.drop view.payload.stampless.length))
  messageId : view.messageId sha256 =
    sha256 (view.destinationHash.toList ++ view.sourceHash.toList ++ view.payload.stampless)
  fingerprint : view.authenticatedMaterialFingerprint sha256 =
    sha256 (authenticatedMaterialFingerprintDomain ++
      (view.destinationHash.toList ++ view.sourceHash.toList ++ view.payload.stampless))
  signatureInput : view.signatureInput sha256 = view.destinationHash.toList ++
    view.sourceHash.toList ++ view.payload.stampless ++ (view.messageId sha256).toList
  writeSignature : ∀ output, (view.signatureInput sha256).length ≤ output.length →
    view.writeSignatureInput sha256 output = some (.ok ((view.signatureInput sha256).length,
      view.signatureInput sha256 ++ output.drop (view.signatureInput sha256).length))
  verify : ∀ (ed25519 : Ed25519) (source : BoundSourceIdentity ed25519),
    view.verifySignature sha256 ed25519 source =
      (MessageView.signatureResult ed25519 source view.sourceHash view.signature
        (view.signatureInput sha256)).map fun _ => ⟨view⟩

/-- Every view is used without its stamp. -/
theorem usesStampless : UsesStampless sha256 view where
  length := view.payload.payloadWithoutStampLen_eq
  write _ hroom := view.payload.writePayloadWithoutStamp_eq hroom
  messageId := view.messageId_eq sha256
  fingerprint := view.authenticatedMaterialFingerprint_eq sha256
  signatureInput := rfl
  writeSignature _ hroom := view.writeSignatureInput_eq sha256 hroom
  verify ed25519 source := view.verifySignature_eq sha256 ed25519 source

/-- What the signature of a message comes to, from the input that it covers. -/
theorem signatureVerification_eq (ed25519 : Ed25519) (resolver : SourceIdentityResolver) :
    view.signatureVerification sha256 ed25519 resolver =
      match resolver view.sourceHash with
      | none => .sourceUnknown
      | some publicKey =>
        match (BoundSourceIdentity.new sha256 ed25519 publicKey view.sourceHash).bind fun source =>
            MessageView.signatureResult ed25519 source view.sourceHash view.signature
              (view.signatureInput sha256) with
        | .ok _ => .validated
        | .error _ => .invalid := by
  rw [MessageView.signatureVerification]
  cases resolver view.sourceHash with
  | none => rfl
  | some publicKey =>
    dsimp only [MessageView.bindSourceIdentity]
    cases BoundSourceIdentity.new sha256 ed25519 publicKey view.sourceHash with
    | error error => rfl
    | ok source =>
      dsimp only [Except.bind]
      rw [view.verifySignature_eq]
      cases MessageView.signatureResult ed25519 source view.sourceHash view.signature
        (view.signatureInput sha256) with
      | error error => rfl
      | ok => rfl

/-- A signature comes to the same over the same input. -/
theorem signatureVerification_congr (h : other.authenticated = view.authenticated)
    (hsource : other.sourceHash = view.sourceHash) (hsignature : other.signature = view.signature)
    (ed25519 : Ed25519) (resolver : SourceIdentityResolver) :
    other.signatureVerification sha256 ed25519 resolver =
      view.signatureVerification sha256 ed25519 resolver := by
  rw [signatureVerification_eq, signatureVerification_eq, signatureInput_congr sha256 h, hsource,
    hsignature]

end Message

section Sample

/-- The payload without text, with a ticket behind it. -/
def stampedPayload : PayloadView :=
  { samplePayload with
    raw := payloadArray5 :: samplePayload.firstFour.flatten ++ ([0xc4, 16] ++ List.replicate 16 7)
    stamp := some ⟨List.replicate 16 7, 18⟩ }

/-- The body without text, with a ticket behind it. -/
def stampedBody : List Byte := List.replicate 80 0 ++ stampedPayload.raw

/-- The stamped payload is parsed. -/
theorem parse_stamped : parsePayload wireLimits stampedPayload.raw = .ok stampedPayload := rfl

/-- The stamped body is parsed in every carrier, as the sample body with a stamp. -/
theorem parsesBody_stamped (carrier : CarrierProvenance) :
    ∃ view, ParsesBody wireLimits sampleDestination stampedBody carrier true view ∧
      view.stamplessBody = sampleBody :=
  ⟨_, parsesBody_iff.mpr ⟨by decide, by decide, _, parse_stamped, rfl⟩, rfl⟩

end Sample

end Lxmf
