import ReticulumFirmware.LxmfStore.Store

/-!
# Headers are decoded to the values they were encoded from

Every header that a commit programs is decoded, under the binding it was encoded for, to its own
values. Equal headers therefore belong to the same message.
-/

namespace LxmfStore

open Nor Lxmf

variable {sha256 : Sha256} {binding : LxmfStoreBinding} {formatVersion : ℕ}
  {handle : MessageHandle} {extentIndex extentCount : ℕ} {metadata : InboundMessageMetadata}
  {exactWireDigest : ExactWireDigest}

/-- The widths of the header fields and of the digest after them. -/
def headerWidths : List ℕ :=
  [32, 8, 2, 2, 2, 2, 8, 16, 8, 8, 32, 32, 16, 16, 8, 1, 1, 2, 2, 2, 4, 4, 4, 4, 4, 32,
    1, 8, 1, 2, 2, 1, 213, 32]

/-- The fields of an ingress observation have fixed widths. -/
theorem ingressFields_widths (ingress : Option InboundTransportObservation) :
    (ingressFields ingress).map List.length = [1, 8, 1, 2, 2] := by
  obtain _ | ⟨interface, _ | signal⟩ := ingress
  · rfl
  · simp [ingressFields]
  · simp [ingressFields]

/-- The fields of a header, its digest included. -/
theorem encodeHeader_eq :
    encodeHeader sha256 binding formatVersion handle extentIndex extentCount metadata
        exactWireDigest =
      (headerFields binding formatVersion handle extentIndex extentCount metadata
        exactWireDigest ++ [(sha256 (headerDigestDomain ++
          (headerFields binding formatVersion handle extentIndex extentCount metadata
            exactWireDigest).flatten)).toList]).flatten := by
  rw [List.flatten_append, List.flatten_singleton]
  rfl

/-- The fields of a header have fixed widths. -/
theorem headerFields_widths (digest : Vector Byte 32) :
    (headerFields binding formatVersion handle extentIndex extentCount metadata
      exactWireDigest ++ [digest.toList]).map List.length = headerWidths := by
  have hclaim : claimMarker.length = 32 := rfl
  have hmagic : headerMagic.length = 8 := by decide
  simp only [headerFields, stampFields, List.map_append, List.map_cons, List.map_nil,
    ingressFields_widths, length_leBytes, Vector.length_toList, List.length_replicate, hclaim,
    hmagic, List.length_singleton]
  rfl

/-- A header has the size of a header. -/
@[simp] theorem length_encodeHeader :
    (encodeHeader sha256 binding formatVersion handle extentIndex extentCount metadata
      exactWireDigest).length = extentHeaderSize := by
  rw [encodeHeader_eq, List.length_flatten, headerFields_widths]
  rfl

/-- A header field stands at the sum of the widths before it. -/
theorem slice_encodeHeader (i offset length : ℕ) {field : List Byte}
    (hfield : (headerFields binding formatVersion handle extentIndex extentCount metadata
      exactWireDigest)[i]? = some field)
    (hoffset : (headerWidths.take i).sum = offset) (hlength : field.length = length) :
    slice (encodeHeader sha256 binding formatVersion handle extentIndex extentCount metadata
      exactWireDigest) offset length = field := by
  rw [encodeHeader_eq]
  refine slice_flatten (headerFields_widths _) ?_ hoffset hlength
  rw [List.getElem?_append_left (List.getElem?_eq_some_iff.mp hfield).1]
  exact hfield

/-- The transport evidence of an encoded header is decoded. -/
theorem decodeIngress_encodeHeader :
    decodeIngress (encodeHeader sha256 binding formatVersion handle extentIndex extentCount
      metadata exactWireDigest) = .ok metadata.ingress := by
  obtain ⟨messageId, material, destination, source, verification, timestamp, carrier, stamp,
    lengths, ingress, normalizes⟩ := metadata
  obtain _ | ⟨interface, _ | signal⟩ := ingress
  · rw [decodeIngress, getD_of_slice (slice_encodeHeader 26 252 1 rfl rfl rfl)]
    rfl
  · rw [decodeIngress, getD_of_slice (slice_encodeHeader 26 252 1 rfl rfl rfl),
      getD_of_slice (slice_encodeHeader 28 261 1 rfl rfl rfl),
      slice_encodeHeader 27 253 8 rfl rfl (Vector.length_toList), copyArray_toList]
    rfl
  · rw [decodeIngress, getD_of_slice (slice_encodeHeader 26 252 1 rfl rfl rfl),
      getD_of_slice (slice_encodeHeader 28 261 1 rfl rfl rfl),
      slice_encodeHeader 27 253 8 rfl rfl (Vector.length_toList), copyArray_toList,
      slice_encodeHeader 29 262 2 rfl rfl (length_leBytes ..),
      slice_encodeHeader 30 264 2 rfl rfl (length_leBytes ..),
      ofNat_leNat_leBytes (by decide), ofNat_leNat_leBytes (by decide)]
    rfl

/-- The metadata of an encoded header is decoded. -/
theorem decodeMetadata_encodeHeader :
    decodeMetadata (encodeHeader sha256 binding formatVersion handle extentIndex extentCount
      metadata exactWireDigest) = .ok metadata := by
  have hverification : slice (encodeHeader sha256 binding formatVersion handle extentIndex
      extentCount metadata exactWireDigest) 266 1 =
      [encodeSignatureVerification metadata.signatureVerification] := by
    obtain ⟨messageId, material, destination, source, verification, timestamp, carrier, stamp,
      lengths, ingress, normalizes⟩ := metadata
    obtain _ | ⟨interface, _ | signal⟩ := ingress
    · exact slice_encodeHeader 31 266 1 rfl rfl rfl
    · exact slice_encodeHeader 31 266 1 rfl rfl rfl
    · exact slice_encodeHeader 31 266 1 rfl rfl rfl
  have hargument : (encodeStamp metadata.stampAdmission).2.1 < 256 ^ 2 :=
    encodeStamp_argument_lt metadata.stampAdmission
  unfold decodeMetadata
  rw [decodeIngress_encodeHeader, getD_of_slice hverification,
    getD_of_slice (slice_encodeHeader 15 192 1 rfl rfl rfl),
    getD_of_slice (slice_encodeHeader 16 193 1 rfl rfl rfl),
    slice_encodeHeader 17 194 2 rfl rfl (length_leBytes ..),
    slice_encodeHeader 18 196 2 rfl rfl (length_leBytes ..),
    slice_encodeHeader 20 200 4 rfl rfl (length_leBytes ..),
    slice_encodeHeader 21 204 4 rfl rfl (length_leBytes ..),
    slice_encodeHeader 22 208 4 rfl rfl (length_leBytes ..),
    slice_encodeHeader 23 212 4 rfl rfl (length_leBytes ..),
    slice_encodeHeader 24 216 4 rfl rfl (length_leBytes ..),
    slice_encodeHeader 10 88 32 rfl rfl Vector.length_toList,
    slice_encodeHeader 11 120 32 rfl rfl Vector.length_toList,
    slice_encodeHeader 12 152 16 rfl rfl Vector.length_toList,
    slice_encodeHeader 13 168 16 rfl rfl Vector.length_toList,
    slice_encodeHeader 14 184 8 rfl rfl (length_leBytes ..)]
  rw [ofNat_leNat_leBytes (by decide), ofNat_leNat_leBytes (by decide),
    leNat_leBytes_of_lt hargument, leNat_leBytes_of_lt metadata.lengths.normalizedWire_lt,
    leNat_leBytes_of_lt metadata.lengths.carrierPayload_lt,
    leNat_leBytes_of_lt metadata.lengths.title_lt,
    leNat_leBytes_of_lt metadata.lengths.content_lt,
    leNat_leBytes_of_lt metadata.lengths.fieldsEncoded_lt, decodeCarrier_encodeCarrier,
    decodeSignatureVerification_encode, decodeStamp_encodeStamp]
  simp only [copyArray_toList, InboundMessageLengths.new_self]
  change (do
    let rebuilt ← orInvalid (InboundMessageMetadata.new metadata.messageId
      metadata.authenticatedMaterial metadata.destination metadata.source
      metadata.signatureVerification metadata.timestampBits metadata.carrier
      metadata.stampAdmission metadata.lengths).toOption
    pure (rebuilt.withIngressObservation metadata.ingress)) = Except.ok metadata
  rw [metadata.new_self]
  rfl

/-- An encoded header is decoded to its values. -/
theorem decodeHeader_encodeHeader {usizeValues : ℕ} (husize : usizeValues ≤ 2 ^ 64)
    (hoffset : binding.absoluteOffset < usizeValues) (hlength : binding.length < usizeValues)
    (hcount : requiredExtents usizeValues metadata.lengths.normalizedWire = some extentCount)
    (hfits : extentCount < 2 ^ 16) (hindex : extentIndex < extentCount) :
    decodeHeader sha256 usizeValues binding (encodeHeader sha256 binding physicalFormatVersion
        handle extentIndex extentCount metadata exactWireDigest) =
      .ok ⟨physicalFormatVersion, handle, extentIndex, extentCount, metadata, exactWireDigest⟩ := by
  have hdigest : slice (encodeHeader sha256 binding physicalFormatVersion handle extentIndex
      extentCount metadata exactWireDigest) 220 32 = exactWireDigest.toList :=
    slice_encodeHeader 25 220 32 rfl rfl Vector.length_toList
  unfold decodeHeader
  rw [slice_encodeHeader 0 0 32 rfl rfl rfl, slice_encodeHeader 1 32 8 rfl rfl (by decide),
    slice_encodeHeader 2 40 2 rfl rfl (length_leBytes ..),
    slice_encodeHeader 3 42 2 rfl rfl (length_leBytes ..),
    slice_encodeHeader 4 44 2 rfl rfl (length_leBytes ..),
    slice_encodeHeader 5 46 2 rfl rfl (length_leBytes ..),
    slice_encodeHeader 6 48 8 rfl rfl (length_leBytes ..),
    slice_encodeHeader 7 56 16 rfl rfl Vector.length_toList,
    slice_encodeHeader 8 72 8 rfl rfl (length_leBytes ..),
    slice_encodeHeader 9 80 8 rfl rfl (length_leBytes ..), hdigest, decodeMetadata_encodeHeader]
  rw [leNat_leBytes_of_lt (by decide : physicalFormatVersion < 256 ^ 2),
    leNat_leBytes_of_lt (by decide : extentHeaderSize < 256 ^ 2),
    leNat_leBytes_of_lt (by omega : extentIndex < 256 ^ 2),
    leNat_leBytes_of_lt (by omega : extentCount < 256 ^ 2),
    leNat_leBytes_of_lt (by omega : binding.absoluteOffset < 256 ^ 8),
    leNat_leBytes_of_lt (by omega : binding.length < 256 ^ 8), handle.leNat_leBytes]
  simp only [copyArray_toList, NonZeroU64.new_get]
  rw [if_neg (by simp), if_neg (by simp), if_neg (by simp), if_neg (by omega), if_neg (by simp),
    if_neg (by omega)]
  change (if _ then _ else _) = _
  rw [if_neg (by simp [hcount])]

/-- A decoded header is the encoding of its values. -/
theorem of_decodeHeader {usizeValues : ℕ} {header : List Byte} {fields : HeaderFields}
    (h : decodeHeader sha256 usizeValues binding header = .ok fields) :
    fields.formatVersion = physicalFormatVersion ∧ fields.extentIndex < fields.extentCount ∧
      fields.extentCount < 2 ^ 16 ∧
      requiredExtents usizeValues fields.metadata.lengths.normalizedWire =
        some fields.extentCount ∧
      header = encodeHeader sha256 binding physicalFormatVersion fields.handle fields.extentIndex
        fields.extentCount fields.metadata fields.exactWireDigest := by
  have hcount : leNat (slice header 46 2) < 256 ^ 2 :=
    (leNat_lt _).trans_le (Nat.pow_le_pow_right (by decide) (List.length_take_le _ _))
  unfold decodeHeader at h
  dsimp only at h
  split_ifs at h with _ hversion _ _ _ hindex
  cases hhandle : orInvalid (NonZeroU64.new (leNat (slice header 48 8))) with
  | error error =>
    rw [hhandle] at h
    cases h
  | ok handle =>
    cases hmetadata : decodeMetadata header with
    | error error =>
      rw [hhandle, hmetadata] at h
      cases h
    | ok metadata =>
      rw [hhandle, hmetadata] at h
      change (if _ then Except.error _ else Except.ok _) = _ at h
      split_ifs at h with hchecks
      simp only [not_or, not_not] at hchecks hversion
      obtain ⟨hrequired, hencoded⟩ := hchecks
      rw [← Except.ok.inj h]
      have hbelow : leNat (slice header 44 2) < leNat (slice header 46 2) := by omega
      rw [hversion] at hencoded
      exact ⟨hversion, hbelow, hcount, hrequired, hencoded⟩

end LxmfStore
