import ReticulumFirmware.Lxmf.Wire

/-!
# The payload without its stamp

Identifiers, fingerprints and signatures cover the four items of a payload. The functions that
write these bytes, hash them, or verify a signature over them, each put them together on their own;
all of them use the same bytes.
-/

namespace Lxmf

open Nor

section Writes

/-- The writer of parts writes them one after another. -/
theorem writes_putParts (parts : List (List Byte)) : Writes (putParts parts) parts.flatten := by
  induction parts with
  | nil =>
    intro written rest _
    simp [putParts]
  | cons part parts ih => exact (writes_putBytes part).bind ih

/-- Writes at the start of a buffer with enough room. -/
theorem Writes.start {put : Target → Option Target} {bytes output : List Byte}
    (h : Writes put bytes) (hroom : bytes.length ≤ output.length) :
    put ⟨output, 0⟩ = some ⟨bytes ++ output.drop bytes.length, bytes.length⟩ := by
  have hput := h [] output hroom
  simpa using hput

/-- Parts that are appended in turn are appended together. -/
theorem foldl_append_flatten (parts : List (List Byte)) (start : List Byte) :
    parts.foldl (· ++ ·) start = start ++ parts.flatten := by
  induction parts generalizing start with
  | nil => simp
  | cons part parts ih => rw [List.foldl_cons, ih, List.flatten_cons, List.append_assoc]

end Writes

namespace PayloadView

variable (view : PayloadView)

/-- The four items behind the head of a short array. -/
def stampless : List Byte :=
  if view.stamp.isNone then view.raw else payloadArray4 :: view.firstFour.flatten

/-- The length without the stamp is that of the stampless payload. -/
theorem payloadWithoutStampLen_eq : view.payloadWithoutStampLen = view.stampless.length := by
  unfold payloadWithoutStampLen stampless
  split_ifs
  · rfl
  · rw [List.length_cons, List.length_flatten, Nat.add_comm]

/-- What is hashed without the stamp is the stampless payload. -/
theorem updatePayloadWithoutStamp_eq (hashed : List Byte) :
    view.updatePayloadWithoutStamp hashed = hashed ++ view.stampless := by
  unfold updatePayloadWithoutStamp stampless
  split_ifs
  · rfl
  · rw [foldl_append_flatten, List.append_assoc, List.singleton_append]

/-- The payload without the stamp is written as the stampless one. -/
theorem writes_stampless : Writes
    (fun target => if view.stamp.isNone then putBytes view.raw target
      else putBytes [payloadArray4] target >>= putParts view.firstFour) view.stampless := by
  unfold stampless
  split_ifs
  · exact writes_putBytes view.raw
  · exact (writes_putBytes [payloadArray4]).bind (writes_putParts view.firstFour)

/-- A buffer with enough room starts with the payload afterwards. -/
theorem writePayloadWithoutStamp_eq {output : List Byte}
    (hroom : view.stampless.length ≤ output.length) :
    view.writePayloadWithoutStamp output = some (.ok (view.stampless.length,
      view.stampless ++ output.drop view.stampless.length)) := by
  have hput := view.writes_stampless.start hroom
  unfold writePayloadWithoutStamp
  dsimp only at hput ⊢
  rw [payloadWithoutStampLen_eq, if_neg (Nat.not_lt.mpr hroom)]
  split_ifs at hput ⊢ with hnone
  · rw [hput]
    rfl
  · rw [hput]
    rfl

/-- A buffer that is too small stays as it is. -/
theorem writePayloadWithoutStamp_short {output : List Byte}
    (hroom : output.length < view.stampless.length) :
    view.writePayloadWithoutStamp output =
      some (.error ⟨view.stampless.length, output.length⟩) := by
  unfold writePayloadWithoutStamp
  dsimp only
  rw [payloadWithoutStampLen_eq, if_pos hroom]

end PayloadView

namespace MessageView

variable (sha256 : Sha256) (view : MessageView)

/-- What a message authenticates: both addresses and the payload without its stamp. -/
def authenticated : List Byte :=
  view.destinationHash.toList ++ view.sourceHash.toList ++ view.payload.stampless

/-- What the signature of a message covers. -/
def signatureInput : List Byte := view.authenticated ++ (view.messageId sha256).toList

/-- The message identifier is the hash of the authenticated part. -/
theorem messageId_eq : view.messageId sha256 = sha256 view.authenticated := by
  rw [messageId, PayloadView.updatePayloadWithoutStamp_eq]
  rfl

/-- The fingerprint is the hash of the authenticated part in its own domain. -/
theorem authenticatedMaterialFingerprint_eq : view.authenticatedMaterialFingerprint sha256 =
    sha256 (authenticatedMaterialFingerprintDomain ++ view.authenticated) := by
  rw [authenticatedMaterialFingerprint, PayloadView.updatePayloadWithoutStamp_eq, authenticated]
  simp only [List.append_assoc]

/-- The length of the signature input is computed right. -/
theorem signatureInputLen_eq : view.signatureInputLen = (view.signatureInput sha256).length := by
  simp only [signatureInputLen, signatureInput, authenticated,
    PayloadView.payloadWithoutStampLen_eq, List.length_append, Vector.length_toList]
  omega

/-- The writes in their order. -/
theorem putSignatureInput_eq (target : Target) :
    view.putSignatureInput sha256 target =
      putBytes view.destinationHash.toList target >>= fun target =>
      putBytes view.sourceHash.toList target >>= fun target =>
      (if view.payload.stamp.isNone then putBytes view.payload.raw target
        else putBytes [payloadArray4] target >>= putParts view.payload.firstFour) >>=
      putBytes (view.messageId sha256).toList := by
  unfold putSignatureInput
  split_ifs <;> rfl

/-- The signature input is written. -/
theorem writes_signatureInput :
    Writes (view.putSignatureInput sha256) (view.signatureInput sha256) := by
  have hwrites := (writes_putBytes view.destinationHash.toList).bind
    ((writes_putBytes view.sourceHash.toList).bind (view.payload.writes_stampless.bind
      (writes_putBytes (view.messageId sha256).toList)))
  unfold signatureInput authenticated
  rw [List.append_assoc, List.append_assoc, funext (view.putSignatureInput_eq sha256)]
  exact hwrites

/-- A buffer with enough room starts with the input of the signature afterwards. -/
theorem writeSignatureInput_eq {output : List Byte}
    (hroom : (view.signatureInput sha256).length ≤ output.length) :
    view.writeSignatureInput sha256 output = some (.ok ((view.signatureInput sha256).length,
      view.signatureInput sha256 ++ output.drop (view.signatureInput sha256).length)) := by
  unfold writeSignatureInput
  dsimp only
  rw [view.signatureInputLen_eq sha256, if_neg (Nat.not_lt.mpr hroom),
    (view.writes_signatureInput sha256).start hroom]
  rfl

/-- A buffer that is too short is refused with both lengths. -/
theorem writeSignatureInput_short {output : List Byte}
    (hroom : output.length < (view.signatureInput sha256).length) :
    view.writeSignatureInput sha256 output =
      some (.error ⟨(view.signatureInput sha256).length, output.length⟩) := by
  unfold writeSignatureInput
  dsimp only
  rw [view.signatureInputLen_eq sha256, if_pos hroom]

/-- The verification of a signature over the given bytes, once its key and its point pass. -/
def verifyOver (ed25519 : Ed25519) (source : BoundSourceIdentity ed25519)
    (signature : Vector Byte 64) (input : List Byte) : Bool :=
  ((ed25519.verifyStream source.verifyingKey signature).map fun verifier => verifier input) =
    some true

/-- The checks of a signature, over the bytes that it covers. -/
def signatureResult (ed25519 : Ed25519) (source : BoundSourceIdentity ed25519)
    (sourceHash : SourceHash) (signature : Vector Byte 64) (input : List Byte) :
    Except SignatureError Unit :=
  if source.destinationHash ≠ sourceHash then .error .sourceHashMismatch
  else
    match requireNonIdentityPrimeOrderPoint ed25519 (signature.toList.take 32) with
    | .error .invalidEncoding => .error .invalidSignaturePoint
    | .error .nonPrimeOrder => .error .nonPrimeOrderSignaturePoint
    | .ok () =>
      if verifyOver ed25519 source signature input then .ok () else .error .invalidSignature

/-- A signature is verified over the bytes that the input of the signature holds. -/
theorem verifySignature_eq (ed25519 : Ed25519) (source : BoundSourceIdentity ed25519) :
    view.verifySignature sha256 ed25519 source =
      (signatureResult ed25519 source view.sourceHash view.signature
        (view.signatureInput sha256)).map fun _ => ⟨view⟩ := by
  have hmaterial : (if view.payload.stamp.isNone then
      view.destinationHash.toList ++ view.sourceHash.toList ++ view.payload.raw
      else view.payload.firstFour.foldl (· ++ ·)
        (view.destinationHash.toList ++ view.sourceHash.toList ++ [payloadArray4])) =
      view.authenticated := view.payload.updatePayloadWithoutStamp_eq _
  unfold verifySignature signatureResult verifyOver
  dsimp only
  rw [hmaterial]
  by_cases hsource : source.destinationHash ≠ view.sourceHash
  · rw [if_pos hsource, if_pos hsource]
    rfl
  · rw [if_neg hsource, if_neg hsource]
    cases requireNonIdentityPrimeOrderPoint ed25519 (view.signature.toList.take 32) with
    | error error => cases error <;> rfl
    | ok =>
      cases ed25519.verifyStream source.verifyingKey view.signature with
      | none => rfl
      | some verifier =>
        have hinput : view.signatureInput sha256 =
          view.authenticated ++ (view.messageId sha256).toList := rfl
        rw [hinput]
        dsimp only
        cases hverify : verifier (view.authenticated ++ (view.messageId sha256).toList) <;>
          simp [hverify, Except.map]

end MessageView

end Lxmf
