import ReticulumFirmware.ApplianceSync.Reassembly
import ReticulumFirmware.Collections.Pages
import ReticulumFirmware.LxmfStore.Chunks
import ReticulumFirmware.LxmfStore.Retained
import ReticulumFirmware.Mailbox.Store

/-!
# The inbox of the product

`lxmf_next` and `lxmf_read` of `product_store.rs`, and what `prns_product_task.rs` answers a read
with. Every message that was committed from a carrier can be listed, and a client that reads it
chunk by chunk holds the exact wire of its first arrival.
-/

namespace ProductStore

open Nor DeviceApi
open LxmfStore (MountedLxmfStore IndexEntry BoundLxmfStore LxmfSystem LxmfWireChunk
  LxmfWireReadError readWireChunk)
open Lxmf (DurableMessageReceipt InboundTransportObservation InboundMessageMetadata
  InboundMessageCandidate)

section Model

/-- Failures of the product's inbox. -/
inductive ProductLxmfError where
  | unavailable
  | invalidRequest
  | backend
  | faulted
  deriving DecidableEq

/-- What the product keeps of its inbox: both stores are mounted at boot, or not for this boot. -/
structure Inbox where
  lxmf : Option MountedLxmfStore
  lxmfMailbox : Option Mailbox.MountedMailboxStore

/-- The evidence of arrival, as the interface shows it. -/
def apiIngress (observation : InboundTransportObservation) : IngressObservation where
  interfaceId := observation.interface
  signal := observation.signal.map fun signal => ⟨signal.rssiDbm, signal.snrDb⟩

/-- The summary of one receipt. -/
def summarize (store : MountedLxmfStore) (receipt : DurableMessageReceipt) :
    Except ProductLxmfError LxmfMessageSummary :=
  match store.metadata receipt.handle with
  | none => .error .faulted
  | some metadata =>
    match NonZeroU64.new receipt.handle.get with
    | none => .error .faulted
    | some handle =>
      match LxmfMessageSummary.new handle receipt.messageId metadata.destination metadata.source
          metadata.timestampBits metadata.lengths.normalizedWire metadata.lengths.title
          metadata.lengths.content metadata.lengths.fieldsEncoded
          receipt.fingerprint.exactWireDigest metadata.lengths.normalizedWire_lt with
      | none => .error .faulted
      | some summary => .ok (summary.withIngressObservation (metadata.ingress.map apiIngress))

/-- The summary of the first receipt once the cursor has been seen. -/
def scanReceipts (store : MountedLxmfStore) (after : Option LxmfMessageHandle) :
    Bool → List DurableMessageReceipt → Except ProductLxmfError (Option LxmfMessageSummary)
  | _, [] => .ok none
  | false, receipt :: receipts =>
    scanReceipts store after (after.any fun cursor => cursor.get = receipt.handle.get) receipts
  | true, receipt :: _ => (summarize store receipt).map some

/-- The next committed message after an optional handle. -/
def lxmfNext (inbox : Inbox) (after : Option LxmfMessageHandle) :
    Except ProductLxmfError (Option LxmfMessageSummary) :=
  match inbox.lxmf, inbox.lxmfMailbox with
  | some store, some _ => scanReceipts store after after.isNone store.receipts
  | _, _ => .error .unavailable

/-- What a read of the store comes to for a client. A wire length has 32 bits. -/
def readAnswer {ε : Type} (handle : LxmfMessageHandle) :
    Except (LxmfWireReadError ε) (LxmfWireChunk × List Byte) →
      Except ProductLxmfError (Option LxmfReadChunk)
  | .error (.notFound _) => .ok none
  | .error (.offsetOutOfRange _ _) => .error .invalidRequest
  | .error (.backend _) => .error .backend
  | .error (.binding _) | .error (.fault _) => .error .faulted
  | .ok (chunk, bytes) =>
    if chunk.bytesRead = 0 then .error .invalidRequest
    else if total_lt : chunk.wireLength < 2 ^ 32 then
      match LxmfReadChunk.new handle chunk.offset chunk.wireLength (bytes.take chunk.bytesRead)
          total_lt with
      | .ok chunk => .ok (some chunk)
      | .error _ => .error .faulted
    else .error .faulted

variable {ε : Type}

/-- Read one chunk of a committed message. -/
def lxmfRead (sha256 : Sha256) (access : BoundLxmfStore) (inbox : Inbox)
    (handle : LxmfMessageHandle) (offset : ℕ) (maxBytes : LxmfReadLength) :
    Prog ε (Except ProductLxmfError (Option LxmfReadChunk)) :=
  match inbox.lxmf, inbox.lxmfMailbox with
  | some store, some _ =>
    match NonZeroU64.new handle.get with
    | none => .pure (.error .invalidRequest)
    | some modelHandle =>
      (readWireChunk sha256 access store modelHandle offset (List.replicate maxBytes.get 0)).run
        >>= fun answer => .pure (readAnswer handle answer)
  | _, _ => .pure (.error .unavailable)

/-- The code of a failure on the device interface. -/
def ProductLxmfError.code : ProductLxmfError → ℕ
  | unavailable => 7
  | invalidRequest => 6
  | backend | faulted => 8

/-- The response to a read. A message that does not exist has a code of its own. -/
def readResponse : Except ProductLxmfError (Option LxmfReadChunk) → ApplianceSync.DeviceResponse
  | .ok (some chunk) => .lxmfRead chunk
  | .ok none => .error ⟨5, some opLxmfRead⟩
  | .error error => .error ⟨error.code, some opLxmfRead⟩

/-- The response to a read request. -/
def answerLxmfRead (sha256 : Sha256) (access : BoundLxmfStore) (inbox : Inbox)
    (request : ApplianceSync.LxmfReadRequest) : Prog ε ApplianceSync.DeviceResponse :=
  lxmfRead sha256 access inbox request.handle request.offset request.maxBytes >>= fun answer =>
    .pure (readResponse answer)

end Model

section Listing

variable {sha256 : Sha256} {store : MountedLxmfStore} {mailbox : Mailbox.MountedMailboxStore}
  {cursor : LxmfMessageHandle} {receipt : DurableMessageReceipt}
  {entries front back : List IndexEntry} {entry : IndexEntry}

/-- The receipts up to the cursor are passed. The induction is on the receipts before it. -/
theorem scanReceipts_after {front back : List DurableMessageReceipt}
    (hfront : ∀ earlier ∈ front, earlier.handle ≠ receipt.handle) :
    scanReceipts store (some receipt.handle) false (front ++ receipt :: back) =
      scanReceipts store (some receipt.handle) true back := by
  induction front with
  | nil =>
    rw [List.nil_append, scanReceipts, Option.any_some, decide_eq_true rfl]
  | cons earlier front ih =>
    rw [List.forall_mem_cons] at hfront
    have hother : receipt.handle.get ≠ earlier.handle.get := fun hsame => by
      have hnew := NonZeroU64.new_get receipt.handle
      rw [hsame, NonZeroU64.new_get] at hnew
      exact hfront.1 (Option.some.inj hnew)
    rw [List.cons_append, scanReceipts, Option.any_some, decide_eq_false hother]
    exact ih hfront.2

/-- Lists that are related by equal images have equal images. -/
theorem map_eq_of_forall₂ {α β γ : Type} {f : α → γ} {g : β → γ} {items : List α} {images : List β}
    (h : List.Forall₂ (fun item image => f item = g image) items images) :
    items.map f = images.map g := by
  rw [← List.forall₂_eq_eq_eq, List.forall₂_map_left_iff, List.forall₂_map_right_iff]
  exact h

/-- A relation on the items gives one on the lists. -/
theorem exists_forall₂ {α β : Type} {R : α → β → Prop} {items : List α}
    (h : ∀ item ∈ items, ∃ image, R item image) : ∃ images, List.Forall₂ R items images := by
  induction items with
  | nil => exact ⟨[], .nil⟩
  | cons item items ih =>
    rw [List.forall_mem_cons] at h
    obtain ⟨image, himage⟩ := h.1
    obtain ⟨images, himages⟩ := ih h.2
    exact ⟨image :: images, .cons himage himages⟩

/-- What the listing says of an entry. -/
structure Summarizes (entry : IndexEntry) (summary : LxmfMessageSummary) : Prop where
  handle : summary.handle = entry.receipt.handle
  messageId : summary.messageId = entry.receipt.messageId
  destination : summary.destination = entry.metadata.destination
  source : summary.source = entry.metadata.source
  timestampBits : summary.timestampBits = entry.metadata.timestampBits
  normalizedWireLen : summary.normalizedWireLen = entry.metadata.lengths.normalizedWire
  titleLen : summary.titleLen = entry.metadata.lengths.title
  contentLen : summary.contentLen = entry.metadata.lengths.content
  fieldsEncodedLen : summary.fieldsEncodedLen = entry.metadata.lengths.fieldsEncoded
  exactWireSha256 : summary.exactWireSha256 = entry.receipt.fingerprint.exactWireDigest
  ingress : summary.ingress = entry.metadata.ingress.map apiIngress

/-- The lengths of an entry are those of a message. -/
def Listable (entry : IndexEntry) : Prop :=
  minimumWireLen entry.metadata.lengths.title entry.metadata.lengths.content
      entry.metadata.lengths.fieldsEncoded ≤ entry.metadata.lengths.normalizedWire ∧
    0 < entry.metadata.lengths.fieldsEncoded

/-- An entry with the lengths of a message has a summary. -/
theorem exists_summary (hfound : store.entryForHandle entry.receipt.handle = some entry)
    (hlistable : Listable entry) :
    ∃ summary, summarize store entry.receipt = .ok summary ∧ Summarizes entry summary := by
  have hlengths : ¬(entry.metadata.lengths.fieldsEncoded = 0 ∨
      entry.metadata.lengths.normalizedWire < minimumWireLen entry.metadata.lengths.title
        entry.metadata.lengths.content entry.metadata.lengths.fieldsEncoded) :=
    not_or.mpr ⟨Nat.ne_of_gt hlistable.2, not_lt.mpr hlistable.1⟩
  rw [summarize, MountedLxmfStore.metadata, hfound]
  dsimp only [Option.map_some]
  rw [NonZeroU64.new_get]
  dsimp only
  rw [LxmfMessageSummary.new, dif_neg hlengths]
  exact ⟨_, rfl, rfl, rfl, rfl, rfl, rfl, rfl, rfl, rfl, rfl, rfl, rfl⟩

/-- Entries that are told apart by their handles are found by them. -/
theorem entryForHandle_eq (hhandles : (store.entries.map fun entry => entry.receipt.handle).Nodup)
    (hentry : entry ∈ store.entries) : store.entryForHandle entry.receipt.handle = some entry := by
  cases hfound : store.entryForHandle entry.receipt.handle with
  | none => exact absurd (decide_eq_true rfl) (List.find?_eq_none.mp hfound entry hentry)
  | some found =>
    rw [MountedLxmfStore.entryForHandle] at hfound
    have htest := List.find?_some hfound
    have hsame : found.receipt.handle = entry.receipt.handle := of_decide_eq_true htest
    rw [List.inj_on_of_nodup_map hhandles (List.mem_of_find?_eq_some hfound) hentry hsame]

/-- Each handle of the index is answered with the entry behind it, and no handle with the first. -/
theorem lists_summaries (hhandles : (store.entries.map fun entry => entry.receipt.handle).Nodup)
    {summaries : List LxmfMessageSummary}
    (hsummaries : List.Forall₂ (fun entry summary => summarize store entry.receipt = .ok summary ∧
      Summarizes entry summary) store.entries summaries) :
    Pages.Lists LxmfMessageSummary.handle (lxmfNext ⟨some store, some mailbox⟩) none summaries := by
  have hseen : ∀ (after : Option LxmfMessageHandle) (entries : List IndexEntry)
      (rest : List LxmfMessageSummary),
      List.Forall₂ (fun entry summary => summarize store entry.receipt = .ok summary ∧
        Summarizes entry summary) entries rest →
      scanReceipts store after true (entries.map IndexEntry.receipt) = .ok rest.head? := by
    intro after entries rest hrest
    cases hrest with
    | nil => rfl
    | cons hfirst _ =>
      rw [List.map_cons, scanReceipts, hfirst.1]
      rfl
  refine Pages.lists_of_answers (hseen none _ _ hsummaries) fun front summary back hsplit => ?_
  rw [hsplit] at hsummaries
  obtain ⟨before, rest, hentries, -, hrest⟩ : ∃ before rest, store.entries = before ++ rest ∧
      List.Forall₂ _ before front ∧ List.Forall₂ _ rest (summary :: back) :=
    ⟨_, _, (List.take_append_drop front.length _).symm,
      List.forall₂_take_append _ _ _ hsummaries, List.forall₂_drop_append _ _ _ hsummaries⟩
  cases hrest with
  | @cons entry _ after _ hsummary hafter =>
    have hbefore : ∀ earlier ∈ before.map IndexEntry.receipt,
        earlier.handle ≠ entry.receipt.handle := by
      rw [hentries, List.map_append] at hhandles
      intro earlier hearlier hsame
      obtain ⟨other, hother, rfl⟩ := List.mem_map.mp hearlier
      exact (List.nodup_append.mp hhandles).2.2 _ (List.mem_map_of_mem hother) _
        (List.mem_map_of_mem List.mem_cons_self) hsame
    rw [lxmfNext, hsummary.2.handle]
    dsimp only
    rw [Option.isNone_some, MountedLxmfStore.receipts, hentries, List.map_append, List.map_cons,
      scanReceipts_after hbefore]
    exact hseen _ _ _ hafter

end Listing

section Stored

open LxmfStore

variable {ε : Type} {φ : Faults} {sha256 : Sha256} {ed25519 : Lxmf.Ed25519}
    {access : BoundLxmfStore}
  {system : LxmfSystem} {store : MountedLxmfStore} {entry : IndexEntry} {f : Flash}
  {candidate : InboundMessageCandidate} {mailbox : Mailbox.MountedMailboxStore}

/-- The candidate of some accepted carrier. -/
def Carried (sha256 : Sha256) (ed25519 : Lxmf.Ed25519)
    (candidate : InboundMessageCandidate) : Prop :=
  ∃ carrier limits resolver ingress view, Lxmf.parseIngress limits carrier = .ok view ∧
    CarriesCandidate sha256 ed25519 resolver carrier view ingress candidate

/-- The entry of a candidate, with its wire. -/
structure Stores (sha256 : Sha256) (f : Flash) (entry : IndexEntry)
    (candidate : InboundMessageCandidate) : Prop where
  metadata : entry.metadata = candidate.metadata
  messageId : entry.receipt.messageId = candidate.metadata.messageId
  digest : entry.receipt.fingerprint.exactWireDigest = sha256 candidate.bytes
  length : entry.wireLen = candidate.bytes.length
  wire : storedWire f entry = candidate.bytes

/-- Every entry holds a submitted candidate. -/
theorem exists_stored (h : LxmfSystem.Reachable ε φ sha256 access system)
    (hstore : system.store = some store) (hentry : entry ∈ store.entries) :
    ∃ candidate ∈ system.submitted, Stores sha256 system.flash entry candidate := by
  obtain ⟨capacity, position, hsound⟩ := h.sound
  have htracks := hsound.mounted store hstore
  rw [← htracks.entries] at hentry
  obtain ⟨header, hcommitted, hrecord⟩ :=
    (walked_mountStart.walk hsound.walk).indexed.committed entry hentry
  obtain ⟨candidate, hsubmitted, hmetadata, hdigest, hwire⟩ :=
    hsound.originates.committed htracks.shape hcommitted
  have hlength : header.metadata.lengths.normalizedWire = candidate.bytes.length := by
    rw [hmetadata, candidate.length_bytes]
  rw [hrecord]
  refine ⟨candidate, hsubmitted, hmetadata, congrArg InboundMessageMetadata.messageId hmetadata,
    hdigest, hlength, ?_⟩
  have hstored : storedWire system.flash (recordEntry entry.firstExtent header) =
      (payloadAt system.flash entry.firstExtent header.extentCount).take
        header.metadata.lengths.normalizedWire := rfl
  rw [hstored, hlength]
  exact hwire

/-- The lengths of a carried message are those of a message. -/
theorem Carried.listable (h : Carried sha256 ed25519 candidate)
    (hmetadata : entry.metadata = candidate.metadata) : Listable entry := by
  obtain ⟨carrier, limits, resolver, ingress, view, hparse, hcandidate⟩ := h
  obtain ⟨-, his⟩ := CarriesCandidate.isCandidateOf hparse hcandidate
  obtain ⟨destination, body, -, hparses⟩ := Lxmf.parseIngress_ok_iff.mp hparse
  have htitle : candidate.metadata.lengths.title = view.payload.title.bytes.length :=
    congrArg Lxmf.AuthenticatedMessageFingerprint.titleLen his.fingerprint
  have hcontent : candidate.metadata.lengths.content = view.payload.content.bytes.length :=
    congrArg Lxmf.AuthenticatedMessageFingerprint.contentLen his.fingerprint
  have hfields : candidate.metadata.lengths.fieldsEncoded = view.payload.fields.raw.length :=
    congrArg Lxmf.AuthenticatedMessageFingerprint.fieldsEncodedLen his.fingerprint
  rw [Listable, hmetadata, htitle, hcontent, hfields, his.normalizedWire]
  exact minimum_le_wire hparses

/-- Entries of a mounted index are told apart by their handles. -/
theorem nodup_handles (h : LxmfSystem.Reachable ε φ sha256 access system)
    (hstore : system.store = some store) :
    (store.entries.map fun entry => entry.receipt.handle).Nodup := by
  obtain ⟨capacity, position, hsound⟩ := h.sound
  rw [← (hsound.mounted store hstore).entries]
  exact List.pairwise_map.mpr (walked_mountStart.walk hsound.walk).indexed.handles

/-- What is acknowledged is indexed, in the same order. -/
theorem acknowledged_sublist (h : LxmfSystem.Reachable ε φ sha256 access system)
    (hstore : system.store = some store) :
    (system.acknowledged.map fun message => message.1.handle).Sublist
      (store.entries.map fun entry => entry.receipt.handle) := by
  obtain ⟨capacity, position, hsound⟩ := h.sound
  obtain ⟨logged, hsublist, hacknowledged⟩ := hsound.logged
  have hsame : (logged.map fun entry => entry.receipt.handle) =
      system.acknowledged.map fun message => message.1.handle :=
    map_eq_of_forall₂ (hacknowledged.imp fun entry message h => by rw [h.receipt])
  rw [← hsame, ← (hsound.mounted store hstore).entries]
  exact hsublist.map _

/-- The listing of a mounted inbox. -/
theorem exists_listing (h : LxmfSystem.Reachable ε φ sha256 access system)
    (hcarried : ∀ candidate ∈ system.submitted, Carried sha256 ed25519 candidate)
    (hstore : system.store = some store) (mailbox : Mailbox.MountedMailboxStore) :
    ∃ summaries, List.Forall₂ Summarizes store.entries summaries ∧
      Pages.Lists LxmfMessageSummary.handle (lxmfNext ⟨some store, some mailbox⟩) none
        summaries := by
  have hhandles := nodup_handles h hstore
  have hsummary : ∀ entry ∈ store.entries, ∃ summary,
      summarize store entry.receipt = .ok summary ∧ Summarizes entry summary := by
    intro entry hentry
    obtain ⟨candidate, hsubmitted, hstores⟩ := exists_stored h hstore hentry
    exact exists_summary (entryForHandle_eq hhandles hentry)
      ((hcarried candidate hsubmitted).listable hstores.metadata)
  obtain ⟨summaries, hsummaries⟩ := exists_forall₂ hsummary
  exact ⟨summaries, hsummaries.imp fun _ _ h => h.2, lists_summaries hhandles hsummaries⟩

/-- What is listed is indexed. -/
theorem listed_entry (h : LxmfSystem.Reachable ε φ sha256 access system)
    (hcarried : ∀ candidate ∈ system.submitted, Carried sha256 ed25519 candidate)
    (hstore : system.store = some store) {summaries : List LxmfMessageSummary}
    (hlists : Pages.Lists LxmfMessageSummary.handle (lxmfNext ⟨some store, some mailbox⟩) none
      summaries) {summary : LxmfMessageSummary} (hsummary : summary ∈ summaries) :
    ∃ entry ∈ store.entries, Summarizes entry summary := by
  obtain ⟨listed, hlisted, hlists'⟩ := exists_listing h hcarried hstore mailbox
  obtain rfl := hlists'.unique hlists
  obtain ⟨index, hindex, rfl⟩ := List.mem_iff_getElem.mp hsummary
  have hinside : index < store.entries.length := hlisted.length_eq ▸ hindex
  exact ⟨store.entries[index], List.getElem_mem hinside, (List.forall₂_iff_get.mp hlisted).2 index
    hinside hindex⟩

/-- In every run in which every submitted message came in an accepted carrier, whatever its form and
its limits, whatever the backend reports and wherever power was lost: listing the mounted inbox from
its start, each time from the handle that was returned last, returns one summary for every entry in
the order of the commits and then ends, and never fails. A summary has the metadata of its entry,
and the length and the digest of the exact wire of a submitted message. Every acknowledged message
is listed, in the order of the acknowledgements. -/
theorem every_message_listed (h : LxmfSystem.Reachable ε φ sha256 access system)
    (hcarried : ∀ candidate ∈ system.submitted, Carried sha256 ed25519 candidate)
    (hstore : system.store = some store) (mailbox : Mailbox.MountedMailboxStore) :
    ∃ summaries,
      Pages.Lists LxmfMessageSummary.handle (lxmfNext ⟨some store, some mailbox⟩) none summaries ∧
      List.Forall₂ (fun entry summary => Summarizes entry summary ∧
        ∃ candidate ∈ system.submitted, entry.metadata = candidate.metadata ∧
          summary.exactWireSha256 = sha256 candidate.bytes ∧
          summary.normalizedWireLen = candidate.bytes.length) store.entries summaries ∧
      (system.acknowledged.map fun message => message.1.handle).Sublist
        (summaries.map LxmfMessageSummary.handle) := by
  obtain ⟨summaries, hsummaries, hlists⟩ := exists_listing h hcarried hstore mailbox
  refine ⟨summaries, hlists, ?_, ?_⟩
  · have hmem := (List.forall₂_and_left _ _).mpr ⟨fun _ hentry => hentry, hsummaries⟩
    refine hmem.imp fun entry summary ⟨hentry, hsummarizes⟩ => ⟨hsummarizes, ?_⟩
    obtain ⟨candidate, hsubmitted, hstores⟩ := exists_stored h hstore hentry
    refine ⟨candidate, hsubmitted, hstores.metadata, ?_, ?_⟩
    · rw [hsummarizes.exactWireSha256, hstores.digest]
    · rw [hsummarizes.normalizedWireLen, hstores.metadata, candidate.length_bytes]
  · rw [← map_eq_of_forall₂ (hsummaries.imp fun entry summary hsummary => hsummary.handle.symm)]
    exact acknowledged_sublist h hstore

/-- A message without text is committed from a packet. -/
theorem exists_carried_sample :
    ∃ system store, LxmfSystem.Reachable Unit Faults.none Nor.sha256 twoExtents system ∧
      (∀ candidate ∈ system.submitted, Carried Nor.sha256 noKeys candidate ∧
        candidate.bytes.length = 111) ∧
      system.store = some store ∧ store.entries.length = 1 := by
  obtain ⟨view, hparses, -⟩ := Lxmf.parsesBody_sample .opportunistic
  have hparse : Lxmf.parseIngress Lxmf.wireLimits
      (.opportunistic Lxmf.sampleDestination Lxmf.sampleBody) = .ok view :=
    Lxmf.parseIngress_ok_iff.mpr ⟨_, _, ⟨rfl, rfl⟩, hparses⟩
  have hlength : view.normalizedWireLen = 111 := by
    obtain ⟨-, -, payload, -, rfl⟩ := Lxmf.parsesBody_iff.mp hparses
    rfl
  obtain ⟨candidate, hcandidate, his⟩ := @exists_candidate Nor.sha256 noKeys noSourceIdentity
    Lxmf.wireLimits view (.opportunistic Lxmf.sampleDestination Lxmf.sampleBody) none hparse
    (by rw [hlength]; decide)
  have htotal := candidate.length_eq
  rw [his.normalizedWire, hlength] at htotal
  obtain ⟨system, hreachable, hsubmitted, hstore, -⟩ := committedSystem_reachable
    (admission_first Nor.sha256 htotal)
  refine ⟨system, _, hreachable, fun other hother => ?_, hstore, rfl⟩
  rw [hsubmitted] at hother
  obtain rfl := List.mem_singleton.mp hother
  exact ⟨⟨_, _, _, _, view, hparse, hcandidate⟩,
    other.wire.segments.length_bytes.trans htotal⟩

/-- A mailbox from which nothing was collected. -/
def freshMailbox : Mailbox.MountedMailboxStore :=
  ⟨⟨Vector.replicate 16 1, 0, 8192, 2⟩, Mailbox.firstGeneration, none, .a⟩

/-- The message without text is listed. -/
theorem every_message_listed_sample :
    ∃ store summary, Pages.Lists LxmfMessageSummary.handle
      (lxmfNext ⟨some store, some freshMailbox⟩) none [summary] := by
  obtain ⟨system, store, hreachable, hcarried, hstore, hlength⟩ := exists_carried_sample
  obtain ⟨summaries, hlists, hsummaries, -⟩ := every_message_listed hreachable
    (fun candidate hsubmitted => (hcarried candidate hsubmitted).1) hstore freshMailbox
  rw [hsummaries.length_eq] at hlength
  obtain ⟨summary, rfl⟩ := List.length_eq_one_iff.mp hlength
  exact ⟨store, summary, hlists⟩

end Stored

section Collection

open LxmfStore ApplianceSync

variable {ε : Type} {φ : Faults} {sha256 : Sha256} {ed25519 : Lxmf.Ed25519}
    {access : BoundLxmfStore}
  {system : LxmfSystem} {store : MountedLxmfStore} {entry : IndexEntry} {f : Flash}
  {mailbox : Mailbox.MountedMailboxStore}

variable (ε) in
/-- The device behind a transport that delivers. Reads leave the contents as they are. -/
def device (sha256 : Sha256) (access : BoundLxmfStore) (inbox : Inbox) (f : Flash) :
    DeviceApiRequester Unit := fun request state =>
  (.ok ((answerLxmfRead (ε := ε) sha256 access inbox request).run f).1, state)

/-- An answer with bytes is one chunk of the message. -/
theorem readAnswer_ok {handle : LxmfMessageHandle} {offset wireLength count : ℕ}
    {bytes rest : List Byte} (hcount : bytes.length = count) (hpos : 0 < count)
    (hle : count ≤ maxLxmfReadChunkBytes) (hinside : offset + count ≤ wireLength)
    (hlt : wireLength < 2 ^ 32) :
    ∃ chunk, readAnswer (ε := ε) handle (.ok (⟨offset, wireLength, count⟩, bytes ++ rest)) =
        .ok (some chunk) ∧ chunk.handle = handle ∧ chunk.offset = offset ∧
      chunk.totalLen = wireLength ∧ chunk.bytes = bytes := by
  obtain ⟨chunk, hnew, hchunk⟩ := @LxmfReadChunk.exists_new handle offset wireLength bytes hlt
    (List.length_pos_iff.mp (hcount ▸ hpos)) (hcount ▸ hle) (hcount ▸ hinside)
  refine ⟨chunk, ?_, hchunk⟩
  rw [readAnswer, if_neg (Nat.ne_of_gt hpos), dif_pos hlt, List.take_left' hcount, hnew]

/-- What the device answers while both stores are mounted. -/
theorem response_eq (request : LxmfReadRequest) :
    ((answerLxmfRead (ε := ε) sha256 access ⟨some store, some mailbox⟩ request).run f).1 =
      readResponse (readAnswer request.handle ((readWireChunk sha256 access store request.handle
        request.offset (List.replicate request.maxBytes.get 0) : ReadAction ε _).answer f)) := by
  rw [answerLxmfRead, lxmfRead]
  dsimp only
  rw [NonZeroU64.new_get]
  dsimp only
  rw [Prog.run_bind, Prog.run_bind]
  rfl

/-- The device serves the wire of an entry. -/
theorem serves_entry (hread : validateReadAccess access = .ok ())
    (hbinding : store.binding = access.binding)
    (hentry : store.entryForHandle entry.receipt.handle = some entry)
    (hreadable : Readable sha256 access f entry)
    (hlt : entry.wireLen < 2 ^ 32) :
    Serves (device ε sha256 access ⟨some store, some mailbox⟩ f) entry.receipt.handle
      (storedWire f entry) := by
  have hlength : (storedWire f entry).length = entry.wireLen := by
    rw [hreadable.storedWire, length_wireBytes]
  intro request state hhandle hoffset
  rw [hlength] at hoffset
  have hpos := request.maxBytes.pos
  have hle := request.maxBytes.le
  have hanswer := @answer_readWireChunk ε sha256 access f entry store request.handle request.offset
    (List.replicate request.maxBytes.get 0) hread hbinding (hhandle ▸ hentry) hreadable hoffset.le
  rw [List.length_replicate] at hanswer
  have hslice : (slice (storedWire f entry) request.offset
      (min request.maxBytes.get (entry.wireLen - request.offset))).length =
        min request.maxBytes.get (entry.wireLen - request.offset) := by
    rw [slice, List.length_take, List.length_drop, hlength]
    omega
  obtain ⟨chunk, hchunk, hsame, hat, htotal, hbytes⟩ := @readAnswer_ok ε request.handle
    request.offset entry.wireLen _ _ (List.drop
      (min request.maxBytes.get (entry.wireLen - request.offset))
      (List.replicate request.maxBytes.get 0)) hslice (by omega) (by omega) (by omega) hlt
  refine ⟨chunk, ?_, hsame.trans hhandle, hat, htotal.trans hlength.symm, ?_⟩
  · rw [device, response_eq, hanswer, hchunk, readResponse]
  · rw [hbytes, slice]
    exact List.take_prefix_take_left (by omega)

/-- What a read of an entry of a mounted store relies on. -/
theorem readable_of_entry (h : LxmfSystem.Reachable ε φ sha256 access system)
    (hstore : system.store = some store) (hentry : entry ∈ store.entries) :
    validateReadAccess access = .ok () ∧ store.binding = access.binding ∧
      Readable sha256 access system.flash entry := by
  obtain ⟨capacity, position, hsound⟩ := h.sound
  have htracks := hsound.mounted store hstore
  rw [← htracks.entries] at hentry
  obtain ⟨header, hcommitted, hrecord⟩ :=
    (walked_mountStart.walk hsound.walk).indexed.committed entry hentry
  refine ⟨htracks.readable, htracks.binding, ?_⟩
  rw [hrecord]
  exact hcommitted.readable htracks.shape

/-- In every run in which every submitted message came in an accepted carrier, whatever the backend
reported and wherever power was lost: a client whose reads the backend answers collects any listed
message of the mounted inbox chunk by chunk. It returns the exact wire of a submitted message with
the identifier, the length and the digest of its summary, unless it is over the client's limit or
there is no room for it. It is the wire that was acknowledged with the handle, if one was. -/
theorem inbox_collected (h : LxmfSystem.Reachable ε φ sha256 access system)
    (hcarried : ∀ candidate ∈ system.submitted, Carried sha256 ed25519 candidate)
    (hstore : system.store = some store) {summaries : List LxmfMessageSummary}
    (hlists : Pages.Lists LxmfMessageSummary.handle (lxmfNext ⟨some store, some mailbox⟩) none
      summaries) {summary : LxmfMessageSummary} (hsummary : summary ∈ summaries) :
    ∃ wire, (∃ candidate ∈ system.submitted, candidate.bytes = wire ∧
        candidate.metadata.messageId = summary.messageId) ∧
      (∀ message ∈ system.acknowledged, message.1.handle = summary.handle →
        message.2.bytes = wire) ∧
      wire.length = summary.normalizedWireLen ∧ sha256 wire = summary.exactWireSha256 ∧
      ∀ reserves : ℕ → Bool, wire.length ≤ maxRequestSessionLxmfWireBytes →
        reserves wire.length = true →
        (readCompleteLxmf sha256 reserves (device ε sha256 access ⟨some store, some mailbox⟩
          system.flash) summary ()).result = .ok wire := by
  have hhandles := nodup_handles h hstore
  obtain ⟨entry, hentry, hsummarizes⟩ : ∃ entry ∈ store.entries, Summarizes entry summary :=
    listed_entry h hcarried hstore hlists hsummary
  obtain ⟨candidate, hsubmitted, hstores⟩ := exists_stored h hstore hentry
  obtain ⟨hread, hbinding, hreadable⟩ := readable_of_entry h hstore hentry
  have hlength : candidate.bytes.length = summary.normalizedWireLen := by
    rw [hsummarizes.normalizedWireLen, hstores.metadata, candidate.length_bytes]
  have hdigest : sha256 candidate.bytes = summary.exactWireSha256 := by
    rw [hsummarizes.exactWireSha256, hstores.digest]
  refine ⟨candidate.bytes, ⟨candidate, hsubmitted, rfl, ?_⟩, fun message hmessage hsame => ?_,
    hlength,
    hdigest, fun reserves hlimit hreserves => ?_⟩
  · rw [hsummarizes.messageId, hstores.messageId]
  · obtain ⟨other, hother, hacknowledged⟩ := h.acknowledged hstore hmessage
    obtain rfl : other = entry := List.inj_on_of_nodup_map hhandles hother hentry
      (by rw [hacknowledged.receipt, hsame, hsummarizes.handle])
    rw [← hstores.wire, storedWire, hstores.length, candidate.length_bytes, ← hstores.metadata,
      hacknowledged.metadata, ← message.2.length_bytes]
    exact hacknowledged.wire.symm
  · have hserves : Serves (device ε sha256 access ⟨some store, some mailbox⟩ system.flash)
        summary.handle candidate.bytes := by
      rw [hsummarizes.handle, ← hstores.wire]
      exact serves_entry hread hbinding (entryForHandle_eq hhandles hentry) hreadable
        (hstores.length.trans hlength ▸ summary.wire_lt)
    rw [readCompleteLxmf, if_neg (not_lt.mpr (hlength ▸ hlimit)),
      if_neg (not_not.mpr (hlength ▸ hreserves))]
    exact hserves.collect hlength hdigest 0 [] rfl ()

/-- The message without text is collected. -/
theorem inbox_collected_sample :
    ∃ store f summary wire, (readCompleteLxmf Nor.sha256 (fun _ => true) (device Unit Nor.sha256
      twoExtents ⟨some store, some freshMailbox⟩ f) summary ()).result = .ok wire := by
  obtain ⟨system, store, hreachable, hcarried, hstore, hlength⟩ := exists_carried_sample
  have hall := fun candidate hsubmitted => (hcarried candidate hsubmitted).1
  obtain ⟨summaries, hsummaries, hlists⟩ := exists_listing hreachable hall hstore freshMailbox
  rw [hsummaries.length_eq] at hlength
  obtain ⟨summary, rfl⟩ := List.length_eq_one_iff.mp hlength
  obtain ⟨wire, ⟨candidate, hsubmitted, rfl, -⟩, -, -, -, hread⟩ :=
    inbox_collected hreachable hall hstore hlists List.mem_cons_self
  exact ⟨store, system.flash, summary, candidate.bytes, hread (fun _ => true)
    (by rw [(hcarried candidate hsubmitted).2]; decide) rfl⟩

end Collection

end ProductStore
