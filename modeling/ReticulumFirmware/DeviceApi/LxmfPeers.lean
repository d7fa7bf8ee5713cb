import ReticulumFirmware.DeviceApi.Envelope
import ReticulumFirmware.DeviceApi.Lxmf

/-!
# Pages of discovered peers on the device interface

The page of `device-api/src/model/lxmf.rs` with at most one discovered peer, and its body on the
wire. The decoder checks how the generations of a page fit together.
-/

namespace DeviceApi

open Nor (Byte NonZeroU64)
open Cbor
open Decode

/-- The most application data of a peer. -/
abbrev maxLxmfPeerAppDataBytes : ℕ := 256

/-- The response number of a page of peers. -/
abbrev opLxmfPeerNext : BitVec 16 := 0xf007

/-- The token of one incarnation of the table of peers. -/
abbrev LxmfPeerDiscoveryIncarnation := Vector Byte 8

/-- Exclusive peer-discovery cursor scoped to one incarnation. -/
structure LxmfPeerDiscoveryCursor where
  incarnation : LxmfPeerDiscoveryIncarnation
  afterGeneration : BitVec 64
  deriving DecidableEq

/-- The place of an observation in the history of peers. -/
abbrev LxmfPeerGeneration := NonZeroU64

/-- Application data over the limit. -/
structure LxmfPeerAppDataTooLarge where
  actual : ℕ

/-- One retained announce. -/
structure LxmfDiscoveredPeer where
  destination : DestinationHash
  identityHash : IdentityHash
  appData : List Byte
  bounded : appData.length ≤ maxLxmfPeerAppDataBytes
  hops : BitVec 8
  interfaceId : ReticulumInterfaceId
  rssiDbm : Option (BitVec 16)
  snrDb : Option (BitVec 16)
  observedAgeMs : BitVec 64
  generation : LxmfPeerGeneration
  deriving DecidableEq

/-- A peer, if its application data is within the limit. -/
def LxmfDiscoveredPeer.new (destination : DestinationHash) (identityHash : IdentityHash)
    (appData : List Byte) (hops : BitVec 8) (interfaceId : ReticulumInterfaceId)
    (rssiDbm snrDb : Option (BitVec 16)) (observedAgeMs : BitVec 64)
    (generation : LxmfPeerGeneration) : Except LxmfPeerAppDataTooLarge LxmfDiscoveredPeer :=
  if bounded : appData.length ≤ maxLxmfPeerAppDataBytes then
    .ok ⟨destination, identityHash, appData, bounded, hops, interfaceId, rssiDbm, snrDb,
      observedAgeMs, generation⟩
  else .error ⟨appData.length⟩

/-- One page, with at most one peer. -/
structure LxmfPeerDiscoveryPage where
  nextCursor : LxmfPeerDiscoveryCursor
  latestGeneration : Option LxmfPeerGeneration
  oldestRetainedGeneration : Option LxmfPeerGeneration
  historyGap : Bool
  peer : Option LxmfDiscoveredPeer
  deriving DecidableEq

section Decoding

variable (reader : Reader)

/-- A generation, which is not zero. -/
def decodeLxmfPeerGeneration (field : RequiredField) : Decode LxmfPeerGeneration := do
  let value ← primitive reader.u64
  orFail (NonZeroU64.new value.toNat) (.invalidValue field value.toNat)

/-- What is known of a peer while its map is read. -/
structure PeerFields where
  destination : Option DestinationHash
  identityHash : Option IdentityHash
  appData : Option (List Byte)
  hops : Option (BitVec 8)
  interfaceId : Option ReticulumInterfaceId
  rssiDbm : Option (BitVec 16)
  rssiSeen : Bool
  snrDb : Option (BitVec 16)
  snrSeen : Bool
  observedAgeMs : Option (BitVec 64)
  generation : Option LxmfPeerGeneration

/-- No field of a peer has been read. -/
def PeerFields.empty : PeerFields :=
  ⟨none, none, none, none, none, none, false, none, false, none, none⟩

/-- Application data within the limit. -/
def decodePeerAppData : Decode (List Byte) := do
  let bytes ← primitive reader.bytes
  if maxLxmfPeerAppDataBytes < bytes.length then
    fail (.lxmfPeerAppDataTooLarge bytes.length maxLxmfPeerAppDataBytes)
  else pure bytes

/-- Read one entry of a peer. -/
def decodePeerEntry (fields : PeerFields) : Decode PeerFields := do
  let key ← primitive reader.u64
  match key.toNat with
  | 0 => do
    rejectDuplicate fields.destination.isSome .lxmfPeerDestination
    let destination ← decodeFixedBytes reader 16 .lxmfPeerDestination
    pure { fields with destination := some destination }
  | 1 => do
    rejectDuplicate fields.identityHash.isSome .lxmfPeerIdentityHash
    let identityHash ← decodeFixedBytes reader 16 .lxmfPeerIdentityHash
    pure { fields with identityHash := some identityHash }
  | 2 => do
    rejectDuplicate fields.appData.isSome .lxmfPeerAppData
    let appData ← decodePeerAppData reader
    pure { fields with appData := some appData }
  | 3 => do
    rejectDuplicate fields.hops.isSome .lxmfPeerHops
    let hops ← primitive reader.u8
    pure { fields with hops := some hops }
  | 4 => do
    rejectDuplicate fields.interfaceId.isSome .lxmfPeerInterfaceId
    let interfaceId ← decodeFixedBytes reader 8 .lxmfPeerInterfaceId
    pure { fields with interfaceId := some interfaceId }
  | 5 => do
    rejectDuplicate fields.rssiSeen .lxmfPeerRssiDbm
    let rssiDbm ← primitive reader.i16
    pure { fields with rssiDbm := some rssiDbm, rssiSeen := true }
  | 6 => do
    rejectDuplicate fields.snrSeen .lxmfPeerSnrDb
    let snrDb ← primitive reader.i16
    pure { fields with snrDb := some snrDb, snrSeen := true }
  | 7 => do
    rejectDuplicate fields.observedAgeMs.isSome .lxmfPeerObservedAge
    let observedAgeMs ← primitive reader.u64
    pure { fields with observedAgeMs := some observedAgeMs }
  | 8 => do
    rejectDuplicate fields.generation.isSome .lxmfPeerGeneration
    let generation ← decodeLxmfPeerGeneration reader .lxmfPeerGeneration
    pure { fields with generation := some generation }
  | _ => do
    skipStrict reader 0
    pure fields

/-- The peer, if every required field was read. -/
def finishPeer (fields : PeerFields) : Decode LxmfDiscoveredPeer := do
  let destination ← require fields.destination .lxmfPeerDestination
  let identityHash ← require fields.identityHash .lxmfPeerIdentityHash
  let appData ← require fields.appData .lxmfPeerAppData
  let hops ← require fields.hops .lxmfPeerHops
  let interfaceId ← require fields.interfaceId .lxmfPeerInterfaceId
  let observedAgeMs ← require fields.observedAgeMs .lxmfPeerObservedAge
  let generation ← require fields.generation .lxmfPeerGeneration
  match LxmfDiscoveredPeer.new destination identityHash appData hops interfaceId fields.rssiDbm
      fields.snrDb observedAgeMs generation with
  | .ok peer => pure peer
  | .error tooLarge => fail (.lxmfPeerAppDataTooLarge tooLarge.actual maxLxmfPeerAppDataBytes)

/-- Read a peer. -/
def decodeLxmfDiscoveredPeer : Decode LxmfDiscoveredPeer := do
  let entries ← decodeMapLen reader
  let fields ← times (decodePeerEntry reader) entries .empty
  finishPeer fields

/-- What is known of a page while its map is read. -/
structure PeerPageFields where
  incarnation : Option LxmfPeerDiscoveryIncarnation
  nextGeneration : Option (BitVec 64)
  latestGeneration : Option LxmfPeerGeneration
  oldestGeneration : Option LxmfPeerGeneration
  historyGap : Option Bool
  peer : Option LxmfDiscoveredPeer
  peerSeen : Bool

/-- No field of a page has been read. -/
def PeerPageFields.empty : PeerPageFields := ⟨none, none, none, none, none, none, false⟩

/-- Read one entry of a page. -/
def decodePeerPageEntry (fields : PeerPageFields) : Decode PeerPageFields := do
  let key ← primitive reader.u64
  match key.toNat with
  | 0 => do
    rejectDuplicate fields.incarnation.isSome .lxmfPeerCursorIncarnation
    let incarnation ← decodeFixedBytes reader 8 .lxmfPeerCursorIncarnation
    pure { fields with incarnation := some incarnation }
  | 1 => do
    rejectDuplicate fields.nextGeneration.isSome .lxmfPeerCursorGeneration
    let nextGeneration ← primitive reader.u64
    pure { fields with nextGeneration := some nextGeneration }
  | 2 => do
    rejectDuplicate fields.latestGeneration.isSome .lxmfPeerLatestGeneration
    let latest ← decodeLxmfPeerGeneration reader .lxmfPeerLatestGeneration
    pure { fields with latestGeneration := some latest }
  | 3 => do
    rejectDuplicate fields.oldestGeneration.isSome .lxmfPeerOldestGeneration
    let oldest ← decodeLxmfPeerGeneration reader .lxmfPeerOldestGeneration
    pure { fields with oldestGeneration := some oldest }
  | 4 => do
    rejectDuplicate fields.historyGap.isSome .lxmfPeerHistoryGap
    let historyGap ← primitive reader.bool
    pure { fields with historyGap := some historyGap }
  | 5 => do
    rejectDuplicate fields.peerSeen .lxmfPeerRecord
    let peer ← decodeLxmfDiscoveredPeer reader
    pure { fields with peer := some peer, peerSeen := true }
  | _ => do
    skipStrict reader 0
    pure fields

/-- Whether the generations of a page fit together. -/
def LxmfPeerDiscoveryPage.consistent (page : LxmfPeerDiscoveryPage) : Bool :=
  let after := page.nextCursor.afterGeneration.toNat
  match page.oldestRetainedGeneration, page.latestGeneration with
  | some oldest, some latest =>
    oldest.get ≤ latest.get ∧ after ≤ latest.get ∧
      page.peer.all fun peer => peer.generation.get = after ∧ oldest.get ≤ peer.generation.get ∧
        peer.generation.get ≤ latest.get
  | none, none => after = 0 ∧ page.peer.isNone
  | _, _ => false

/-- The page, if every required field was read and they are consistent. -/
def finishPeerPage (fields : PeerPageFields) : Decode LxmfPeerDiscoveryPage := do
  finish .malformed
  let incarnation ← require fields.incarnation .lxmfPeerCursorIncarnation
  let nextGeneration ← require fields.nextGeneration .lxmfPeerCursorGeneration
  let historyGap ← require fields.historyGap .lxmfPeerHistoryGap
  let page : LxmfPeerDiscoveryPage := ⟨⟨incarnation, nextGeneration⟩, fields.latestGeneration,
    fields.oldestGeneration, historyGap, fields.peer⟩
  if page.consistent then pure page else fail .malformed

/-- Read a body that is one page. -/
def decodeLxmfPeerDiscoveryPage (body : List Byte) : Except DecodeError LxmfPeerDiscoveryPage :=
  Decode.run (do
    let entries ← decodeMapLen reader
    let fields ← times (decodePeerPageEntry reader) entries .empty
    finishPeerPage fields) body

end Decoding

section Encoding

variable (writer : Writer)

/-- The map of a peer. -/
def encodeLxmfDiscoveredPeer (peer : LxmfDiscoveredPeer) : List Byte :=
  writer.map (7 + peer.rssiDbm.isSome.toNat + peer.snrDb.isSome.toNat) ++
    ((writer.u8 0 ++ encodeFixedBytes writer peer.destination) ++
    (writer.u8 1 ++ encodeFixedBytes writer peer.identityHash) ++
    (writer.u8 2 ++ writer.bytes peer.appData) ++
    (writer.u8 3 ++ writer.u8 peer.hops) ++
    (writer.u8 4 ++ encodeFixedBytes writer peer.interfaceId) ++
    peer.rssiDbm.elim [] (fun rssiDbm => writer.u8 5 ++ writer.i16 rssiDbm) ++
    peer.snrDb.elim [] (fun snrDb => writer.u8 6 ++ writer.i16 snrDb) ++
    (writer.u8 7 ++ writer.u64 peer.observedAgeMs) ++
    (writer.u8 8 ++ writer.u64 (BitVec.ofNat 64 peer.generation.get)))

/-- The body of a page. -/
def encodeLxmfPeerDiscoveryPage (page : LxmfPeerDiscoveryPage) : List Byte :=
  writer.map (3 + page.latestGeneration.isSome.toNat +
      page.oldestRetainedGeneration.isSome.toNat + page.peer.isSome.toNat) ++
    ((writer.u8 0 ++ encodeFixedBytes writer page.nextCursor.incarnation) ++
    (writer.u8 1 ++ writer.u64 page.nextCursor.afterGeneration) ++
    page.latestGeneration.elim []
      (fun latest => writer.u8 2 ++ writer.u64 (BitVec.ofNat 64 latest.get)) ++
    page.oldestRetainedGeneration.elim []
      (fun oldest => writer.u8 3 ++ writer.u64 (BitVec.ofNat 64 oldest.get)) ++
    (writer.u8 4 ++ writer.bool page.historyGap) ++
    page.peer.elim [] (fun peer => writer.u8 5 ++ encodeLxmfDiscoveredPeer writer peer))

end Encoding

/-- A page of peers, or a response of another kind. -/
inductive DeviceResponse (Other : Type) where
  | lxmfPeerNext (page : LxmfPeerDiscoveryPage)
  | other (response : Other)

/-- The bodies of all kinds, where those of the other kinds are given. -/
def deviceResponses (reader : Reader) (writer : Writer) {Other : Type} (others : Responses Other) :
    Responses (DeviceResponse Other) where
  kind
    | .lxmfPeerNext _ => opLxmfPeerNext
    | .other response => others.kind response
  capabilitiesVersion
    | .lxmfPeerNext _ => none
    | .other response => others.capabilitiesVersion response
  encodeBody
    | .lxmfPeerNext page => encodeLxmfPeerDiscoveryPage writer page
    | .other response => others.encodeBody response
  decodeBody kind body :=
    if kind = opLxmfPeerNext then (decodeLxmfPeerDiscoveryPage reader body).map .lxmfPeerNext
    else (others.decodeBody kind body).map .other

section RoundTrip

variable {reader : Reader} {writer : Writer} {next : List Byte → Option (Token × List Byte)}

/-- A written generation is taken. -/
theorem takes_generation (h : reader.Lawful next) (h' : writer.Lawful next)
    (field : RequiredField) (generation : LxmfPeerGeneration) :
    Takes (decodeLxmfPeerGeneration reader field)
      (writer.u64 (BitVec.ofNat 64 generation.get)) generation := by
  have hvalue : (BitVec.ofNat 64 generation.get).toNat = generation.get := by
    rw [BitVec.toNat_ofNat, Nat.mod_eq_of_lt generation.lt]
  refine (takes_u64 h h' _).bind_nil (takes_orFail ?_)
  rw [hvalue, NonZeroU64.new_get]

/-- Written application data within the bound is taken. -/
theorem takes_peerAppData (h : reader.Lawful next) (h' : writer.Lawful next)
    {appData : List Byte} (hbounded : appData.length ≤ maxLxmfPeerAppDataBytes) :
    Takes (decodePeerAppData reader) (writer.bytes appData) appData := by
  refine (takes_bytes h h' (hbounded.trans_lt (by decide))).bind_nil ?_
  rw [if_neg (Nat.not_lt.mpr hbounded)]
  exact .pure appData

/-- The entries of a peer, in the order of their keys. -/
theorem entries_peer (h : reader.Lawful next) (h' : writer.Lawful next) (peer : LxmfDiscoveredPeer)
    (remaining : ℕ) :
    ∃ count output, encodeLxmfDiscoveredPeer writer peer = writer.map count ++ output ∧
      count ≤ maxMapEntries ∧
      Entries reader remaining (decodePeerEntry reader) count output .empty
        ⟨some peer.destination, some peer.identityHash, some peer.appData, some peer.hops,
          some peer.interfaceId, peer.rssiDbm, peer.rssiDbm.isSome, peer.snrDb,
          peer.snrDb.isSome, some peer.observedAgeMs, some peer.generation⟩ := by
  have hdestination : Entries reader remaining (decodePeerEntry reader) 1
      (writer.u8 0 ++ encodeFixedBytes writer peer.destination) .empty _ :=
    .field h h' 0 (takes_fixedBytes h h' (by decide) _ peer.destination)
      (takes_skip_fixedBytes h h' (by decide) _ _) rfl rfl rfl rfl
  have hidentity := hdestination.add (.field h h' 1
    (takes_fixedBytes h h' (by decide) _ peer.identityHash)
    (takes_skip_fixedBytes h h' (by decide) _ _) rfl rfl rfl rfl)
  have happData := hidentity.add (.field h h' 2 (takes_peerAppData h h' peer.bounded)
    (takes_skip_atom h (h'.bytes _ (peer.bounded.trans_lt (by decide))) (Or.inl rfl) _) rfl rfl
      rfl rfl)
  have hhops := happData.add (.field h h' 3 (takes_u8 h h' peer.hops)
    (takes_skip_atom h (h'.u8 _) (Or.inl rfl) _) rfl rfl rfl rfl)
  have hinterface := hhops.add (.field h h' 4
    (takes_fixedBytes h h' (by decide) _ peer.interfaceId)
    (takes_skip_fixedBytes h h' (by decide) _ _) rfl rfl rfl rfl)
  have hrssi := hinterface.add (.present peer.rssiDbm
    (fun rssiDbm => ⟨some peer.destination, some peer.identityHash, some peer.appData,
      some peer.hops, some peer.interfaceId, rssiDbm, rssiDbm.isSome, none, false, none, none⟩) rfl
    fun rssiDbm => .field h h' 5 (takes_i16 h h' rssiDbm)
      (takes_skip_atom h (h'.i16 _) (Token.isAtom_int _) _) rfl rfl rfl rfl)
  have hsnr := hrssi.add (.present peer.snrDb
    (fun snrDb => ⟨some peer.destination, some peer.identityHash, some peer.appData,
      some peer.hops, some peer.interfaceId, peer.rssiDbm, peer.rssiDbm.isSome, snrDb,
      snrDb.isSome, none, none⟩) rfl
    fun snrDb => .field h h' 6 (takes_i16 h h' snrDb)
      (takes_skip_atom h (h'.i16 _) (Token.isAtom_int _) _) rfl rfl rfl rfl)
  have hage := hsnr.add (.field h h' 7 (takes_u64 h h' peer.observedAgeMs)
    (takes_skip_atom h (h'.u64 _) (Or.inl rfl) _) rfl rfl rfl rfl)
  have hgeneration := hage.add (.field h h' 8 (takes_generation h h' _ peer.generation)
    (takes_skip_atom h (h'.u64 _) (Or.inl rfl) _) rfl rfl rfl rfl)
  have hcount : 1 + 1 + 1 + 1 + 1 + peer.rssiDbm.isSome.toNat + peer.snrDb.isSome.toNat + 1 + 1 =
      7 + peer.rssiDbm.isSome.toNat + peer.snrDb.isSome.toNat := by omega
  rw [hcount] at hgeneration
  have hrssiLe := Bool.toNat_le peer.rssiDbm.isSome
  have hsnrLe := Bool.toNat_le peer.snrDb.isSome
  refine ⟨_, _, rfl, ?_, hgeneration⟩
  simp only [maxMapEntries]
  omega

/-- A written peer is taken. -/
theorem takes_peer (h : reader.Lawful next) (h' : writer.Lawful next)
    (peer : LxmfDiscoveredPeer) :
    Takes (decodeLxmfDiscoveredPeer reader) (encodeLxmfDiscoveredPeer writer peer) peer := by
  obtain ⟨count, output, houtput, hcount, hentries⟩ := entries_peer h h' peer 0
  rw [houtput]
  refine hentries.takes_map h h' hcount ?_
  have hnew : LxmfDiscoveredPeer.new peer.destination peer.identityHash peer.appData peer.hops
      peer.interfaceId peer.rssiDbm peer.snrDb peer.observedAgeMs peer.generation = .ok peer :=
    dif_pos peer.bounded
  unfold finishPeer
  refine .bind_nil (takes_require _ rfl) (.bind_nil (takes_require _ rfl) ?_)
  refine .bind_nil (takes_require _ rfl) (.bind_nil (takes_require _ rfl) ?_)
  refine .bind_nil (takes_require _ rfl) (.bind_nil (takes_require _ rfl) ?_)
  refine .bind_nil (takes_require _ rfl) ?_
  rw [hnew]
  exact .pure peer

/-- A written peer is skipped. -/
theorem skips_peer (h : reader.Lawful next) (h' : writer.Lawful next)
    (peer : LxmfDiscoveredPeer) (remaining : ℕ) :
    Takes (skipWithin reader (remaining + 1)) (encodeLxmfDiscoveredPeer writer peer) () := by
  obtain ⟨count, output, houtput, hcount, hentries⟩ := entries_peer h h' peer remaining
  rw [houtput]
  exact hentries.skips_map h h' hcount

/-- The entries of a page, in the order of their keys. -/
theorem entries_page (h : reader.Lawful next) (h' : writer.Lawful next)
    (page : LxmfPeerDiscoveryPage) :
    ∃ count output, encodeLxmfPeerDiscoveryPage writer page = writer.map count ++ output ∧
      count ≤ maxMapEntries ∧
      Entries reader 7 (decodePeerPageEntry reader) count output .empty
        ⟨some page.nextCursor.incarnation, some page.nextCursor.afterGeneration,
          page.latestGeneration, page.oldestRetainedGeneration, some page.historyGap, page.peer,
          page.peer.isSome⟩ := by
  have hincarnation : Entries reader 7 (decodePeerPageEntry reader) 1
      (writer.u8 0 ++ encodeFixedBytes writer page.nextCursor.incarnation) .empty _ :=
    .field h h' 0 (takes_fixedBytes h h' (by decide) _ page.nextCursor.incarnation)
      (takes_skip_fixedBytes h h' (by decide) _ _) rfl rfl rfl rfl
  have hcursor := hincarnation.add (.field h h' 1
    (takes_u64 h h' page.nextCursor.afterGeneration)
    (takes_skip_atom h (h'.u64 _) (Or.inl rfl) _) rfl rfl rfl rfl)
  have hlatest := hcursor.add (.present page.latestGeneration
    (fun latest => ⟨some page.nextCursor.incarnation, some page.nextCursor.afterGeneration, latest,
      none, none, none, false⟩) rfl
    fun latest => .field h h' 2 (takes_generation h h' _ latest)
      (takes_skip_atom h (h'.u64 _) (Or.inl rfl) _) rfl rfl rfl rfl)
  have holdest := hlatest.add (.present page.oldestRetainedGeneration
    (fun oldest => ⟨some page.nextCursor.incarnation, some page.nextCursor.afterGeneration,
      page.latestGeneration, oldest, none, none, false⟩) rfl
    fun oldest => .field h h' 3 (takes_generation h h' _ oldest)
      (takes_skip_atom h (h'.u64 _) (Or.inl rfl) _) rfl rfl rfl rfl)
  have hgap := holdest.add (.field h h' 4 (takes_bool h h' page.historyGap)
    (takes_skip_atom h (h'.bool _) (Or.inl rfl) _) rfl rfl rfl rfl)
  have hpeer := hgap.add (.present page.peer
    (fun peer => ⟨some page.nextCursor.incarnation, some page.nextCursor.afterGeneration,
      page.latestGeneration, page.oldestRetainedGeneration, some page.historyGap, peer,
      peer.isSome⟩) rfl
    fun peer => .field h h' 5 (takes_peer h h' peer) (skips_peer h h' peer 6) rfl rfl rfl rfl)
  have hcount : 1 + 1 + page.latestGeneration.isSome.toNat +
        page.oldestRetainedGeneration.isSome.toNat + 1 + page.peer.isSome.toNat =
      3 + page.latestGeneration.isSome.toNat + page.oldestRetainedGeneration.isSome.toNat +
        page.peer.isSome.toNat := by omega
  rw [hcount] at hpeer
  have hlatestLe := Bool.toNat_le page.latestGeneration.isSome
  have holdestLe := Bool.toNat_le page.oldestRetainedGeneration.isSome
  have hpeerLe := Bool.toNat_le page.peer.isSome
  refine ⟨_, _, rfl, ?_, hpeer⟩
  simp only [maxMapEntries]
  omega

/-- A written page is skipped within the nesting limit. -/
theorem skips_page (h : reader.Lawful next) (h' : writer.Lawful next)
    (page : LxmfPeerDiscoveryPage) :
    Takes (skipStrict reader 0) (encodeLxmfPeerDiscoveryPage writer page) () := by
  obtain ⟨count, output, houtput, hcount, hentries⟩ := entries_page h h' page
  rw [houtput]
  exact hentries.skips_map h h' hcount

/-- A page whose generations fit together comes back from its body. -/
theorem decode_encode_page (h : reader.Lawful next) (h' : writer.Lawful next)
    {page : LxmfPeerDiscoveryPage} (hpage : page.consistent = true) :
    decodeLxmfPeerDiscoveryPage reader (encodeLxmfPeerDiscoveryPage writer page) = .ok page := by
  obtain ⟨count, output, houtput, hcount, hentries⟩ := entries_page h h' page
  have hfinish : finishPeerPage ⟨some page.nextCursor.incarnation,
      some page.nextCursor.afterGeneration, page.latestGeneration, page.oldestRetainedGeneration,
      some page.historyGap, page.peer, page.peer.isSome⟩ [] = .ok (page, []) := by
    refine bind_eq_ok.mpr ⟨(), [], if_pos rfl, ?_⟩
    refine (?_ : Takes _ [] page) []
    refine .bind_nil (takes_require _ rfl) (.bind_nil (takes_require _ rfl) ?_)
    refine .bind_nil (takes_require _ rfl) ?_
    rw [if_pos hpage]
    exact .pure page
  have hdecode : (do
      let entries ← decodeMapLen reader
      let fields ← times (decodePeerPageEntry reader) entries .empty
      finishPeerPage fields : Decode LxmfPeerDiscoveryPage) (writer.map count ++ output) =
        .ok (page, []) := by
    refine bind_eq_ok.mpr ⟨count, _, takes_mapLen h h' hcount _, ?_⟩
    refine bind_eq_ok.mpr ⟨_, [], ?_, hfinish⟩
    simpa only [List.append_nil] using hentries.takes []
  rw [houtput, decodeLxmfPeerDiscoveryPage, Decode.run, hdecode]

/-- The bytes of an entry for a value that may be absent. -/
theorem length_present_le {α : Type} {encode : α → List Byte} {bound : ℕ}
    (hencode : ∀ inner, (encode inner).length ≤ bound) (value : Option α) :
    (value.elim [] encode).length ≤ bound := by
  cases value with
  | none => exact Nat.zero_le _
  | some inner => exact hencode inner

/-- A key takes at most two bytes before its value. -/
theorem length_key_le (h' : writer.Lawful next) (key : BitVec 8) {output : List Byte} {bound : ℕ}
    (houtput : output.length ≤ bound) : (writer.u8 key ++ output).length ≤ bound + 2 := by
  have hkey := h'.length_u8_le key
  rw [List.length_append]
  omega

/-- A peer is written in at most 347 bytes. -/
theorem length_peer (h' : writer.Lawful next) (peer : LxmfDiscoveredPeer) :
    (encodeLxmfDiscoveredPeer writer peer).length ≤ 347 := by
  have hrssiLe := Bool.toNat_le peer.rssiDbm.isSome
  have hsnrLe := Bool.toNat_le peer.snrDb.isSome
  have hmap : (writer.map (7 + peer.rssiDbm.isSome.toNat + peer.snrDb.isSome.toNat)).length = 1 :=
    h'.length_map (by omega)
  have hdestination := length_key_le h' 0 (length_fixed h' (by decide) peer.destination).le
  have hidentity := length_key_le h' 1 (length_fixed h' (by decide) peer.identityHash).le
  have hbytes : (writer.bytes peer.appData).length ≤ 3 + maxLxmfPeerAppDataBytes := by
    rw [h'.length_bytes (peer.bounded.trans_lt (by decide))]
    exact Nat.add_le_add (headLength_le_three (peer.bounded.trans_lt (by decide))) peer.bounded
  have happData := length_key_le h' 2 hbytes
  have hhops := length_key_le h' 3 (h'.length_u8_le peer.hops)
  have hinterface := length_key_le h' 4 (length_fixed h' (by decide) peer.interfaceId).le
  have hrssi := length_present_le (fun rssiDbm => length_key_le h' 5 (h'.length_i16_le rssiDbm))
    peer.rssiDbm
  have hsnr := length_present_le (fun snrDb => length_key_le h' 6 (h'.length_i16_le snrDb))
    peer.snrDb
  have hage := length_key_le h' 7 (h'.length_u64_le peer.observedAgeMs)
  have hgeneration := length_key_le h' 8
    (h'.length_u64_le (BitVec.ofNat 64 peer.generation.get))
  have h16 : headLength 16 = 1 := rfl
  have h8 : headLength 8 = 1 := rfl
  simp only [maxLxmfPeerAppDataBytes] at happData
  unfold encodeLxmfDiscoveredPeer
  simp only [List.length_append] at *
  omega

/-- Every page fits the body of a response. -/
theorem length_peerPage (h' : writer.Lawful next) (page : LxmfPeerDiscoveryPage) :
    (encodeLxmfPeerDiscoveryPage writer page).length ≤ maxBodyBytes := by
  have hlatestLe := Bool.toNat_le page.latestGeneration.isSome
  have holdestLe := Bool.toNat_le page.oldestRetainedGeneration.isSome
  have hpeerLe := Bool.toNat_le page.peer.isSome
  have hmap : (writer.map (3 + page.latestGeneration.isSome.toNat +
      page.oldestRetainedGeneration.isSome.toNat + page.peer.isSome.toNat)).length = 1 :=
    h'.length_map (by omega)
  have hincarnation := length_key_le h' 0
    (length_fixed h' (by decide) page.nextCursor.incarnation).le
  have hcursor := length_key_le h' 1 (h'.length_u64_le page.nextCursor.afterGeneration)
  have hlatest := length_present_le (fun latest : LxmfPeerGeneration => length_key_le h' 2
    (h'.length_u64_le (BitVec.ofNat 64 latest.get))) page.latestGeneration
  have holdest := length_present_le (fun oldest : LxmfPeerGeneration => length_key_le h' 3
    (h'.length_u64_le (BitVec.ofNat 64 oldest.get))) page.oldestRetainedGeneration
  have hgap := length_key_le h' 4 (h'.length_bool page.historyGap).le
  have hpeer := length_present_le (fun peer => length_key_le h' 5 (length_peer h' peer)) page.peer
  have h8 : headLength 8 = 1 := rfl
  simp only [maxBodyBytes]
  unfold encodeLxmfPeerDiscoveryPage
  simp only [List.length_append] at *
  omega

/-- A page whose generations fit together is written into a response and read back. -/
theorem decode_encode_lxmfPeerNext (h : reader.Lawful next) (h' : writer.Lawful next)
    {Other : Type} (others : Responses Other) (minor : BitVec 16) (requestId : RequestId)
    {page : LxmfPeerDiscoveryPage} (hpage : page.consistent = true) :
    ∃ output, encodeResponse writer (deviceResponses reader writer others)
        ⟨⟨apiVersionMajor, minor⟩, requestId, .lxmfPeerNext page⟩ maxMessageBytes = .ok output ∧
      decodeResponse reader (deviceResponses reader writer others) output =
        .ok ⟨⟨apiVersionMajor, minor⟩, requestId, .lxmfPeerNext page⟩ := by
  refine decode_encode_response h h' rfl rfl (skips_page h h' page) (length_peerPage h' page) ?_
  unfold deviceResponses
  dsimp only
  rw [if_pos rfl]
  rw [decode_encode_page h h' hpage, Except.map]

end RoundTrip

end DeviceApi
