import Mathlib.Data.List.MinMax
import ReticulumFirmware.Nor.Bytes

/-!
# The discovered peers

A fixed table of the latest announce per destination, and the read of one record after a cursor.
A generation numbers the observations that a table accepted; a cursor is an exclusive generation.
-/

namespace Discovery

open Nor

/-- A destination of the network. -/
abbrev DestinationHash := Vector Byte 16

/-- The hash of an identity. -/
abbrev IdentityHash := Vector Byte 16

/-- The identifier of the interface that an announce came in on. -/
abbrev ObservedInterfaceId := Vector Byte 8

/-- The signal that an announce was received with. -/
structure SignalObservations where
  rssiDbm : Option ℤ
  snrDb : Option ℤ
  deriving DecidableEq

/-- How an announce was received. -/
structure ObservationMetadata where
  hops : Byte
  interface : ObservedInterfaceId
  signal : SignalObservations
  observedAt : ℕ
  deriving DecidableEq

/-- A validated announce. -/
structure AuthenticatedAnnounceObservation where
  destination : DestinationHash
  identityHash : IdentityHash
  appData : List Byte
  metadata : ObservationMetadata
  deriving DecidableEq

/-- The latest announce of one destination. -/
structure DiscoveredPeer (appDataCapacity : ℕ) where
  destination : DestinationHash
  identityHash : IdentityHash
  appData : List Byte
  bounded : appData.length ≤ appDataCapacity
  hops : Byte
  interface : ObservedInterfaceId
  signal : SignalObservations
  observedAt : ℕ
  generation : ℕ
  deriving DecidableEq

/-- Why an observation is not retained. -/
inductive ObserveError where
  | appDataTooLarge (supplied capacity : ℕ)
  | regressed (previous observed : ℕ)
  | generationExhausted
  deriving DecidableEq

/-- What an accepted observation did to the table. -/
inductive ObserveDisposition where
  | inserted
  | updated
  | evicted (destination : DestinationHash)
  deriving DecidableEq

/-- The generation of an accepted observation, and what it did to the table. -/
structure ObserveOutcome where
  generation : ℕ
  disposition : ObserveDisposition
  deriving DecidableEq

/-- A cursor that no observation has reached. -/
inductive DiscoveryCursorError where
  | aheadOfHistory (cursor : ℕ) (latest : Option ℕ)
  deriving DecidableEq

variable {appDataCapacity : ℕ}

/-- The record of an observation. -/
def DiscoveredPeer.fromObservation (observation : AuthenticatedAnnounceObservation)
    (bounded : observation.appData.length ≤ appDataCapacity)
    (generation : ℕ) : DiscoveredPeer appDataCapacity :=
  { destination := observation.destination
    identityHash := observation.identityHash
    appData := observation.appData
    bounded
    hops := observation.metadata.hops
    interface := observation.metadata.interface
    signal := observation.metadata.signal
    observedAt := observation.metadata.observedAt
    generation }

/-- At most one record after a cursor. -/
structure DiscoveryPage (appDataCapacity : ℕ) where
  peer : Option (DiscoveredPeer appDataCapacity)
  nextCursor : ℕ
  observedThrough : Option ℕ
  oldestRetained : Option ℕ
  historyGap : Bool

/-- The table. -/
structure DiscoveredPeers (appDataCapacity : ℕ) where
  peers : List (Option (DiscoveredPeer appDataCapacity))
  nonempty : peers ≠ []
  len : ℕ
  latestGeneration : ℕ
  lastObservedAt : Option ℕ

namespace DiscoveredPeers

/-- An empty table, unless it has no slots. -/
def tryNew (appDataCapacity slots : ℕ) : Option (DiscoveredPeers appDataCapacity) :=
  if h : slots = 0 then none
  else some ⟨List.replicate slots none, by simpa using h, 0, 0, none⟩

variable (self : DiscoveredPeers appDataCapacity)

/-- The records, in the order of their slots. -/
def records : List (DiscoveredPeer appDataCapacity) := self.peers.filterMap (fun slot => slot)

/-- The slots of the table. -/
def capacity : ℕ := self.peers.length

/-- The generation of the last accepted observation. -/
def latest : Option ℕ :=
  if self.latestGeneration = 0 then none else some self.latestGeneration

/-- The slot of a destination. -/
def indexOf (destination : DestinationHash) : Option ℕ :=
  self.peers.findIdx? fun slot => slot.any fun peer => peer.destination = destination

/-- The first slot without a record. -/
def firstEmptySlot : Option ℕ := self.peers.findIdx? Option.isNone

/-- The slot with the smallest generation, and its record. -/
def oldestSlot : Option (ℕ × DiscoveredPeer appDataCapacity) :=
  (self.peers.zipIdx.filterMap fun (slot, index) => slot.map fun peer => (index, peer)).argmin
    fun (_, peer) => peer.generation

/-- A table without an empty slot has an oldest one. -/
theorem oldestSlot_isSome (h : self.firstEmptySlot = none) : self.oldestSlot.isSome := by
  obtain ⟨slot, slots, hpeers⟩ := List.exists_cons_of_ne_nil self.nonempty
  have hslot : slot.isNone = false := by
    rw [firstEmptySlot, List.findIdx?_eq_none_iff] at h
    exact h slot (by simp [hpeers])
  obtain ⟨peer, rfl⟩ : ∃ peer, slot = some peer := by
    cases slot with
    | none => cases hslot
    | some peer => exact ⟨peer, rfl⟩
  rw [Option.isSome_iff_ne_none, oldestSlot, Ne, List.argmin_eq_none]
  simp [hpeers]

/-- The slot for an observation, and what taking it does. -/
def place (destination : DestinationHash) : ℕ × ObserveDisposition :=
  match self.indexOf destination with
  | some index => (index, .updated)
  | none =>
    match h : self.firstEmptySlot with
    | some index => (index, .inserted)
    | none =>
      let oldest := self.oldestSlot.get (self.oldestSlot_isSome h)
      (oldest.1, .evicted oldest.2.destination)

/-- Retain one announce. -/
def observe (observation : AuthenticatedAnnounceObservation) :
    Except ObserveError ObserveOutcome × DiscoveredPeers appDataCapacity :=
  if hfits : observation.appData.length ≤ appDataCapacity then
    match self.lastObservedAt.filter (observation.metadata.observedAt < ·) with
    | some previous => (.error (.regressed previous observation.metadata.observedAt), self)
    | none =>
      let nextGeneration := self.latestGeneration + 1
      if nextGeneration < 2 ^ 64 then
        let (slot, disposition) := self.place observation.destination
        (.ok ⟨nextGeneration, disposition⟩,
          { peers := self.peers.set slot (some (.fromObservation observation hfits nextGeneration))
            nonempty := by simpa using self.nonempty
            len := if disposition = .inserted then self.len + 1 else self.len
            latestGeneration := nextGeneration
            lastObservedAt := some observation.metadata.observedAt })
      else (.error .generationExhausted, self)
  else (.error (.appDataTooLarge observation.appData.length appDataCapacity), self)

/-- Read at most one record after a cursor. -/
def pageAfter (cursor : ℕ) :
    Except DiscoveryCursorError (DiscoveryPage appDataCapacity) :=
  if cursor > self.latestGeneration then .error (.aheadOfHistory cursor self.latest)
  else
    let peer := (self.records.filter (cursor < ·.generation)).argmin (·.generation)
    .ok
      { peer
        nextCursor := (peer.map (·.generation)).getD cursor
        observedThrough := self.latest
        oldestRetained := (self.records.map (·.generation)).min?
        historyGap := peer.any (·.generation - cursor > 1) }

end DiscoveredPeers

end Discovery
