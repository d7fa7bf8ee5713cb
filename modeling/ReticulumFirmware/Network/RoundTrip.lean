import ReticulumFirmware.Nor.Sha256
import ReticulumFirmware.Network.History

/-!
# Round trips of configuration records

A record is scanned as the configuration that it encodes, whatever slots its profiles are in,
provided that its predecessor fits its generation. A commit on a backend that does not fail
therefore never finds another configuration than the one it wrote.
-/

namespace Network

open Nor

variable {ε : Type} {sha256 : Sha256} {binding : NetworkConfigStoreBinding}
  {sector : NetworkConfigStoreSector} {generation : NonZeroU64} {predecessorGeneration : ℕ}
  {predecessorDigest : SnapshotDigest} {configuration other : NetworkConfig} {f : Flash}

/-- Sameness of configurations is symmetric. -/
theorem NetworkConfig.Same.symm {left right : NetworkConfig} (h : left.Same right) :
    right.Same left :=
  ⟨h.wifiProfiles.symm, h.tcpPeer.symm, h.wifiTransportEnabled.symm,
    h.automaticAnnouncesEnabled.symm, h.rmapDiscoveryEnabled.symm, h.rmapShareLocation.symm,
    h.phoneLocation.symm, h.loraProfile.symm⟩

/-- Sameness of configurations is transitive. -/
theorem NetworkConfig.Same.trans {left middle right : NetworkConfig} (h : left.Same middle)
    (h' : middle.Same right) : left.Same right :=
  ⟨h.wifiProfiles.trans h'.wifiProfiles, h.tcpPeer.trans h'.tcpPeer,
    h.wifiTransportEnabled.trans h'.wifiTransportEnabled,
    h.automaticAnnouncesEnabled.trans h'.automaticAnnouncesEnabled,
    h.rmapDiscoveryEnabled.trans h'.rmapDiscoveryEnabled,
    h.rmapShareLocation.trans h'.rmapShareLocation, h.phoneLocation.trans h'.phoneLocation,
    h.loraProfile.trans h'.loraProfile⟩

/-- Scanning a sector into which a record was written judges its predecessor and nothing else. -/
theorem eval_scanSector_record (hpredecessor : predecessorGeneration < 2 ^ 64)
    (herased : f.Erased sector.offset 4096) :
    let g := f.program sector.offset (encodeRecord sha256 binding sector generation
      predecessorGeneration predecessorDigest configuration)
    (scanSector sha256 binding sector : NetworkConfigAction ε _).eval g =
      (.ok (if badPredecessor generation.get predecessorGeneration predecessorDigest then
          .invalid sector .committedCorrupt
        else .valid (recordSnapshot sha256 binding sector generation predecessorGeneration
          predecessorDigest configuration)), g) := by
  intro g
  have hrecord : IsRecord (encodeRecord sha256 binding sector generation predecessorGeneration
      predecessorDigest configuration) := isRecord_encodeRecord ..
  rw [eval_scanSector, hrecord.status_complete herased, decodeCommitted_encodeRecord hpredecessor]

/-- Equal records encode configurations with the same values. -/
theorem configurationEq_of_encodeRecord_eq {binding' : NetworkConfigStoreBinding}
    {sector' : NetworkConfigStoreSector} {generation' : NonZeroU64} {predecessorGeneration' : ℕ}
    {predecessorDigest' : SnapshotDigest}
    (h : encodeRecord sha256 binding sector generation predecessorGeneration predecessorDigest
        configuration =
      encodeRecord sha256 binding' sector' generation' predecessorGeneration' predecessorDigest'
        other) : configurationEq configuration other = true := by
  obtain ⟨-, htake, -, -⟩ := record_parts sha256 binding sector generation predecessorGeneration
    predecessorDigest configuration
  obtain ⟨-, htake', -, -⟩ := record_parts sha256 binding' sector' generation'
    predecessorGeneration' predecessorDigest' other
  have hprotected := congrArg (List.take 1024) h
  rw [htake, htake'] at hprotected
  have hdecoded := congrArg decodeConfiguration hprotected
  rw [decodeConfiguration_encodeProtected, decodeConfiguration_encodeProtected] at hdecoded
  have hcompact : configuration.compact = other.compact := Option.some.inj hdecoded
  exact configurationEq_iff.mpr
    (configuration.compact_same.symm.trans (hcompact ▸ other.compact_same))

/-- The choice between two snapshots does not blame the verification. -/
theorem linkTwoValid_ne_verification (newer older : ValidSnapshot) :
    linkTwoValid newer older ≠ .error .successorVerificationFailed := by
  unfold linkTwoValid
  split
  · nofun
  · nofun

/-- The choice of one snapshot does not blame the verification. -/
theorem selectOneValid_ne_verification (valid : ValidSnapshot)
    (uncommitted : Option NetworkConfigStoreSector) :
    selectOneValid valid uncommitted ≠ .error .successorVerificationFailed := by
  unfold selectOneValid
  split
  · nofun
  · split
    · nofun
    · nofun

/-- An invalid sector is not blamed on the verification. -/
theorem mapInvalid_ne_verification (sector : NetworkConfigStoreSector)
    (kind : InvalidSectorKind) : mapInvalid sector kind ≠ .successorVerificationFailed := by
  cases kind <;> nofun

/-- The faults of a selection are about the two sectors. -/
theorem select_ne_verification (a b : SectorStatus) :
    select a b ≠ .error .successorVerificationFailed := by
  unfold select
  split
  · nofun
  · exact fun h => mapInvalid_ne_verification _ _ (Except.error.inj h)
  · exact fun h => mapInvalid_ne_verification _ _ (Except.error.inj h)
  · unfold selectTwoValid
    split
    · exact linkTwoValid_ne_verification _ _
    · exact linkTwoValid_ne_verification _ _
  · exact selectOneValid_ne_verification _ _
  · exact selectOneValid_ne_verification _ _
  · exact selectOneValid_ne_verification _ _
  · exact selectOneValid_ne_verification _ _
  · nofun
  · nofun
  · nofun

/-- The checks of a commit do not verify a successor. -/
theorem authorize_ne_verification (access : BoundNetworkConfigStore)
    (token : NetworkConfigRevision) (f : Flash) :
    authorize ε sha256 access token f ≠ .error (.fault .successorVerificationFailed) := by
  unfold authorize
  cases validateWriteBinding access with
  | error error => nofun
  | ok u =>
    cases validateSameBinding token.binding access.binding with
    | error error => nofun
    | ok u =>
      cases hmounted : mounted sha256 access.binding f with
      | error fault =>
        intro h
        have hfault : fault = .successorVerificationFailed :=
          NetworkConfigStoreError.fault.inj (Except.error.inj h)
        exact select_ne_verification _ _ (hfault ▸ hmounted)
      | ok store =>
        intro h
        change (if store.revision = token then Except.ok store else _) = _ at h
        split at h
        · cases h
        · cases h

/-- A commit on a backend that does not fail is never refused by its own verification. -/
theorem commitSuccessor_verified (access : BoundNetworkConfigStore)
    (token : NetworkConfigRevision) (configuration : NetworkConfig) (f : Flash) :
    ((commitSuccessor sha256 access token configuration : NetworkConfigAction ε _).eval f).1 ≠
      .error (.fault .successorVerificationFailed) := by
  rw [eval_commitSuccessor]
  cases hauthorized : authorize ε sha256 access token f with
  | error error =>
    intro h
    obtain rfl : error = .fault .successorVerificationFailed := Except.error.inj h
    exact authorize_ne_verification access token f hauthorized
  | ok store =>
    dsimp only
    cases NonZeroU64.new (store.revision.generation.get + 1) with
    | none => nofun
    | some generation =>
      dsimp only
      split
      · nofun
      · nofun

/-- A provisioning of mountable contents is refused. -/
theorem eval_provisionErased_mounted {access : BoundNetworkConfigStore}
    (hwrite : validateWriteBinding access = .ok ()) {store : MountedNetworkConfigStore}
    (hmounted : mounted sha256 access.binding f = .ok store) (configuration : NetworkConfig) :
    (provisionErased sha256 access configuration : NetworkConfigAction ε _).eval f =
      (.error (.fault .alreadyProvisioned), f) := by
  have hmount : (mount sha256 access : NetworkConfigAction ε _).eval f = _ :=
    eval_mount (validateReadBinding_of_write hwrite) f
  rw [hmounted] at hmount
  unfold provisionErased
  rw [hwrite]
  refine (Action.eval_bind_ok (Action.eval_attempt ..)).trans ?_
  rw [hmount]
  rfl

/-- A provisioning of contents with a fault other than being erased is refused with that fault. -/
theorem eval_provisionErased_fault {access : BoundNetworkConfigStore}
    (hwrite : validateWriteBinding access = .ok ()) {fault : NetworkConfigStoreFault}
    (hmounted : mounted sha256 access.binding f = .error fault)
    (hfault : fault ≠ .unformattedErased)
    (configuration : NetworkConfig) :
    (provisionErased sha256 access configuration : NetworkConfigAction ε _).eval f =
      (.error (.fault fault), f) := by
  have hmount : (mount sha256 access : NetworkConfigAction ε _).eval f = _ :=
    eval_mount (validateReadBinding_of_write hwrite) f
  rw [hmounted] at hmount
  unfold provisionErased
  rw [hwrite]
  refine (Action.eval_bind_ok (Action.eval_attempt ..)).trans ?_
  rw [hmount]
  cases fault with
  | unformattedErased => exact absurd rfl hfault
  | _ => rfl

/-- A provisioning on a backend that does not fail is never refused by its own verification. -/
theorem provisionErased_verified (access : BoundNetworkConfigStore)
    (configuration : NetworkConfig) (f : Flash) :
    ((provisionErased sha256 access configuration : NetworkConfigAction ε _).eval f).1 ≠
      .error (.fault .successorVerificationFailed) := by
  cases hwrite : validateWriteBinding access with
  | error error =>
    unfold provisionErased
    rw [hwrite]
    nofun
  | ok u =>
    cases hmounted : mounted sha256 access.binding f with
    | ok store =>
      rw [eval_provisionErased_mounted hwrite hmounted]
      nofun
    | error fault =>
      by_cases hfault : fault = .unformattedErased
      · subst hfault
        rw [eval_provisionErased hwrite (mounted_unformattedErased hmounted)]
        nofun
      · rw [eval_provisionErased_fault hwrite hmounted hfault]
        intro h
        have hsame : fault = .successorVerificationFailed :=
          NetworkConfigStoreError.fault.inj (Except.error.inj h)
        exact select_ne_verification _ _ (hsame ▸ hmounted)

/-- A record of a fitting predecessor is scanned as the configuration, the generation, the
predecessor and the digest that were written; no commit or provisioning on a backend that does
not fail is refused by its own verification; and different configurations have different
records. -/
theorem encodeRecord_round_trip (sha256 : Sha256) (access : BoundNetworkConfigStore)
    (configuration : NetworkConfig) (f : Flash) :
    (∀ (sector : NetworkConfigStoreSector) (generation : NonZeroU64) (predecessorGeneration : ℕ)
        (predecessorDigest : SnapshotDigest), predecessorGeneration < 2 ^ 64 →
        ¬ badPredecessor generation.get predecessorGeneration predecessorDigest →
        f.Erased sector.offset 4096 →
      let record := encodeRecord sha256 access.binding sector generation predecessorGeneration
        predecessorDigest configuration
      ∃ snapshot, (scanSector sha256 access.binding sector : NetworkConfigAction ε _).eval
            (f.program sector.offset record) =
          (.ok (.valid snapshot), f.program sector.offset record) ∧
        configurationEq snapshot.configuration configuration = true ∧
        snapshot.revision.generation = generation ∧
        snapshot.predecessorGeneration = predecessorGeneration ∧
        snapshot.predecessorDigest = predecessorDigest ∧
        snapshot.revision.digest.toList = slice record digestOffset digestSize) ∧
    ((provisionErased sha256 access configuration : NetworkConfigAction ε _).eval f).1 ≠
      .error (.fault .successorVerificationFailed) ∧
    (∀ token, ((commitSuccessor sha256 access token configuration :
        NetworkConfigAction ε _).eval f).1 ≠ .error (.fault .successorVerificationFailed)) ∧
    ∀ other, configurationEq configuration other = false →
      ∀ sector generation predecessorGeneration predecessorDigest,
        encodeRecord sha256 access.binding sector generation predecessorGeneration
            predecessorDigest configuration ≠
          encodeRecord sha256 access.binding sector generation predecessorGeneration
            predecessorDigest other := by
  refine ⟨?_, provisionErased_verified access configuration f,
    fun token => commitSuccessor_verified access token configuration f, ?_⟩
  · intro sector generation predecessorGeneration predecessorDigest hpredecessor hfits herased
      record
    have hscan := @eval_scanSector_record ε sha256 access.binding sector generation
      predecessorGeneration predecessorDigest configuration f hpredecessor herased
    rw [if_neg hfits] at hscan
    obtain ⟨-, -, hdigest, -⟩ := record_parts sha256 access.binding sector generation
      predecessorGeneration predecessorDigest configuration
    exact ⟨_, hscan, configurationEq_iff.mpr configuration.compact_same, rfl, rfl, rfl,
      hdigest.symm⟩
  · intro other hdiffers sector generation predecessorGeneration predecessorDigest hrecord
    rw [configurationEq_of_encodeRecord_eq hrecord] at hdiffers
    cases hdiffers

/-- The binding of a partition at the start of the flash. -/
def originBinding : NetworkConfigStoreBinding where
  device := Vector.replicate 16 1
  absoluteOffset := 0
  length := partitionSize
  formatVersion := physicalFormatVersion

/-- A first generation that names a predecessor is not scanned as valid. -/
theorem encodeRecord_unfitting_rejected :
    let g := Flash.erased.program NetworkConfigStoreSector.a.offset
      (encodeRecord Nor.sha256 originBinding .a firstGeneration 1 zeroDigest .empty)
    (scanSector Nor.sha256 originBinding .a : NetworkConfigAction Unit _).eval g =
      (.ok (.invalid .a .committedCorrupt), g) := by
  intro g
  have hscan := @eval_scanSector_record Unit Nor.sha256 originBinding .a firstGeneration 1
    zeroDigest
    .empty .erased (by decide) fun _ _ => rfl
  rwa [if_pos (by decide)] at hscan

end Network
