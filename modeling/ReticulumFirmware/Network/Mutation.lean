import ReticulumFirmware.Network.Sector

/-!
# Changing the desired configuration

The product accepts one mutation of the desired network configuration at a time. A mutation
that would change nothing is recognised before the store is asked; any other is applied to a
copy of the configuration. This file embeds both checks of `product_store`.
-/

namespace Network

open Nor

/-- The desired-network authority of the product. -/
inductive NetworkAuthority where
  | freshErased
  | mounted (store : MountedNetworkConfigStore)
  | unavailable
  deriving DecidableEq

/-- Why an operation on the desired configuration fails. -/
inductive ProductNetworkConfigError where
  | unavailable
  | invalidRequest
  | backend
  | faulted
  | invariant
  deriving DecidableEq

/-- Treatment of the stored credential. -/
inductive WifiCredentialUpdate where
  | keep
  | replace (password : List Byte)
  deriving DecidableEq

/-- Complete desired Wi-Fi profile. -/
structure WifiNetworkUpdate where
  enabled : Bool
  priority : Byte
  ssid : List Byte
  credential : WifiCredentialUpdate
  deriving DecidableEq

/-- Requested IPv4 peer. -/
structure ReticulumTcpPeerUpdate where
  enabled : Bool
  ipv4Address : Vector Byte 4
  port : BitVec 16
  deriving DecidableEq

/-- Requested hostname peer. -/
structure ReticulumTcpPeerHostUpdate where
  enabled : Bool
  hostname : List Byte
  port : BitVec 16
  deriving DecidableEq

/-- Requested gateway policy. -/
structure GatewayPolicy where
  wifiTransportEnabled : Bool
  automaticAnnouncesEnabled : Bool
  deriving DecidableEq

/-- Requested position. -/
structure RmapLocation where
  latitudeE6 : BitVec 32
  longitudeE6 : BitVec 32
  deriving DecidableEq

/-- Requested discovery policy. -/
structure RmapConfig where
  discoveryEnabled : Bool
  shareLocation : Bool
  phoneLocation : Option RmapLocation
  deriving DecidableEq

/-- Requested radio profile. -/
structure ApiLoraRadioProfile where
  frequencyHz : BitVec 32
  bandwidthHz : BitVec 32
  spreadingFactor : Byte
  codingRateDenominator : Byte
  txPowerDbm : Byte
  deriving DecidableEq

/-- One change of the desired configuration. -/
inductive NetworkConfigMutation where
  | upsertWifi (profileId : Vector Byte 16) (network : WifiNetworkUpdate)
  | removeWifi (profileId : Vector Byte 16)
  | replaceTcpPeer (peer : Option ReticulumTcpPeerUpdate)
  | replaceTcpHostPeer (peer : Option ReticulumTcpPeerHostUpdate)
  | setGatewayPolicy (policy : GatewayPolicy)
  | setRmapConfig (config : RmapConfig)
  | setLoraTxPower (power : Byte)
  | setLoraProfile (profile : ApiLoraRadioProfile)
  deriving DecidableEq

/-- One compare-and-swap request. -/
structure NetworkConfigMutationRequest where
  mutation : NetworkConfigMutation
  expectedRevision : ℕ
  deriving DecidableEq

/-- The answer of a request that did not fail. -/
inductive NetworkConfigMutationOutcome where
  | applied (revision : ℕ) (rebootRequired : Bool)
  | revisionConflict (currentRevision : ℕ)
  deriving DecidableEq

/-- The answer of a check of a request. -/
abbrev Checked (α : Type) := Except ProductNetworkConfigError α

/-- A value the store's model rejects makes the request invalid. -/
def requireValid {α : Type} (answer : Validated α) : Checked α :=
  answer.mapError fun _ => .invalidRequest

/-- The identifier of a profile, as the store has it. -/
def storeWifiProfileId (profileId : Vector Byte 16) : Checked WifiProfileId :=
  requireValid (WifiProfileId.new profileId)

/-- A peer at a numeric address, as the store has it. -/
def storeTcpPeer (peer : ReticulumTcpPeerUpdate) : Checked OutboundTcpPeer :=
  requireValid (OutboundTcpPeer.new peer.ipv4Address peer.port peer.enabled)

/-- A peer at a host name, as the store has it. -/
def storeTcpHostPeer (peer : ReticulumTcpPeerHostUpdate) : Checked OutboundTcpPeer :=
  requireValid (OutboundTcpPeer.withDnsHostname peer.hostname peer.port peer.enabled)

/-- A location, as the store has it. -/
def storeRmapLocation (location : RmapLocation) : Checked PhoneLocation :=
  requireValid (PhoneLocation.new location.latitudeE6 location.longitudeE6)

/-- Why a stored radio profile does not fit the board. -/
inductive PrnsRadioProfileError where
  | unsupportedBandwidthHz (value : BitVec 32)
  | unsupportedSpreadingFactor (value : Byte)
  | unsupportedCodingRateDenominator (value : Byte)
  | channelOutsideFittedRange (frequencyHz : BitVec 32) (bandwidthHz lowerEdgeHz upperEdgeHz : ℕ)
  deriving DecidableEq

/-- The lowest frequency that the board is matched for. -/
abbrev rfMatchingMinHz : ℕ := 863000000

/-- The highest frequency that the board is matched for. -/
abbrev rfMatchingMaxHz : ℕ := 928000000

/-- The checks of the board's radio profile. -/
def prnsRadioProfile (product : LoraRadioProfile) : Except PrnsRadioProfileError Unit :=
  if ¬ (5 ≤ product.spreadingFactor.toNat ∧ product.spreadingFactor.toNat ≤ 12) then
    .error (.unsupportedSpreadingFactor product.spreadingFactor)
  else if product.bandwidthHz.toNat ∉ [125000, 250000, 500000] then
    .error (.unsupportedBandwidthHz product.bandwidthHz)
  else if ¬ (5 ≤ product.codingRateDenominator.toNat ∧ product.codingRateDenominator.toNat ≤ 8)
  then .error (.unsupportedCodingRateDenominator product.codingRateDenominator)
  else
    let bandwidthHz := product.bandwidthHz.toNat
    -- the difference saturates at zero
    let lowerEdgeHz := product.frequencyHz.toNat - bandwidthHz / 2
    let upperEdgeHz := product.frequencyHz.toNat + bandwidthHz / 2
    if lowerEdgeHz < rfMatchingMinHz ∨ rfMatchingMaxHz < upperEdgeHz then
      .error (.channelOutsideFittedRange product.frequencyHz bandwidthHz lowerEdgeHz upperEdgeHz)
    else .ok ()

/-- A radio profile, as the store has it, which has to fit the board. -/
def storeLoraProfile (profile : ApiLoraRadioProfile) : Checked LoraRadioProfile := do
  let power ← requireValid (LoraTxPower.tryFromDbm profile.txPowerDbm.toNat)
  let stored ← requireValid (LoraRadioProfile.new profile.frequencyHz profile.bandwidthHz
    profile.spreadingFactor profile.codingRateDenominator power)
  (prnsRadioProfile stored).mapError fun _ => .invalidRequest
  pure stored

/-- The committed configuration behind an authority; erased media has none. -/
def NetworkAuthority.configuration : NetworkAuthority → Checked (Option NetworkConfig)
  | mounted store => .ok (some store.configuration)
  | freshErased => .ok none
  | unavailable => .error .unavailable

/-- Whether a mutation restates what a configuration, or the defaults, already say. -/
def mutationRestates (configuration : Option NetworkConfig) :
    NetworkConfigMutation → Checked Bool
  | .upsertWifi profileId network => do
    let profileId ← storeWifiProfileId profileId
    match configuration.bind fun configuration =>
      configuration.wifiProfiles.find? (·.id == profileId) with
    | none =>
      if network.credential = .keep then .error .invalidRequest
      else if configuration.any fun configuration =>
        wifiProfileCapacity ≤ configuration.wifiProfileCount then .error .invalidRequest
      else .ok false
    | some existing =>
      -- replacement bytes are never compared with the stored secret
      let credentialMatches := network.credential == .keep
      .ok (existing.enabled == network.enabled && existing.priority == network.priority &&
        existing.ssid == network.ssid && credentialMatches)
  | .removeWifi profileId => do
    let profileId ← storeWifiProfileId profileId
    pure (configuration.all fun configuration =>
      !configuration.wifiProfiles.any (·.id == profileId))
  | .replaceTcpPeer peer => do
    let requested ← peer.mapM storeTcpPeer
    pure (configuration.bind (·.tcpPeer) == requested)
  | .replaceTcpHostPeer peer => do
    let requested ← peer.mapM storeTcpHostPeer
    pure (configuration.bind (·.tcpPeer) == requested)
  | .setGatewayPolicy policy =>
    let wifiTransportEnabled := configuration.all (·.wifiTransportEnabled)
    let automaticAnnouncesEnabled := configuration.all (·.automaticAnnouncesEnabled)
    pure (wifiTransportEnabled == policy.wifiTransportEnabled &&
      automaticAnnouncesEnabled == policy.automaticAnnouncesEnabled)
  | .setRmapConfig config => do
    let requestedLocation ← config.phoneLocation.mapM storeRmapLocation
    let (discoveryEnabled, shareLocation, phoneLocation) :=
      configuration.elim (false, false, none) fun value =>
        (value.rmapDiscoveryEnabled, value.rmapShareLocation, value.phoneLocation)
    pure (discoveryEnabled == config.discoveryEnabled && shareLocation == config.shareLocation &&
      phoneLocation == requestedLocation)
  | .setLoraTxPower power =>
    let selected := configuration.elim .dbm14 (·.loraProfile.txPower)
    pure (selected.requestedDbm == power.toNat)
  | .setLoraProfile profile => do
    let requested ← storeLoraProfile profile
    pure (configuration.elim .default (·.loraProfile) == requested)

/-- Whether the mutation would leave the desired configuration as it is. -/
def networkConfigMutationIsNoop (state : NetworkAuthority) (mutation : NetworkConfigMutation) :
    Checked Bool := do
  let configuration ← state.configuration
  mutationRestates configuration mutation

/-- The password of an updated profile: the retained one or its replacement. -/
def desiredPassword (configuration : NetworkConfig) (profileId : WifiProfileId) :
    WifiCredentialUpdate → Checked (List Byte)
  | .keep =>
    match configuration.wifiProfiles.find? (·.id == profileId) with
    | some existing => .ok existing.password
    | none => .error .invalidRequest
  | .replace password => .ok password

/-- Apply a mutation to a copy of the configuration. -/
def applyNetworkConfigMutation (configuration : NetworkConfig) :
    NetworkConfigMutation → Checked NetworkConfig
  | .upsertWifi profileId network => do
    let profileId ← storeWifiProfileId profileId
    let password ← desiredPassword configuration profileId network.credential
    let profile ← requireValid (WifiProfile.new profileId network.ssid password network.enabled
      network.priority)
    requireValid (configuration.upsertWifiProfile profile)
  | .removeWifi profileId => do
    let profileId ← storeWifiProfileId profileId
    pure (configuration.removeWifiProfile profileId)
  | .replaceTcpPeer peer => do
    let tcpPeer ← peer.mapM storeTcpPeer
    pure { configuration with tcpPeer }
  | .replaceTcpHostPeer peer => do
    let tcpPeer ← peer.mapM storeTcpHostPeer
    pure { configuration with tcpPeer }
  | .setGatewayPolicy policy =>
    pure { configuration with
      wifiTransportEnabled := policy.wifiTransportEnabled
      automaticAnnouncesEnabled := policy.automaticAnnouncesEnabled }
  | .setRmapConfig config => do
    let phoneLocation ← config.phoneLocation.mapM storeRmapLocation
    pure { configuration with
      rmapDiscoveryEnabled := config.discoveryEnabled
      rmapShareLocation := config.shareLocation
      phoneLocation }
  | .setLoraTxPower power => do
    let power ← requireValid (LoraTxPower.tryFromDbm power.toNat)
    pure { configuration with loraProfile := configuration.loraProfile.withTxPower power }
  | .setLoraProfile profile => do
    let loraProfile ← storeLoraProfile profile
    pure { configuration with loraProfile }

/-- Whether two profile lists agree in every retained field. -/
def profilesEqual : List WifiProfile → List WifiProfile → Bool
  | [], [] => true
  | l :: ls, r :: rs =>
    l.id == r.id && l.ssid == r.ssid && l.password == r.password && l.enabled == r.enabled &&
      l.priority == r.priority && profilesEqual ls rs
  | _, _ => false

/-- Whether two configurations have the same values. -/
def networkConfigurationsEqual (left right : NetworkConfig) : Bool :=
  profilesEqual left.wifiProfiles right.wifiProfiles && left.tcpPeer == right.tcpPeer &&
    left.wifiTransportEnabled == right.wifiTransportEnabled &&
    left.automaticAnnouncesEnabled == right.automaticAnnouncesEnabled &&
    left.rmapDiscoveryEnabled == right.rmapDiscoveryEnabled &&
    left.rmapShareLocation == right.rmapShareLocation &&
    left.phoneLocation == right.phoneLocation && left.loraProfile == right.loraProfile

/-- The profile comparison decides equality. -/
theorem profilesEqual_iff {left right : List WifiProfile} :
    profilesEqual left right = true ↔ left = right := by
  induction left generalizing right with
  | nil => cases right <;> simp [profilesEqual]
  | cons l ls ih =>
    cases right with
    | nil => simp [profilesEqual]
    | cons r rs =>
      simp only [profilesEqual, Bool.and_eq_true, beq_iff_eq, ih, List.cons.injEq]
      constructor
      · rintro ⟨⟨⟨⟨⟨hid, hssid⟩, hpassword⟩, henabled⟩, hpriority⟩, htail⟩
        cases l
        cases r
        simp_all
      · rintro ⟨rfl, rfl⟩
        simp

/-- The product's comparison decides whether two configurations retain the same values. -/
theorem networkConfigurationsEqual_iff {left right : NetworkConfig} :
    networkConfigurationsEqual left right = true ↔ left.Same right := by
  simp only [networkConfigurationsEqual, Bool.and_eq_true, beq_iff_eq, profilesEqual_iff]
  constructor
  · rintro ⟨⟨⟨⟨⟨⟨⟨hprofiles, hpeer⟩, hwifi⟩, hannounces⟩, hdiscovery⟩, hshare⟩, hlocation⟩, hlora⟩
    exact ⟨hprofiles, hpeer, hwifi, hannounces, hdiscovery, hshare, hlocation, hlora⟩
  · rintro ⟨hprofiles, hpeer, hwifi, hannounces, hdiscovery, hshare, hlocation, hlora⟩
    exact ⟨⟨⟨⟨⟨⟨⟨hprofiles, hpeer⟩, hwifi⟩, hannounces⟩, hdiscovery⟩, hshare⟩, hlocation⟩, hlora⟩

/-- The power a setting asks for is validated back. -/
@[simp] theorem LoraTxPower.tryFromDbm_requestedDbm (power : LoraTxPower) :
    tryFromDbm power.requestedDbm = .ok power := by
  cases power <;> decide

section Noop

variable {configuration : NetworkConfig} {mutation : NetworkConfigMutation}

/-- Storing a retained profile again changes nothing. -/
theorem upsertWifiProfile_retained {profile : WifiProfile}
    (h : profile ∈ configuration.wifiProfiles) :
    configuration.upsertWifiProfile profile = .ok configuration := by
  have hmem : some profile ∈ configuration.wifiSlots := List.reduceOption_mem_iff.mp h
  unfold NetworkConfig.upsertWifiProfile
  split
  · next slots hreplace =>
    have hsame : slots = configuration.wifiSlots := by
      refine List.assignFirst_self hreplace fun slot hslot hholds => ?_
      cases slot with
      | none => cases hholds
      | some existing =>
        have hid : existing.id = profile.id := beq_iff_eq.mp hholds
        have hexisting : existing ∈ configuration.wifiSlots.reduceOption :=
          List.reduceOption_mem_iff.mpr hslot
        rw [List.inj_on_of_nodup_map configuration.ids_nodup hexisting h hid]
    subst hsame
    rfl
  · next hreplace =>
    have habsent := List.assignFirst_eq_none.mp hreplace _ hmem
    simp [holdsProfile] at habsent

/-- Removing a profile that is not retained changes nothing. -/
theorem removeWifiProfile_absent {id : WifiProfileId}
    (h : configuration.wifiProfiles.any (·.id == id) = false) :
    configuration.removeWifiProfile id = configuration := by
  unfold NetworkConfig.removeWifiProfile
  split
  · next slots hremove =>
    obtain ⟨before, slot, after, hsplit, hslot, -⟩ := List.assignFirst_split hremove
    cases slot with
    | none => cases hslot
    | some existing =>
      have hmem : existing ∈ configuration.wifiProfiles :=
        List.reduceOption_mem_iff.mpr (hsplit ▸ List.mem_append_right _ List.mem_cons_self)
      rw [List.any_eq_false] at h
      exact absurd hslot (h existing hmem)
  · rfl

/-- A checked computation succeeds when both of its parts do. -/
theorem checked_bind_ok {α β : Type} {x : Checked α} {next : α → Checked β} {b : β} :
    x >>= next = .ok b ↔ ∃ a, x = .ok a ∧ next a = .ok b := by
  cases x with
  | error error => exact ⟨(nomatch ·), fun ⟨_, h, _⟩ => nomatch h⟩
  | ok a =>
    constructor
    · exact fun h => ⟨a, rfl, h⟩
    · rintro ⟨_, ⟨⟩, h⟩
      exact h

/-- An update of a profile that only restates it changes nothing. -/
theorem apply_upsertWifi_restated {desired : Option NetworkConfig} {profileId : Vector Byte 16}
    {network : WifiNetworkUpdate}
    (h : mutationRestates desired (.upsertWifi profileId network) = .ok true) :
    applyNetworkConfigMutation (desired.getD .empty) (.upsertWifi profileId network) =
      .ok (desired.getD .empty) := by
  rw [mutationRestates] at h
  obtain ⟨id, hid, hmatch⟩ := checked_bind_ok.mp h
  split at hmatch
  · split at hmatch
    · cases hmatch
    · split at hmatch <;> cases hmatch
  · next existing hfound =>
    obtain ⟨configuration, rfl, hfind⟩ := Option.bind_eq_some_iff.mp hfound
    have hkept := Except.ok.inj hmatch
    simp only [Bool.and_eq_true, beq_iff_eq] at hkept
    obtain ⟨⟨⟨henabled, hpriority⟩, hssid⟩, hcredential⟩ := hkept
    have hexisting : existing.id = id := by simpa using List.find?_some hfind
    have hprofile : WifiProfile.new id network.ssid existing.password network.enabled
        network.priority = .ok existing := by
      rw [← hexisting, ← henabled, ← hpriority, ← hssid, WifiProfile.new_self]
    have hretained := upsertWifiProfile_retained (List.mem_of_find?_eq_some hfind)
    rw [Option.getD_some, applyNetworkConfigMutation]
    refine checked_bind_ok.mpr ⟨id, hid, checked_bind_ok.mpr ⟨existing.password, ?_,
      checked_bind_ok.mpr ⟨existing, ?_, ?_⟩⟩⟩
    · rw [hcredential, desiredPassword, hfind]
    · rw [hprofile]
      rfl
    · rw [hretained]
      rfl

/-- A mutation that restates a configuration changes nothing. -/
theorem apply_restated {desired : Option NetworkConfig}
    (h : mutationRestates desired mutation = .ok true) :
    applyNetworkConfigMutation (desired.getD .empty) mutation = .ok (desired.getD .empty) := by
  cases mutation with
  | upsertWifi profileId network => exact apply_upsertWifi_restated h
  | removeWifi profileId =>
    rw [mutationRestates] at h
    obtain ⟨id, hid, h⟩ := checked_bind_ok.mp h
    rw [applyNetworkConfigMutation]
    refine checked_bind_ok.mpr ⟨id, hid, congrArg Except.ok (removeWifiProfile_absent ?_)⟩
    cases desired with
    | none => rfl
    | some configuration => simpa using Except.ok.inj h
  | replaceTcpPeer peer =>
    rw [mutationRestates] at h
    obtain ⟨requested, hrequested, h⟩ := checked_bind_ok.mp h
    rw [applyNetworkConfigMutation]
    refine checked_bind_ok.mpr ⟨requested, hrequested, congrArg Except.ok ?_⟩
    have hsame : desired.bind (·.tcpPeer) = requested := by simpa using Except.ok.inj h
    subst hsame
    cases desired <;> rfl
  | replaceTcpHostPeer peer =>
    rw [mutationRestates] at h
    obtain ⟨requested, hrequested, h⟩ := checked_bind_ok.mp h
    rw [applyNetworkConfigMutation]
    refine checked_bind_ok.mpr ⟨requested, hrequested, congrArg Except.ok ?_⟩
    have hsame : desired.bind (·.tcpPeer) = requested := by simpa using Except.ok.inj h
    subst hsame
    cases desired <;> rfl
  | setGatewayPolicy policy =>
    rw [mutationRestates] at h
    obtain ⟨hwifi, hannounces⟩ :
      desired.all (·.wifiTransportEnabled) = policy.wifiTransportEnabled ∧
        desired.all (·.automaticAnnouncesEnabled) = policy.automaticAnnouncesEnabled := by
      simpa using Except.ok.inj h
    rw [applyNetworkConfigMutation, ← hwifi, ← hannounces]
    cases desired <;> rfl
  | setRmapConfig config =>
    rw [mutationRestates] at h
    obtain ⟨requested, hrequested, h⟩ := checked_bind_ok.mp h
    rw [applyNetworkConfigMutation]
    refine checked_bind_ok.mpr ⟨requested, hrequested, congrArg Except.ok ?_⟩
    cases desired with
    | none =>
      obtain ⟨⟨hdiscovery, hshare⟩, hlocation⟩ : (false = config.discoveryEnabled ∧
          false = config.shareLocation) ∧ none = requested := by simpa using Except.ok.inj h
      rw [← hdiscovery, ← hshare, ← hlocation]
      rfl
    | some configuration =>
      obtain ⟨⟨hdiscovery, hshare⟩, hlocation⟩ :
          (configuration.rmapDiscoveryEnabled = config.discoveryEnabled ∧
          configuration.rmapShareLocation = config.shareLocation) ∧
          configuration.phoneLocation = requested := by simpa using Except.ok.inj h
      rw [← hdiscovery, ← hshare, ← hlocation]
      rfl
  | setLoraTxPower power =>
    rw [mutationRestates] at h
    have hpower : (desired.elim .dbm14 (·.loraProfile.txPower)).requestedDbm = power.toNat := by
      simpa using Except.ok.inj h
    rw [applyNetworkConfigMutation]
    refine checked_bind_ok.mpr ⟨desired.elim .dbm14 (·.loraProfile.txPower), ?_, ?_⟩
    · rw [← hpower, LoraTxPower.tryFromDbm_requestedDbm]
      rfl
    · cases desired <;> rfl
  | setLoraProfile profile =>
    rw [mutationRestates] at h
    obtain ⟨requested, hrequested, h⟩ := checked_bind_ok.mp h
    rw [applyNetworkConfigMutation]
    refine checked_bind_ok.mpr ⟨requested, hrequested, congrArg Except.ok ?_⟩
    have hsame : desired.elim .default (·.loraProfile) = requested := by
      simpa using Except.ok.inj h
    subst hsame
    cases desired <;> rfl

end Noop

end Network
