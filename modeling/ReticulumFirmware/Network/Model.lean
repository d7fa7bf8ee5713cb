import ReticulumFirmware.Nor.Bytes
import ReticulumFirmware.Collections.Slots
import Mathlib.Data.List.Nodup

/-!
# The network configuration model

`network-config-store` keeps four WPA2 access points, one outbound TCP peer, policy flags,
an optional phone location and one LoRa profile. Every value is built by a validating
constructor; here the validated facts are fields of the value.
-/

namespace Network

open Nor

/-- The most Wi-Fi profiles. -/
abbrev wifiProfileCapacity : ℕ := 4

/-- The longest name of a network. -/
abbrev maxSsidLength : ℕ := 32

/-- The shortest password. -/
abbrev minWpa2PasswordLength : ℕ := 8

/-- The longest password. -/
abbrev maxWpa2PasswordLength : ℕ := 63

/-- The longest host name. -/
abbrev maxDnsHostnameLength : ℕ := 96

/-- The south pole, in millionths of a degree. -/
abbrev minLatitudeE6 : ℤ := -90000000

/-- The north pole. -/
abbrev maxLatitudeE6 : ℤ := 90000000

/-- The western end of the map. -/
abbrev minLongitudeE6 : ℤ := -180000000

/-- The eastern end of the map. -/
abbrev maxLongitudeE6 : ℤ := 180000000

/-- Validation failures of the semantic model. -/
inductive NetworkConfigModelError where
  | zeroWifiProfileId
  | invalidSsidLength
  | invalidWpa2PasswordLength
  | invalidWpa2PasswordCharacter
  | duplicateWifiProfileId
  | wifiProfileCapacityExceeded
  | invalidTcpPort
  | currentNetworkTcpPeerAddress
  | loopbackTcpPeerAddress
  | multicastTcpPeerAddress
  | limitedBroadcastTcpPeerAddress
  | reservedTcpPeerAddress
  | invalidDnsHostnameLength
  | invalidDnsHostnameCharacter
  | invalidDnsHostnameLabel
  | invalidLatitude
  | invalidLongitude
  | invalidLoraTxPower
  | invalidLoraFrequency
  | invalidLoraBandwidth
  | invalidLoraSpreadingFactor
  | invalidLoraCodingRate
  deriving DecidableEq

/-- The answer of a validating constructor. -/
abbrev Validated (α : Type) := Except NetworkConfigModelError α

/-- Stable opaque identifier of one saved access point. -/
structure WifiProfileId where
  bytes : Vector Byte 16
  nonzero : bytes ≠ Vector.replicate 16 0
  deriving DecidableEq

/-- The reserved all-zero identifier is rejected. -/
def WifiProfileId.new (bytes : Vector Byte 16) : Validated WifiProfileId :=
  if h : bytes = Vector.replicate 16 0 then .error .zeroWifiProfileId else .ok ⟨bytes, h⟩

/-- The four power settings of the radio. -/
inductive LoraTxPower where
  | dbm14
  | dbm17
  | dbm20
  | dbm22
  deriving DecidableEq

namespace LoraTxPower

/-- One of the four supported powers. -/
def tryFromDbm (requestedDbm : ℤ) : Validated LoraTxPower :=
  if requestedDbm = 14 then .ok dbm14
  else if requestedDbm = 17 then .ok dbm17
  else if requestedDbm = 20 then .ok dbm20
  else if requestedDbm = 22 then .ok dbm22
  else .error .invalidLoraTxPower

/-- Requested output power in whole dBm. -/
def requestedDbm : LoraTxPower → ℤ
  | dbm14 => 14
  | dbm17 => 17
  | dbm20 => 20
  | dbm22 => 22

/-- The byte that a power is stored as. -/
def encodedDbm : LoraTxPower → Byte
  | dbm14 => 14
  | dbm17 => 17
  | dbm20 => 20
  | dbm22 => 22

/-- The stored power byte is validated back. -/
@[simp] theorem tryFromDbm_encodedDbm (power : LoraTxPower) :
    tryFromDbm (power.encodedDbm.toNat : ℤ) = .ok power := by
  cases power <;> decide

end LoraTxPower

/-- The bandwidths a LoRa profile may name. -/
def loraBandwidths : List ℕ :=
  [7810, 10420, 15630, 20830, 31250, 41670, 62500, 125000, 250000, 500000]

/-- Atomic LoRa radio profile of valid numeric shape. -/
structure LoraRadioProfile where
  frequencyHz : BitVec 32
  bandwidthHz : BitVec 32
  spreadingFactor : Byte
  codingRateDenominator : Byte
  txPower : LoraTxPower
  frequency_ne_zero : frequencyHz ≠ 0
  bandwidth_mem : bandwidthHz.toNat ∈ loraBandwidths
  spreadingFactor_range : 7 ≤ spreadingFactor.toNat ∧ spreadingFactor.toNat ≤ 12
  codingRate_range : 5 ≤ codingRateDenominator.toNat ∧ codingRateDenominator.toNat ≤ 8
  deriving DecidableEq

namespace LoraRadioProfile

/-- The profile of a newly provisioned configuration. -/
def default : LoraRadioProfile where
  frequencyHz := 915000000
  bandwidthHz := 125000
  spreadingFactor := 7
  codingRateDenominator := 5
  txPower := .dbm14
  frequency_ne_zero := by decide
  bandwidth_mem := by decide
  spreadingFactor_range := by decide
  codingRate_range := by decide

/-- A radio profile, after its checks. -/
def new (frequencyHz bandwidthHz : BitVec 32) (spreadingFactor codingRateDenominator : Byte)
    (txPower : LoraTxPower) : Validated LoraRadioProfile :=
  if hfrequency : frequencyHz = 0 then .error .invalidLoraFrequency
  else if hbandwidth : bandwidthHz.toNat ∈ loraBandwidths then
    if hsf : 7 ≤ spreadingFactor.toNat ∧ spreadingFactor.toNat ≤ 12 then
      if hcr : 5 ≤ codingRateDenominator.toNat ∧ codingRateDenominator.toNat ≤ 8 then
        .ok ⟨frequencyHz, bandwidthHz, spreadingFactor, codingRateDenominator, txPower, hfrequency,
          hbandwidth, hsf, hcr⟩
      else .error .invalidLoraCodingRate
    else .error .invalidLoraSpreadingFactor
  else .error .invalidLoraBandwidth

/-- A profile passes its own validation. -/
@[simp] theorem new_self (profile : LoraRadioProfile) :
    new profile.frequencyHz profile.bandwidthHz profile.spreadingFactor
      profile.codingRateDenominator profile.txPower = .ok profile := by
  unfold new
  rw [dif_neg profile.frequency_ne_zero, dif_pos profile.bandwidth_mem,
    dif_pos profile.spreadingFactor_range, dif_pos profile.codingRate_range]

/-- Replace the power and keep the channel. -/
def withTxPower (profile : LoraRadioProfile) (txPower : LoraTxPower) : LoraRadioProfile :=
  { profile with txPower }

end LoraRadioProfile

/-- Whether a byte is printable ASCII. -/
def isPrintable (byte : Byte) : Bool := 0x20 ≤ byte.toNat && byte.toNat ≤ 0x7e

/-- WPA2-Personal station profile. The fixed arrays of the source hold exactly these bytes,
followed by zeros. -/
structure WifiProfile where
  id : WifiProfileId
  ssid : List Byte
  password : List Byte
  enabled : Bool
  priority : Byte
  ssid_length : 1 ≤ ssid.length ∧ ssid.length ≤ maxSsidLength
  password_length : minWpa2PasswordLength ≤ password.length ∧
    password.length ≤ maxWpa2PasswordLength
  password_printable : password.all isPrintable = true
  deriving DecidableEq

namespace WifiProfile

/-- A Wi-Fi profile, after its checks. -/
def new (id : WifiProfileId) (ssid password : List Byte) (enabled : Bool) (priority : Byte) :
    Validated WifiProfile :=
  if hssid : 1 ≤ ssid.length ∧ ssid.length ≤ maxSsidLength then
    if hpassword : minWpa2PasswordLength ≤ password.length ∧
        password.length ≤ maxWpa2PasswordLength then
      if hprintable : password.all isPrintable = true then
        .ok ⟨id, ssid, password, enabled, priority, hssid, hpassword, hprintable⟩
      else .error .invalidWpa2PasswordCharacter
    else .error .invalidWpa2PasswordLength
  else .error .invalidSsidLength

/-- A profile passes its own validation. -/
@[simp] theorem new_self (profile : WifiProfile) :
    new profile.id profile.ssid profile.password profile.enabled profile.priority =
      .ok profile := by
  unfold new
  rw [dif_pos profile.ssid_length, dif_pos profile.password_length,
    dif_pos profile.password_printable]

end WifiProfile

/-- Whether a byte is an ASCII letter or digit. -/
def isAsciiAlphanumeric (byte : Byte) : Bool :=
  (0x30 ≤ byte.toNat && byte.toNat ≤ 0x39) || (0x41 ≤ byte.toNat && byte.toNat ≤ 0x5a) ||
    (0x61 ≤ byte.toNat && byte.toNat ≤ 0x7a)

/-- The hyphen and the dot of a hostname. -/
abbrev hyphen : Byte := 0x2d

/-- What stands between the labels of a host name. -/
abbrev dot : Byte := 0x2e

/-- Whether a label of a hostname is malformed. -/
def badLabel (label : List Byte) : Bool :=
  label.isEmpty || 63 < label.length || label.head? == some hyphen ||
    label.getLast? == some hyphen

/-- The checks of a hostname, in their order. -/
def validateHostname (hostname : List Byte) : Validated Unit :=
  if ¬ (1 ≤ hostname.length ∧ hostname.length ≤ maxDnsHostnameLength) then
    .error .invalidDnsHostnameLength
  else if ¬ hostname.all (fun byte => isAsciiAlphanumeric byte || byte == hyphen ||
    byte == dot) then
    .error .invalidDnsHostnameCharacter
  else if (hostname.splitOn dot).any badLabel then .error .invalidDnsHostnameLabel
  else .ok ()

/-- Bounded canonical ASCII DNS hostname. -/
structure DnsHostname where
  bytes : List Byte
  valid : validateHostname bytes = .ok ()
  deriving DecidableEq

namespace DnsHostname

/-- A host name, after its checks. -/
def new (hostname : List Byte) : Validated DnsHostname :=
  match h : validateHostname hostname with
  | .ok () => .ok ⟨hostname, h⟩
  | .error error => .error error

/-- A hostname passes its own validation. -/
@[simp] theorem new_self (hostname : DnsHostname) : new hostname.bytes = .ok hostname := by
  unfold new
  split
  · rfl
  · next error herror =>
    rw [hostname.valid] at herror
    cases herror

/-- A hostname has at least one byte and no more than the maximum. -/
theorem length_bytes (hostname : DnsHostname) :
    1 ≤ hostname.bytes.length ∧ hostname.bytes.length ≤ maxDnsHostnameLength := by
  have h := hostname.valid
  unfold validateHostname at h
  split at h
  · cases h
  · next hlength => exact not_not.mp hlength

end DnsHostname

/-- Address of an outbound TCP peer. -/
inductive OutboundTcpPeerAddress where
  | ipv4 (octets : Vector Byte 4)
  | dns (hostname : DnsHostname)
  deriving DecidableEq

/-- The addresses that cannot name a remote peer. -/
def validateIpv4Peer (ipv4 : Vector Byte 4) : Validated Unit :=
  if ipv4[0].toNat = 0 then .error .currentNetworkTcpPeerAddress
  else if ipv4[0].toNat = 127 then .error .loopbackTcpPeerAddress
  else if 224 ≤ ipv4[0].toNat ∧ ipv4[0].toNat ≤ 239 then .error .multicastTcpPeerAddress
  else if ipv4 = #v[255, 255, 255, 255] then .error .limitedBroadcastTcpPeerAddress
  else if 240 ≤ ipv4[0].toNat then .error .reservedTcpPeerAddress
  else .ok ()

/-- What the constructors of a peer check about its address. -/
def OutboundTcpPeerAddress.Valid : OutboundTcpPeerAddress → Prop
  | ipv4 octets => validateIpv4Peer octets = .ok ()
  | dns _ => True

/-- Only a numeric address is checked. -/
instance : DecidablePred OutboundTcpPeerAddress.Valid := fun
  | .ipv4 octets => inferInstanceAs (Decidable (validateIpv4Peer octets = .ok ()))
  | .dns _ => inferInstanceAs (Decidable True)

/-- One outbound Reticulum TCP peer. -/
@[ext] structure OutboundTcpPeer where
  address : OutboundTcpPeerAddress
  port : BitVec 16
  enabled : Bool
  address_valid : address.Valid
  port_ne_zero : port ≠ 0

/-- Peers are compared by their fields. -/
instance : DecidableEq OutboundTcpPeer := fun _ _ =>
  decidable_of_iff _ OutboundTcpPeer.ext_iff.symm

namespace OutboundTcpPeer

/-- A peer at a numeric address, after its checks. -/
def new (ipv4 : Vector Byte 4) (port : BitVec 16) (enabled : Bool) : Validated OutboundTcpPeer :=
  if hport : port = 0 then .error .invalidTcpPort
  else match hvalid : validateIpv4Peer ipv4 with
    | .error error => .error error
    | .ok () => .ok ⟨.ipv4 ipv4, port, enabled, hvalid, hport⟩

/-- A peer at a host name, after its checks. -/
def withDnsHostname (hostname : List Byte) (port : BitVec 16) (enabled : Bool) :
    Validated OutboundTcpPeer :=
  match DnsHostname.new hostname with
  | .error error => .error error
  | .ok hostname =>
    if hport : port = 0 then .error .invalidTcpPort
    else .ok ⟨.dns hostname, port, enabled, trivial, hport⟩

end OutboundTcpPeer

/-- Phone-supplied position in signed millionths of a degree. -/
structure PhoneLocation where
  latitudeE6 : BitVec 32
  longitudeE6 : BitVec 32
  latitude_range : minLatitudeE6 ≤ latitudeE6.toInt ∧ latitudeE6.toInt ≤ maxLatitudeE6
  longitude_range : minLongitudeE6 ≤ longitudeE6.toInt ∧ longitudeE6.toInt ≤ maxLongitudeE6
  deriving DecidableEq

namespace PhoneLocation

/-- A location on the map. -/
def new (latitudeE6 longitudeE6 : BitVec 32) : Validated PhoneLocation :=
  if hlatitude : minLatitudeE6 ≤ latitudeE6.toInt ∧ latitudeE6.toInt ≤ maxLatitudeE6 then
    if hlongitude : minLongitudeE6 ≤ longitudeE6.toInt ∧ longitudeE6.toInt ≤ maxLongitudeE6 then
      .ok ⟨latitudeE6, longitudeE6, hlatitude, hlongitude⟩
    else .error .invalidLongitude
  else .error .invalidLatitude

/-- A location passes its own validation. -/
@[simp] theorem new_self (location : PhoneLocation) :
    new location.latitudeE6 location.longitudeE6 = .ok location := by
  unfold new
  rw [dif_pos location.latitude_range, dif_pos location.longitude_range]

end PhoneLocation

/-- Complete bounded network configuration. -/
@[ext]
structure NetworkConfig where
  wifiSlots : List (Option WifiProfile)
  tcpPeer : Option OutboundTcpPeer
  wifiTransportEnabled : Bool
  automaticAnnouncesEnabled : Bool
  rmapDiscoveryEnabled : Bool
  rmapShareLocation : Bool
  phoneLocation : Option PhoneLocation
  loraProfile : LoraRadioProfile
  length_wifiSlots : wifiSlots.length = wifiProfileCapacity
  ids_nodup : (wifiSlots.reduceOption.map (·.id)).Nodup
  deriving DecidableEq

/-- Whether a slot holds the profile with this identifier. -/
def holdsProfile (id : WifiProfileId) (slot : Option WifiProfile) : Bool :=
  slot.any (·.id == id)

/-- Overwriting a profile with one of the same identifier keeps the identifiers. -/
theorem nodup_replace {slots slots' : List (Option WifiProfile)} {profile : WifiProfile}
    (hslots : (slots.reduceOption.map (·.id)).Nodup)
    (h : slots.assignFirst (holdsProfile profile.id) (some profile) = some slots') :
    (slots'.reduceOption.map (·.id)).Nodup := by
  obtain ⟨before, slot, after, rfl, hslot, rfl⟩ := List.assignFirst_split h
  cases slot with
  | none => cases hslot
  | some existing =>
    have hid : existing.id = profile.id := beq_iff_eq.mp hslot
    simpa [List.reduceOption_append, hid] using hslots

/-- Filling a vacant slot with a new identifier keeps the identifiers distinct. -/
theorem nodup_fill {slots slots' : List (Option WifiProfile)} {profile : WifiProfile}
    (hslots : (slots.reduceOption.map (·.id)).Nodup)
    (hnew : ∀ slot ∈ slots, holdsProfile profile.id slot = false)
    (h : slots.assignFirst Option.isNone (some profile) = some slots') :
    (slots'.reduceOption.map (·.id)).Nodup := by
  obtain ⟨before, slot, after, rfl, hslot, rfl⟩ := List.assignFirst_split h
  rw [Option.isNone_iff_eq_none.mp hslot] at hslots hnew
  have habsent : profile.id ∉ (before ++ none :: after).reduceOption.map (·.id) := by
    rintro hmem
    obtain ⟨existing, hexisting, hid⟩ := List.mem_map.mp hmem
    have hheld := hnew (some existing) (List.reduceOption_mem_iff.mp hexisting)
    simp [holdsProfile, hid] at hheld
  have hperm : ((before ++ some profile :: after).reduceOption.map (·.id)).Perm
      (profile.id :: (before ++ none :: after).reduceOption.map (·.id)) := by
    simp only [List.reduceOption_append, List.reduceOption_cons_of_some,
      List.reduceOption_cons_of_none, List.map_append, List.map_cons]
    exact List.perm_middle
  rw [hperm.nodup_iff]
  exact List.nodup_cons.mpr ⟨habsent, hslots⟩

/-- Emptying a slot keeps the identifiers distinct. -/
theorem nodup_vacate {slots slots' : List (Option WifiProfile)} {p : Option WifiProfile → Bool}
    (hslots : (slots.reduceOption.map (·.id)).Nodup)
    (h : slots.assignFirst p none = some slots') :
    (slots'.reduceOption.map (·.id)).Nodup := by
  obtain ⟨before, slot, after, rfl, hslot, rfl⟩ := List.assignFirst_split h
  refine hslots.sublist (List.Sublist.map _ ?_)
  simp only [List.reduceOption_append, List.reduceOption_cons_of_none]
  refine List.Sublist.append_left ?_ _
  cases slot with
  | none => simp
  | some profile => simp

namespace NetworkConfig

/-- The configuration with the product defaults. -/
def empty : NetworkConfig where
  wifiSlots := List.replicate wifiProfileCapacity none
  tcpPeer := none
  wifiTransportEnabled := true
  automaticAnnouncesEnabled := true
  rmapDiscoveryEnabled := false
  rmapShareLocation := false
  phoneLocation := none
  loraProfile := .default
  length_wifiSlots := rfl
  ids_nodup := by decide

/-- The retained profiles, in slot order. -/
def wifiProfiles (configuration : NetworkConfig) : List WifiProfile :=
  configuration.wifiSlots.reduceOption

/-- Number of retained profiles. -/
def wifiProfileCount (configuration : NetworkConfig) : ℕ := configuration.wifiProfiles.length

/-- No configuration has more profiles than the capacity. -/
theorem wifiProfileCount_le (configuration : NetworkConfig) :
    configuration.wifiProfileCount ≤ wifiProfileCapacity :=
  (List.reduceOption_length_le _).trans_eq configuration.length_wifiSlots

/-- Insert a profile or replace the one with the same identifier. -/
def upsertWifiProfile (configuration : NetworkConfig) (profile : WifiProfile) :
    Validated NetworkConfig :=
  match hreplace : configuration.wifiSlots.assignFirst (holdsProfile profile.id)
      (some profile) with
  | some slots => .ok { configuration with
      wifiSlots := slots
      length_wifiSlots := (List.length_assignFirst hreplace).trans configuration.length_wifiSlots
      ids_nodup := nodup_replace configuration.ids_nodup hreplace }
  | none =>
    match hfill : configuration.wifiSlots.assignFirst Option.isNone (some profile) with
    | some slots => .ok { configuration with
        wifiSlots := slots
        length_wifiSlots := (List.length_assignFirst hfill).trans configuration.length_wifiSlots
        ids_nodup := nodup_fill configuration.ids_nodup (List.assignFirst_eq_none.mp hreplace)
          hfill }
    | none => .error .wifiProfileCapacityExceeded

/-- Insert a profile whose identifier is not present yet. -/
def insertWifiProfile (configuration : NetworkConfig) (profile : WifiProfile) :
    Validated NetworkConfig :=
  if configuration.wifiProfiles.any (·.id == profile.id) then .error .duplicateWifiProfileId
  else configuration.upsertWifiProfile profile

/-- Remove the profile with this identifier, if there is one. -/
def removeWifiProfile (configuration : NetworkConfig) (id : WifiProfileId) : NetworkConfig :=
  match hremove : configuration.wifiSlots.assignFirst (holdsProfile id) none with
  | some slots => { configuration with
      wifiSlots := slots
      length_wifiSlots := (List.length_assignFirst hremove).trans configuration.length_wifiSlots
      ids_nodup := nodup_vacate configuration.ids_nodup hremove }
  | none => configuration

end NetworkConfig

end Network
