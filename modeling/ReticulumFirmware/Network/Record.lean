import ReticulumFirmware.Network.Model

/-!
# The snapshot record

A snapshot of `network-config-store` is a protected prefix of fixed fields, the digest of
that prefix and a commit marker. This file gives the encoder and the decoder, with the
hash function as a parameter.
-/

namespace Network

open Nor

abbrev partitionSize : ℕ := 8192
abbrev sectorSize : ℕ := 4096
abbrev physicalFormatVersion : ℕ := 1
abbrev semanticFormatVersion : ℕ := 7
abbrev headerSize : ℕ := 128
abbrev wifiSlotSize : ℕ := 128
abbrev tcpPeerSlotSize : ℕ := 64
abbrev wifiSlotsOffset : ℕ := headerSize
abbrev tcpPeerOffset : ℕ := wifiSlotsOffset + wifiProfileCapacity * wifiSlotSize
abbrev extensionOffset : ℕ := tcpPeerOffset + tcpPeerSlotSize
abbrev policyFlagsOffset : ℕ := extensionOffset
abbrev locationPresentOffset : ℕ := extensionOffset + 1
abbrev hostnameLengthOffset : ℕ := extensionOffset + 2
abbrev loraTxPowerDbmOffset : ℕ := extensionOffset + 3
abbrev latitudeOffset : ℕ := extensionOffset + 4
abbrev longitudeOffset : ℕ := extensionOffset + 8
abbrev hostnameOffset : ℕ := extensionOffset + 12
abbrev hostnameEnd : ℕ := hostnameOffset + maxDnsHostnameLength
abbrev loraFrequencyHzOffset : ℕ := hostnameEnd
abbrev loraBandwidthHzOffset : ℕ := loraFrequencyHzOffset + 4
abbrev loraSpreadingFactorOffset : ℕ := loraBandwidthHzOffset + 4
abbrev loraCodingRateDenominatorOffset : ℕ := loraSpreadingFactorOffset + 1
abbrev loraProfileEnd : ℕ := loraCodingRateDenominatorOffset + 1
abbrev protectedSize : ℕ := 1024
abbrev digestOffset : ℕ := protectedSize
abbrev digestSize : ℕ := 32
abbrev commitOffset : ℕ := digestOffset + digestSize
abbrev commitSize : ℕ := 32
abbrev recordSize : ℕ := commitOffset + commitSize

abbrev headerFlagTcpPeerPresent : Byte := 1
abbrev tcpAddressFamilyIpv4 : Byte := 4
abbrev tcpAddressFamilyDns : Byte := 16
abbrev policyWifiTransportEnabled : Byte := 1
abbrev policyAutomaticAnnouncesEnabled : Byte := 2
abbrev policyRmapDiscoveryEnabled : Byte := 4
abbrev policyRmapShareLocation : Byte := 8
abbrev policyValidMask : Byte := 15

/-- What tells a record. -/
def magic : List Byte := ascii "RTNETC01"

/-- Exactly one block of the hash function. -/
def digestDomain : List Byte :=
  ascii "reticulum-rs-firmware/network-config-store/snapshot/v1" ++ [0] ++ ascii "_________"

/-- What the digest of a record ends with: one more block. -/
def digestFlushTrailer : List Byte := List.replicate 64 0xa5

/-- What a complete record ends with. -/
def commitMarker : List Byte := [
  0x8f, 0x2c, 0x61, 0xd7, 0x35, 0xa9, 0x04, 0xeb, 0x72, 0x18, 0xc6, 0x4d, 0xb3, 0x59, 0x0e, 0xf1,
  0x47, 0x9a, 0x25, 0xdc, 0x63, 0x10, 0xbe, 0x84, 0x3a, 0xf5, 0x6b, 0x01, 0xd2, 0x78, 0x4c, 0x96]

/-- A snapshot digest. -/
abbrev SnapshotDigest := Vector Byte digestSize

/-- The predecessor digest of the first generation. -/
def zeroDigest : SnapshotDigest := Vector.replicate digestSize 0

/-- The flash range a store belongs to. -/
structure NetworkConfigStoreBinding where
  device : Vector Byte 16
  absoluteOffset : ℕ
  length : ℕ
  formatVersion : ℕ
  deriving DecidableEq

/-- One of the two alternating sectors. -/
inductive NetworkConfigStoreSector where
  | a
  | b
  deriving DecidableEq

namespace NetworkConfigStoreSector

/-- The byte that names a sector in its record. -/
def id : NetworkConfigStoreSector → Byte
  | a => 0
  | b => 1

/-- First byte of a sector. -/
def offset : NetworkConfigStoreSector → ℕ
  | a => 0
  | b => sectorSize

/-- The sector beside this one. -/
def other : NetworkConfigStoreSector → NetworkConfigStoreSector
  | a => b
  | b => a

/-- The other sector of the other one is the sector. -/
@[simp] theorem other_other (sector : NetworkConfigStoreSector) : sector.other.other = sector := by
  cases sector <;> rfl

/-- The other sector is another one. -/
theorem other_ne (sector : NetworkConfigStoreSector) : sector.other ≠ sector := by
  cases sector <;> decide

/-- There are two sectors. -/
theorem eq_other_of_ne {sector sector' : NetworkConfigStoreSector} (h : sector' ≠ sector) :
    sector' = sector.other := by
  cases sector <;> cases sector' <;> first | rfl | exact absurd rfl h

end NetworkConfigStoreSector

/-- The byte of a flag. -/
def boolByte (flag : Bool) : Byte := if flag then 1 else 0

/-- Bytes padded with zeros to a width. -/
def padded (width : ℕ) (bytes : List Byte) : List Byte :=
  bytes ++ List.replicate (width - bytes.length) 0

/-- The little-endian word of a field. -/
def readWord (n : ℕ) (buffer : List Byte) (offset : ℕ) : BitVec (8 * n) :=
  BitVec.ofNat (8 * n) (leNat (slice buffer offset n))

/-- The fields of an occupied profile slot, in offset order. -/
def wifiSlotFields (profile : WifiProfile) : List (List Byte) := [
  profile.id.bytes.toList,
  [boolByte profile.enabled],
  [profile.priority],
  [BitVec.ofNat 8 profile.ssid.length],
  [BitVec.ofNat 8 profile.password.length],
  profile.ssid,
  List.replicate (maxSsidLength - profile.ssid.length) 0,
  profile.password,
  List.replicate (maxWpa2PasswordLength - profile.password.length) 0,
  List.replicate 13 0]

/-- The bytes of a profile slot. -/
def wifiSlotBytes : Option WifiProfile → List Byte
  | some profile => (wifiSlotFields profile).flatten
  | none => List.replicate wifiSlotSize 0

/-- The address family byte and the four address bytes of a peer slot. -/
def addressFields : OutboundTcpPeerAddress → Byte × List Byte
  | .ipv4 octets => (tcpAddressFamilyIpv4, octets.toList)
  | .dns _ => (tcpAddressFamilyDns, List.replicate 4 0)

/-- The fields of an occupied peer slot, in offset order. -/
def tcpPeerFields (peer : OutboundTcpPeer) : List (List Byte) := [
  [1],
  [boolByte peer.enabled],
  [(addressFields peer.address).1],
  [0],
  (addressFields peer.address).2,
  leBytes 2 peer.port.toNat,
  List.replicate 54 0]

/-- The bytes of the peer slot. -/
def tcpPeerBytes : Option OutboundTcpPeer → List Byte
  | some peer => (tcpPeerFields peer).flatten
  | none => List.replicate tcpPeerSlotSize 0

/-- The retained hostname bytes; empty without a DNS peer. -/
def hostnameBytes (configuration : NetworkConfig) : List Byte :=
  match configuration.tcpPeer with
  | some peer =>
    match peer.address with
    | .dns hostname => hostname.bytes
    | .ipv4 _ => []
  | none => []

/-- The policy byte. -/
def policyFlags (configuration : NetworkConfig) : Byte :=
  (if configuration.wifiTransportEnabled then policyWifiTransportEnabled else 0) |||
  (if configuration.automaticAnnouncesEnabled then policyAutomaticAnnouncesEnabled else 0) |||
  (if configuration.rmapDiscoveryEnabled then policyRmapDiscoveryEnabled else 0) |||
  (if configuration.rmapShareLocation then policyRmapShareLocation else 0)

/-- The location flag and the two coordinates. -/
def locationFields : Option PhoneLocation → Byte × List Byte × List Byte
  | some location =>
    (1, leBytes 4 location.latitudeE6.toNat, leBytes 4 location.longitudeE6.toNat)
  | none => (0, List.replicate 4 0, List.replicate 4 0)

section Encode

variable (sha256 : Sha256) (binding : NetworkConfigStoreBinding)
  (sector : NetworkConfigStoreSector) (generation : NonZeroU64) (predecessorGeneration : ℕ)
  (predecessorDigest : SnapshotDigest) (configuration : NetworkConfig)

/-- The digest of a protected prefix. -/
def snapshotDigest (protectedBytes : List Byte) : SnapshotDigest :=
  sha256 (digestDomain ++ protectedBytes ++ digestFlushTrailer)

/-- The header fields, in offset order. -/
def headerFields : List (List Byte) := [
  magic,
  leBytes 2 physicalFormatVersion,
  leBytes 2 semanticFormatVersion,
  [sector.id],
  [BitVec.ofNat 8 configuration.wifiProfileCount],
  [if configuration.tcpPeer.isSome then headerFlagTcpPeerPresent else 0],
  [0],
  leBytes 8 generation.get,
  leBytes 8 predecessorGeneration,
  predecessorDigest.toList,
  binding.device.toList,
  leBytes 8 binding.absoluteOffset,
  leBytes 8 binding.length,
  leBytes 4 wifiProfileCapacity,
  leBytes 4 wifiSlotSize,
  leBytes 4 tcpPeerSlotSize,
  List.replicate 20 0]

/-- The fields after the peer slot, in offset order. -/
def extensionFields : List (List Byte) := [
  [policyFlags configuration],
  [(locationFields configuration.phoneLocation).1],
  [BitVec.ofNat 8 (hostnameBytes configuration).length],
  [configuration.loraProfile.txPower.encodedDbm],
  (locationFields configuration.phoneLocation).2.1,
  (locationFields configuration.phoneLocation).2.2,
  padded maxDnsHostnameLength (hostnameBytes configuration),
  leBytes 4 configuration.loraProfile.frequencyHz.toNat,
  leBytes 4 configuration.loraProfile.bandwidthHz.toNat,
  [configuration.loraProfile.spreadingFactor],
  [configuration.loraProfile.codingRateDenominator],
  List.replicate 202 0]

/-- The protected fields of a snapshot, in offset order. -/
def protectedFields : List (List Byte) :=
  headerFields binding sector generation predecessorGeneration predecessorDigest configuration ++
    [wifiSlotBytes configuration.wifiProfiles[0]?, wifiSlotBytes configuration.wifiProfiles[1]?,
      wifiSlotBytes configuration.wifiProfiles[2]?, wifiSlotBytes configuration.wifiProfiles[3]?,
      tcpPeerBytes configuration.tcpPeer] ++
    extensionFields configuration

/-- The protected prefix of a snapshot. -/
def encodeProtected : List Byte :=
  (protectedFields binding sector generation predecessorGeneration predecessorDigest
    configuration).flatten

/-- The record of a snapshot. -/
def encodeRecord : List Byte :=
  let protectedBytes :=
    encodeProtected binding sector generation predecessorGeneration predecessorDigest configuration
  protectedBytes ++ (snapshotDigest sha256 protectedBytes).toList ++ commitMarker

end Encode

section Decode

variable (protectedBytes : List Byte)

/-- Decode one profile slot into the configuration read so far. -/
def decodeSlot (profileCount : ℕ) (configuration : NetworkConfig) (index : ℕ) :
    Option NetworkConfig := do
  let slot := slice protectedBytes (wifiSlotsOffset + index * wifiSlotSize) wifiSlotSize
  if profileCount ≤ index then
    if slot.any (· != 0) then none else some configuration
  else if 1 < (slot.getD 16 0).toNat ∨ (slice slot 115 13).any (· != 0) then none
  else
    let id ← (WifiProfileId.new (copyArray 16 (slice slot 0 16))).toOption
    let ssidLength := (slot.getD 18 0).toNat
    let passwordLength := (slot.getD 19 0).toNat
    if ¬ (1 ≤ ssidLength ∧ ssidLength ≤ maxSsidLength)
      ∨ ¬ (minWpa2PasswordLength ≤ passwordLength ∧ passwordLength ≤ maxWpa2PasswordLength)
      ∨ (slice slot (20 + ssidLength) (52 - (20 + ssidLength))).any (· != 0)
      ∨ (slice slot (52 + passwordLength) (115 - (52 + passwordLength))).any (· != 0)
    then none
    else
      let profile ← (WifiProfile.new id (slice slot 20 ssidLength) (slice slot 52 passwordLength)
        (slot.getD 16 0 != 0) (slot.getD 17 0)).toOption
      (configuration.insertWifiProfile profile).toOption

/-- The peer of an occupied peer slot, by its address family. -/
def decodeAddress (peerSlot : List Byte) (hostnameLength : ℕ) (hostname : List Byte) :
    Option OutboundTcpPeer :=
  let enabled := peerSlot.getD 1 0 != 0
  let port := readWord 2 peerSlot 8
  if peerSlot.getD 2 0 = tcpAddressFamilyIpv4 then
    if hostnameLength ≠ 0 then none
    else (OutboundTcpPeer.new (copyArray 4 (slice peerSlot 4 4)) port enabled).toOption
  else if peerSlot.getD 2 0 = tcpAddressFamilyDns then
    if (slice peerSlot 4 4).any (· != 0) ∨ hostnameLength = 0 then none
    else (OutboundTcpPeer.withDnsHostname (hostname.take hostnameLength) port enabled).toOption
  else none

/-- Decode the peer slot, given the hostname field. -/
def decodePeer (hostnameLength : ℕ) (hostname : List Byte) (configuration : NetworkConfig) :
    Option NetworkConfig :=
  let peerSlot := slice protectedBytes tcpPeerOffset tcpPeerSlotSize
  if protectedBytes.getD 14 0 &&& headerFlagTcpPeerPresent = 0 then
    if peerSlot.any (· != 0) ∨ hostnameLength ≠ 0 then none else some configuration
  else if peerSlot.getD 0 0 ≠ 1 ∨ 1 < (peerSlot.getD 1 0).toNat ∨ peerSlot.getD 3 0 ≠ 0
    ∨ (slice peerSlot 10 54).any (· != 0)
  then none
  else
    (decodeAddress peerSlot hostnameLength hostname).map fun peer =>
      { configuration with tcpPeer := some peer }

/-- Decode the two coordinates. -/
def decodeLocation (locationPresent : ℕ) (configuration : NetworkConfig) : Option NetworkConfig :=
  let latitudeE6 := readWord 4 protectedBytes latitudeOffset
  let longitudeE6 := readWord 4 protectedBytes longitudeOffset
  if locationPresent = 0 then
    if latitudeE6 ≠ 0 ∨ longitudeE6 ≠ 0 then none else some configuration
  else
    (PhoneLocation.new latitudeE6 longitudeE6).toOption.map fun location =>
      { configuration with phoneLocation := some location }

/-- Decode policy, location and peer. -/
def decodeCurrentPayload (configuration : NetworkConfig) (extensionEnd : ℕ) :
    Option NetworkConfig :=
  let policyFlags := protectedBytes.getD policyFlagsOffset 0
  let locationPresent := (protectedBytes.getD locationPresentOffset 0).toNat
  let hostnameLength := (protectedBytes.getD hostnameLengthOffset 0).toNat
  if policyFlags &&& ~~~policyValidMask ≠ 0 ∨ 1 < locationPresent
    ∨ maxDnsHostnameLength < hostnameLength
    ∨ (slice protectedBytes extensionEnd (protectedSize - extensionEnd)).any (· != 0)
  then none
  else do
    let configuration ← decodeLocation protectedBytes locationPresent { configuration with
      wifiTransportEnabled := policyFlags &&& policyWifiTransportEnabled != 0
      automaticAnnouncesEnabled := policyFlags &&& policyAutomaticAnnouncesEnabled != 0
      rmapDiscoveryEnabled := policyFlags &&& policyRmapDiscoveryEnabled != 0
      rmapShareLocation := policyFlags &&& policyRmapShareLocation != 0 }
    let hostname := slice protectedBytes hostnameOffset maxDnsHostnameLength
    if (hostname.drop hostnameLength).any (· != 0) then none
    else decodePeer protectedBytes hostnameLength hostname configuration

/-- Decode the extension, LoRa profile first. -/
def decodeCurrentExtension (configuration : NetworkConfig) : Option NetworkConfig := do
  let txPower ←
    (LoraTxPower.tryFromDbm (protectedBytes.getD loraTxPowerDbmOffset 0).toNat).toOption
  let profile ← (LoraRadioProfile.new (readWord 4 protectedBytes loraFrequencyHzOffset)
    (readWord 4 protectedBytes loraBandwidthHzOffset)
    (protectedBytes.getD loraSpreadingFactorOffset 0)
    (protectedBytes.getD loraCodingRateDenominatorOffset 0) txPower).toOption
  let configuration ← decodeCurrentPayload protectedBytes configuration loraProfileEnd
  some { configuration with loraProfile := profile }

/-- The configuration of a protected prefix. -/
def decodeConfiguration : Option NetworkConfig := do
  let profileCount := (protectedBytes.getD 13 0).toNat
  if wifiProfileCapacity < profileCount
    ∨ protectedBytes.getD 14 0 &&& ~~~headerFlagTcpPeerPresent ≠ 0
  then none
  else
    let configuration ← (List.range wifiProfileCapacity).foldlM
      (decodeSlot protectedBytes profileCount) NetworkConfig.empty
    decodeCurrentExtension protectedBytes configuration

end Decode

end Network
