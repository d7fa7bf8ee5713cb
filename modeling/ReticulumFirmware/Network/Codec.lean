import ReticulumFirmware.Network.Record

/-!
# Snapshots are decoded to the configuration they were encoded from

The encoder writes the retained profiles without the vacant slots between them, so decoding
an encoded configuration gives the same configuration with its vacant slots at the end.
-/

namespace Network

open Nor

/-- The profiles in the first slots and the vacant slots after them. -/
def compactSlots (profiles : List WifiProfile) : List (Option WifiProfile) :=
  profiles.map some ++ List.replicate (wifiProfileCapacity - profiles.length) none

/-- The filled slots are the profiles. -/
@[simp] theorem reduceOption_compactSlots (profiles : List WifiProfile) :
    (compactSlots profiles).reduceOption = profiles := by
  have hsome : (profiles.map some).reduceOption = profiles := by
    induction profiles with
    | nil => rfl
    | cons profile profiles ih => simp [ih]
  simp [compactSlots, List.reduceOption_append, hsome]

/-- Compact slots are as many as the capacity. -/
theorem length_compactSlots {profiles : List WifiProfile}
    (h : profiles.length ≤ wifiProfileCapacity) :
    (compactSlots profiles).length = wifiProfileCapacity := by
  simp only [compactSlots, List.length_append, List.length_map, List.length_replicate]
  omega

namespace NetworkConfig

/-- Replace the profiles of a configuration. -/
def withProfiles (configuration : NetworkConfig) (profiles : List WifiProfile)
    (hlength : profiles.length ≤ wifiProfileCapacity) (hnodup : (profiles.map (·.id)).Nodup) :
    NetworkConfig :=
  { configuration with
    wifiSlots := compactSlots profiles
    length_wifiSlots := length_compactSlots hlength
    ids_nodup := by rwa [reduceOption_compactSlots] }

/-- The same configuration with its vacant slots at the end. -/
def compact (configuration : NetworkConfig) : NetworkConfig :=
  configuration.withProfiles configuration.wifiProfiles configuration.wifiProfileCount_le
    configuration.ids_nodup

/-- A compact configuration has the same profiles. -/
@[simp] theorem wifiProfiles_compact (configuration : NetworkConfig) :
    configuration.compact.wifiProfiles = configuration.wifiProfiles :=
  reduceOption_compactSlots _

/-- Inserting a new profile appends it to the occupied slots. -/
theorem insertWifiProfile_withProfiles {configuration : NetworkConfig}
    {profiles : List WifiProfile} {profile : WifiProfile}
    (hlength : (profiles ++ [profile]).length ≤ wifiProfileCapacity)
    (hnodup : ((profiles ++ [profile]).map (·.id)).Nodup)
    {hlength' : profiles.length ≤ wifiProfileCapacity}
    {hnodup' : (profiles.map (·.id)).Nodup} :
    (configuration.withProfiles profiles hlength' hnodup').insertWifiProfile profile =
      .ok (configuration.withProfiles (profiles ++ [profile]) hlength hnodup) := by
  have hnew : ∀ existing ∈ profiles, existing.id ≠ profile.id := by
    intro existing hexisting
    rw [List.map_append, List.nodup_append] at hnodup
    exact hnodup.2.2 _ (List.mem_map_of_mem hexisting) _ (by simp)
  have hprofiles : (configuration.withProfiles profiles hlength' hnodup').wifiProfiles = profiles :=
    reduceOption_compactSlots _
  have habsent : (compactSlots profiles).assignFirst (holdsProfile profile.id) (some profile) =
      none := by
    apply List.assignFirst_eq_none.mpr
    intro slot hslot
    cases slot with
    | none => rfl
    | some existing =>
      have hmem : existing ∈ (compactSlots profiles).reduceOption :=
        List.reduceOption_mem_iff.mpr hslot
      rw [reduceOption_compactSlots] at hmem
      simpa [holdsProfile] using hnew existing hmem
  have hvacant : (compactSlots profiles).assignFirst Option.isNone (some profile) =
      some (compactSlots (profiles ++ [profile])) := by
    rw [List.length_append, List.length_singleton] at hlength
    obtain ⟨rest, hrest⟩ : ∃ rest, wifiProfileCapacity - profiles.length = rest + 1 :=
      ⟨wifiProfileCapacity - profiles.length - 1, by omega⟩
    have hlast : wifiProfileCapacity - (profiles ++ [profile]).length = rest := by
      rw [List.length_append, List.length_singleton]
      omega
    unfold compactSlots
    rw [List.assignFirst_append (by simp), hrest, hlast, List.replicate_succ]
    simp [List.assignFirst]
  unfold insertWifiProfile
  rw [if_neg (by simpa [hprofiles] using hnew)]
  unfold upsertWifiProfile
  split
  · next slots hslots =>
    exact absurd (hslots.symm.trans habsent) (by simp)
  · split
    · next slots hslots =>
      have heq : slots = compactSlots (profiles ++ [profile]) :=
        Option.some.inj (hslots.symm.trans hvacant)
      subst heq
      rfl
    · next hslots => exact absurd (hslots.symm.trans hvacant) (by simp)

end NetworkConfig

/-- A word is read back from its little-endian bytes. -/
theorem readWord_of_slice {n offset : ℕ} {buffer : List Byte} {word : BitVec (8 * n)}
    (h : slice buffer offset n = leBytes n word.toNat) : readWord n buffer offset = word := by
  rw [readWord, h, ofNat_leNat_leBytes (le_refl _)]

/-- A zero field passes the zero check. -/
theorem any_replicate_zero (n : ℕ) :
    (List.replicate n (0 : Byte)).any (· != 0) = false := by
  simp

/-- The byte of a flag is at most one. -/
@[simp] theorem boolByte_toNat_le (flag : Bool) : ¬ 1 < (boolByte flag).toNat := by
  cases flag <;> decide

/-- The byte of a flag is nonzero exactly where the flag is set. -/
@[simp] theorem boolByte_bne_zero (flag : Bool) : (boolByte flag != 0) = flag := by
  cases flag <;> decide

/-- A bounded number fits into a byte. -/
theorem byte_toNat_of_le {n m : ℕ} (h : n ≤ m) (hm : m < 256) : (BitVec.ofNat 8 n).toNat = n := by
  rw [BitVec.toNat_ofNat]
  exact Nat.mod_eq_of_lt (by omega)

section Slots

variable {protectedBytes : List Byte} {profileCount index : ℕ} {configuration : NetworkConfig}

/-- The fields of a profile fill their slot. -/
theorem wifiSlotFields_widths (profile : WifiProfile) :
    (wifiSlotFields profile).map List.length =
      [16, 1, 1, 1, 1, profile.ssid.length, 32 - profile.ssid.length, profile.password.length,
        63 - profile.password.length, 13] := by
  simp [wifiSlotFields]

/-- A slot of a profile has 128 bytes. -/
@[simp] theorem length_wifiSlotBytes (profile : Option WifiProfile) :
    (wifiSlotBytes profile).length = 128 := by
  cases profile with
  | none => rfl
  | some profile =>
    have hssid : 1 ≤ profile.ssid.length ∧ profile.ssid.length ≤ 32 := profile.ssid_length
    have hpassword : 8 ≤ profile.password.length ∧ profile.password.length ≤ 63 :=
      profile.password_length
    rw [wifiSlotBytes, List.length_flatten, wifiSlotFields_widths]
    simp only [List.sum_cons, List.sum_nil]
    omega

/-- An occupied slot is decoded by inserting its profile. -/
theorem decodeSlot_some {profile : WifiProfile} (hindex : index < profileCount)
    (hslot : slice protectedBytes (128 + index * 128) 128 = wifiSlotBytes (some profile)) :
    decodeSlot protectedBytes profileCount configuration index =
      (configuration.insertWifiProfile profile).toOption := by
  have hssid : 1 ≤ profile.ssid.length ∧ profile.ssid.length ≤ 32 := profile.ssid_length
  have hpassword : 8 ≤ profile.password.length ∧ profile.password.length ≤ 63 :=
    profile.password_length
  have hfield : ∀ (i offset length : ℕ) {field : List Byte},
      (wifiSlotFields profile)[i]? = some field →
      (List.take i [16, 1, 1, 1, 1, profile.ssid.length, 32 - profile.ssid.length,
        profile.password.length, 63 - profile.password.length, 13]).sum = offset →
      field.length = length → slice (wifiSlotFields profile).flatten offset length = field :=
    fun _ _ _ _ h₁ h₂ h₃ => slice_flatten (wifiSlotFields_widths profile) h₁ h₂ h₃
  have hid := hfield 0 0 _ rfl rfl (Vector.length_toList)
  have henabled := getD_of_slice (hfield 1 16 _ rfl rfl rfl)
  have hpriority := getD_of_slice (hfield 2 17 _ rfl rfl rfl)
  have hssidLength := getD_of_slice (hfield 3 18 _ rfl rfl rfl)
  have hpasswordLength := getD_of_slice (hfield 4 19 _ rfl rfl rfl)
  have hssidBytes := hfield 5 20 _ rfl rfl rfl
  have hssidRest := hfield 6 (20 + profile.ssid.length) (52 - (20 + profile.ssid.length)) rfl
    (by simp [List.take]; omega)
    (by simp only [List.length_replicate, maxSsidLength]; omega)
  have hpasswordBytes := hfield 7 52 _ rfl (by simp [List.take]; omega) rfl
  have hpasswordRest := hfield 8 (52 + profile.password.length)
    (115 - (52 + profile.password.length)) rfl (by simp [List.take]; omega)
    (by simp only [List.length_replicate, maxWpa2PasswordLength]; omega)
  have htail := hfield 9 115 _ rfl (by simp [List.take]; omega)
    List.length_replicate
  have hidNew : WifiProfileId.new (copyArray 16 (slice (wifiSlotFields profile).flatten 0 16)) =
      .ok profile.id := by
    rw [hid, copyArray_toList]
    exact dif_neg profile.id.nonzero
  unfold decodeSlot
  simp only [wifiSlotsOffset, headerSize, wifiSlotSize, hslot, wifiSlotBytes]
  rw [if_neg (by omega), henabled, hssidLength, hpasswordLength, hpriority, htail, hidNew]
  rw [byte_toNat_of_le hssid.2 (by decide), byte_toNat_of_le hpassword.2 (by decide)]
  rw [hssidRest, hpasswordRest, hssidBytes, hpasswordBytes, if_neg (by simp)]
  change (if _ then none else _) = _
  rw [if_neg, boolByte_bne_zero, WifiProfile.new_self]
  · rfl
  · rintro (h | h | h | h)
    · exact h hssid
    · exact h hpassword
    · simp at h
    · simp at h

/-- A vacant slot is skipped. -/
theorem decodeSlot_none (hindex : profileCount ≤ index)
    (hslot : slice protectedBytes (128 + index * 128) 128 = wifiSlotBytes none) :
    decodeSlot protectedBytes profileCount configuration index = some configuration := by
  unfold decodeSlot
  simp only [wifiSlotsOffset, headerSize, wifiSlotSize, hslot, wifiSlotBytes]
  rw [if_pos hindex, if_neg (by simp)]

/-- Decoding the slots one after the other collects their profiles. -/
theorem decodeSlots (configuration : NetworkConfig) {profiles : List WifiProfile}
    (hlength : profiles.length ≤ 4)
    (hnodup : (profiles.map (·.id)).Nodup)
    (hslots : ∀ index < 4,
      slice protectedBytes (128 + index * 128) 128 = wifiSlotBytes profiles[index]?)
    (count : ℕ) (hcount : count ≤ 4) :
    (List.range count).foldlM (decodeSlot protectedBytes profiles.length)
        (configuration.withProfiles [] (Nat.zero_le _) List.nodup_nil) =
      some (configuration.withProfiles (profiles.take count)
        ((List.take_sublist _ _).length_le.trans hlength)
        (hnodup.sublist (List.Sublist.map _ (List.take_sublist _ _)))) := by
  induction count with
  | zero => rfl
  | succ count ih =>
    rw [List.range_succ, List.foldlM_append, ih (by omega), Option.bind_eq_bind, Option.bind_some,
      List.foldlM_cons]
    by_cases hmore : count < profiles.length
    · have htake : profiles.take (count + 1) = profiles.take count ++ [profiles[count]] := by
        simp
      have hlength' : (profiles.take count ++ [profiles[count]]).length ≤ 4 := by
        rw [← htake]
        exact (List.take_sublist _ _).length_le.trans hlength
      have hnodup' : ((profiles.take count ++ [profiles[count]]).map (·.id)).Nodup := by
        rw [← htake]
        exact hnodup.sublist (List.Sublist.map _ (List.take_sublist _ _))
      have hslot := hslots count (by omega)
      rw [List.getElem?_eq_getElem hmore] at hslot
      rw [decodeSlot_some hmore hslot,
        NetworkConfig.insertWifiProfile_withProfiles hlength' hnodup']
      simp only [htake]
      rfl
    · have htake : profiles.take (count + 1) = profiles.take count := by
        rw [List.take_of_length_le (by omega), List.take_of_length_le (by omega)]
      have hslot := hslots count (by omega)
      rw [List.getElem?_eq_none (by omega)] at hslot
      rw [decodeSlot_none (by omega) hslot]
      simp only [htake]
      rfl

end Slots

section Payload

variable {protectedBytes : List Byte} {configuration : NetworkConfig}

/-- The fields of a peer have fixed widths. -/
theorem tcpPeerFields_widths (peer : OutboundTcpPeer) :
    (tcpPeerFields peer).map List.length = [1, 1, 1, 1, 4, 2, 54] := by
  unfold tcpPeerFields addressFields
  cases peer.address with
  | ipv4 octets => simp
  | dns hostname => simp

/-- The peer has 64 bytes. -/
@[simp] theorem length_tcpPeerBytes (peer : Option OutboundTcpPeer) :
    (tcpPeerBytes peer).length = 64 := by
  cases peer with
  | none => rfl
  | some peer =>
    rw [tcpPeerBytes, List.length_flatten, tcpPeerFields_widths]
    rfl

/-- The hostname field holds a hostname or nothing. -/
theorem length_hostnameBytes (configuration : NetworkConfig) :
    (hostnameBytes configuration).length ≤ 96 := by
  unfold hostnameBytes
  split
  · split
    · next hostname _ => exact hostname.length_bytes.2
    · exact Nat.zero_le _
  · exact Nat.zero_le _

/-- The address of an encoded peer is decoded. -/
theorem decodeAddress_encoded {peer : OutboundTcpPeer} (hpeer : configuration.tcpPeer = some peer) :
    decodeAddress (tcpPeerFields peer).flatten (hostnameBytes configuration).length
        (padded 96 (hostnameBytes configuration)) = some peer := by
  have hfield : ∀ (i offset length : ℕ) {field : List Byte},
      (tcpPeerFields peer)[i]? = some field →
      (List.take i [1, 1, 1, 1, 4, 2, 54]).sum = offset →
      field.length = length → slice (tcpPeerFields peer).flatten offset length = field :=
    fun _ _ _ _ h₁ h₂ h₃ => slice_flatten (tcpPeerFields_widths peer) h₁ h₂ h₃
  have henabled := getD_of_slice (hfield 1 1 _ rfl rfl rfl)
  have hfamily := getD_of_slice (hfield 2 2 _ rfl rfl rfl)
  have haddress := hfield 4 4 4 rfl rfl (by
    unfold addressFields
    split <;> simp)
  have hport : readWord 2 (tcpPeerFields peer).flatten 8 = peer.port :=
    readWord_of_slice (hfield 5 _ _ rfl rfl (length_leBytes ..))
  unfold decodeAddress
  simp only [henabled, hfamily, haddress, hport, boolByte_bne_zero]
  cases peer with
  | mk address port enabled address_valid port_ne_zero =>
    cases address with
    | ipv4 octets =>
      have hhostname : hostnameBytes configuration = [] := by rw [hostnameBytes, hpeer]
      rw [if_pos (by rfl), hhostname, if_neg (by simp)]
      simp only [addressFields, copyArray_toList]
      unfold OutboundTcpPeer.new
      rw [dif_neg port_ne_zero]
      split
      · next error herror => exact absurd (herror.symm.trans address_valid) (by simp)
      · rfl
    | dns hostname =>
      have hhostname : hostnameBytes configuration = hostname.bytes := by
        rw [hostnameBytes, hpeer]
      have hlength := hostname.length_bytes.1
      have htake : (padded 96 hostname.bytes).take hostname.bytes.length = hostname.bytes :=
        List.take_left
      have hpresent : ¬ ((List.replicate 4 (0 : Byte)).any (· != 0) = true ∨
          hostname.bytes.length = 0) := by
        rintro (h | h)
        · simp at h
        · omega
      rw [if_neg (by simp [addressFields]), if_pos (by rfl), hhostname]
      simp only [addressFields]
      refine (if_neg hpresent).trans ?_
      rw [htake]
      unfold OutboundTcpPeer.withDnsHostname
      rw [DnsHostname.new_self]
      simp only
      rw [dif_neg port_ne_zero]
      rfl

/-- The peer of an encoded configuration is decoded. -/
theorem decodePeer_encoded {other : NetworkConfig} (hnone : other.tcpPeer = none)
    (hflag : protectedBytes.getD 14 0 =
      if configuration.tcpPeer.isSome then headerFlagTcpPeerPresent else 0)
    (hslot : slice protectedBytes 640 64 = tcpPeerBytes configuration.tcpPeer) :
    decodePeer protectedBytes (hostnameBytes configuration).length
        (padded 96 (hostnameBytes configuration)) other =
      some { other with tcpPeer := configuration.tcpPeer } := by
  unfold decodePeer
  simp only [show tcpPeerOffset = 640 from rfl, hslot, hflag]
  cases hpeer : configuration.tcpPeer with
  | none =>
    have hhostname : hostnameBytes configuration = [] := by rw [hostnameBytes, hpeer]
    rw [hhostname, if_pos (by decide), if_neg (by simp [tcpPeerBytes]), ← hnone]
  | some peer =>
    have hfield : ∀ (i offset length : ℕ) {field : List Byte},
        (tcpPeerFields peer)[i]? = some field →
        (List.take i [1, 1, 1, 1, 4, 2, 54]).sum = offset →
        field.length = length → slice (tcpPeerFields peer).flatten offset length = field :=
      fun _ _ _ _ h₁ h₂ h₃ => slice_flatten (tcpPeerFields_widths peer) h₁ h₂ h₃
    have hpresent := getD_of_slice (hfield 0 0 _ rfl rfl rfl)
    have henabled := getD_of_slice (hfield 1 1 _ rfl rfl rfl)
    have hreserved := getD_of_slice (hfield 3 3 _ rfl rfl rfl)
    have hrest := hfield 6 10 _ rfl rfl List.length_replicate
    rw [tcpPeerBytes, hpresent, henabled, hreserved, hrest,
      if_neg (by show ¬ (1 : Byte) &&& 1 = 0; decide), if_neg (by simp),
      decodeAddress_encoded hpeer]
    rfl

/-- The location of an encoded configuration is decoded. -/
theorem decodeLocation_encoded {other : NetworkConfig} (hnone : other.phoneLocation = none)
    (hlatitude : slice protectedBytes 708 4 = (locationFields configuration.phoneLocation).2.1)
    (hlongitude : slice protectedBytes 712 4 = (locationFields configuration.phoneLocation).2.2) :
    decodeLocation protectedBytes (locationFields configuration.phoneLocation).1.toNat other =
      some { other with phoneLocation := configuration.phoneLocation } := by
  unfold decodeLocation
  simp only [show latitudeOffset = 708 from rfl, show longitudeOffset = 712 from rfl]
  cases hlocation : configuration.phoneLocation with
  | none =>
    rw [hlocation] at hlatitude hlongitude
    have hzero : ∀ {offset : ℕ}, slice protectedBytes offset 4 = List.replicate 4 0 →
        readWord 4 protectedBytes offset = 0 := fun h => readWord_of_slice h
    rw [hzero hlatitude, hzero hlongitude, 
      if_pos (show (locationFields none).1.toNat = 0 from rfl), if_neg (by simp), ← hnone]
  | some location =>
    rw [hlocation] at hlatitude hlongitude
    have hlatitude' : readWord 4 protectedBytes 708 = location.latitudeE6 :=
      readWord_of_slice hlatitude
    have hlongitude' : readWord 4 protectedBytes 712 = location.longitudeE6 :=
      readWord_of_slice hlongitude
    rw [hlatitude', hlongitude', if_neg (by simp [locationFields]), PhoneLocation.new_self]
    rfl

end Payload

section RoundTrip

variable {binding : NetworkConfigStoreBinding} {sector : NetworkConfigStoreSector}
  {generation : NonZeroU64} {predecessorGeneration : ℕ} {predecessorDigest : SnapshotDigest}
  {configuration : NetworkConfig}

/-- The layout of the protected prefix. -/
abbrev protectedWidths : List ℕ :=
  [8, 2, 2, 1, 1, 1, 1, 8, 8, 32, 16, 8, 8, 4, 4, 4, 20, 128, 128, 128, 128, 64, 1, 1, 1, 1, 4, 4,
    96, 4, 4, 1, 1, 202]

/-- The protected fields have fixed widths. -/
theorem protectedFields_widths (binding : NetworkConfigStoreBinding)
    (sector : NetworkConfigStoreSector) (generation : NonZeroU64) (predecessorGeneration : ℕ)
    (predecessorDigest : SnapshotDigest) (configuration : NetworkConfig) :
    (protectedFields binding sector generation predecessorGeneration predecessorDigest
      configuration).map List.length = protectedWidths := by
  have hhostname : (padded 96 (hostnameBytes configuration)).length = 96 := by
    have := length_hostnameBytes configuration
    simp only [padded, List.length_append, List.length_replicate]
    omega
  have hmagic : magic.length = 8 := by decide
  simp only [protectedFields, headerFields, extensionFields, List.map_append, List.map_cons,
    List.map_nil, hhostname, hmagic, length_leBytes, List.length_singleton, Vector.length_toList,
    List.length_replicate, length_wifiSlotBytes, length_tcpPeerBytes]
  cases configuration.phoneLocation with
  | none => rfl
  | some location => simp [locationFields]

/-- The protected part has 1024 bytes. -/
@[simp] theorem length_encodeProtected (binding : NetworkConfigStoreBinding)
    (sector : NetworkConfigStoreSector) (generation : NonZeroU64) (predecessorGeneration : ℕ)
    (predecessorDigest : SnapshotDigest) (configuration : NetworkConfig) :
    (encodeProtected binding sector generation predecessorGeneration predecessorDigest
      configuration).length = 1024 := by
  rw [encodeProtected, List.length_flatten, protectedFields_widths]
  rfl

/-- The protected fields at their offsets. -/
theorem slice_encodeProtected {i offset length : ℕ} {field : List Byte}
    (hfield : (protectedFields binding sector generation predecessorGeneration predecessorDigest
      configuration)[i]? = some field)
    (hoffset : (protectedWidths.take i).sum = offset) (hlength : field.length = length) :
    slice (encodeProtected binding sector generation predecessorGeneration predecessorDigest
      configuration) offset length = field :=
  slice_flatten (protectedFields_widths ..) hfield hoffset hlength

/-- The policy byte has no reserved bits and holds the four flags. -/
theorem policyFlags_bits (configuration : NetworkConfig) :
    policyFlags configuration &&& ~~~policyValidMask = 0 ∧
      (policyFlags configuration &&& policyWifiTransportEnabled != 0) =
        configuration.wifiTransportEnabled ∧
      (policyFlags configuration &&& policyAutomaticAnnouncesEnabled != 0) =
        configuration.automaticAnnouncesEnabled ∧
      (policyFlags configuration &&& policyRmapDiscoveryEnabled != 0) =
        configuration.rmapDiscoveryEnabled ∧
      (policyFlags configuration &&& policyRmapShareLocation != 0) =
        configuration.rmapShareLocation := by
  unfold policyFlags
  cases configuration.wifiTransportEnabled <;> cases configuration.automaticAnnouncesEnabled <;>
    cases configuration.rmapDiscoveryEnabled <;> cases configuration.rmapShareLocation <;> decide

/-- The payload of an encoded configuration is decoded over the profiles read before it. -/
theorem decodeCurrentPayload_encoded {other : NetworkConfig} (hpeer : other.tcpPeer = none)
    (hlocation : other.phoneLocation = none) :
    decodeCurrentPayload (encodeProtected binding sector generation predecessorGeneration
        predecessorDigest configuration) other loraProfileEnd =
      some { other with
        tcpPeer := configuration.tcpPeer
        wifiTransportEnabled := configuration.wifiTransportEnabled
        automaticAnnouncesEnabled := configuration.automaticAnnouncesEnabled
        rmapDiscoveryEnabled := configuration.rmapDiscoveryEnabled
        rmapShareLocation := configuration.rmapShareLocation
        phoneLocation := configuration.phoneLocation } := by
  have hfield : ∀ (i offset length : ℕ) {field : List Byte},
      (protectedFields binding sector generation predecessorGeneration predecessorDigest
        configuration)[i]? = some field → (protectedWidths.take i).sum = offset →
      field.length = length → slice (encodeProtected binding sector generation
        predecessorGeneration predecessorDigest configuration) offset length = field :=
    fun _ _ _ _ h₁ h₂ h₃ => slice_encodeProtected h₁ h₂ h₃
  have hlocated : (locationFields configuration.phoneLocation).2.1.length = 4 ∧
      (locationFields configuration.phoneLocation).2.2.length = 4 ∧
      ¬ 1 < (locationFields configuration.phoneLocation).1.toNat := by
    cases configuration.phoneLocation with
    | none => exact ⟨rfl, rfl, by decide⟩
    | some location =>
      exact ⟨length_leBytes .., length_leBytes .., show ¬ 1 < (1 : Byte).toNat by decide⟩
  have hhostname : (padded 96 (hostnameBytes configuration)).length = 96 := by
    have := length_hostnameBytes configuration
    simp only [padded, List.length_append, List.length_replicate]
    omega
  have hpresent := getD_of_slice (hfield 5 14 _ rfl rfl rfl)
  have hslot := hfield 21 640 _ rfl rfl (length_tcpPeerBytes _)
  have hpolicy := getD_of_slice (hfield 22 704 _ rfl rfl rfl)
  have hlocated' := getD_of_slice (hfield 23 705 _ rfl rfl rfl)
  have hnamed := getD_of_slice (hfield 24 706 _ rfl rfl rfl)
  have hlatitude := hfield 26 708 _ rfl rfl hlocated.1
  have hlongitude := hfield 27 712 _ rfl rfl hlocated.2.1
  have hname := hfield 28 716 _ rfl rfl hhostname
  have hrest := hfield 33 822 _ rfl rfl List.length_replicate
  obtain ⟨hmask, hwifi, hannounces, hrmap, hshare⟩ := policyFlags_bits configuration
  unfold decodeCurrentPayload
  simp only [show policyFlagsOffset = 704 from rfl, show locationPresentOffset = 705 from rfl,
    show hostnameLengthOffset = 706 from rfl, show loraProfileEnd = 822 from rfl,
    show hostnameOffset = 716 from rfl, show protectedSize - 822 = 202 from rfl, hpolicy,
    hlocated', hnamed, hname, hrest, hwifi, hannounces, hrmap, hshare]
  rw [byte_toNat_of_le (length_hostnameBytes configuration) (by decide), if_neg,
    decodeLocation_encoded ?_ hlatitude hlongitude]
  · refine (if_neg ?_).trans (decodePeer_encoded (by exact hpeer) hpresent hslot)
    have hdrop : (padded 96 (hostnameBytes configuration)).drop
      (hostnameBytes configuration).length =
        List.replicate (96 - (hostnameBytes configuration).length) 0 := List.drop_left
    rw [hdrop]
    simp
  · exact hlocation
  · rintro (h | h | h | h)
    · exact h hmask
    · exact hlocated.2.2 h
    · have := length_hostnameBytes configuration
      exact absurd (show 96 < (hostnameBytes configuration).length from h) (by omega)
    · rw [any_replicate_zero] at h
      cases h

/-- Decoding an encoded configuration moves its vacant slots to the end. -/
theorem decodeConfiguration_encodeProtected :
    decodeConfiguration (encodeProtected binding sector generation predecessorGeneration
      predecessorDigest configuration) = some configuration.compact := by
  have hfield : ∀ (i offset length : ℕ) {field : List Byte},
      (protectedFields binding sector generation predecessorGeneration predecessorDigest
        configuration)[i]? = some field → (protectedWidths.take i).sum = offset →
      field.length = length → slice (encodeProtected binding sector generation
        predecessorGeneration predecessorDigest configuration) offset length = field :=
    fun _ _ _ _ h₁ h₂ h₃ => slice_encodeProtected h₁ h₂ h₃
  have hcount := getD_of_slice (hfield 4 13 _ rfl rfl rfl)
  have hpresent := getD_of_slice (hfield 5 14 _ rfl rfl rfl)
  have hpower := getD_of_slice (hfield 25 707 _ rfl rfl rfl)
  have hfrequency : readWord 4 (encodeProtected binding sector generation predecessorGeneration
      predecessorDigest configuration) 812 = configuration.loraProfile.frequencyHz :=
    readWord_of_slice (hfield 29 _ _ rfl rfl (length_leBytes ..))
  have hbandwidth : readWord 4 (encodeProtected binding sector generation predecessorGeneration
      predecessorDigest configuration) 816 = configuration.loraProfile.bandwidthHz :=
    readWord_of_slice (hfield 30 _ _ rfl rfl (length_leBytes ..))
  have hspreading := getD_of_slice (hfield 31 820 _ rfl rfl rfl)
  have hcoding := getD_of_slice (hfield 32 821 _ rfl rfl rfl)
  have hcount' := configuration.wifiProfileCount_le
  have hslots : ∀ index < 4, slice (encodeProtected binding sector generation
      predecessorGeneration predecessorDigest configuration) (128 + index * 128) 128 =
      wifiSlotBytes configuration.wifiProfiles[index]? := by
    intro index hindex
    match index, hindex with
    | 0, _ => exact hfield 17 _ _ rfl rfl (length_wifiSlotBytes _)
    | 1, _ => exact hfield 18 _ _ rfl rfl (length_wifiSlotBytes _)
    | 2, _ => exact hfield 19 _ _ rfl rfl (length_wifiSlotBytes _)
    | 3, _ => exact hfield 20 _ _ rfl rfl (length_wifiSlotBytes _)
  have hprofiles := decodeSlots .empty hcount'
    configuration.ids_nodup hslots 4 le_rfl
  unfold decodeConfiguration
  simp only [hcount, hpresent]
  rw [byte_toNat_of_le hcount' (by decide), if_neg]
  · rw [show (List.range wifiProfileCapacity).foldlM (decodeSlot _ configuration.wifiProfileCount)
      NetworkConfig.empty = _ from hprofiles]
    change decodeCurrentExtension _ _ = _
    unfold decodeCurrentExtension
    simp only [show loraTxPowerDbmOffset = 707 from rfl, show loraFrequencyHzOffset = 812 from rfl,
      show loraBandwidthHzOffset = 816 from rfl, show loraSpreadingFactorOffset = 820 from rfl,
      show loraCodingRateDenominatorOffset = 821 from rfl, hpower, hfrequency, hbandwidth,
      hspreading, hcoding, LoraTxPower.tryFromDbm_encodedDbm, Except.toOption,
      Option.bind_eq_bind, Option.bind_some, LoraRadioProfile.new_self]
    rw [decodeCurrentPayload_encoded rfl rfl]
    rw [Option.bind_some]
    simp only [List.take_of_length_le hcount']
    rfl
  · rintro (h | h)
    · exact absurd (show 4 < configuration.wifiProfileCount from h) (Nat.not_lt.mpr hcount')
    · apply h
      cases configuration.tcpPeer with
      | none => rfl
      | some peer => exact show (1 : Byte) &&& ~~~1 = 0 by decide

end RoundTrip

end Network
