import ReticulumFirmware.Network.Mutation

/-!
# The two readings of a mutation

`product_store` first decides whether a mutation restates the desired configuration and then
applies it. The two functions read the same mutation independently; they agree for every
authority.
-/

namespace Network

open Nor

/-- The configuration that a mutation would be applied to. -/
def NetworkAuthority.current (state : NetworkAuthority) : Checked NetworkConfig := do
  let configuration ← state.configuration
  pure (configuration.getD .empty)

/-- Apply a mutation to the current configuration. -/
def applyToCurrent (state : NetworkAuthority) (mutation : NetworkConfigMutation) :
    Checked NetworkConfig := do
  let configuration ← state.current
  applyNetworkConfigMutation configuration mutation

/-- The mutation replaces the credential of a retained profile. -/
def NetworkConfigMutation.ReplacesCredential (configuration : NetworkConfig) :
    NetworkConfigMutation → Prop
  | .upsertWifi profileId network =>
    network.credential ≠ .keep ∧ ∃ existing ∈ configuration.wifiProfiles,
      existing.id.bytes = profileId
  | _ => False

section Failures

variable {α β : Type} {error : ProductNetworkConfigError}

/-- A checked computation fails when one of its parts does. -/
theorem checked_bind_error {x : Checked α} {next : α → Checked β} :
    x >>= next = .error error ↔
      x = .error error ∨ ∃ a, x = .ok a ∧ next a = .error error := by
  cases x with
  | error error' =>
    constructor
    · rintro ⟨⟩
      exact Or.inl rfl
    · rintro (h | ⟨_, h, _⟩)
      · exact congrArg Except.error (Except.error.inj h)
      · cases h
  | ok a =>
    constructor
    · exact fun h => Or.inr ⟨a, rfl, h⟩
    · rintro (h | ⟨_, ⟨⟩, h⟩)
      · cases h
      · exact h

/-- A computation fails when what follows its success does. -/
theorem checked_bind_fails {x : Checked α} {next : α → Checked β}
    (h : ∀ a, x = .ok a → ∃ error, next a = .error error) :
    ∃ error, x >>= next = .error error := by
  cases hx : x with
  | error error => exact ⟨error, rfl⟩
  | ok a =>
    obtain ⟨error, hnext⟩ := h a hx
    exact ⟨error, hnext⟩

end Failures

section Agreement

variable {configuration result : NetworkConfig} {desired : Option NetworkConfig}
  {mutation : NetworkConfigMutation} {error : ProductNetworkConfigError}

/-- A stored profile is retained. -/
theorem mem_upsertWifiProfile {profile : WifiProfile}
    (h : configuration.upsertWifiProfile profile = .ok result) :
    profile ∈ result.wifiProfiles := by
  unfold NetworkConfig.upsertWifiProfile at h
  have hmem : ∀ {p : Option WifiProfile → Bool} {slots : List (Option WifiProfile)},
      configuration.wifiSlots.assignFirst p (some profile) = some slots →
        profile ∈ slots.reduceOption := by
    intro p slots hassign
    obtain ⟨before, slot, after, -, -, rfl⟩ := List.assignFirst_split hassign
    exact List.reduceOption_mem_iff.mpr (List.mem_append_right _ List.mem_cons_self)
  split at h
  · rename_i slots hreplace
    obtain rfl := Except.ok.inj h
    exact hmem hreplace
  · split at h
    · rename_i slots hfill
      obtain rfl := Except.ok.inj h
      exact hmem hfill
    · cases h

/-- Profiles of one identifier are one profile. -/
theorem wifiProfile_unique {left right : WifiProfile} (hleft : left ∈ configuration.wifiProfiles)
    (hright : right ∈ configuration.wifiProfiles) (hid : left.id = right.id) : left = right :=
  List.inj_on_of_nodup_map configuration.ids_nodup hleft hright hid

/-- Storing a new profile fails when every slot is taken. -/
theorem upsertWifiProfile_full {profile : WifiProfile}
    (hfull : wifiProfileCapacity ≤ configuration.wifiProfileCount)
    (habsent : configuration.wifiProfiles.find? (·.id == profile.id) = none) :
    configuration.upsertWifiProfile profile = .error .wifiProfileCapacityExceeded := by
  have hreplace : configuration.wifiSlots.assignFirst (holdsProfile profile.id) (some profile) =
      none := by
    refine List.assignFirst_eq_none.mpr fun slot hslot => ?_
    cases slot with
    | none => rfl
    | some existing =>
      have hother := List.find?_eq_none.mp habsent existing (List.reduceOption_mem_iff.mpr hslot)
      exact Bool.eq_false_iff.mpr hother
  have hoccupied : none ∉ configuration.wifiSlots := fun hmem => by
    have hlt := List.reduceOption_length_lt_iff.mpr hmem
    rw [configuration.length_wifiSlots] at hlt
    exact absurd hfull (by rw [NetworkConfig.wifiProfileCount, NetworkConfig.wifiProfiles]; omega)
  have hfill : configuration.wifiSlots.assignFirst Option.isNone (some profile) = none := by
    refine List.assignFirst_eq_none.mpr fun slot hslot => ?_
    cases slot with
    | none => exact absurd hslot hoccupied
    | some existing => rfl
  unfold NetworkConfig.upsertWifiProfile
  split
  · rename_i slots hsome
    exact absurd (hreplace.symm.trans hsome) nofun
  · split
    · rename_i slots hsome
      exact absurd (hfill.symm.trans hsome) nofun
    · rfl

/-- A removed profile is not retained. -/
theorem removeWifiProfile_removes (configuration : NetworkConfig) (id : WifiProfileId) :
    (configuration.removeWifiProfile id).wifiProfiles.any (·.id == id) = false := by
  rw [List.any_eq_false]
  intro other hother hid
  replace hid : other.id = id := beq_iff_eq.mp hid
  unfold NetworkConfig.removeWifiProfile at hother
  split at hother
  · rename_i slots hremove
    obtain ⟨before, slot, after, hsplit, hslot, rfl⟩ := List.assignFirst_split hremove
    have hnodup := configuration.ids_nodup
    rw [hsplit] at hnodup
    cases slot with
    | none => cases hslot
    | some existing =>
      have hexisting : existing.id = id := beq_iff_eq.mp hslot
      have hperm : ((before ++ some existing :: after).reduceOption.map (·.id)).Perm
          (existing.id :: (before ++ none :: after).reduceOption.map (·.id)) := by
        simp only [List.reduceOption_append, List.reduceOption_cons_of_some,
          List.reduceOption_cons_of_none, List.map_append, List.map_cons]
        exact List.perm_middle
      rw [hperm.nodup_iff, List.nodup_cons] at hnodup
      exact hnodup.1 (List.mem_map.mpr ⟨other, hother, hid.trans hexisting.symm⟩)
  · rename_i hremove
    have habsent := List.assignFirst_eq_none.mp hremove (some other)
      (List.reduceOption_mem_iff.mp hother)
    simp [holdsProfile, hid] at habsent

/-- An identifier keeps the bytes it is built with. -/
theorem bytes_of_new {profileId : Vector Byte 16} {id : WifiProfileId}
    (h : storeWifiProfileId profileId = .ok id) : id.bytes = profileId := by
  unfold storeWifiProfileId WifiProfileId.new at h
  split at h
  · cases h
  · exact Except.ok.inj h ▸ rfl

/-- A profile keeps the values it is built with. -/
theorem fields_of_new {id : WifiProfileId} {ssid password : List Byte} {enabled : Bool}
    {priority : Byte} {profile : WifiProfile}
    (h : requireValid (WifiProfile.new id ssid password enabled priority) = .ok profile) :
    profile.id = id ∧ profile.ssid = ssid ∧ profile.enabled = enabled ∧
      profile.priority = priority := by
  unfold WifiProfile.new at h
  split_ifs at h
  · obtain rfl := Except.ok.inj h
    exact ⟨rfl, rfl, rfl, rfl⟩
  all_goals cases h

/-- An update of a profile that is refused before it is applied is refused again. -/
theorem apply_upsertWifi_error {profileId : Vector Byte 16} {network : WifiNetworkUpdate}
    (h : mutationRestates desired (.upsertWifi profileId network) = .error error) :
    ∃ error, applyNetworkConfigMutation (desired.getD .empty) (.upsertWifi profileId network) =
      .error error := by
  rw [mutationRestates] at h
  rw [applyNetworkConfigMutation]
  obtain hid | ⟨id, hid, hmatch⟩ := checked_bind_error.mp h
  · exact ⟨error, checked_bind_error.mpr (Or.inl hid)⟩
  rw [hid]
  split at hmatch
  · rename_i hnone
    have habsent : (desired.getD .empty).wifiProfiles.find? (·.id == id) = none := by
      cases desired with
      | none => rfl
      | some configuration => exact hnone
    split at hmatch
    · rename_i hkeep
      refine ⟨.invalidRequest, checked_bind_error.mpr (Or.inr ⟨id, rfl, ?_⟩)⟩
      refine checked_bind_error.mpr (Or.inl ?_)
      rw [hkeep, desiredPassword, habsent]
    · split at hmatch
      · rename_i hfull
        refine checked_bind_fails fun id' hid' => ?_
        obtain rfl := Except.ok.inj hid'
        refine checked_bind_fails fun password _ => ?_
        refine checked_bind_fails fun profile hprofile => ?_
        cases desired with
        | none => cases hfull
        | some configuration =>
          have hcapacity : wifiProfileCapacity ≤ configuration.wifiProfileCount :=
            of_decide_eq_true hfull
          rw [← (fields_of_new hprofile).1] at habsent
          refine ⟨.invalidRequest, ?_⟩
          rw [Option.getD_some, upsertWifiProfile_full hcapacity habsent]
          rfl
      · cases hmatch
  · cases hmatch

/-- A mutation that is refused before it is applied is refused again. -/
theorem apply_error (h : mutationRestates desired mutation = .error error) :
    ∃ error, applyNetworkConfigMutation (desired.getD .empty) mutation = .error error := by
  cases mutation with
  | upsertWifi profileId network => exact apply_upsertWifi_error h
  | removeWifi profileId =>
    obtain hid | ⟨_, _, h⟩ := checked_bind_error.mp h
    · exact ⟨error, checked_bind_error.mpr (Or.inl hid)⟩
    · cases h
  | replaceTcpPeer peer =>
    obtain hpeer | ⟨_, _, h⟩ := checked_bind_error.mp h
    · exact ⟨error, checked_bind_error.mpr (Or.inl hpeer)⟩
    · cases h
  | replaceTcpHostPeer peer =>
    obtain hpeer | ⟨_, _, h⟩ := checked_bind_error.mp h
    · exact ⟨error, checked_bind_error.mpr (Or.inl hpeer)⟩
    · cases h
  | setGatewayPolicy policy => cases h
  | setRmapConfig config =>
    obtain hlocation | ⟨_, _, h⟩ := checked_bind_error.mp h
    · exact ⟨error, checked_bind_error.mpr (Or.inl hlocation)⟩
    · cases h
  | setLoraTxPower power => cases h
  | setLoraProfile profile =>
    obtain hprofile | ⟨_, _, h⟩ := checked_bind_error.mp h
    · exact ⟨error, checked_bind_error.mpr (Or.inl hprofile)⟩
    · cases h

/-- An update that keeps the credential and does not restate the profile changes it. -/
theorem apply_upsertWifi_differs {profileId : Vector Byte 16} {network : WifiNetworkUpdate}
    (h : mutationRestates desired (.upsertWifi profileId network) = .ok false)
    (hkeeps : ¬ (NetworkConfigMutation.upsertWifi profileId network).ReplacesCredential
      (desired.getD .empty))
    (happly : applyNetworkConfigMutation (desired.getD .empty) (.upsertWifi profileId network) =
      .ok result) : ¬ (desired.getD .empty).Same result := by
  intro hsame
  rw [mutationRestates] at h
  rw [applyNetworkConfigMutation] at happly
  obtain ⟨id, hid, hmatch⟩ := checked_bind_ok.mp h
  obtain ⟨id', hid', happly⟩ := checked_bind_ok.mp happly
  obtain rfl := Except.ok.inj (hid.symm.trans hid')
  obtain ⟨password, -, happly⟩ := checked_bind_ok.mp happly
  obtain ⟨profile, hprofile, hupsert⟩ := checked_bind_ok.mp happly
  obtain ⟨hprofileId, hssid, henabled, hpriority⟩ := fields_of_new hprofile
  have hmem : profile ∈ (desired.getD .empty).wifiProfiles := by
    rw [hsame.wifiProfiles]
    cases hvalidated : (desired.getD .empty).upsertWifiProfile profile with
    | error error =>
      rw [hvalidated] at hupsert
      cases hupsert
    | ok stored =>
      rw [hvalidated] at hupsert
      exact Except.ok.inj hupsert ▸ mem_upsertWifiProfile hvalidated
  split at hmatch
  · rename_i hnone
    cases desired with
    | none => simp [NetworkConfig.wifiProfiles, NetworkConfig.empty] at hmem
    | some configuration =>
      exact List.find?_eq_none.mp hnone profile hmem (beq_iff_eq.mpr hprofileId)
  · rename_i existing hfound
    obtain ⟨configuration, rfl, hfind⟩ := Option.bind_eq_some_iff.mp hfound
    have hexisting : existing ∈ configuration.wifiProfiles := List.mem_of_find?_eq_some hfind
    have hexistingId : existing.id = id := by simpa using List.find?_some hfind
    obtain rfl := wifiProfile_unique hmem hexisting (hprofileId.trans hexistingId.symm)
    have hcredential : network.credential = .keep := by
      by_contra hreplace
      exact hkeeps ⟨hreplace, profile, hexisting, by rw [hprofileId]; exact bytes_of_new hid⟩
    simp [hssid, henabled, hpriority, hcredential] at hmatch

/-- An optional field of the desired configuration, absent without one. -/
theorem bind_getD {α : Type} {desired : Option NetworkConfig} (field : NetworkConfig → Option α)
    (hempty : field .empty = none) : desired.bind field = field (desired.getD .empty) := by
  cases desired with
  | none => exact hempty.symm
  | some configuration => rfl

/-- A power is what was asked for. -/
theorem requestedDbm_of_valid {power : LoraTxPower} {dbm : ℤ}
    (h : requireValid (LoraTxPower.tryFromDbm dbm) = .ok power) : power.requestedDbm = dbm := by
  unfold LoraTxPower.tryFromDbm at h
  split_ifs at h with h14 h17 h20 h22
  · exact Except.ok.inj h ▸ h14.symm
  · exact Except.ok.inj h ▸ h17.symm
  · exact Except.ok.inj h ▸ h20.symm
  · exact Except.ok.inj h ▸ h22.symm
  · cases h

/-- A mutation that does not restate a configuration, and replaces no credential, changes it. -/
theorem apply_differs (h : mutationRestates desired mutation = .ok false)
    (hkeeps : ¬ mutation.ReplacesCredential (desired.getD .empty))
    (happly : applyNetworkConfigMutation (desired.getD .empty) mutation = .ok result) :
    ¬ (desired.getD .empty).Same result := by
  cases mutation with
  | upsertWifi profileId network => exact apply_upsertWifi_differs h hkeeps happly
  | removeWifi profileId =>
    intro hsame
    obtain ⟨id, hid, h⟩ := checked_bind_ok.mp h
    obtain ⟨id', hid', happly⟩ := checked_bind_ok.mp happly
    obtain rfl := Except.ok.inj (hid.symm.trans hid')
    obtain rfl := Except.ok.inj happly
    cases desired with
    | none => cases h
    | some configuration =>
      have hpresent : configuration.wifiProfiles.any (·.id == id) = true := by
        simpa using Except.ok.inj h
      have hprofiles : configuration.wifiProfiles =
          (configuration.removeWifiProfile id).wifiProfiles := hsame.wifiProfiles
      rw [hprofiles, removeWifiProfile_removes] at hpresent
      cases hpresent
  | replaceTcpPeer peer =>
    intro hsame
    obtain ⟨requested, hrequested, h⟩ := checked_bind_ok.mp h
    obtain ⟨tcpPeer, htcpPeer, happly⟩ := checked_bind_ok.mp happly
    obtain rfl := Except.ok.inj (hrequested.symm.trans htcpPeer)
    obtain rfl := Except.ok.inj happly
    have hpeer : (desired.getD .empty).tcpPeer = requested := hsame.tcpPeer
    have hother : desired.bind (·.tcpPeer) ≠ requested := beq_eq_false_iff_ne.mp (Except.ok.inj h)
    rw [← bind_getD NetworkConfig.tcpPeer rfl] at hpeer
    exact hother hpeer
  | replaceTcpHostPeer peer =>
    intro hsame
    obtain ⟨requested, hrequested, h⟩ := checked_bind_ok.mp h
    obtain ⟨tcpPeer, htcpPeer, happly⟩ := checked_bind_ok.mp happly
    obtain rfl := Except.ok.inj (hrequested.symm.trans htcpPeer)
    obtain rfl := Except.ok.inj happly
    have hpeer : (desired.getD .empty).tcpPeer = requested := hsame.tcpPeer
    have hother : desired.bind (·.tcpPeer) ≠ requested := beq_eq_false_iff_ne.mp (Except.ok.inj h)
    rw [← bind_getD NetworkConfig.tcpPeer rfl] at hpeer
    exact hother hpeer
  | setGatewayPolicy policy =>
    intro hsame
    obtain rfl := Except.ok.inj happly
    have hwifi : (desired.getD .empty).wifiTransportEnabled = policy.wifiTransportEnabled :=
      hsame.wifiTransportEnabled
    have hannounces : (desired.getD .empty).automaticAnnouncesEnabled =
        policy.automaticAnnouncesEnabled := hsame.automaticAnnouncesEnabled
    rw [mutationRestates, ← hwifi, ← hannounces] at h
    cases desired with
    | none => cases h
    | some configuration => simp [pure, Except.pure] at h
  | setRmapConfig config =>
    intro hsame
    obtain ⟨requested, hrequested, h⟩ := checked_bind_ok.mp h
    obtain ⟨location, hlocation, happly⟩ := checked_bind_ok.mp happly
    obtain rfl := Except.ok.inj (hrequested.symm.trans hlocation)
    obtain rfl := Except.ok.inj happly
    have hdiscovery : (desired.getD .empty).rmapDiscoveryEnabled = config.discoveryEnabled :=
      hsame.rmapDiscoveryEnabled
    have hshare : (desired.getD .empty).rmapShareLocation = config.shareLocation :=
      hsame.rmapShareLocation
    have hphone : (desired.getD .empty).phoneLocation = requested := hsame.phoneLocation
    rw [← hdiscovery, ← hshare, ← hphone] at h
    cases desired with
    | none => cases h
    | some configuration => simp [pure, Except.pure] at h
  | setLoraTxPower power =>
    intro hsame
    obtain ⟨requested, hrequested, happly⟩ := checked_bind_ok.mp happly
    obtain rfl := Except.ok.inj happly
    have hpower : (desired.getD .empty).loraProfile.txPower = requested :=
      congrArg LoraRadioProfile.txPower hsame.loraProfile
    have hdbm := requestedDbm_of_valid hrequested
    have hother : (desired.elim .dbm14 (·.loraProfile.txPower)).requestedDbm ≠ power.toNat :=
      beq_eq_false_iff_ne.mp (Except.ok.inj h)
    rw [← hpower] at hdbm
    cases desired with
    | none => exact hother hdbm
    | some configuration => exact hother hdbm
  | setLoraProfile profile =>
    intro hsame
    obtain ⟨requested, hrequested, h⟩ := checked_bind_ok.mp h
    obtain ⟨loraProfile, hloraProfile, happly⟩ := checked_bind_ok.mp happly
    obtain rfl := Except.ok.inj (hrequested.symm.trans hloraProfile)
    obtain rfl := Except.ok.inj happly
    have hprofile : (desired.getD .empty).loraProfile = requested := hsame.loraProfile
    have hother : desired.elim .default (·.loraProfile) ≠ requested :=
      beq_eq_false_iff_ne.mp (Except.ok.inj h)
    cases desired with
    | none => exact hother hprofile
    | some configuration => exact hother hprofile

end Agreement

/-- For every authority, a mutation that is a no-op applies and leaves an equal configuration, a
mutation that is refused does not apply, and any other, short of one that replaces a retained
credential, does not apply or leaves a different configuration. -/
theorem networkConfigMutationIsNoop_agrees (state : NetworkAuthority)
    (mutation : NetworkConfigMutation) :
    (networkConfigMutationIsNoop state mutation = .ok true →
      ∃ current result, state.current = .ok current ∧
        applyToCurrent state mutation = .ok result ∧
        networkConfigurationsEqual current result = true) ∧
    (∀ error, networkConfigMutationIsNoop state mutation = .error error →
      ∃ error, applyToCurrent state mutation = .error error) ∧
    (∀ current, state.current = .ok current →
      networkConfigMutationIsNoop state mutation = .ok false →
      ¬ mutation.ReplacesCredential current →
        (∃ error, applyToCurrent state mutation = .error error) ∨
        ∃ result, applyToCurrent state mutation = .ok result ∧
          networkConfigurationsEqual current result = false) := by
  cases hstate : state.configuration with
  | error error =>
    have hnoop : networkConfigMutationIsNoop state mutation = .error error := by
      rw [networkConfigMutationIsNoop, hstate]
      rfl
    have happly : applyToCurrent state mutation = .error error := by
      rw [applyToCurrent, NetworkAuthority.current, hstate]
      rfl
    rw [hnoop]
    exact ⟨nofun, fun _ _ => ⟨error, happly⟩, fun _ _ h => nomatch h⟩
  | ok desired =>
    have hnoop : networkConfigMutationIsNoop state mutation =
      mutationRestates desired mutation := by
      rw [networkConfigMutationIsNoop, hstate]
      rfl
    have hcurrent : state.current = .ok (desired.getD .empty) := by
      rw [NetworkAuthority.current, hstate]
      rfl
    have happly : applyToCurrent state mutation =
        applyNetworkConfigMutation (desired.getD .empty) mutation := by
      rw [applyToCurrent, hcurrent]
      rfl
    rw [hnoop, hcurrent, happly]
    refine ⟨fun h => ?_, fun error h => apply_error h, fun current h hfalse hkeeps => ?_⟩
    · exact ⟨_, _, rfl, apply_restated h,
        networkConfigurationsEqual_iff.mpr ⟨rfl, rfl, rfl, rfl, rfl, rfl, rfl, rfl⟩⟩
    · obtain rfl := Except.ok.inj h
      cases hresult : applyNetworkConfigMutation (desired.getD .empty) mutation with
      | error error => exact Or.inl ⟨error, rfl⟩
      | ok result =>
        refine Or.inr ⟨result, rfl, Bool.eq_false_iff.mpr fun hequal => ?_⟩
        exact apply_differs hfalse hkeeps hresult (networkConfigurationsEqual_iff.mp hequal)

end Network
