import ReticulumFirmware.Chat.Submission

/-!
# The appliance's side of a submission

What a step can do to the appliance: its committed records stay, and a new one is that of
the submitted material.
-/

namespace Chat

open Nor Prog Outbox

variable {ε E : Type} {geometry : Geometry} {sha256 : Sha256} {binding : OutboxBinding}
  {principal : Vector Byte 16} {compose : OutboxMaterial → MessageId × List Byte}

/-- A committed record holds the key and the wire of outbox material. -/
def HoldsMaterial (sha256 : Sha256) (binding : OutboxBinding) (principal : Vector Byte 16)
    (compose : OutboxMaterial → MessageId × List Byte) (f : Flash) (slot : ℕ)
    (material : OutboxMaterial) : Prop :=
  ∃ entry, CommittedAt sha256 binding f slot entry ∧
    entry.key = (principal, material.idempotencyKey) ∧ entry.messageId = (compose material).1 ∧
    entry.wireLen = (compose material).2.length ∧
    f.read (slot * 4096 + 256) (compose material).2.length = (compose material).2

/-- A slot still holds its material after the flash has evolved. -/
theorem HoldsMaterial.evolves {f g : Flash} {slot : ℕ} {material : OutboxMaterial}
    (h : HoldsMaterial sha256 binding principal compose f slot material)
    (hevolves : Evolves sha256 binding f g) :
    HoldsMaterial sha256 binding principal compose g slot material := by
  obtain ⟨entry, hentry, hkey, hid, hlen, hwire⟩ := h
  obtain ⟨later, hlater, hretained, hread⟩ := hevolves.committed slot entry hentry
  obtain ⟨-, -, hle⟩ := hentry.entry_spec
  rw [hlen] at hle
  refine ⟨later, hlater, hretained.key_eq.trans hkey, ?_, ?_, (hread _ hle).trans hwire⟩
  · rw [hretained.1]
    exact hid
  · rw [hretained.1]
    exact hlen

/-- The record written for a submission holds its material. -/
theorem holdsMaterial_of_writtenAt {g : Flash} {slot : ℕ} {material : OutboxMaterial}
    (h : WrittenAt sha256 binding (candidateOf principal compose material) slot g) :
    HoldsMaterial sha256 binding principal compose g slot material :=
  ⟨_, recordState_eq_committed.mp h.1, rfl, rfl, rfl, h.2⟩

/-- The invariant of the appliance. -/
structure DeviceInv (sha256 : Sha256) (binding : OutboxBinding) (device : OutboxDevice) : Prop where
  store : ∃ frontier, StoreInv sha256 binding device.flash frontier
  handle : ∀ current ∈ device.handle, Tracks sha256 binding device.flash current

/-- What a step may do to the appliance, given the material it submitted. -/
structure DeviceEffect (sha256 : Sha256) (binding : OutboxBinding) (principal : Vector Byte 16)
    (compose : OutboxMaterial → MessageId × List Byte) (submitted : OutboxMaterial → Prop)
    (device device' : OutboxDevice) : Prop where
  inv : DeviceInv sha256 binding device'
  evolves : Evolves sha256 binding device.flash device'.flash
  fresh : ∀ slot < 64, ∀ entry, CommittedAt sha256 binding device'.flash slot entry →
    (∃ earlier, CommittedAt sha256 binding device.flash slot earlier) ∨
      ∃ material, submitted material ∧
        HoldsMaterial sha256 binding principal compose device'.flash slot material

/-- A device that is left alone has had an effect. -/
theorem DeviceEffect.refl {device : OutboxDevice} {submitted : OutboxMaterial → Prop}
    (h : DeviceInv sha256 binding device) :
    DeviceEffect sha256 binding principal compose submitted device device :=
  ⟨h, .refl _, fun _ _ entry hentry => Or.inl ⟨entry, hentry⟩⟩

/-- An acceptance, complete or cut short. -/
theorem deviceEffect_of_accept {device device' : OutboxDevice} {material : OutboxMaterial}
    (heffect : AcceptEffect sha256 binding (candidateOf principal compose material) device.flash
      device'.flash)
    (htracks : ∀ current ∈ device'.handle, Tracks sha256 binding device'.flash current) :
    DeviceEffect sha256 binding principal compose (· = material) device device' := by
  refine ⟨⟨heffect.inv, htracks⟩, heffect.evolves, fun slot hslot entry hentry => ?_⟩
  rcases heffect.fresh slot hslot entry hentry with hearlier | hwritten
  · exact Or.inl hearlier
  · exact Or.inr ⟨material, rfl, holdsMaterial_of_writtenAt hwritten⟩

/-- The identifiers of an answer name a record committed under the submitted key. -/
def AnswerNames (sha256 : Sha256) (binding : OutboxBinding) (principal : Vector Byte 16)
    (material : OutboxMaterial) (f : Flash) (ids : AcceptanceIds) : Prop :=
  ∃ slot < 64, ids.submissionId.get.toNat = slot + 1 ∧
    ∃ entry, CommittedAt sha256 binding f slot entry ∧
      entry.key = (principal, material.idempotencyKey) ∧ ids.messageId = entry.messageId

/-- The identifiers of a committed entry. -/
theorem acceptanceOf_names {f : Flash} {material : OutboxMaterial} {entry later : OutboxEntry}
    {ids : AcceptanceIds} (hids : acceptanceOf entry = some ids) (hslot : entry.slot < 64)
    (hlater : CommittedAt sha256 binding f entry.slot later) (hretained : entry.Retained later)
    (hkey : entry.key = (principal, material.idempotencyKey)) :
    AnswerNames sha256 binding principal material f ids := by
  obtain ⟨id, hid, rfl⟩ := Option.map_eq_some_iff.mp hids
  have hsubmission : entry.submissionId = entry.slot + 1 :=
    hretained.submissionId_eq.symm.trans hlater.entry_spec.2.1
  refine ⟨entry.slot, hslot, ?_, later, hlater, hretained.key_eq.trans hkey, ?_⟩
  · have hget := get_of_new hid
    rw [hget, hsubmission, UInt64.toNat_ofNat_of_lt' (by change _ < 2 ^ 64; omega)]
  · rw [hretained.1]

/-- A submission's effect on the appliance, and what its answer says. -/
theorem SubmitOver.effect {device device' : OutboxDevice} {material : OutboxMaterial}
    {answer : Except E AcceptanceIds} (hinv : DeviceInv sha256 binding device)
    (h : @SubmitOver ε E geometry sha256 principal compose device material answer device') :
    DeviceEffect sha256 binding principal compose (· = material) device device' ∧
      ∀ ids, answer = .ok ids →
        AnswerNames sha256 binding principal material device'.flash ids := by
  obtain ⟨frontier, hstore⟩ := hinv.store
  cases h with
  | lost => exact ⟨.refl hinv, by simp⟩
  | unanswered hhandle hexec =>
    obtain ⟨heffect, htracks, -⟩ := (wp_accept (hinv.handle _ hhandle) hstore _ _ _ hexec).2
    exact ⟨deviceEffect_of_accept heffect (by simpa using htracks), by simp⟩
  | @answered _ _ entry ids r _ hhandle hexec hentry hids =>
    obtain ⟨heffect, htracks, hanswer⟩ := (wp_accept (hinv.handle _ hhandle) hstore _ _ _ hexec).2
    refine ⟨deviceEffect_of_accept heffect (by simpa using htracks), fun ids' heq => ?_⟩
    cases heq
    obtain ⟨current', result⟩ := r
    rcases result with error | accepted | replayed | _ | _ <;> cases hentry
    · obtain ⟨heq, hslot, hwritten⟩ := hanswer
      refine acceptanceOf_names hids hslot (recordState_eq_committed.mp hwritten.1) ?_ ?_
      · rw [← heq]
        exact .refl _
      · rw [heq]
        rfl
    · obtain ⟨hkey, -, hslot, later, hlater, hretained⟩ := hanswer
      exact acceptanceOf_names hids hslot hlater hretained hkey
  | powerLost hhandle hexec =>
    have heffect := (wp_accept (hinv.handle _ hhandle) hstore _ _ _ hexec).2
    exact ⟨deviceEffect_of_accept heffect (by simp), by simp⟩

/-- A reboot leaves the records. -/
theorem deviceEffect_reboot {device : OutboxDevice} {submitted : OutboxMaterial → Prop}
    {tr : List Mutation} {r : Option (Except (OutboxError ε) MountedOutbox)} {g : Flash}
    (hinv : DeviceInv sha256 binding device) (hvalid : AccessValid geometry binding 64)
    (hexec : Exec Faults.all (mountProg geometry sha256 binding) device.flash tr r g) :
    DeviceEffect sha256 binding principal compose submitted device
      ⟨r.bind Except.toOption, g⟩ := by
  obtain ⟨frontier, hstore⟩ := hinv.store
  obtain ⟨rfl, hr⟩ := exec_mount hstore hvalid hexec
  refine ⟨⟨⟨frontier, hstore⟩, ?_⟩, .refl _, fun _ _ entry hentry => Or.inl ⟨entry, hentry⟩⟩
  rcases hr with rfl | rfl | ⟨error, rfl⟩
  · simp
  · intro current hcurrent
    cases hcurrent
    exact tracks_mounted hstore
  · simp [Except.toOption]

/-- A receipt leaves the records. -/
theorem deviceEffect_receipt {device : OutboxDevice} {submitted : OutboxMaterial → Prop}
    {current : MountedOutbox} {entry : OutboxEntry} {tr : List Mutation}
    {r : Option (Outcome ε OutboxEntry)} {g : Flash} (hinv : DeviceInv sha256 binding device)
    (hhandle : device.handle = some current)
    (hexec : Exec Faults.all (markDelivered geometry sha256 current entry) device.flash tr r g) :
    DeviceEffect sha256 binding principal compose submitted device ⟨r.map Prod.fst, g⟩ := by
  obtain ⟨frontier, hstore⟩ := hinv.store
  have hpost := (wp_markDelivered (hinv.handle current hhandle) hstore tr r g hexec).2
  have hfresh : MarkEffect sha256 binding device.flash g := by
    cases r with
    | none => exact hpost
    | some r => exact hpost.1
  refine ⟨⟨hfresh.inv, ?_⟩, hfresh.evolves, fun slot hslot entry hentry =>
    Or.inl (hfresh.fresh slot hslot entry hentry)⟩
  cases r with
  | none => simp
  | some r => simpa using hpost.2.1

end Chat
