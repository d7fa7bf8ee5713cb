import ReticulumFirmware.Nor.Sha256
import ReticulumFirmware.Settings.ManagementAuthorization

/-!
# Runs of the management allow-list

A run of mounts, enrollments and power losses anywhere inside an enrollment behaves like one
append-only list, unless the first record is left half written or an interrupted erase
damages a committed record while it leaves its commit marker.
-/

namespace Management

open Nor Settings

/-- The steps of the allow-list. A power loss inside an enrollment leaves the list as it was
or with the identity appended. -/
inductive ListStep {ε : Type} : List ManagementIdentity →
    Event ManagementIdentity EnrollmentCommit (AccessError ε EnrollmentFault) →
    List ManagementIdentity → Prop
  | mount (list : List ManagementIdentity) : ListStep list .mount list
  | alreadyPresent {list : List ManagementIdentity} {identity : ManagementIdentity}
      (hpresent : identity ∈ list) :
      ListStep list (.answer identity (.ok .alreadyPresent)) list
  | full {list : List ManagementIdentity} {identity : ManagementIdentity}
      (hnew : identity ∉ list) (hfull : list.length = managementIdentityCapacity) :
      ListStep list (.answer identity (.error (.fault (.policy .full)))) list
  | added {list : List ManagementIdentity} {identity : ManagementIdentity} (hnew : identity ∉ list)
      (hroom : list.length ≠ managementIdentityCapacity) :
      ListStep list (.answer identity (.ok (.added (list.length + 1) (list.length + 1))))
        (list ++ [identity])
  | lost (list : List ManagementIdentity) (identity : ManagementIdentity) :
      ListStep list (.cut identity) list
  | kept {list : List ManagementIdentity} {identity : ManagementIdentity} (hnew : identity ∉ list)
      (hroom : list.length ≠ managementIdentityCapacity) :
      ListStep list (.cut identity) (list ++ [identity])

variable {ε : Type} {sha256 : Sha256} {geometry : Geometry} {f g : Flash}
  {current : ManagementAllowlist} {identity : ManagementIdentity}

/-- An enrollment that writes to flash. -/
def Writes (current : ManagementAllowlist) (identity : ManagementIdentity) : Prop :=
  identity ∉ current.value.list ∧ current.value.list.length ≠ managementIdentityCapacity

/-- The list that such an enrollment commits. -/
def appended (h : Writes current identity) : Identities := current.value.push identity h.1 h.2

/-- The mounted list of this flash, which has one generation for each identity. -/
def Mounted (sha256 : Sha256) (f : Flash) (current : ManagementAllowlist) : Prop :=
  mounted EnrollmentFault format sha256 f = .ok current ∧
    current.generation = current.value.list.length

/-- A mounted list of this kind never exhausts its generations. -/
theorem Mounted.range (h : Mounted sha256 f current) : current.generation + 1 < 2 ^ 64 := by
  have hbound : current.value.list.length ≤ 8 := current.value.bounded
  have := h.2
  omega

/-- The successor of a mounted list is mounted as one. -/
theorem mounted_appended {hwrites : Writes current identity}
    (hgeneration : current.generation = current.value.list.length)
    (h : mounted EnrollmentFault format sha256 g =
      .ok (successor format sha256 current (appended hwrites))) :
    Mounted sha256 g (successor format sha256 current (appended hwrites)) := by
  refine ⟨h, ?_⟩
  change current.generation + 1 = (current.value.list ++ [identity]).length
  rw [List.length_append, List.length_singleton, hgeneration]

/-- What an enrollment may answer. -/
def Answered (sha256 : Sha256) (current : ManagementAllowlist) (identity : ManagementIdentity)
    (f : Flash) (r : Except (AccessError ε EnrollmentFault)
      (EnrollmentCommit × ManagementAllowlist)) (g : Flash) : Prop :=
  (identity ∈ current.value.list ∧ r = .ok (.alreadyPresent, current) ∧ g = f) ∨
  (identity ∉ current.value.list ∧ current.value.list.length = managementIdentityCapacity ∧
    r = .error (.fault (.policy .full)) ∧ g = f) ∨
  ∃ hwrites : Writes current identity,
    r = .ok (.added (current.generation + 1) (current.value.list.length + 1),
      successor format sha256 current (appended hwrites)) ∧
    mounted EnrollmentFault format sha256 g =
      .ok (successor format sha256 current (appended hwrites))

/-- What an enrollment may leave when power is lost inside it. -/
def Interrupts (sha256 : Sha256) (current : ManagementAllowlist) (identity : ManagementIdentity)
    (f g : Flash) : Prop :=
  g = f ∨ ∃ hwrites : Writes current identity,
    Interrupted Faults.cuts format sha256 current (appended hwrites) f g

/-- All executions of an enrollment without backend errors. -/
theorem wp_enrollManagementIdentity (hgeometry : Writable geometry)
    (hmounted : Mounted sha256 f current)
    (hlinkable : Writes current identity → Linkable current) :
    wp Faults.cuts (fun _ => True) (enrollManagementIdentity sha256 geometry current identity :
        SettingsAction ε EnrollmentFault _).run
      (Answered sha256 current identity f) (Interrupts sha256 current identity f) f := by
  have hφ : ¬ Faults.cuts.Reporting := by simp [Faults.Reporting, Faults.cuts]
  unfold enrollManagementIdentity
  rw [validateGeometry_bind hgeometry]
  split
  · next hpresent => exact wp_action_pure (fun _ => Or.inl rfl) (Or.inl ⟨hpresent, rfl, rfl⟩)
  · next hnew =>
    split
    · next hfull =>
      exact wp_action_throw (fun _ => Or.inl rfl) (Or.inr (Or.inl ⟨hnew, hfull, rfl, rfl⟩))
    · next hroom =>
      have hwrites : Writes current identity := ⟨hnew, hroom⟩
      apply wp_action_bind
      refine (wp_commitSuccessor hφ hgeometry.1 hmounted.1 (hlinkable hwrites) hmounted.range
        ?_).and_crash.mono ?_ ?_
      · simp [Identities.push]
      · rintro r g ⟨⟨rfl, hsuccessor⟩, hcut⟩
        apply wp_action_pure (fun h => Or.inr ⟨hwrites, hcut h⟩)
        refine Or.inr (Or.inr ⟨hwrites, ?_, hsuccessor⟩)
        simp [successor, recordGeneration, Identities.push, appended]
      · exact fun g hg => Or.inr ⟨hwrites, hg⟩

/-- An enrollment that writes links to a real digest, and a power loss inside it neither leaves
part of a first record nor damages a committed record under its marker. -/
def Sound (sha256 : Sha256) (t : Transition Identities ManagementIdentity EnrollmentCommit
    (AccessError ε EnrollmentFault)) : Prop :=
  match t.before.current, t.event with
  | some current, .answer identity _ => Writes current identity → Linkable current
  | some current, .cut identity => ∀ hwrites : Writes current identity, Linkable current ∧
      CleanCut format sha256 current (appended hwrites) t.before.flash t.after.flash
  | _, _ => True

/-- The flash mounts, and a powered device has mounted just that list. -/
def InStep (sha256 : Sha256) (device : Device Identities) : Prop :=
  ∃ settings, Mounted sha256 device.flash settings ∧
    ∀ current, device.current = some current → current = settings

/-- One sound step of a device in step with its flash is a step of the list. -/
theorem step_list (hgeometry : Writable geometry)
    {t : Transition Identities ManagementIdentity EnrollmentCommit (AccessError ε EnrollmentFault)}
    (h : Step Faults.cuts (mountManagementAllowlist sha256 geometry)
      (enrollManagementIdentity sha256 geometry) t) (hsound : Sound sha256 t)
    (hbefore : InStep sha256 t.before) :
    InStep sha256 t.after ∧ ∃ settings settings', Mounted sha256 t.before.flash settings ∧
      Mounted sha256 t.after.flash settings' ∧
      ListStep settings.value.list t.event settings'.value.list := by
  obtain ⟨settings, hmounted, hcurrent⟩ := hbefore
  cases h with
  | mount device =>
    have heval : (mountManagementAllowlist sha256 geometry :
        SettingsAction ε EnrollmentFault _).eval device.flash = (.ok settings, device.flash) := by
      unfold mountManagementAllowlist
      rw [eval_mount hgeometry.1, hmounted.1]
      rfl
    refine ⟨⟨settings, hmounted, ?_⟩, settings, settings, hmounted, hmounted, .mount _⟩
    rw [heval]
    rintro current ⟨⟩
    rfl
  | @answer f g current identity result heval =>
    obtain rfl : current = settings := hcurrent current rfl
    have hanswer := (wp_enrollManagementIdentity hgeometry hmounted hsound).of_eval heval
    rcases hanswer with ⟨hpresent, rfl, rfl⟩ | ⟨hnew, hfull, rfl, rfl⟩ | ⟨hwrites, rfl, hsuccessor⟩
    · exact ⟨⟨current, hmounted, by rintro _ ⟨⟩; rfl⟩, current, current, hmounted, hmounted,
        .alreadyPresent hpresent⟩
    · exact ⟨⟨current, hmounted, by rintro _ ⟨⟩; rfl⟩, current, current, hmounted, hmounted,
        .full hnew hfull⟩
    · have hnext := mounted_appended hmounted.2 hsuccessor
      refine ⟨⟨_, hnext, by rintro _ ⟨⟩; rfl⟩, current, _, hmounted, hnext, ?_⟩
      rw [hmounted.2]
      exact .added hwrites.1 hwrites.2
  | @cut f g current identity tr hexec =>
    obtain rfl : current = settings := hcurrent current rfl
    have hlinkable : Writes current identity → Linkable current :=
      fun hwrites => (hsound hwrites).1
    rcases (wp_enrollManagementIdentity hgeometry hmounted hlinkable).crashes hexec with
      rfl | ⟨hwrites, hinterrupted⟩
    · exact ⟨⟨current, hmounted, by rintro _ ⟨⟩⟩, current, current, hmounted, hmounted,
        .lost _ identity⟩
    · rcases mounted_interrupted hmounted.1 (hlinkable hwrites) hmounted.range hinterrupted
        (hsound hwrites).2 with hold | hsuccessor
      · have hsame : Mounted sha256 g current := ⟨hold, hmounted.2⟩
        exact ⟨⟨current, hsame, by rintro _ ⟨⟩⟩, current, current, hmounted, hsame,
          .lost _ identity⟩
      · have hnext := mounted_appended hmounted.2 hsuccessor
        exact ⟨⟨_, hnext, by rintro _ ⟨⟩⟩, current, _, hmounted, hnext,
          .kept hwrites.1 hwrites.2⟩

/-- The flash mounts before and after a step, as a list that takes the step, and a new identity
can be enrolled afterwards while there is room. -/
def Atomic (sha256 : Sha256) (geometry : Geometry)
    (t : Transition Identities ManagementIdentity EnrollmentCommit
      (AccessError ε EnrollmentFault)) : Prop :=
  ∃ settings settings',
    (mountManagementAllowlist sha256 geometry : SettingsAction ε EnrollmentFault _).eval
      t.before.flash = (.ok settings, t.before.flash) ∧
    (mountManagementAllowlist sha256 geometry : SettingsAction ε EnrollmentFault _).eval
      t.after.flash = (.ok settings', t.after.flash) ∧
    ListStep settings.value.list t.event settings'.value.list ∧
    ∀ identity, Writes settings' identity → Linkable settings' →
      ∃ settings'' g, (enrollManagementIdentity sha256 geometry settings' identity :
        SettingsAction ε EnrollmentFault _).eval t.after.flash =
          (.ok (.added (settings'.value.list.length + 1) (settings'.value.list.length + 1),
            settings''), g) ∧ settings''.value.list = settings'.value.list ++ [identity]

/-- An enrollment on a mounted list with room succeeds when nothing interrupts it. -/
theorem eval_enroll (hgeometry : Writable geometry) (hmounted : Mounted sha256 f current)
    (hwrites : Writes current identity) (hlinkable : Linkable current) :
    ∃ settings g, (enrollManagementIdentity sha256 geometry current identity :
      SettingsAction ε EnrollmentFault _).eval f =
        (.ok (.added (current.value.list.length + 1) (current.value.list.length + 1), settings),
          g) ∧ settings.value.list = current.value.list ++ [identity] := by
  obtain ⟨⟨result, g⟩, heval⟩ : ∃ answer, (enrollManagementIdentity sha256 geometry current
      identity : SettingsAction ε EnrollmentFault _).eval f = answer := ⟨_, rfl⟩
  rcases (wp_enrollManagementIdentity hgeometry hmounted fun _ => hlinkable).of_eval heval with
    ⟨hpresent, -⟩ | ⟨-, hfull, -⟩ | ⟨_, rfl, -⟩
  · exact absurd hpresent hwrites.1
  · exact absurd hfull hwrites.2
  · rw [hmounted.2] at heval
    exact ⟨_, g, heval, rfl⟩

/-- Every step of a sound run from erased media is a step of the list, and enrollment stays
possible after it. -/
theorem allowlist_crash_safe (hgeometry : Writable geometry) (hf : f.Erased 0 quotaBytes)
    {last : Device Identities}
    {transitions : List (Transition Identities ManagementIdentity EnrollmentCommit
      (AccessError ε EnrollmentFault))}
    (h : Run Faults.cuts (mountManagementAllowlist sha256 geometry)
      (enrollManagementIdentity sha256 geometry) ⟨f, none⟩ transitions last)
    (hsound : ∀ t ∈ transitions, Sound sha256 t) :
    ∀ t ∈ transitions, Atomic sha256 geometry t := by
  have hfirst : InStep sha256 (⟨f, none⟩ : Device Identities) :=
    ⟨empty format, ⟨mounted_erased hf, rfl⟩, by rintro _ ⟨⟩⟩
  obtain ⟨-, hall⟩ := h.invariant
    (fun t ht hs hbefore => (step_list hgeometry ht hs hbefore).1) hsound hfirst
  intro t ht
  obtain ⟨hstep, hbefore, -⟩ := hall t ht
  obtain ⟨-, settings, settings', hold, hnew, hlist⟩ :=
    step_list hgeometry hstep (hsound t ht) hbefore
  refine ⟨settings, settings', ?_, ?_, hlist, fun identity hwrites hlinkable =>
    eval_enroll hgeometry hnew hwrites hlinkable⟩
  · unfold mountManagementAllowlist
    rw [eval_mount hgeometry.1, hold.1]
    rfl
  · unfold mountManagementAllowlist
    rw [eval_mount hgeometry.1, hnew.1]
    rfl

/-- An identity hash. -/
def firstIdentity : ManagementIdentity := Vector.replicate 16 1

/-- Another identity hash. -/
def secondIdentity : ManagementIdentity := Vector.replicate 16 2

/-- Power may be lost behind the magic of the next record. -/
theorem step_tornTarget (hmounted : Mounted sha256 f current)
    (hwrites : Writes current identity) :
    Step Faults.cuts (mountManagementAllowlist sha256 quotaGeometry :
      SettingsAction ε EnrollmentFault _) (enrollManagementIdentity sha256 quotaGeometry)
      ⟨⟨f, some current⟩, .cut identity, ⟨tornTarget format current f, none⟩⟩ := by
  obtain ⟨tr, hexec⟩ := @exec_tornTarget _ ε _ format sha256 quotaGeometry f current
    (current.value.push identity hwrites.1 hwrites.2) Faults.cuts
    (fun value => value.list.length =
      (current.value.push identity hwrites.1 hwrites.2).list.length ∧ identity ∈ value.list) rfl
    hmounted.1 hmounted.range
  apply Step.cut
  unfold enrollManagementIdentity
  rw [validateGeometry_bind writable_quotaGeometry, dif_neg hwrites.1, dif_neg hwrites.2]
  exact hexec.action_bind_none

/-- Such a power loss is sound when a record with a real digest is already mounted. -/
theorem sound_tornTarget (hlinkable : Linkable current) (hgeneration : current.generation ≠ 0) :
    Sound (ε := ε) sha256
      ⟨⟨f, some current⟩, .cut identity, ⟨tornTarget format current f, none⟩⟩ :=
  fun _ => ⟨hlinkable, cleanCut_tornTarget hgeneration⟩

/-- The first identity is new and has room. -/
theorem writes_firstIdentity : Writes (empty format) firstIdentity := ⟨List.not_mem_nil, by decide⟩

/-- The list of the first identity. -/
def firstAllowlist : ManagementAllowlist :=
  successor format Nor.sha256 (empty format) (appended writes_firstIdentity)

/-- The second identity is new and has room behind the first one. -/
theorem writes_secondIdentity : Writes firstAllowlist secondIdentity := by
  constructor <;> decide

/-- The first identity is the first generation. -/
theorem generation_firstAllowlist : firstAllowlist.generation = 1 := rfl

/-- The record of the first identity has a real digest. -/
theorem linkable_firstAllowlist : Linkable firstAllowlist := fun _ => by decide +kernel

/-- An enrollment, another one that loses power inside its record, and the boot after it. -/
theorem allowlist_crash_safe_cut :
    ∃ transitions last,
      transitions.map (·.event) = [.mount, .answer firstIdentity (.ok (.added 1 1)),
        .cut secondIdentity, .mount] ∧
      Run Faults.cuts (mountManagementAllowlist Nor.sha256 quotaGeometry :
        SettingsAction Unit EnrollmentFault _)
        (enrollManagementIdentity Nor.sha256 quotaGeometry) ⟨Flash.erased, none⟩ transitions last ∧
      ∀ t ∈ transitions, Atomic Nor.sha256 quotaGeometry t := by
  have hempty : Mounted Nor.sha256 Flash.erased (empty format) :=
    ⟨mounted_erased fun _ _ => rfl, rfl⟩
  have hlinkable : Writes (empty format) firstIdentity → Linkable (empty format) :=
    fun _ hgeneration => absurd rfl hgeneration
  obtain ⟨⟨result, f⟩, heval⟩ : ∃ answer, (enrollManagementIdentity Nor.sha256 quotaGeometry
      (empty format) firstIdentity : SettingsAction Unit EnrollmentFault _).eval Flash.erased =
        answer := ⟨_, rfl⟩
  rcases (wp_enrollManagementIdentity writable_quotaGeometry hempty hlinkable).of_eval heval with
    ⟨hpresent, -⟩ | ⟨-, hfull, -⟩ | ⟨_, rfl, hfirst⟩
  · exact absurd hpresent writes_firstIdentity.1
  · exact absurd hfull writes_firstIdentity.2
  · have hmounted : Mounted Nor.sha256 f firstAllowlist := mounted_appended rfl hfirst
    have hanswer := @Step.committed _ Unit EnrollmentFault _ _ Faults.cuts
      (mountManagementAllowlist Nor.sha256 quotaGeometry)
      (enrollManagementIdentity Nor.sha256 quotaGeometry) Flash.erased f (empty format)
      firstAllowlist firstIdentity (.added 1 1) heval
    have hcut := @step_tornTarget Unit Nor.sha256 f firstAllowlist secondIdentity hmounted
      writes_secondIdentity
    have hmount := @Step.mount _ Unit EnrollmentFault _ _ Faults.cuts
      (mountManagementAllowlist Nor.sha256 quotaGeometry)
      (enrollManagementIdentity Nor.sha256 quotaGeometry)
      ⟨tornTarget format firstAllowlist f, none⟩
    have hlast := Run.cons hmount (Run.nil _)
    have hrun := Run.cons (step_first_mount format Nor.sha256 _)
      (Run.cons hanswer (Run.cons hcut hlast))
    refine ⟨_, _, rfl, hrun,
      allowlist_crash_safe writable_quotaGeometry (fun _ _ => rfl) hrun ?_⟩
    have hgeneration : firstAllowlist.generation ≠ 0 := generation_firstAllowlist ▸ Nat.one_ne_zero
    have hsound := @sound_tornTarget Unit Nor.sha256 f firstAllowlist secondIdentity
      linkable_firstAllowlist hgeneration
    simp only [List.forall_mem_cons]
    exact ⟨trivial, hlinkable, hsound, trivial, List.forall_mem_nil _⟩

/-- Power may be lost inside the first record. -/
theorem step_tornFirst (sha256 : Sha256) :
    Step Faults.cuts (mountManagementAllowlist sha256 quotaGeometry :
      SettingsAction Unit EnrollmentFault _) (enrollManagementIdentity sha256 quotaGeometry)
      ⟨⟨Flash.erased, some (empty format)⟩, .cut firstIdentity, ⟨tornFirst format, none⟩⟩ :=
  tornTarget_empty format ▸
    step_tornTarget ⟨mounted_erased fun _ _ => rfl, rfl⟩ writes_firstIdentity

/-- Losing power inside the first enrollment of erased media disables management, whatever the
hash function. -/
theorem allowlist_torn_first_record :
    ¬ ∃ sha256 : Sha256, ∀ transitions last,
      Run Faults.cuts (mountManagementAllowlist sha256 quotaGeometry :
        SettingsAction Unit EnrollmentFault _) (enrollManagementIdentity sha256 quotaGeometry)
        ⟨Flash.erased, none⟩ transitions last →
      ∀ t ∈ transitions, Atomic sha256 quotaGeometry t := by
  rintro ⟨sha256, h⟩
  have hrun := Run.cons (step_first_mount format sha256 _)
    (Run.cons (step_tornFirst sha256) (Run.nil _))
  obtain ⟨-, settings, -, hmount, -⟩ := h _ _ hrun _ (List.mem_cons_of_mem _ List.mem_cons_self)
  unfold mountManagementAllowlist at hmount
  rw [eval_mount writable_quotaGeometry.1, mounted_tornFirst format sha256 (by decide)] at hmount
  cases hmount

end Management
