import ReticulumFirmware.Ota.ProductStore
import ReticulumFirmware.Ota.ProductTask

/-!
# Updates stay in the slot of their session

Every program and erase that handling an event can issue lies in the slot the session
targets, whatever the backend answers. The slot is chosen when a session starts: the one
that is not selected for boot at that moment.
-/

namespace Ota

open Nor Prog

variable {σ ε : Type}

/-- What the store relies on: the next slot is the one not selected, and activating it
selects it. -/
structure PartitionLibrary.Lawful (library : PartitionLibrary σ) : Prop where
  next_ok : ∀ s s' subtype, library.nextOtaPartition s = (.ok subtype, s') →
    otaSlot subtype = .ok (library.selected s).other
  activate_ok : ∀ s s', library.activateNextOtaPartition s = (.ok (), s') →
    library.selected s' = (library.selected s).other

/-- The addressed range lies in a slot. -/
def InSlot (slot : OtaSlot) (m : Mutation) : Prop :=
  (otaSlotBounds slot).1 ≤ m.start ∧ m.stop ≤ (otaSlotBounds slot).1 + (otaSlotBounds slot).2

/-- Every execution with backend errors keeps its mutations in a slot and returns a value with
the given property. -/
def Confined {α : Type} (slot : OtaSlot) (p : Prog ε α) (Q : α → Prop) : Prop :=
  ∀ f, wp Faults.errors (InSlot slot) p (fun a _ => Q a) (fun _ => True) f

namespace Confined

variable {α β : Type} {slot : OtaSlot}

/-- A value is confined. -/
theorem pure {a : α} {Q : α → Prop} (hQ : Q a) : Confined slot (.pure a : Prog ε α) Q :=
  fun _ => wp_pure (fun _ => trivial) hQ

/-- A sequence is confined where its parts are. -/
theorem bind {p : Prog ε α} {next : α → Prog ε β} {P : α → Prop} {Q : β → Prop}
    (hp : Confined slot p P) (hnext : ∀ a, P a → Confined slot (next a) Q) :
    Confined slot (p >>= next) Q :=
  fun f => wp_bind ((hp f).mono (fun a g ha => hnext a ha g) fun _ => id)

/-- The rule for a composition that also passes the state of the library. -/
theorem bindM {x : StoreM σ ε α} {next : α → StoreM σ ε β} {s : σ} {Q : β × σ → Prop}
    (P : α → Prop) (hx : Confined slot (x s) fun r => P r.1)
    (hnext : ∀ a s', P a → Confined slot (next a s') Q) : Confined slot ((x >>= next) s) Q :=
  hx.bind fun r hr => hnext r.1 r.2 hr

/-- A query mutates nothing. -/
theorem query {x : StoreAction ε α} {wrap : ε → ProductOtaError} (hx : Query wrap x.run) :
    Confined slot x.run fun _ => True :=
  fun _ => hx.wp (fun _ => trivial) trivial fun _ _ => trivial

/-- An action on the store is confined where its driver is. -/
theorem onFlash {x : StoreAction ε α} {s : σ} {P : Except ProductOtaError α → Prop}
    (hx : Confined slot x.run P) : Confined slot (Ota.onFlash x s) fun r => P r.1 :=
  hx.bind fun _ hr => .pure hr

end Confined

/-- Reading a range in blocks only reads. -/
theorem query_foldBlocks {α : Type} (base stop : ℕ)
    (step : α → ℕ → List Byte → Except ProductOtaError α) (fuel cursor : ℕ) (a : α) :
    Query (fun _ : ε => .flash) (foldBlocks base stop step fuel cursor a).run := by
  induction fuel generalizing cursor a with
  | zero => exact .pure _
  | succ fuel ih =>
    unfold foldBlocks
    split
    · apply Query.bind (Query.readAction _ _ _)
      intro block
      exact Query.bind (.pure _) fun a => ih _ a
    · exact .pure _

/-- A check only reads. -/
theorem query_ensure (condition : Prop) [Decidable condition] (error : ProductOtaError) :
    Query (fun _ : ε => ProductOtaError.flash) (Action.ensure condition error).run := by
  unfold Action.ensure
  split
  · exact .pure _
  · exact .pure _

/-- The validation of a segment only reads. -/
theorem query_validateSegment (base imageBytes : ℕ) (state : ℕ × Byte) :
    Query (fun _ : ε => .flash) (validateSegment base imageBytes state).run := by
  unfold validateSegment
  refine Query.bind (query_ensure _ _) fun _ => Query.bind (Query.readAction _ _ _) fun _ => ?_
  refine Query.bind (query_ensure _ _) fun _ => Query.bind (query_foldBlocks ..) fun _ => .pure _

/-- Validating a staged image only reads. -/
theorem query_validateEsp32s3Image (sha256 : Sha256) (slot : OtaSlot) (imageBytes : ℕ) :
    Query (fun _ : ε => .flash) (validateEsp32s3Image sha256 slot imageBytes).run := by
  unfold validateEsp32s3Image
  refine Query.bind (query_ensure _ _) fun _ => Query.bind (Query.readAction _ _ _) fun header => ?_
  refine Query.bind (query_ensure _ _) fun _ => ?_
  refine Query.bind (Query.foldlM (fun state _ => query_validateSegment ..) _ _) fun state => ?_
  refine Query.bind (Query.readAction _ _ _) fun _ => Query.bind (query_ensure _ _) fun _ => ?_
  refine Query.bind (query_ensure _ _) fun _ => Query.bind (query_foldBlocks ..) fun _ => ?_
  exact Query.bind (Query.readAction _ _ _) fun _ => query_ensure _ _

/-- An erasure is confined to its slot. -/
theorem confined_eraseSlot (slot : OtaSlot) (imageBytes : ℕ) :
    Confined slot (eraseSlot slot imageBytes : StoreAction ε Unit).run fun _ => True := by
  intro f
  unfold eraseSlot
  refine wp_ensure_bind (fun _ => trivial) (fun _ => ?_) fun _ => trivial
  refine wp_erase (fun g _ => ⟨le_rfl, le_rfl⟩) (fun _ => trivial) (fun _ _ _ => trivial) ?_ ?_
  · exact wp_pure (fun _ => trivial) trivial
  · exact fun _ _ _ _ => wp_pure (fun _ => trivial) trivial

/-- One program of a chunk stays in the slot. -/
theorem confined_writeFlash {slot : OtaSlot} {needed : Prop} [Decidable needed] {offset : ℕ}
    {bytes : List Byte} (hstart : (otaSlotBounds slot).1 ≤ offset)
    (hend : needed → offset + bytes.length ≤ (otaSlotBounds slot).1 + (otaSlotBounds slot).2) :
    Confined slot (writeFlash needed offset bytes : StoreAction ε Unit).run fun _ => True := by
  intro f
  unfold writeFlash
  split
  · next hneeded =>
    refine wp_write (fun g _ => ⟨hstart, hend hneeded⟩) (fun _ _ _ => trivial) ?_ ?_
    · exact wp_pure (fun _ => trivial) trivial
    · exact fun _ _ _ _ => wp_pure (fun _ => trivial) trivial
  · exact wp_pure (fun _ => trivial) trivial

/-- A slot is a number of whole words. -/
theorem slotLen_mod_four (slot : OtaSlot) : (otaSlotBounds slot).2 % 4 = 0 := by
  cases slot <;> rfl

/-- The padded tail is one word. -/
theorem length_paddedTail (data : List Byte) :
    (paddedTail data (data.length / 4 * 4)).length = 4 := by
  simp only [paddedTail, List.length_append, List.length_drop, List.length_replicate]
  omega

/-- The composition of two operations on one slot. -/
theorem Confined.andThen {α β : Type} {slot : OtaSlot} {x : StoreAction ε α}
    {next : α → StoreAction ε β} (hx : Confined slot x.run fun _ => True)
    (hnext : ∀ a, Confined slot (next a).run fun _ => True) :
    Confined slot (x >>= next).run fun _ => True := by
  rw [Action.run_bind_eq]
  refine hx.bind fun r _ => ?_
  cases r with
  | ok a => exact hnext a
  | error e => exact .pure trivial

/-- Both programs of a chunk stay in the slot: its length is a multiple of four. -/
theorem confined_writeVerified (slot : OtaSlot) (offset : ℕ) (data : List Byte) :
    Confined slot (writeVerified slot offset data : StoreAction ε Unit).run fun _ => True := by
  intro f
  unfold writeVerified
  refine wp_ensure_bind (fun _ => trivial) (fun _ => ?_) fun _ => trivial
  refine wp_ensure_bind (fun _ => trivial) (fun hbounds => ?_) fun _ => trivial
  have hlen := slotLen_mod_four slot
  simp only [not_or, not_not, not_lt, ne_eq] at hbounds
  obtain ⟨haligned, -, hend⟩ := hbounds
  have hwhole : Confined slot (writeFlash (data.length / 4 * 4 ≠ 0)
      ((otaSlotBounds slot).1 + offset) (data.take (data.length / 4 * 4)) :
      StoreAction ε Unit).run fun _ => True := by
    refine confined_writeFlash (Nat.le_add_right _ _) fun _ => ?_
    rw [List.length_take]
    omega
  have htail : Confined slot (writeFlash (data.length / 4 * 4 ≠ data.length)
      ((otaSlotBounds slot).1 + offset + data.length / 4 * 4)
      (paddedTail data (data.length / 4 * 4)) : StoreAction ε Unit).run fun _ => True := by
    refine confined_writeFlash (by omega) fun hneeded => ?_
    rw [length_paddedTail]
    omega
  exact (hwhole.andThen fun _ => htail.andThen fun _ => .query (query_foldBlocks ..)) f

/-- The other slot of the other one is the slot. -/
@[simp] theorem OtaSlot.other_other (slot : OtaSlot) : slot.other.other = slot := by
  cases slot <;> rfl

/-- The next slot is the one that is not selected. -/
theorem nextOtaSlot_ok {library : PartitionLibrary σ} (hlibrary : library.Lawful) {s s' : σ}
    {slot : OtaSlot} (h : nextOtaSlot library s = (.ok slot, s')) :
    slot = (library.selected s).other := by
  unfold nextOtaSlot at h
  rcases hnext : library.nextOtaPartition s with ⟨next, s₁⟩
  cases next with
  | error e => simp [hnext, Except.mapError, Except.bind] at h
  | ok subtype =>
    have hsubtype := hlibrary.next_ok s s₁ subtype hnext
    simp only [hnext, Except.mapError, Except.bind, Prod.mk.injEq] at h
    rw [hsubtype] at h
    exact (Except.ok.inj h.1).symm

/-- Preparing a slot erases the one that is not selected, and nothing else. -/
theorem confined_prepareInactive {library : PartitionLibrary σ} (hlibrary : library.Lawful)
    {slot : OtaSlot} {s : σ}
    (hslot : (nextOtaSlot library s).1.toBool = true → library.selected s = slot.other)
    (imageBytes : ℕ) :
    Confined slot (prepareInactive library imageBytes s : Prog ε _)
      fun r => ∀ selected, r.1 = .ok selected → selected = slot := by
  unfold prepareInactive
  rcases hnext : nextOtaSlot library s with ⟨next, s'⟩
  cases next with
  | error e => exact .pure (by simp)
  | ok selected =>
    have hselected : selected = slot := by
      rw [nextOtaSlot_ok hlibrary hnext, hslot (by rw [hnext]; rfl), OtaSlot.other_other]
    subst hselected
    apply Confined.onFlash (P := fun r => ∀ slot, r = .ok slot → slot = selected)
    rw [Action.run_bind_eq]
    refine (confined_eraseSlot selected imageBytes).bind fun r _ => ?_
    cases r with
    | ok _ => exact .pure fun _ h => (Except.ok.inj h).symm
    | error e => exact .pure (by simp)

/-- The session in progress, if any, writes to a slot. -/
def Targets (slot : OtaSlot) (c : OtaCoordinator) : Prop :=
  ∀ active ∈ c.active, active.slot = slot

/-- A coordinator without a session has every target. -/
theorem targets_none {slot : OtaSlot} {c : OtaCoordinator} (h : c.active = none) :
    Targets slot c := by
  simp [Targets, h]

/-- To arm the next chunk keeps the target. -/
theorem targets_armNext {ε' : Type} {slot : OtaSlot} {c : OtaCoordinator} (hc : Targets slot c)
    (link : LinkId) (session : OtaSessionId) (index : ℕ) :
    Targets slot (c.armNext link session index : _ × Except (OtaCoordinatorError ε') Unit).1 := by
  unfold OtaCoordinator.armNext
  split
  · exact hc
  · next active hactive =>
    split
    · exact hc
    · simpa [Targets] using hc active hactive

/-- To disarm keeps the target. -/
theorem targets_disarm {slot : OtaSlot} {c : OtaCoordinator} (hc : Targets slot c) :
    Targets slot c.disarm := by
  unfold OtaCoordinator.disarm
  split
  · exact hc
  · next active hactive => simpa [Targets] using hc active hactive

/-- A closed link keeps the target. -/
theorem targets_linkClosed {slot : OtaSlot} {c : OtaCoordinator} (hc : Targets slot c)
    (link : LinkId) : Targets slot (c.linkClosed link) := by
  unfold OtaCoordinator.linkClosed
  split
  · exact hc
  · split
    · exact targets_none (OtaCoordinator.active_failActive ..)
    · exact hc

/-- The answers of the node keep the target. -/
theorem targets_afterArm {slot : OtaSlot}
    {armed : OtaCoordinator × Except (OtaCoordinatorError Unit) Unit}
    (harmed : Targets slot armed.1)
    (answers : NodeAnswers) (rejected : OtaCoordinator → Reply) :
    Targets slot (afterArm answers rejected armed).1 := by
  unfold afterArm
  split
  · exact harmed
  · unfold openResourceGate
    split
    · exact harmed
    · exact targets_disarm harmed

section Handlers

variable {library : PartitionLibrary σ} {sha256 : Sha256} {slot : OtaSlot} {c : OtaCoordinator}
  {s : σ}

/-- A begin is confined to the slot that it selects. -/
theorem confined_begin (hlibrary : library.Lawful) (hc : Targets slot c) (link : LinkId)
    (nowMillis : UInt64) (manifest : OtaManifest)
    (hslot : c.active = none → manifest.imageBytes ≤ maxOtaImageBytes →
      (nextOtaSlot library s).1.toBool = true → library.selected s = slot.other) :
    Confined slot (c.begin sha256 (storeBackend library sha256) link nowMillis manifest s :
      Prog ε _)
      fun r => Targets slot r.1.1 := by
  unfold OtaCoordinator.begin
  split
  · exact .pure hc
  next hactive =>
  have hnone : c.active = none := by simpa using hactive
  split
  · exact .pure (targets_none hnone)
  next hsize =>
  refine .bindM (fun r => ∀ selected, r = .ok selected → selected = slot)
    (confined_prepareInactive hlibrary (hslot hnone (by omega)) _) fun r s' hr => ?_
  cases r with
  | error error => exact .pure (targets_none hnone)
  | ok selected => exact .pure (by simpa [Targets] using hr selected rfl)

/-- Checking and activating a written image mutates nothing and ends the session. -/
theorem confined_finish (active : ActiveSession) :
    Confined slot (c.finish sha256 (storeBackend library sha256) active s : Prog ε _)
      fun r => Targets slot r.1.1 := by
  unfold OtaCoordinator.finish
  split
  · exact .pure (targets_none (OtaCoordinator.active_failActive ..))
  refine .bindM (fun _ => True) (.onFlash (.query (query_validateEsp32s3Image ..))) fun r s' _ => ?_
  cases r with
  | error error => exact .pure (targets_none (OtaCoordinator.active_failActive ..))
  | ok _ =>
    refine .bindM (fun _ => True) (.pure trivial) fun r s' _ => ?_
    cases r with
    | error error => exact .pure (targets_none (OtaCoordinator.active_failActive ..))
    | ok _ => exact .pure (targets_none rfl)

/-- A resource is confined to the target. -/
theorem confined_ingestResource (hc : Targets slot c) (link : LinkId)
    (metadata data : List Byte) :
    Confined slot (c.ingestResource sha256 (storeBackend library sha256) link metadata data s :
      Prog ε _) fun r => Targets slot r.1.1 := by
  rcases c.ingestResource_cases sha256 (storeBackend library sha256) link metadata data with
    ⟨c', error, hactive, heq⟩ | ⟨session, hactive, -, heq⟩
  · rw [heq]
    exact .pure (targets_none hactive)
  rw [heq]
  have hslot : session.slot = slot := hc session hactive
  subst hslot
  unfold OtaCoordinator.writeChunk
  refine .bindM (fun _ => True) (.onFlash (confined_writeVerified _ _ _)) fun r s' _ => ?_
  cases r with
  | error error => exact .pure (targets_none (OtaCoordinator.active_failActive ..))
  | ok _ =>
    simp only
    split
    · exact .pure (by simp [Targets, ActiveSession.absorb])
    · exact confined_finish _

/-- One event of the product task mutates the target slot only, and keeps it the target, if a
start that reaches the backend finds the other slot selected. -/
theorem confined_handle (hlibrary : library.Lawful) (hc : Targets slot c) (event : ProductEvent)
    (hslot : event.Admitted c → (nextOtaSlot library s).1.toBool = true →
      library.selected s = slot.other) :
    Confined slot (handle sha256 (storeBackend library sha256) c event s : Prog ε _)
      fun r => Targets slot r.1.1 := by
  cases event with
  | linkClosed link => exact .pure (targets_linkClosed hc link)
  | resource answers link metadata data =>
    simp only [handle, consumeOtaResource]
    split
    · refine .bindM (fun r => Targets slot r.1)
        (confined_ingestResource hc link (metadata.getD []) data) fun r s' hr => ?_
      rcases r with ⟨c', error | status⟩
      · exact .pure hr
      · exact .pure hr
    · exact .pure (targets_linkClosed hc link)
  | control answers nowMillis request =>
    simp only [handle, answerOtaControl]
    split
    · exact .pure hc
    next hrequester =>
    cases hkind : request.kind with
    | otaStart =>
      simp only [answerStart]
      cases hdecoded : decodeStartRequest request.data with
      | error error => exact .pure hc
      | ok manifest =>
        have hadmitted : c.active = none → manifest.imageBytes ≤ maxOtaImageBytes →
            (nextOtaSlot library s).1.toBool = true → library.selected s = slot.other :=
          fun hactive hsize => hslot ⟨by simpa [Option.isSome_iff_ne_none] using hrequester, hkind,
            hactive, manifest, hdecoded, hsize⟩
        refine .bindM (fun r => Targets slot r.1)
          (confined_begin hlibrary hc request.link nowMillis manifest hadmitted) fun r s' hr => ?_
        rcases r with ⟨c', error | session⟩
        · exact .pure hr
        · exact .pure (targets_afterArm (targets_armNext hr _ _ _) _ _)
    | otaNext =>
      refine .pure ?_
      unfold answerNext
      split
      · exact hc
      · exact targets_afterArm (targets_armNext hc _ _ _) _ _
    | otaStatus => exact .pure hc
    | otaReboot => exact .pure hc

end Handlers

end Ota
