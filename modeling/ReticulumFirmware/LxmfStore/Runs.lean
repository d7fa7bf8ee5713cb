import Mathlib.Data.List.Forall2
import ReticulumFirmware.LxmfStore.Attempt
import ReticulumFirmware.LxmfStore.Mounted

/-!
# Runs of the message store

A system mounts the store, commits candidates and loses power, with any backend errors on the way.
Every marked extent belongs to a record that was programmed for a submitted candidate, the mounted
index is what a walk of the contents finds below the append position, and every acknowledged
message stays indexed with its wire.
-/

namespace LxmfStore

open Nor Lxmf

variable {ε : Type} {φ : Faults} {sha256 : Sha256} {access : BoundLxmfStore} {f g : Flash}
  {pending : PendingMutation} {candidate : InboundMessageCandidate}
  {submitted submitted' : InboundMessageCandidate → Prop}

section Origin

/-- The record that a marked extent belongs to was programmed for a submitted candidate, whose
wire it holds if it ends there. -/
structure Origin (sha256 : Sha256) (access : BoundLxmfStore)
    (submitted : InboundMessageCandidate → Prop) (f : Flash) (first index count : ℕ)
    (handle : MessageHandle) (candidate : InboundMessageCandidate) : Prop where
  submitted : submitted candidate
  inside : index < count
  required : requiredExtents access.usizeValues candidate.metadata.lengths.normalizedWire =
    some count
  fits : count < 2 ^ 16
  header : f.read (extentOffset (first + index)) extentHeaderSize =
    candidateHeader sha256 access candidate handle count index
  wire : index + 1 = count → WireAt f first count candidate.bytes

/-- Every marked extent of the region has an origin. -/
def Originates (sha256 : Sha256) (access : BoundLxmfStore)
    (submitted : InboundMessageCandidate → Prop) (f : Flash) : Prop :=
  ∀ extent < access.binding.length / extentSize, Marked f extent →
    ∃ first index count handle candidate, extent = first + index ∧
      Origin sha256 access submitted f first index count handle candidate

/-- An origin among some candidates is one among more. -/
theorem Origin.mono {first index count : ℕ} {handle : MessageHandle}
    (h : Origin sha256 access submitted f first index count handle candidate)
    (hsubmitted : ∀ candidate, submitted candidate → submitted' candidate) :
    Origin sha256 access submitted' f first index count handle candidate :=
  ⟨hsubmitted _ h.submitted, h.inside, h.required, h.fits, h.header, h.wire⟩

/-- What originates from some candidates originates from more. -/
theorem Originates.mono (h : Originates sha256 access submitted f)
    (hsubmitted : ∀ candidate, submitted candidate → submitted' candidate) :
    Originates sha256 access submitted' f := by
  intro extent hextent hmarked
  obtain ⟨first, index, count, handle, candidate, hat, horigin⟩ := h extent hextent hmarked
  exact ⟨first, index, count, handle, candidate, hat, horigin.mono hsubmitted⟩

/-- An origin stays as long as the extents up to its own are kept. -/
theorem Origin.congr {first index count : ℕ} {handle : MessageHandle}
    (h : Origin sha256 access submitted f first index count handle candidate)
    (hagree : f.Agree g 0 (extentOffset (first + index + 1))) :
    Origin sha256 access submitted g first index count handle candidate := by
  refine ⟨h.submitted, h.inside, h.required, h.fits, ?_, fun hfinal => ?_⟩
  · rw [← h.header]
    refine (hagree.read_eq (Nat.zero_le _) ?_).symm
    rw [extentOffset_eq, extentOffset_eq]
    change _ + 512 ≤ _
    omega
  · refine (h.wire hfinal).congr (hagree.mono (Nat.zero_le _) ?_)
    exact Nat.mul_le_mul_right _ (by omega)

/-- The record of a committed first header was programmed for a submitted candidate, with its
values and its wire. -/
theorem Originates.committed (h : Originates sha256 access submitted f)
    (hvalid : ValidShape access) {first : ℕ} {header : HeaderFields}
    (hcommitted : CommittedAt sha256 access f first header) :
    ∃ candidate, submitted candidate ∧ header.metadata = candidate.metadata ∧
      header.exactWireDigest = digestCandidateWire sha256 candidate ∧
      WireAt f first header.extentCount candidate.bytes := by
  have hpos := hcommitted.count_pos
  have hend := hcommitted.inside
  obtain ⟨hversion, -, hfits, hrequired, -⟩ := of_decodeHeader hcommitted.decoded
  obtain ⟨start, index, count, handle, candidate, hat, horigin⟩ :=
    h (first + header.extentCount - 1) (by omega) hcommitted.marked
  -- the header of the final extent has both the record's values and the origin's
  have hlast := hcommitted.headers (header.extentCount - 1) (by omega)
  rw [snapshotAt_header, ← Nat.add_sub_assoc (show 1 ≤ header.extentCount from hpos), hat,
    horigin.header, expectedHeader, hversion, candidateHeader] at hlast
  have hdecoded := @decodeHeader_of_valid sha256 access hvalid handle index count
    candidate.metadata (digestCandidateWire sha256 candidate) horigin.required horigin.fits
    horigin.inside
  rw [hlast, decodeHeader_of_valid hvalid hrequired hfits (by omega)] at hdecoded
  have hvalues := Except.ok.inj hdecoded
  have hindex : header.extentCount - 1 = index := congrArg HeaderFields.extentIndex hvalues
  have hcount : header.extentCount = count := congrArg HeaderFields.extentCount hvalues
  have hfirst : start = first := by omega
  refine ⟨candidate, horigin.submitted, congrArg HeaderFields.metadata hvalues,
    congrArg HeaderFields.exactWireDigest hvalues, ?_⟩
  rw [hcount, ← hfirst]
  exact horigin.wire (by omega)

/-- An attempt keeps the origins, wherever it stopped. -/
theorem Originates.stopped (h : Originates sha256 access submitted f)
    (hallocated : Allocated access pending) (hfor : IsFor sha256 pending candidate)
    (hsubmitted : submitted candidate) (hbehind : BlankBehind access f pending)
    (hstopped : Stopped sha256 access submitted f pending g) :
    Originates sha256 access submitted g := by
  obtain ⟨houtside, hspan⟩ := hstopped
  intro extent hextent hmarked
  by_cases hbefore : extent < pending.firstExtent
  · -- an extent before the span
    have hagree : f.Agree g 0 (extentOffset (extent + 1)) := fun a _ ha =>
      (houtside a (.inl (ha.trans_le (Nat.mul_le_mul_right _ hbefore)))).symm
    obtain ⟨first, index, count, handle, candidate, rfl, horigin⟩ :=
      h extent hextent (hmarked.congr (hagree.mono (Nat.zero_le _) (le_refl _)))
    exact ⟨first, index, count, handle, candidate, rfl, horigin.congr hagree⟩
  by_cases hinside : extent < pending.firstExtent + pending.extentCount
  · obtain ⟨index, rfl⟩ := Nat.exists_eq_add_of_le (not_lt.mp hbefore)
    have hindex : index < pending.extentCount := by omega
    cases hspan with
    | blank hblank => exact absurd hmarked (hblank.not_marked hindex)
    | headed hheaded hwire =>
      have horigin : ∀ candidate, submitted candidate → IsFor sha256 pending candidate →
          (index + 1 = pending.extentCount →
            WireAt g pending.firstExtent pending.extentCount candidate.bytes) →
          ∃ first index' count handle candidate,
            pending.firstExtent + index = first + index' ∧
              Origin sha256 access submitted g first index' count handle candidate :=
        fun candidate hsubmitted hfor hwire =>
          ⟨pending.firstExtent, index, pending.extentCount, pending.handle, candidate, rfl,
            hsubmitted, hindex, by rw [← hfor.2]; exact hallocated.required, hallocated.fits,
            by rw [hfor.header]; exact hheaded index hindex, hwire⟩
      by_cases hfinal : index + 1 = pending.extentCount
      · have hspanMarked : SpanMarked g pending := by
          rw [SpanMarked, ← hfinal]
          exact hmarked
        obtain ⟨writer, hwriter, hwriterFor, hwireAt⟩ := hwire hspanMarked
        exact horigin writer hwriter hwriterFor fun _ => hwireAt
      · exact horigin candidate hsubmitted hfor fun h => absurd h hfinal
  · -- an extent behind the span is still erased
    have herased := hbehind.of_outside houtside extent (not_lt.mp hinside) hextent
    refine absurd hmarked (not_marked_of_erased (herased.mono (Nat.le_add_right _ _) ?_))
    change _ + 4064 + 32 ≤ _ + 4096
    omega

end Origin

section System

/-- A device with the store, the candidates submitted so far and the acknowledged ones. -/
structure LxmfSystem where
  flash : Flash
  store : Option MountedLxmfStore
  submitted : List InboundMessageCandidate
  /-- Receipts of completed commits with the candidates that they committed, oldest first. -/
  acknowledged : List (DurableMessageReceipt × InboundMessageCandidate)

/-- The store after a mount: nothing is mounted after a failure or a power loss. -/
def mountedStore : Option (Except (LxmfStoreMountError ε) MountedLxmfStore) →
    Option MountedLxmfStore
  | some (.ok store) => some store
  | _ => none

namespace LxmfSystem

/-- The system after a commit of a candidate, or after a power loss in it. -/
def afterCommit (system : LxmfSystem) (candidate : InboundMessageCandidate) (g : Flash) :
    Option (Except (LxmfCommitError ε) LxmfCommitOutcome × MountedLxmfStore) → LxmfSystem
  | none => ⟨g, none, candidate :: system.submitted, system.acknowledged⟩
  | some (.ok (.committed receipt), store) => ⟨g, some store, candidate :: system.submitted,
      system.acknowledged ++ [(receipt, candidate)]⟩
  | some (_, store) => ⟨g, some store, candidate :: system.submitted, system.acknowledged⟩

variable (ε φ) in
/-- One step: a mount into an index of any capacity, a commit, or a loss of the mounted store. -/
inductive Step (sha256 : Sha256) (access : BoundLxmfStore) : LxmfSystem → LxmfSystem → Prop
  | mount {system : LxmfSystem} {capacity : ℕ} {tr : List Mutation} {r : Option _} {g : Flash}
      (hrun : Prog.Exec φ (mount sha256 access capacity : MountAction ε _).run system.flash tr
        r g) :
      Step sha256 access system { system with flash := g, store := mountedStore r }
  | commit {system : LxmfSystem} {store : MountedLxmfStore} {candidate : InboundMessageCandidate}
      {tr : List Mutation} {r : Option _} {g : Flash} (hstore : system.store = some store)
      (hrun : Prog.Exec φ (LxmfStore.commit (ε := ε) sha256 access store candidate) system.flash tr
        r g) :
      Step sha256 access system (system.afterCommit candidate g r)
  | reset (system : LxmfSystem) : Step sha256 access system { system with store := none }

/-- An erased region before its first mount. -/
def Fresh (access : BoundLxmfStore) (system : LxmfSystem) : Prop :=
  (∀ extent < access.binding.length / extentSize,
    system.flash.Erased (extentOffset extent) extentSize) ∧
  system.store = none ∧ system.submitted = [] ∧ system.acknowledged = []

variable (ε φ) in
/-- The runs of the system from an erased region. -/
inductive Reachable (sha256 : Sha256) (access : BoundLxmfStore) : LxmfSystem → Prop
  | fresh {system : LxmfSystem} (h : system.Fresh access) : Reachable sha256 access system
  | step {system next : LxmfSystem} (h : Reachable sha256 access system)
      (hstep : Step ε φ sha256 access system next) : Reachable sha256 access next

end LxmfSystem

end System

section Invariant

/-- The contents behind the append position: erased, or the span of the pending mutation. -/
inductive Tail (sha256 : Sha256) (access : BoundLxmfStore)
    (submitted : InboundMessageCandidate → Prop) (f : Flash) (store : MountedLxmfStore) : Prop
  | idle (hpending : store.pending = none)
      (herased : ∀ extent, store.appendExtent ≤ extent →
        extent < access.binding.length / extentSize → f.Erased (extentOffset extent) extentSize)
  | pending {pending : PendingMutation} {candidate : InboundMessageCandidate}
      (hpending : store.pending = some pending) (hallocated : Allocated access pending)
      (hfirst : pending.firstExtent = store.appendExtent)
      (hhandle : pending.handle.get = store.nextHandle)
      (hsubmitted : submitted candidate) (hfor : IsFor sha256 pending candidate)
      (hspan : Spanned sha256 access submitted f pending) (hbehind : BlankBehind access f pending)

/-- The mounted store is what the walk found up to its append position. -/
structure Tracks (sha256 : Sha256) (access : BoundLxmfStore)
    (submitted : InboundMessageCandidate → Prop) (f : Flash) (position : MountState)
    (store : MountedLxmfStore) : Prop where
  readable : validateReadAccess access = .ok ()
  binding : store.binding = access.binding
  capacity : position.store.capacity = store.capacity
  extent : position.extent = store.appendExtent
  appendExtent : position.store.appendExtent = store.appendExtent
  entries : position.store.entries = store.entries
  nextHandle : store.nextHandle = handleAfter position.maxHandle
  tail : Tail sha256 access submitted f store

/-- The entry of an acknowledged message, with the wire that was committed. -/
structure Acknowledged (f : Flash) (entry : IndexEntry)
    (message : DurableMessageReceipt × InboundMessageCandidate) : Prop where
  receipt : entry.receipt = message.1
  metadata : entry.metadata = message.2.metadata
  wire : WireAt f entry.firstExtent entry.extentCount message.2.bytes

/-- Every acknowledged message is among some entries, in the order of the commits. -/
def Logged (f : Flash) (entries : List IndexEntry)
    (acknowledged : List (DurableMessageReceipt × InboundMessageCandidate)) : Prop :=
  ∃ logged, List.Sublist logged entries ∧ List.Forall₂ (Acknowledged f) logged acknowledged

variable (ε) in
/-- What holds in every run, with the walk up to the append position. -/
structure Sound (sha256 : Sha256) (access : BoundLxmfStore) (system : LxmfSystem) (capacity : ℕ)
    (position : MountState) : Prop where
  walk : Walk ε sha256 access system.flash (mountStart access capacity) position
  originates : Originates sha256 access (· ∈ system.submitted) system.flash
  logged : Logged system.flash position.store.entries system.acknowledged
  mounted : ∀ store, system.store = some store →
    Tracks sha256 access (· ∈ system.submitted) system.flash position store

/-- A span of some candidates is one of more. -/
theorem Spanned.mono (h : Spanned sha256 access submitted f pending)
    (hsubmitted : ∀ candidate, submitted candidate → submitted' candidate) :
    Spanned sha256 access submitted' f pending := by
  cases h with
  | blank hblank => exact .blank hblank
  | headed hheaded hwire =>
    refine .headed hheaded fun hmarked => ?_
    obtain ⟨candidate, hcandidate, hfor, hwireAt⟩ := hwire hmarked
    exact ⟨candidate, hsubmitted _ hcandidate, hfor, hwireAt⟩

/-- A tail that is due to some candidates is due to more. -/
theorem Tail.mono {store : MountedLxmfStore} (h : Tail sha256 access submitted f store)
    (hsubmitted : ∀ candidate, submitted candidate → submitted' candidate) :
    Tail sha256 access submitted' f store := by
  cases h with
  | idle hpending herased => exact .idle hpending herased
  | pending hpending hallocated hfirst hhandle hcandidate hfor hspan hbehind =>
    exact .pending hpending hallocated hfirst hhandle (hsubmitted _ hcandidate) hfor
      (hspan.mono hsubmitted) hbehind

/-- A store that is tracked has a binding of valid shape. -/
theorem Tracks.shape {position : MountState} {store : MountedLxmfStore}
    (h : Tracks sha256 access submitted f position store) : ValidShape access :=
  validShape_of_read h.readable

/-- A store that is tracked with some candidates is tracked with more. -/
theorem Tracks.mono {position : MountState} {store : MountedLxmfStore}
    (h : Tracks sha256 access submitted f position store)
    (hsubmitted : ∀ candidate, submitted candidate → submitted' candidate) :
    Tracks sha256 access submitted' f position store :=
  { h with tail := h.tail.mono hsubmitted }

/-- Acknowledged messages stay logged as long as the extents of the entries are kept. -/
theorem Logged.congr {store : MountedLxmfStore} {maxHandle : ℕ}
    {acknowledged : List (DurableMessageReceipt × InboundMessageCandidate)}
    (h : Logged f store.entries acknowledged) (hindexed : Indexed sha256 access f store maxHandle)
    (hagree : f.Agree g 0 (extentOffset store.appendExtent)) :
    Logged g store.entries acknowledged := by
  obtain ⟨logged, hsublist, hacknowledged⟩ := h
  refine ⟨logged, hsublist, ?_⟩
  have hkept : ∀ entry ∈ logged, ∀ message, Acknowledged f entry message →
      Acknowledged g entry message := by
    intro entry hentry message h
    refine ⟨h.receipt, h.metadata, h.wire.congr (hagree.mono (Nat.zero_le _) ?_)⟩
    exact Nat.mul_le_mul_right _ (hindexed.below entry (hsublist.subset hentry))
  clear hsublist
  induction hacknowledged with
  | nil => exact .nil
  | cons hfirst hrest ih =>
    rw [List.forall_mem_cons] at hkept
    exact .cons (hkept.1 _ hfirst) (ih hkept.2)

/-- What is logged stays so when entries are appended. -/
theorem Logged.mono {entries entries' : List IndexEntry}
    {acknowledged : List (DurableMessageReceipt × InboundMessageCandidate)}
    (h : Logged f entries acknowledged) (hentries : entries <+: entries') :
    Logged f entries' acknowledged := by
  obtain ⟨logged, hsublist, hacknowledged⟩ := h
  exact ⟨logged, hsublist.trans hentries.sublist, hacknowledged⟩

/-- One more acknowledged message. -/
theorem Logged.append {entries : List IndexEntry} {entry : IndexEntry}
    {acknowledged : List (DurableMessageReceipt × InboundMessageCandidate)}
    {message : DurableMessageReceipt × InboundMessageCandidate}
    (h : Logged f entries acknowledged) (hmessage : Acknowledged f entry message) :
    Logged f (entries ++ [entry]) (acknowledged ++ [message]) := by
  obtain ⟨logged, hsublist, hacknowledged⟩ := h
  exact ⟨logged ++ [entry], hsublist.append (List.Sublist.refl _),
    List.rel_append hacknowledged (.cons hmessage .nil)⟩

end Invariant

section Steps

variable {system : LxmfSystem} {capacity : ℕ} {position : MountState}

/-- A fresh system is sound. -/
theorem LxmfSystem.Fresh.sound (h : system.Fresh access) :
    Sound ε sha256 access system 0 (mountStart access 0) := by
  obtain ⟨herased, hstore, hsubmitted, hacknowledged⟩ := h
  refine ⟨.refl, fun extent hextent hmarked => ?_, ?_, fun store hsome => ?_⟩
  · refine absurd hmarked (not_marked_of_erased ((herased extent hextent).mono
      (Nat.le_add_right _ _) ?_))
    change _ + 4064 + 32 ≤ _ + 4096
    omega
  · rw [hacknowledged]
    exact ⟨[], List.nil_sublist _, .nil⟩
  · rw [hstore] at hsome
    cases hsome

/-- Losing the mounted store keeps a sound system sound. -/
theorem Sound.unmounted (h : Sound ε sha256 access system capacity position) :
    Sound ε sha256 access { system with store := none } capacity position :=
  ⟨h.walk, h.originates, h.logged, fun _ hsome => absurd hsome.symm (Option.some_ne_none _)⟩

/-- A mount that succeeds tracks its walk, which goes on from the one before. -/
theorem Sound.mounted_ok (h : Sound ε sha256 access system capacity position) {capacity' : ℕ}
    {store : MountedLxmfStore}
    (hmount : (mount sha256 access capacity' : MountAction ε _).answer system.flash = .ok store) :
    ∃ position', Sound ε sha256 access { system with store := some store } capacity' position' := by
  obtain ⟨hvalid, final, hwalk, hend, hhandle, rfl⟩ := walk_of_mount hmount
  have hgrows := (h.walk.withCapacity hwalk hend).grows
  have hstart := hwalk.grows
  have hwalked := walked_mountStart.walk hwalk
  obtain ⟨position', hbefore, -, hextent, hstore, hmax⟩ := walk_append hwalk
  refine ⟨position', hbefore, h.originates, ?_, fun store hsome => ?_⟩
  · rw [hstore]
    exact h.logged.mono hgrows.1
  · obtain rfl := Option.some.inj hsome
    refine ⟨hvalid, hstart.2.1, ?_, hextent, ?_, ?_, ?_, ?_⟩
    · rw [hstore]
    · rw [hstore]
    · rw [hstore]
    · dsimp only
      rw [hmax, handleAfter, if_pos hhandle]
    · exact .idle hstart.2.2.2.1 fun extent hfrom hto =>
        hwalked.blank extent hfrom (hto.trans_le hend)

/-- A candidate more keeps a sound system sound. -/
theorem Sound.submit (h : Sound ε sha256 access system capacity position)
    (candidate : InboundMessageCandidate) :
    Sound ε sha256 access { system with submitted := candidate :: system.submitted } capacity
      position :=
  ⟨h.walk, h.originates.mono fun _ => List.mem_cons_of_mem _, h.logged, fun store hsome =>
    (h.mounted store hsome).mono fun _ => List.mem_cons_of_mem _⟩

end Steps

section Commits

variable {system : LxmfSystem} {capacity : ℕ} {position : MountState} {store : MountedLxmfStore}
  {resumed : Bool}

/-- What an attempt finds: the span of its mutation behind the append position, erased or as an
earlier attempt left it. -/
structure Ready (sha256 : Sha256) (access : BoundLxmfStore)
    (submitted : InboundMessageCandidate → Prop) (f : Flash) (store : MountedLxmfStore)
    (pending : PendingMutation) (resumed : Bool) : Prop where
  allocated : Allocated access pending
  first : pending.firstExtent = store.appendExtent
  handle : pending.handle.get = store.nextHandle
  span : Spanned sha256 access submitted f pending
  behind : BlankBehind access f pending
  fresh : resumed = false → BodyBlank f pending

/-- An admitted attempt finds what it needs behind the append position. -/
theorem Tail.ready (h : Tail sha256 access submitted f store)
    (hadmitted : Admitted sha256 access store candidate pending resumed) :
    Ready sha256 access submitted f store pending resumed := by
  have hpos := requiredExtents_pos hadmitted.required
  have hremains := hadmitted.remains
  have hrequired := hadmitted.required
  rw [← hadmitted.metadata] at hrequired
  cases resumed with
  | true =>
    have hresumes := hadmitted.resumes rfl
    cases h with
    | idle hpending => exact absurd (hresumes.symm.trans hpending) (Option.some_ne_none _)
    | pending hpending hallocated hfirst hhandle _ _ hspan hbehind =>
      obtain rfl := Option.some.inj (hpending.symm.trans hresumes)
      exact ⟨hallocated, hfirst, hhandle, hspan, hbehind, fun h => Bool.noConfusion h⟩
  | false =>
    obtain ⟨hnone, hfirst, hhandle⟩ := hadmitted.begins rfl
    cases h with
    | pending hpending => exact absurd (hpending.symm.trans hnone) (Option.some_ne_none _)
    | idle _ herased =>
      have hblank : BodyBlank f pending := by
        intro index hindex
        refine (herased (pending.firstExtent + index) (by omega) (by omega)).mono
          (Nat.le_add_right _ _) ?_
        change _ + 512 + 3584 ≤ _ + 4096
        omega
      refine ⟨⟨validShape_of_write hadmitted.writable, hrequired, hadmitted.fits, by omega⟩, hfirst,
        hhandle, .blank hblank,
        fun extent hfrom hto => herased extent (by omega) hto, fun _ => hblank⟩

/-- A tracked store with an admitted candidate is ready for it. -/
theorem Tracks.ready (h : Tracks sha256 access submitted f position store)
    (hadmitted : Admitted sha256 access store candidate pending resumed) :
    Ready sha256 access submitted f store pending resumed :=
  h.tail.ready hadmitted

/-- What an attempt keeps below the append position. -/
theorem Stopped.agree (hstopped : Stopped sha256 access submitted f pending g)
    (hfirst : pending.firstExtent = store.appendExtent) :
    f.Agree g 0 (extentOffset store.appendExtent) := by
  intro a _ ha
  rw [← hfirst] at ha
  exact (hstopped.1 a (.inl ha)).symm

/-- An attempt that stops keeps the walk, the origins and the acknowledged messages. -/
theorem Sound.stopped (h : Sound ε sha256 access system capacity position)
    (hstore : system.store = some store)
    (hready : Ready sha256 access (· ∈ system.submitted) system.flash store pending resumed)
    (hfor : IsFor sha256 pending candidate) (hsubmitted : candidate ∈ system.submitted)
    (hstopped : Stopped sha256 access (· ∈ system.submitted) system.flash pending g) :
    Sound ε sha256 access
      { system with flash := g, store := some { store with pending := some pending } } capacity
        position := by
  have htracks := h.mounted store hstore
  have hagree := hstopped.agree hready.first
  have hwalked := walked_mountStart.walk h.walk
  refine ⟨h.walk.congr ?_, h.originates.stopped hready.allocated hfor hsubmitted hready.behind
    hstopped, h.logged.congr hwalked.indexed ?_, fun store' hsome => ?_⟩
  · rw [htracks.extent]
    exact hagree.mono (Nat.zero_le _) (le_refl _)
  · rw [htracks.appendExtent]
    exact hagree
  · obtain rfl := Option.some.inj hsome
    exact ⟨htracks.readable, htracks.binding, htracks.capacity, htracks.extent,
      htracks.appendExtent, htracks.entries, htracks.nextHandle,
      .pending rfl hready.allocated hready.first
        hready.handle hsubmitted hfor hstopped.2 (hready.behind.of_outside hstopped.1)⟩

/-- The handle of a new mutation follows the greatest one that was seen. -/
theorem handle_eq_of_tracks (htracks : Tracks sha256 access submitted f position store)
    (hhandle : pending.handle.get = store.nextHandle) :
    pending.handle.get = position.maxHandle + 1 := by
  have hpos := pending.handle.pos
  rw [hhandle, htracks.nextHandle, handleAfter] at hpos ⊢
  split_ifs at hpos ⊢
  · rfl
  · exact absurd hpos (lt_irrefl 0)

/-- The walk goes on over the record of a completed mutation. -/
theorem Sound.walk_recorded (h : Sound ε sha256 access system capacity position)
    (hstore : system.store = some store)
    (hready : Ready sha256 access (· ∈ system.submitted) system.flash store pending resumed)
    (hadmitted : Admitted sha256 access store candidate pending resumed) {entry : IndexEntry}
    (hrecorded : Recorded sha256 access (· ∈ system.submitted) system.flash pending entry g) :
    Walk ε sha256 access g (mountStart access capacity)
      ⟨position.extent + pending.extentCount,
        (position.store.reach (position.extent + pending.extentCount)).push entry,
        max position.maxHandle pending.handle.get⟩ := by
  have htracks := h.mounted store hstore
  have hwalked := walked_mountStart.walk h.walk
  have hagree := hrecorded.stopped.agree hready.first
  have hextent : position.extent = pending.firstExtent := htracks.extent.trans hready.first.symm
  have hpos := hready.allocated.pos
  have hinside := hready.allocated.inside
  have hhandle := handle_eq_of_tracks htracks hready.handle
  have hmessage : entry.receipt.messageId = candidate.metadata.messageId := by
    rw [hrecorded.entry_eq, ← hadmitted.metadata]
    rfl
  have hadmits : position.store.Admits (recordEntry position.extent (pendingFields pending)) := by
    rw [hextent, ← hrecorded.entry_eq]
    refine ⟨?_, ?_, ?_⟩
    · rw [hmessage, MountedLxmfStore.entryForMessage, htracks.entries]
      exact hadmitted.fresh
    · refine List.find?_eq_none.mpr fun earlier hearlier hsame => ?_
      have hle := hwalked.indexed.handle_le earlier hearlier
      rw [of_decide_eq_true hsame, hrecorded.entry_eq] at hle
      change pending.handle.get ≤ position.maxHandle at hle
      omega
    · rw [htracks.entries, htracks.capacity]
      exact hadmitted.room
  have hcommitted : CommittedAt sha256 access g position.extent (pendingFields pending) := by
    rw [hextent]
    exact hrecorded.committed
  refine (h.walk.congr (by rw [htracks.extent]; exact hagree.mono (Nat.zero_le _) (le_refl _))).tail
    ⟨by omega, ?_⟩
  have hanswer := answer_mountExtent_committed (ε := ε) htracks.shape hcommitted hadmits
  rw [hrecorded.entry_eq, ← hextent]
  exact hanswer

end Commits

section Completion

variable {system : LxmfSystem} {capacity : ℕ} {position : MountState} {store : MountedLxmfStore}
  {resumed : Bool} {entry : IndexEntry}

/-- A completed mutation of a new message is indexed last. -/
theorem MountedLxmfStore.complete_eq
    (hfresh : store.entryForMessage entry.receipt.messageId = none) :
    store.complete pending entry =
      { store with
        entries := store.entries ++ [entry]
        appendExtent := max store.appendExtent (pending.firstExtent + pending.extentCount)
        nextHandle := handleAfter pending.handle.get
        pending := none } := by
  have hnone : (MountedLxmfStore.entryForMessage { store with pending := some pending }
      entry.receipt.messageId).isNone = true := Option.isNone_iff_eq_none.mpr hfresh
  rw [complete, installEntry, if_pos hnone]
  rfl

/-- A completed mutation keeps a sound system sound; the message may be acknowledged if its wire
is the candidate's. -/
theorem Sound.recorded (h : Sound ε sha256 access system capacity position)
    (hstore : system.store = some store)
    (hready : Ready sha256 access (· ∈ system.submitted) system.flash store pending resumed)
    (hadmitted : Admitted sha256 access store candidate pending resumed)
    (hsubmitted : candidate ∈ system.submitted)
    (hrecorded : Recorded sha256 access (· ∈ system.submitted) system.flash pending entry g)
    {acknowledged : List (DurableMessageReceipt × InboundMessageCandidate)}
    (hacknowledged : acknowledged = system.acknowledged ∨
      acknowledged = system.acknowledged ++ [(entry.receipt, candidate)] ∧
        WireAt g pending.firstExtent pending.extentCount candidate.bytes) :
    ∃ position', Sound ε sha256 access ⟨g, some (store.complete pending entry), system.submitted,
      acknowledged⟩ capacity position' := by
  have htracks := h.mounted store hstore
  have hstopped := hrecorded.stopped
  have hagree := hstopped.agree hready.first
  have hwalk := h.walk_recorded hstore hready hadmitted hrecorded
  have hwalked := walked_mountStart.walk h.walk
  have hextent : position.extent = pending.firstExtent := htracks.extent.trans hready.first.symm
  have hhandle := handle_eq_of_tracks htracks hready.handle
  have hlogged : Logged g position.store.entries system.acknowledged :=
    h.logged.congr hwalked.indexed (by rw [htracks.appendExtent]; exact hagree)
  have hfresh : store.entryForMessage entry.receipt.messageId = none := by
    have hmessage : entry.receipt.messageId = candidate.metadata.messageId := by
      rw [hrecorded.entry_eq, ← hadmitted.metadata]
      rfl
    rw [hmessage]
    exact hadmitted.fresh
  refine ⟨_, hwalk, h.originates.stopped hready.allocated ⟨hadmitted.replay, hadmitted.metadata⟩
    hsubmitted hready.behind hstopped, ?_, fun store' hsome => ?_⟩
  · obtain rfl | ⟨rfl, hwire⟩ := hacknowledged
    · exact hlogged.mono (List.prefix_append _ _)
    · refine hlogged.append ⟨rfl, ?_, ?_⟩
      · rw [hrecorded.entry_eq, ← hadmitted.metadata]
        rfl
      · rw [hrecorded.entry_eq]
        exact hwire
  · obtain rfl := Option.some.inj hsome
    have hend : max store.appendExtent (pending.firstExtent + pending.extentCount) =
        pending.firstExtent + pending.extentCount := by
      rw [hready.first]
      exact Nat.max_eq_right (Nat.le_add_right _ _)
    rw [MountedLxmfStore.complete_eq hfresh]
    refine ⟨htracks.readable, htracks.binding, htracks.capacity, ?_, ?_, ?_, ?_,
      .idle rfl fun extent hfrom hto => ?_⟩
    · dsimp only
      rw [hend, hextent]
    · change max position.store.appendExtent (position.extent + pending.extentCount) =
        max store.appendExtent (pending.firstExtent + pending.extentCount)
      rw [htracks.appendExtent, hextent]
    · change position.store.entries ++ [entry] = store.entries ++ [entry]
      rw [htracks.entries]
    · change handleAfter pending.handle.get =
        handleAfter (max position.maxHandle pending.handle.get)
      rw [hhandle, Nat.max_eq_right (Nat.le_succ _)]
    · dsimp only at hfrom
      rw [hend] at hfrom
      exact hready.behind.of_outside hrecorded.outside extent hfrom hto

/-- A commit keeps a sound system sound, whatever the backend reports and wherever power is
lost. -/
theorem Sound.commit (h : Sound ε sha256 access system capacity position)
    (hstore : system.store = some store) {tr : List Mutation}
    {r : Option (Except (LxmfCommitError ε) LxmfCommitOutcome × MountedLxmfStore)}
    (hrun : Prog.Exec φ (LxmfStore.commit (ε := ε) sha256 access store candidate) system.flash tr
      r g) :
    ∃ position', Sound ε sha256 access (system.afterCommit candidate g r) capacity position' := by
  have hsubmit := h.submit candidate
  have hkept : ({ system with submitted := candidate :: system.submitted } : LxmfSystem) =
      ⟨system.flash, some store, candidate :: system.submitted, system.acknowledged⟩ := by
    rw [hstore]
  rw [LxmfStore.commit] at hrun
  cases hadmission : admission sha256 access store candidate with
  | error error =>
    rw [hadmission] at hrun
    cases hrun with
    | done =>
      rw [hkept] at hsubmit
      exact ⟨position, hsubmit⟩
    | cut => exact ⟨position, hsubmit.unmounted⟩
  | ok admission =>
    rw [hadmission] at hrun
    cases admission with
    | alreadyDurable receipt =>
      cases hrun with
      | done =>
        rw [hkept] at hsubmit
        exact ⟨position, hsubmit⟩
      | cut => exact ⟨position, hsubmit.unmounted⟩
    | append pending resumed =>
      have hadmitted := admitted hadmission
      have hready := (hsubmit.mounted store hstore).ready hadmitted
      have hfor : IsFor sha256 pending candidate := ⟨hadmitted.replay, hadmitted.metadata⟩
      have hcandidate : candidate ∈ candidate :: system.submitted := List.mem_cons_self
      have hattempt := wp_appendRecord (ε := ε) (φ := φ) hready.allocated hfor hcandidate
        hready.behind hready.span hready.fresh
      dsimp only at hrun
      obtain ⟨rfl, hlost⟩ | ⟨result, f', tr₁, tr₂, rfl, hfirst, hrest⟩ := hrun.bind_cases
      · exact ⟨position, (hsubmit.stopped hstore hready hfor hcandidate
          (hattempt.crashes hlost)).unmounted⟩
      · have hresult := hattempt.returns hfirst
        cases result with
        | error error =>
          have hstopped := hsubmit.stopped hstore hready hfor hcandidate hresult
          cases hrest with
          | done => exact ⟨position, hstopped⟩
          | cut => exact ⟨position, hstopped.unmounted⟩
        | ok result =>
          obtain ⟨hrecorded, hwire⟩ := hresult
          cases hrest with
          | done =>
            cases hrecovered : result.2 with
            | true =>
              obtain ⟨position', hsound⟩ := hsubmit.recorded hstore hready hadmitted hcandidate
                hrecorded (.inl rfl)
              exact ⟨position', hsound⟩
            | false =>
              obtain ⟨position', hsound⟩ := hsubmit.recorded hstore hready hadmitted hcandidate
                hrecorded (.inr ⟨rfl, hwire hrecovered⟩)
              exact ⟨position', hsound⟩
          | cut =>
            obtain ⟨position', hsound⟩ := hsubmit.recorded hstore hready hadmitted hcandidate
              hrecorded (.inl rfl)
            exact ⟨position', hsound.unmounted⟩

end Completion

section Reachable

variable {system next : LxmfSystem}

/-- A step keeps a system sound. -/
theorem LxmfSystem.Step.sound (hstep : LxmfSystem.Step ε φ sha256 access system next)
    (h : ∃ capacity position, Sound ε sha256 access system capacity position) :
    ∃ capacity position, Sound ε sha256 access next capacity position := by
  obtain ⟨capacity, position, h⟩ := h
  cases hstep with
  | @mount capacity' tr r g hrun =>
    obtain ⟨rfl, -, hanswer⟩ := (query_mount capacity').exec_answer hrun
    match r, hanswer with
    | some (.ok store), hanswer =>
      obtain ⟨position', hsound⟩ := h.mounted_ok (hanswer store rfl)
      exact ⟨capacity', position', hsound⟩
    | some (.error error), _ => exact ⟨capacity, position, h.unmounted⟩
    | none, _ => exact ⟨capacity, position, h.unmounted⟩
  | commit hstore hrun => exact ⟨capacity, h.commit hstore hrun⟩
  | reset => exact ⟨capacity, position, h.unmounted⟩

/-- Every reachable system is sound. -/
theorem LxmfSystem.Reachable.sound (h : LxmfSystem.Reachable ε φ sha256 access system) :
    ∃ capacity position, Sound ε sha256 access system capacity position := by
  induction h with
  | fresh hfresh => exact ⟨0, _, hfresh.sound⟩
  | step _ hstep ih => exact hstep.sound ih

end Reachable

end LxmfStore
