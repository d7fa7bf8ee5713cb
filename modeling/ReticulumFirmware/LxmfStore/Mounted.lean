import Mathlib.Logic.Relation
import ReticulumFirmware.LxmfStore.Walk

/-!
# What a mount establishes

A mount that succeeds, whatever the contents, has an index of committed records in ascending and
disjoint spans, and nothing is programmed from its append position on. The walk that found a part
of the index is repeated by every later mount as long as the extents that it passed are kept. A
mount succeeds wherever a walk ends before a blank tail.
-/

namespace LxmfStore

open Nor Lxmf

variable {ε : Type} {sha256 : Sha256} {access : BoundLxmfStore} {f g : Flash}

section Index

/-- The entries are committed records in ascending and disjoint spans below the append position,
with distinct messages and handles. -/
structure Indexed (sha256 : Sha256) (access : BoundLxmfStore) (f : Flash)
    (store : MountedLxmfStore) (maxHandle : ℕ) : Prop where
  committed : ∀ entry ∈ store.entries, ∃ header,
    CommittedAt sha256 access f entry.firstExtent header ∧
      entry = recordEntry entry.firstExtent header
  ascending : store.entries.Pairwise fun earlier later =>
    earlier.firstExtent + earlier.extentCount ≤ later.firstExtent
  below : ∀ entry ∈ store.entries, entry.firstExtent + entry.extentCount ≤ store.appendExtent
  messages : store.entries.Pairwise fun earlier later =>
    earlier.receipt.messageId ≠ later.receipt.messageId
  handles : store.entries.Pairwise fun earlier later =>
    earlier.receipt.handle ≠ later.receipt.handle
  handle_le : ∀ entry ∈ store.entries, entry.receipt.handle.get ≤ maxHandle
  room : store.entries.length ≤ store.capacity

namespace Indexed

variable {store : MountedLxmfStore} {maxHandle maxHandle' : ℕ}

/-- Nothing is indexed yet. -/
theorem empty (h : store.entries = []) : Indexed sha256 access f store maxHandle where
  committed entry hentry := by simp [h] at hentry
  ascending := by simp [h]
  below entry hentry := by simp [h] at hentry
  messages := by simp [h]
  handles := by simp [h]
  handle_le entry hentry := by simp [h] at hentry
  room := by simp [h]

/-- A later append position and larger handles keep the index. -/
theorem reach (h : Indexed sha256 access f store maxHandle) (hhandle : maxHandle ≤ maxHandle')
    (stop : ℕ) : Indexed sha256 access f (store.reach stop) maxHandle' where
  committed := h.committed
  ascending := h.ascending
  below entry hentry := (h.below entry hentry).trans (le_max_left _ _)
  messages := h.messages
  handles := h.handles
  handle_le entry hentry := (h.handle_le entry hentry).trans hhandle
  room := h.room

/-- A committed record from the append position on can be indexed. -/
theorem push {extent : ℕ} {header : HeaderFields}
    (h : Indexed sha256 access f store maxHandle)
    (hcommitted : CommittedAt sha256 access f extent header)
    (hadmits : store.Admits (recordEntry extent header)) (hextent : store.appendExtent ≤ extent)
    (hhandle : max maxHandle header.handle.get ≤ maxHandle') :
    Indexed sha256 access f ((store.reach (extent + header.extentCount)).push
      (recordEntry extent header)) maxHandle' where
  committed := by
    intro entry hentry
    obtain hentry | hentry := List.mem_append.mp hentry
    · exact h.committed entry hentry
    · rw [List.mem_singleton.mp hentry]
      exact ⟨header, hcommitted, rfl⟩
  ascending := by
    refine List.pairwise_append.mpr ⟨h.ascending, List.pairwise_singleton _ _, ?_⟩
    intro entry hentry later hlater
    rw [List.mem_singleton.mp hlater]
    exact (h.below entry hentry).trans hextent
  below := by
    intro entry hentry
    obtain hentry | hentry := List.mem_append.mp hentry
    · exact (h.below entry hentry).trans (le_max_left _ _)
    · rw [List.mem_singleton.mp hentry]
      exact le_max_right _ _
  messages := by
    refine List.pairwise_append.mpr ⟨h.messages, List.pairwise_singleton _ _, ?_⟩
    intro entry hentry later hlater heq
    rw [List.mem_singleton.mp hlater] at heq
    have hfresh := List.find?_eq_none.mp hadmits.message entry hentry
    exact hfresh (decide_eq_true heq)
  handles := by
    refine List.pairwise_append.mpr ⟨h.handles, List.pairwise_singleton _ _, ?_⟩
    intro entry hentry later hlater heq
    rw [List.mem_singleton.mp hlater] at heq
    have hfresh := List.find?_eq_none.mp hadmits.handle entry hentry
    exact hfresh (decide_eq_true heq)
  handle_le := by
    intro entry hentry
    obtain hentry | hentry := List.mem_append.mp hentry
    · exact (h.handle_le entry hentry).trans ((le_max_left _ _).trans hhandle)
    · rw [List.mem_singleton.mp hentry]
      exact (le_max_right _ _).trans hhandle
  room := by
    have hroom := Nat.lt_of_le_of_ne h.room hadmits.room
    change (store.entries ++ [recordEntry extent header]).length ≤ store.capacity
    rw [List.length_append]
    exact hroom

end Indexed

end Index

section Walk

variable {state next final : MountState}

/-- The walk has indexed what it passed; it passed nothing but erased extents from its append
position on. -/
structure Walked (sha256 : Sha256) (access : BoundLxmfStore) (f : Flash) (state : MountState) :
    Prop where
  indexed : Indexed sha256 access f state.store state.maxHandle
  append_le : state.store.appendExtent ≤ state.extent
  blank : ∀ extent, state.store.appendExtent ≤ extent → extent < state.extent →
    f.Erased (extentOffset extent) extentSize

/-- A step keeps the walk's invariant. -/
theorem Walked.step (h : Walked sha256 access f state)
    (hstep : MountStep sha256 access f state next) : Walked sha256 access f next := by
  have hlt := hstep.lt
  have happend := h.append_le
  cases hstep with
  | erased herased =>
    refine ⟨h.indexed, by dsimp only; omega, fun extent hfrom hto => ?_⟩
    by_cases hlast : extent = state.extent
    · rw [hlast]
      exact snapshotAt_erased.mp herased
    · exact h.blank extent hfrom (by dsimp only at hto; omega)
  | undecodable =>
    dsimp only at hlt
    have hreach := Nat.max_eq_right (happend.trans hlt.le)
    refine ⟨h.indexed.reach (le_refl _) _, hreach.le, fun extent hfrom hto => ?_⟩
    exact absurd hto (not_lt.mpr (hreach.symm.le.trans hfrom))
  | incomplete =>
    dsimp only at hlt
    have hreach := Nat.max_eq_right (happend.trans hlt.le)
    refine ⟨h.indexed.reach ((le_max_left _ _).trans le_recordHandle) _, hreach.le,
      fun extent hfrom hto => ?_⟩
    exact absurd hto (not_lt.mpr (hreach.symm.le.trans hfrom))
  | committed hcommitted hadmits =>
    dsimp only at hlt
    have hreach := Nat.max_eq_right (happend.trans hlt.le)
    refine ⟨h.indexed.push hcommitted hadmits happend le_recordHandle, hreach.le,
      fun extent hfrom hto => ?_⟩
    exact absurd hto (not_lt.mpr (hreach.symm.le.trans hfrom))

/-- A step appends to the entries and changes neither the binding nor the capacity. -/
theorem MountStep.grows (h : MountStep sha256 access f state next) :
    state.store.entries <+: next.store.entries ∧ next.store.binding = state.store.binding ∧
      next.store.capacity = state.store.capacity ∧ next.store.pending = state.store.pending ∧
      state.maxHandle ≤ next.maxHandle := by
  cases h with
  | erased => exact ⟨List.prefix_refl _, rfl, rfl, rfl, le_refl _⟩
  | undecodable => exact ⟨List.prefix_refl _, rfl, rfl, rfl, le_refl _⟩
  | incomplete =>
    exact ⟨List.prefix_refl _, rfl, rfl, rfl, (le_max_left _ _).trans le_recordHandle⟩
  | committed =>
    exact ⟨List.prefix_append _ _, rfl, rfl, rfl, (le_max_left _ _).trans le_recordHandle⟩

variable (ε) in
/-- The walk goes on from an extent of the region. -/
def WalkStep (sha256 : Sha256) (access : BoundLxmfStore) (f : Flash) (state next : MountState) :
    Prop :=
  state.extent < access.binding.length / extentSize ∧
    (mountExtent sha256 access state : MountAction ε MountState).answer f = .ok next

variable (ε) in
/-- Some steps of the walk. -/
abbrev Walk (sha256 : Sha256) (access : BoundLxmfStore) (f : Flash) :
    MountState → MountState → Prop :=
  Relation.ReflTransGen (WalkStep ε sha256 access f)

/-- A step of the walk is a step of the mount. -/
theorem WalkStep.mountStep (h : WalkStep ε sha256 access f state next) :
    MountStep sha256 access f state next := mountStep_of_answer h.2

/-- Some steps keep the walk's invariant. -/
theorem Walked.walk (h : Walked sha256 access f state)
    (hwalk : Walk ε sha256 access f state next) : Walked sha256 access f next := by
  induction hwalk with
  | refl => exact h
  | tail _ hstep ih => exact ih.step hstep.mountStep

/-- A walk goes forward. -/
theorem Walk.extent_le (h : Walk ε sha256 access f state next) : state.extent ≤ next.extent := by
  induction h with
  | refl => exact le_refl _
  | tail _ hstep ih => exact ih.trans hstep.mountStep.lt.le

/-- Some steps append to the entries and change neither the binding nor the capacity. -/
theorem Walk.grows (h : Walk ε sha256 access f state next) :
    state.store.entries <+: next.store.entries ∧ next.store.binding = state.store.binding ∧
      next.store.capacity = state.store.capacity ∧ next.store.pending = state.store.pending ∧
      state.maxHandle ≤ next.maxHandle := by
  induction h with
  | refl => exact ⟨List.prefix_refl _, rfl, rfl, rfl, le_refl _⟩
  | tail _ hstep ih =>
    obtain ⟨hentries, hbinding, hcapacity, hpending, hhandle⟩ := ih
    obtain ⟨hentries', hbinding', hcapacity', hpending', hhandle'⟩ := hstep.mountStep.grows
    exact ⟨hentries.trans hentries', hbinding'.trans hbinding, hcapacity'.trans hcapacity,
      hpending'.trans hpending, hhandle.trans hhandle'⟩

/-- A walk is repeated on contents that keep the extents that it passed. -/
theorem Walk.congr (h : Walk ε sha256 access f state next)
    (hagree : f.Agree g (extentOffset state.extent) (extentOffset next.extent)) :
    Walk ε sha256 access g state next := by
  induction h with
  | refl => exact .refl
  | tail hwalk hstep ih =>
    have hlt := hstep.mountStep.lt
    refine (ih (hagree.mono (le_refl _) (Nat.mul_le_mul_right _ hlt.le))).tail ⟨hstep.1, ?_⟩
    exact answer_mountExtent_congr hstep.2
      (hagree.mono (Nat.mul_le_mul_right _ (Walk.extent_le hwalk)) (le_refl _))

/-- The walk of a mount ends past the last extent. -/
theorem walk_of_mountExtents {fuel : ℕ}
    (h : (mountExtents sha256 access fuel state : MountAction ε MountState).answer f = .ok final)
    (hfuel : access.binding.length / extentSize ≤ state.extent + fuel) :
    Walk ε sha256 access f state final ∧ access.binding.length / extentSize ≤ final.extent := by
  induction fuel generalizing state with
  | zero =>
    rw [← Except.ok.inj h]
    exact ⟨.refl, hfuel⟩
  | succ fuel ih =>
    rw [mountExtents, Action.answer_ite] at h
    split_ifs at h with hlt
    · rw [(query_mountExtent state).answer_bind] at h
      obtain ⟨next, hstep, hrest⟩ := Except.bind_eq_ok.mp h
      have hnext := (mountStep_of_answer hstep).lt
      obtain ⟨hwalk, hend⟩ := ih hrest (by omega)
      exact ⟨.head ⟨hlt, hstep⟩ hwalk, hend⟩
    · rw [← Except.ok.inj h]
      exact ⟨.refl, not_lt.mp hlt⟩

end Walk

section Mount

variable {state next : MountState} {store : MountedLxmfStore} {capacity capacity' : ℕ}

/-- The walk of a mount before its first step. -/
def mountStart (access : BoundLxmfStore) (capacity : ℕ) : MountState :=
  ⟨0, ⟨access.binding, [], capacity, 0, 1, none⟩, 0⟩

/-- The start of a mount has walked nothing. -/
theorem walked_mountStart : Walked sha256 access f (mountStart access capacity) where
  indexed := .empty rfl
  append_le := le_refl 0
  blank _ _ hto := absurd hto (Nat.not_lt_zero _)

/-- The first handle that no walked record has, or zero. -/
def handleAfter (maxHandle : ℕ) : ℕ := if maxHandle + 1 < 2 ^ 64 then maxHandle + 1 else 0

/-- A mount walks to the end of the region and continues with the handle after the last one. -/
theorem walk_of_mount (h : (mount sha256 access capacity : MountAction ε _).answer f = .ok store) :
    validateReadAccess access = .ok () ∧ ∃ final,
      Walk ε sha256 access f (mountStart access capacity) final ∧
        access.binding.length / extentSize ≤ final.extent ∧ final.maxHandle + 1 < 2 ^ 64 ∧
        store = { final.store with nextHandle := final.maxHandle + 1 } := by
  unfold mount at h
  split at h
  · cases h
  next hvalid =>
  rw [(query_mountExtents _ _).answer_bind] at h
  obtain ⟨final, hwalk, hstore⟩ := Except.bind_eq_ok.mp h
  obtain ⟨hwalk, hend⟩ := walk_of_mountExtents hwalk (Nat.le_add_left _ _)
  rw [Action.answer_ite] at hstore
  split_ifs at hstore with hhandle
  · exact ⟨hvalid, final, hwalk, hend, hhandle, (Except.ok.inj hstore).symm⟩
  · cases hstore

/-- A walk passes its own append position with the index that it ends with. -/
theorem walk_append (h : Walk ε sha256 access f (mountStart access capacity) state) :
    ∃ position, Walk ε sha256 access f (mountStart access capacity) position ∧
      Walk ε sha256 access f position state ∧ position.extent = state.store.appendExtent ∧
      position.store = state.store ∧ position.maxHandle = state.maxHandle := by
  induction h with
  | refl => exact ⟨_, .refl, .refl, rfl, rfl, rfl⟩
  | @tail state next hwalk hstep ih =>
    have happend := (walked_mountStart.walk hwalk).append_le
    have hlt := hstep.mountStep.lt
    have hhere : next.store.appendExtent = next.extent →
        ∃ position, Walk ε sha256 access f (mountStart access capacity) position ∧
          Walk ε sha256 access f position next ∧ position.extent = next.store.appendExtent ∧
          position.store = next.store ∧ position.maxHandle = next.maxHandle :=
      fun hnext => ⟨next, hwalk.tail hstep, .refl, hnext.symm, rfl, rfl⟩
    cases hstep.mountStep with
    | erased =>
      obtain ⟨position, hbefore, hafter, hextent, hstore, hhandle⟩ := ih
      exact ⟨position, hbefore, hafter.tail hstep, hextent, hstore, hhandle⟩
    | undecodable => exact hhere (Nat.max_eq_right (happend.trans hlt.le))
    | incomplete => exact hhere (Nat.max_eq_right (happend.trans hlt.le))
    | committed => exact hhere (Nat.max_eq_right (happend.trans hlt.le))

/-- The state of a walk into an index of another capacity. -/
def MountState.withCapacity (state : MountState) (capacity : ℕ) : MountState :=
  { state with store := { state.store with capacity := capacity } }

/-- The capacity has no part in what a step finds. -/
theorem MountStep.withCapacity (h : MountStep sha256 access f state next)
    {next' : MountState} (h' : MountStep sha256 access f (state.withCapacity capacity) next') :
    next' = next.withCapacity capacity := by
  have hextent : (state.withCapacity capacity).extent = state.extent := rfl
  cases h with
  | erased herased =>
    cases h' with
    | erased => rfl
    | undecodable hprogrammed =>
      rw [hextent, herased] at hprogrammed
      cases hprogrammed
    | incomplete hdecoded =>
      exact Bool.noConfusion ((not_erased_of_decoded hdecoded).symm.trans herased)
    | committed hcommitted =>
      exact Bool.noConfusion ((not_erased_of_decoded hcommitted.decoded).symm.trans herased)
  | undecodable hprogrammed hundecodable =>
    cases h' with
    | erased herased => exact Bool.noConfusion (hprogrammed.symm.trans herased)
    | undecodable => rfl
    | incomplete hdecoded => cases hdecoded.symm.trans hundecodable
    | committed hcommitted => cases hcommitted.decoded.symm.trans hundecodable
  | incomplete hdecoded _ hincomplete =>
    cases h' with
    | erased herased => exact Bool.noConfusion ((not_erased_of_decoded hdecoded).symm.trans herased)
    | undecodable _ hundecodable => cases hdecoded.symm.trans hundecodable
    | incomplete hdecoded' =>
      obtain rfl := Except.ok.inj (hdecoded.symm.trans hdecoded')
      rfl
    | committed hcommitted =>
      obtain rfl := Except.ok.inj (hdecoded.symm.trans hcommitted.decoded)
      exact absurd hcommitted hincomplete
  | committed hcommitted =>
    cases h' with
    | erased herased =>
      exact Bool.noConfusion ((not_erased_of_decoded hcommitted.decoded).symm.trans herased)
    | undecodable _ hundecodable => cases hcommitted.decoded.symm.trans hundecodable
    | incomplete hdecoded _ hincomplete =>
      obtain rfl := Except.ok.inj (hdecoded.symm.trans hcommitted.decoded)
      exact absurd hcommitted hincomplete
    | committed hcommitted' =>
      obtain rfl := Except.ok.inj (hcommitted.decoded.symm.trans hcommitted'.decoded)
      rfl

/-- A walk that goes on to the end of the region passes every state of another walk of the same
contents, whatever the capacities. -/
theorem Walk.withCapacity {final : MountState}
    (h : Walk ε sha256 access f (mountStart access capacity) state)
    (h' : Walk ε sha256 access f (mountStart access capacity') final)
    (hend : access.binding.length / extentSize ≤ final.extent) :
    Walk ε sha256 access f (state.withCapacity capacity') final := by
  induction h with
  | refl => exact h'
  | @tail state next hwalk hstep ih =>
    obtain hsame | ⟨next', hstep', hrest⟩ := Relation.ReflTransGen.cases_head ih
    · rw [← hsame] at hend
      exact absurd hstep.1 (not_lt.mpr hend)
    · rw [← hstep.mountStep.withCapacity hstep'.mountStep]
      exact hrest

end Mount

section Walks

variable {state final : MountState} {capacity : ℕ}

/-- The extents from one on are erased. -/
def BlankFrom (access : BoundLxmfStore) (f : Flash) (start : ℕ) : Prop :=
  ∀ extent, start ≤ extent → extent < access.binding.length / extentSize →
    f.Erased (extentOffset extent) extentSize

/-- What is blank from an extent on is blank from a later one on. -/
theorem BlankFrom.mono {start start' : ℕ} (h : BlankFrom access f start) (hle : start ≤ start') :
    BlankFrom access f start' := fun extent hfrom => h extent (hle.trans hfrom)

/-- A step over an erased extent passes it. -/
theorem answer_mountExtent_erased (herased : f.Erased (extentOffset state.extent) extentSize) :
    (mountExtent sha256 access state : MountAction ε MountState).answer f =
      .ok { state with extent := state.extent + 1 } := by
  rw [mountExtent, (query_readExtentSnapshot _).answer_bind, answer_readExtentSnapshot,
    Codec.ok_bind, Action.answer_ite, if_pos (snapshotAt_erased.mpr herased)]
  rfl

/-- A walk passes a blank tail. -/
theorem walk_blank (hblank : BlankFrom access f state.extent)
    (hinside : state.extent ≤ access.binding.length / extentSize) :
    Walk ε sha256 access f state { state with extent := access.binding.length / extentSize } := by
  obtain ⟨count, hcount⟩ := Nat.exists_eq_add_of_le hinside
  induction count generalizing state with
  | zero =>
    rw [hcount, Nat.add_zero]
  | succ count ih =>
    have hlt : state.extent < access.binding.length / extentSize := by omega
    have hnext := @answer_mountExtent_erased ε sha256 access f state
      (hblank state.extent le_rfl hlt)
    exact .head ⟨hlt, hnext⟩ (@ih { state with extent := state.extent + 1 }
      (hblank.mono (Nat.le_succ _)) hlt (hcount.trans (Nat.succ_add_eq_add_succ _ _).symm))

/-- A walk to the end is what the mount answers, given the fuel for it. -/
theorem answer_mountExtents_of_walk (h : Walk ε sha256 access f state final)
    (hend : access.binding.length / extentSize ≤ final.extent) {fuel : ℕ}
    (hfuel : access.binding.length / extentSize ≤ state.extent + fuel) :
    (mountExtents sha256 access fuel state : MountAction ε MountState).answer f = .ok final := by
  induction fuel generalizing state with
  | zero =>
    rcases Relation.ReflTransGen.cases_head h with rfl | ⟨next, hstep, -⟩
    · rfl
    · exact absurd hstep.1 (not_lt.mpr hfuel)
  | succ fuel ih =>
    rw [mountExtents, Action.answer_ite]
    rcases Relation.ReflTransGen.cases_head h with rfl | ⟨next, hstep, hrest⟩
    · rw [if_neg (not_lt.mpr hend)]
      rfl
    · rw [if_pos hstep.1, (query_mountExtent state).answer_bind, hstep.2, Codec.ok_bind]
      have hlt := hstep.mountStep.lt
      exact ih hrest (by omega)

/-- The walk to the end of the region is the walk of a mount. -/
theorem mount_of_walk (hread : validateReadAccess access = .ok ())
    (h : Walk ε sha256 access f (mountStart access capacity) final)
    (hend : access.binding.length / extentSize ≤ final.extent)
    (hhandle : final.maxHandle + 1 < 2 ^ 64) :
    (mount sha256 access capacity : MountAction ε _).answer f =
      .ok { final.store with nextHandle := final.maxHandle + 1 } := by
  have hwalk : (mountExtents sha256 access (access.binding.length / extentSize)
      ⟨0, ⟨access.binding, [], capacity, 0, 1, none⟩, 0⟩ : MountAction ε MountState).answer f =
      .ok final :=
    answer_mountExtents_of_walk h hend (Nat.le_add_left _ _)
  unfold mount
  rw [hread]
  dsimp only
  rw [(query_mountExtents _ _).answer_bind, hwalk, Codec.ok_bind, Action.answer_ite,
    if_pos hhandle]
  rfl

/-- The index of an erased region is empty. -/
theorem mount_erased (hread : validateReadAccess access = .ok ()) (hblank : BlankFrom access f 0) :
    (mount sha256 access capacity : MountAction ε _).answer f =
      .ok ⟨access.binding, [], capacity, 0, 1, none⟩ :=
  mount_of_walk hread (walk_blank hblank (Nat.zero_le _)) le_rfl (by decide : 0 + 1 < 2 ^ 64)

end Walks

end LxmfStore
