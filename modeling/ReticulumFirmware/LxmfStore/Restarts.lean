import ReticulumFirmware.LxmfStore.Reattempts
import ReticulumFirmware.LxmfStore.Runs

/-!
# Restarts of the message store

In every run from an erased region, whatever the backend reports and wherever power is lost, the
region holds an index that every mount finds and behind it nothing, or the span of the mutation
that was attempted last. A mount finds the index, and the mutation exactly if its marker is there.
-/

namespace LxmfStore

open Nor Lxmf

variable {ε : Type} {φ : Faults} {sha256 : Sha256} {access : BoundLxmfStore} {f g : Flash}
  {pending : PendingMutation} {candidate : InboundMessageCandidate}

section Positions

/-- How far a mount has come, apart from the capacity of its index. -/
structure Position where
  extent : ℕ
  entries : List IndexEntry
  maxHandle : ℕ

/-- The walk of a mount at a position. -/
def Position.state (position : Position) (access : BoundLxmfStore) (capacity : ℕ) : MountState :=
  ⟨position.extent,
    ⟨access.binding, position.entries, capacity, position.extent, 1, none⟩, position.maxHandle⟩

/-- Before the first extent. -/
def Position.start : Position := ⟨0, [], 0⟩

/-- What a mount that comes to a position has found. -/
structure Found (ε : Type) (sha256 : Sha256) (access : BoundLxmfStore) (f : Flash)
    (position : Position) : Prop where
  walk : ∀ capacity, position.entries.length ≤ capacity →
    Walk ε sha256 access f (mountStart access capacity) (position.state access capacity)
  inside : position.extent ≤ access.binding.length / extentSize
  handle_le : position.maxHandle ≤ position.extent
  ascending : position.entries.Pairwise fun earlier later =>
    earlier.receipt.handle.get < later.receipt.handle.get

variable {position next : Position}

/-- Before the walk nothing is found. -/
theorem found_start : Found ε sha256 access f .start where
  walk _ _ := .refl
  inside := Nat.zero_le _
  handle_le := le_rfl
  ascending := .nil

/-- The index that was found. -/
theorem Found.indexed (h : Found ε sha256 access f position) :
    Indexed sha256 access f (position.state access position.entries.length).store
      position.maxHandle :=
  (walked_mountStart.walk (h.walk _ le_rfl)).indexed

/-- The index depends on the extents before its end. -/
theorem Found.congr (h : Found ε sha256 access f position)
    (hagree : f.Agree g 0 (extentOffset position.extent)) :
    Found ε sha256 access g position where
  walk capacity hcapacity :=
    (h.walk capacity hcapacity).congr (hagree.mono (Nat.zero_le _) le_rfl)
  inside := h.inside
  handle_le := h.handle_le
  ascending := h.ascending

/-- A mount whose walk comes to a position before a blank tail answers with what it found. -/
theorem Found.mount (h : Found ε sha256 access f position)
    (hread : validateReadAccess access = .ok ()) (hblank : BlankFrom access f position.extent)
    {capacity : ℕ} (hcapacity : position.entries.length ≤ capacity) :
    (mount sha256 access capacity : MountAction ε _).answer f =
      .ok ⟨access.binding, position.entries, capacity, position.extent, position.maxHandle + 1,
        none⟩ := by
  have hshape := validShape_of_read hread
  have hhandle : position.maxHandle + 1 < 2 ^ 64 := by
    have hlength := hshape.length_lt
    have hextents : access.binding.length / extentSize ≤ access.binding.length :=
      Nat.div_le_self _ _
    have hle := h.handle_le
    have hinside := h.inside
    omega
  have hwalk := (h.walk capacity hcapacity).trans (walk_blank hblank h.inside)
  exact mount_of_walk hread hwalk le_rfl hhandle

end Positions

section Pending

variable {position next : Position}

/-- The span behind an index as attempts of one mutation may have left it. -/
structure PendingSpan (ε : Type) (sha256 : Sha256) (access : BoundLxmfStore) (f : Flash)
    (position : Position) (pending : PendingMutation) : Prop where
  allocated : Allocated access pending
  first : pending.firstExtent = position.extent
  handle : pending.handle.get = position.maxHandle + 1
  writer : ∃ candidate, IsFor sha256 pending candidate
  state : SpanState ε sha256 access f pending
  behind : BlankBehind access f pending
  fresh : ∀ entry ∈ position.entries, entry.receipt.messageId ≠ pending.metadata.messageId

/-- The region behind an index. -/
inductive Behind (ε : Type) (sha256 : Sha256) (access : BoundLxmfStore) (f : Flash)
    (position : Position) : Option PendingMutation → Prop
  | blank (h : BlankFrom access f position.extent) : Behind ε sha256 access f position none
  | pending {pending : PendingMutation} (h : PendingSpan ε sha256 access f position pending) :
      Behind ε sha256 access f position (some pending)

/-- The position behind a completed mutation. -/
def Position.push (position : Position) (pending : PendingMutation) : Position :=
  ⟨pending.firstExtent + pending.extentCount, position.entries ++ [pendingEntry pending],
    pending.handle.get⟩

/-- A record behind an index is found after it. -/
theorem PendingSpan.push (h : PendingSpan ε sha256 access f position pending)
    (hfound : Found ε sha256 access f position) (hvalid : ValidShape access)
    (hfor : IsFor sha256 pending candidate) (hfull : FullSpan sha256 access f candidate pending) :
    Found ε sha256 access f (position.push pending) := by
  have hpos := h.allocated.pos
  have hinside := h.allocated.inside
  have hindexed := hfound.indexed
  have hfirst := h.first
  have hhandle := h.handle
  refine ⟨fun capacity hcapacity => ?_, hinside, ?_, ?_⟩
  · have hlength : position.entries.length + 1 ≤ capacity := by
      rwa [Position.push, List.length_append, List.length_singleton] at hcapacity
    have hcommitted : CommittedAt sha256 access f (position.state access capacity).extent
        (pendingFields pending) := by
      change CommittedAt sha256 access f position.extent _
      rw [← hfirst]
      exact hfull.committedAt h.allocated hfor
    have hadmits : (position.state access capacity).store.Admits
        (recordEntry (position.state access capacity).extent (pendingFields pending)) := by
      refine ⟨List.find?_eq_none.mpr fun entry hentry hsame => ?_,
        List.find?_eq_none.mpr fun entry hentry hsame => ?_, ?_⟩
      · exact h.fresh entry hentry (of_decide_eq_true hsame)
      · have hle := hindexed.handle_le entry hentry
        rw [of_decide_eq_true hsame] at hle
        change pending.handle.get ≤ _ at hle
        omega
      · change position.entries.length ≠ capacity
        omega
    have hstep := answer_mountExtent_committed (ε := ε) hvalid hcommitted hadmits
    have hnext : ∀ stop, stop = position.extent + pending.extentCount →
        (⟨stop, ((position.state access capacity).store.reach stop).push
          (recordEntry position.extent (pendingFields pending)),
            max position.maxHandle pending.handle.get⟩ : MountState) =
          (position.push pending).state access capacity := by
      rintro stop rfl
      rw [MountedLxmfStore.reach, MountedLxmfStore.push, Position.state, Position.state,
        Position.push, pendingEntry, hfirst, hhandle, Nat.max_eq_right (Nat.le_succ _)]
      dsimp only
      rw [Nat.max_eq_right (Nat.le_add_right _ _)]
    have hanswer := hstep.trans (congrArg Except.ok (hnext _ rfl))
    exact (hfound.walk capacity (Nat.le_of_succ_le hlength)).tail ⟨by
      change position.extent < _
      omega, hanswer⟩
  · change pending.handle.get ≤ pending.firstExtent + pending.extentCount
    have hle := hfound.handle_le
    omega
  · refine List.pairwise_append.mpr ⟨hfound.ascending, List.pairwise_singleton _ _, ?_⟩
    intro earlier hearlier later hlater
    rw [List.mem_singleton.mp hlater]
    have hle := hindexed.handle_le earlier hearlier
    change _ < pending.handle.get
    omega

/-- A walk that stopped behind some extents of an interrupted span. -/
theorem Found.passed {maxHandle' stop : ℕ} (h : Found ε sha256 access f position)
    (hallocated : Allocated access pending) (hfirst : pending.firstExtent = position.extent)
    (hhandle : pending.handle.get = position.maxHandle + 1)
    (hpassed : Passed ε sha256 access f pending position.maxHandle stop maxHandle') :
    Found ε sha256 access f ⟨stop, position.entries, maxHandle'⟩ := by
  have hstop := hpassed.lt_stop
  refine ⟨fun capacity hcapacity => ?_, hpassed.stop_le.trans hallocated.inside, ?_, h.ascending⟩
  · have hstep := hpassed.step (position.state access capacity).store
    have hreach : (position.state access capacity).store.reach stop =
        (Position.state ⟨stop, position.entries, maxHandle'⟩ access capacity).store := by
      rw [MountedLxmfStore.reach, Position.state, Position.state]
      dsimp only
      rw [Nat.max_eq_right (by omega)]
    rw [hreach, hfirst] at hstep
    exact (h.walk capacity hcapacity).tail hstep
  · have hbound := hpassed.handle_le
    have hle := h.handle_le
    rw [hhandle, Nat.max_eq_right (Nat.le_succ _)] at hbound
    dsimp only
    omega

/-- The extents behind an interrupted span and its erased extents are erased. -/
theorem PendingSpan.blankFrom (h : PendingSpan ε sha256 access f position pending) {stop : ℕ}
    (hblank : ∀ extent, stop ≤ extent → extent < pending.firstExtent + pending.extentCount →
      f.Erased (extentOffset extent) extentSize) : BlankFrom access f stop := by
  intro extent hfrom hto
  by_cases hinside : extent < pending.firstExtent + pending.extentCount
  · exact hblank extent hfrom hinside
  · exact h.behind extent (not_lt.mp hinside) hto

/-- Where every mount comes to behind an index: past the record of a mutation if its marker is
complete, and otherwise with the same entries. -/
theorem PendingSpan.settles (h : PendingSpan ε sha256 access f position pending)
    (hfound : Found ε sha256 access f position) (hvalid : ValidShape access) :
    ∃ next, Found ε sha256 access f next ∧ BlankFrom access f next.extent ∧
      (SpanMarked f pending ∧ next = position.push pending ∨
        ¬SpanMarked f pending ∧ next.entries = position.entries) := by
  have hfirst := h.first
  obtain ⟨candidate, hfor⟩ := h.writer
  obtain hinterrupted | ⟨writer, hwriter, hfull⟩ := h.state.cases h.allocated hfor
  · have hunmarked := hinterrupted.not_marked h.allocated.pos
    obtain herased | ⟨stop, maxHandle', hpassed⟩ :=
      hinterrupted.mount (ε := ε) h.allocated position.maxHandle
    · refine ⟨position, hfound, h.blankFrom fun extent hfrom hto => ?_, .inr ⟨hunmarked, rfl⟩⟩
      rw [← hfirst] at hfrom
      obtain ⟨index, rfl⟩ := Nat.exists_eq_add_of_le hfrom
      exact herased index (by omega)
    · exact ⟨_, hfound.passed h.allocated hfirst h.handle hpassed, h.blankFrom hpassed.blank,
        .inr ⟨hunmarked, rfl⟩⟩
  · exact ⟨_, h.push hfound hvalid hwriter hfull, h.blankFrom fun extent hfrom hto =>
      absurd hto (not_lt.mpr hfrom), .inl ⟨hfull.marked hwriter, rfl⟩⟩

/-- What an attempt leaves behind an index. -/
theorem PendingSpan.kept (h : PendingSpan ε sha256 access f position pending)
    (hkept : Kept ε sha256 access f pending g) :
    PendingSpan ε sha256 access g position pending :=
  ⟨h.allocated, h.first, h.handle, h.writer, hkept.2, h.behind.of_outside hkept.1, h.fresh⟩

/-- An attempt keeps the index before its span. -/
theorem Found.kept (h : Found ε sha256 access f position)
    (hfirst : pending.firstExtent = position.extent) (hkept : Kept ε sha256 access f pending g) :
    Found ε sha256 access g position := by
  refine h.congr fun a _ ha => (hkept.1 a (.inl ?_)).symm
  rwa [hfirst]

end Pending

section Systems

variable {position : Position} {before : Option PendingMutation} {store : MountedLxmfStore}
  {system : LxmfSystem} {resumed : Bool}

/-- A mounted store is what was found, with the mutation behind it. -/
structure Mounts (access : BoundLxmfStore) (position : Position) (pending : Option PendingMutation)
    (store : MountedLxmfStore) : Prop where
  readable : validateReadAccess access = .ok ()
  store_eq : store = ⟨access.binding, position.entries, store.capacity, position.extent,
    position.maxHandle + 1, pending⟩
  room : position.entries.length ≤ store.capacity

/-- The region holds an index and the span of the last mutation; a mounted store knows both. -/
structure Orderly (ε : Type) (sha256 : Sha256) (access : BoundLxmfStore) (f : Flash)
    (mounted : Option MountedLxmfStore) (position : Position) (pending : Option PendingMutation) :
    Prop where
  found : Found ε sha256 access f position
  behind : Behind ε sha256 access f position pending
  mounts : ∀ store, mounted = some store → Mounts access position pending store

/-- An orderly region stays so when the store is unmounted. -/
theorem Orderly.unmounted {mounted : Option MountedLxmfStore}
    (h : Orderly ε sha256 access f mounted position before) :
    Orderly ε sha256 access f none position before :=
  ⟨h.found, h.behind, fun _ hsome => absurd hsome.symm (Option.some_ne_none _)⟩

/-- An admitted attempt finds its span behind the index, and a new one finds it erased. -/
theorem Behind.ready (h : Behind ε sha256 access f position before)
    (hmounts : Mounts access position before store)
    (hadmitted : Admitted sha256 access store candidate pending resumed) :
    PendingSpan ε sha256 access f position pending ∧
      (resumed = false → SpanErased f pending) := by
  have hpending : store.pending = before := by rw [hmounts.store_eq]
  have happend : store.appendExtent = position.extent := by rw [hmounts.store_eq]
  have hnext : store.nextHandle = position.maxHandle + 1 := by rw [hmounts.store_eq]
  have hentries : store.entries = position.entries := by rw [hmounts.store_eq]
  cases resumed with
  | true =>
    have hresumes := hadmitted.resumes rfl
    rw [hpending] at hresumes
    subst hresumes
    cases h with
    | pending h => exact ⟨h, fun h => Bool.noConfusion h⟩
  | false =>
    obtain ⟨hnone, hfirst, hhandle⟩ := hadmitted.begins rfl
    rw [hpending] at hnone
    subst hnone
    cases h with
    | blank hblank =>
      have hpos := requiredExtents_pos hadmitted.required
      have hremains := hadmitted.remains
      have hrequired := hadmitted.required
      rw [← hadmitted.metadata] at hrequired
      have herased : SpanErased f pending := by
        intro index hindex
        refine hblank (pending.firstExtent + index) ?_ ?_
        · omega
        · omega
      refine ⟨⟨⟨validShape_of_write hadmitted.writable, hrequired, hadmitted.fits, by omega⟩,
        hfirst.trans happend, hhandle.trans hnext,
        ⟨candidate, hadmitted.replay, hadmitted.metadata⟩,
        .unfinished herased.unfinished, fun extent hfrom hto => hblank extent (by omega) hto,
        fun entry hentry hsame => ?_⟩, fun _ => herased⟩
      rw [← hentries] at hentry
      rw [hadmitted.metadata] at hsame
      exact List.find?_eq_none.mp hadmitted.fresh entry hentry (decide_eq_true hsame)

/-- A completed attempt extends the index. -/
theorem PendingSpan.completed (h : PendingSpan ε sha256 access f position pending)
    (hfound : Found ε sha256 access f position) (hvalid : ValidShape access)
    {result : IndexEntry × Bool}
    (hcompleted : Completed sha256 access f pending candidate result g) :
    Found ε sha256 access g (position.push pending) ∧
      BlankFrom access g (position.push pending).extent := by
  have hkept : Kept ε sha256 access f pending g := hcompleted.kept
  obtain ⟨writer, hwriter, hfull, -⟩ := hcompleted.full
  exact ⟨(h.kept hkept).push (hfound.kept h.first hkept) hvalid hwriter hfull,
    h.behind.of_outside hcompleted.outside⟩

/-- The store after a completed attempt is what was found. -/
theorem Mounts.complete (hmounts : Mounts access position before store)
    (h : PendingSpan ε sha256 access f position pending)
    (hfound : Found ε sha256 access f position) (hroom : store.entries.length ≠ store.capacity) :
    Mounts access (position.push pending) none (store.complete pending (pendingEntry pending)) := by
  have hshape := validShape_of_read hmounts.readable
  have hhandle : pending.handle.get + 1 < 2 ^ 64 := by
    have hlength := hshape.length_lt
    have hextents : access.binding.length / extentSize ≤ access.binding.length :=
      Nat.div_le_self _ _
    have hle := hfound.handle_le
    have hinside := hfound.inside
    have hnext := h.handle
    omega
  have hlength : position.entries.length + 1 ≤ store.capacity := by
    rw [hmounts.store_eq] at hroom
    exact Nat.lt_of_le_of_ne hmounts.room hroom
  have hfresh : store.entryForMessage (pendingEntry pending).receipt.messageId = none := by
    refine List.find?_eq_none.mpr fun entry hentry hsame => ?_
    rw [hmounts.store_eq] at hentry
    exact h.fresh entry hentry (of_decide_eq_true hsame)
  have hcomplete : store.complete pending (pendingEntry pending) =
      ⟨access.binding, position.entries ++ [pendingEntry pending], store.capacity,
        pending.firstExtent + pending.extentCount, pending.handle.get + 1, none⟩ := by
    have hend : max store.appendExtent (pending.firstExtent + pending.extentCount) =
        pending.firstExtent + pending.extentCount := by
      rw [hmounts.store_eq, h.first]
      exact Nat.max_eq_right (Nat.le_add_right _ _)
    rw [MountedLxmfStore.complete_eq hfresh, hend, handleAfter, if_pos hhandle, hmounts.store_eq]
  refine ⟨hmounts.readable, ?_, ?_⟩
  · rw [hcomplete]
    rfl
  · rw [hcomplete, Position.push, List.length_append]
    exact hlength

/-- The store after a commit, if it is still mounted. -/
def storeAfter :
    Option (Except (LxmfCommitError ε) LxmfCommitOutcome × MountedLxmfStore) →
      Option MountedLxmfStore
  | none => none
  | some (_, store) => some store

/-- A commit keeps a region orderly and its entries indexed, whatever the backend reports and
wherever power is lost. -/
theorem Orderly.commit (h : Orderly ε sha256 access f (some store) position before)
    {tr : List Mutation}
    {r : Option (Except (LxmfCommitError ε) LxmfCommitOutcome × MountedLxmfStore)}
    (hrun : Prog.Exec φ (LxmfStore.commit (ε := ε) sha256 access store candidate) f tr r g) :
    ∃ position' after, Orderly ε sha256 access g (storeAfter r) position' after ∧
      position.entries <+: position'.entries := by
  have hmounts := h.mounts store rfl
  have hsame : ∀ {answer : Except (LxmfCommitError ε) LxmfCommitOutcome},
      Prog.Exec φ (.pure (answer, store) : Prog ε _) f tr r g →
      ∃ position' after, Orderly ε sha256 access g (storeAfter r) position' after ∧
        position.entries <+: position'.entries := by
    intro answer hpure
    cases hpure with
    | done => exact ⟨position, before, h, List.prefix_rfl⟩
    | cut => exact ⟨position, before, h.unmounted, List.prefix_rfl⟩
  rw [LxmfStore.commit] at hrun
  cases hadmission : (admission sha256 access store candidate :
      Except (LxmfCommitError ε) Admission) with
  | error error =>
    rw [hadmission] at hrun
    exact hsame hrun
  | ok admission =>
    rw [hadmission] at hrun
    cases admission with
    | alreadyDurable receipt => exact hsame hrun
    | append pending resumed =>
      have hadmitted := admitted hadmission
      have hvalid := validShape_of_read hmounts.readable
      obtain ⟨hspan, herased⟩ := h.behind.ready hmounts hadmitted
      have hattempt := wp_attempt (ε := ε) (φ := φ) hspan.allocated
        ⟨hadmitted.replay, hadmitted.metadata⟩ hspan.state herased
      have hlost : ∀ g, Kept ε sha256 access f pending g →
          Orderly ε sha256 access g none position (some pending) := fun g hkept =>
        ⟨h.found.kept hspan.first hkept, .pending (hspan.kept hkept),
          fun _ hsome => absurd hsome.symm (Option.some_ne_none _)⟩
      dsimp only at hrun
      obtain ⟨rfl, hfirst⟩ | ⟨result, f', tr₁, tr₂, rfl, hfirst, hrest⟩ := hrun.bind_cases
      · exact ⟨position, some pending, hlost g (hattempt.crashes hfirst), List.prefix_rfl⟩
      · have hresult := hattempt.returns hfirst
        cases result with
        | error error =>
          have hkept : Kept ε sha256 access f pending f' := hresult
          cases hrest with
          | cut => exact ⟨position, some pending, hlost _ hkept, List.prefix_rfl⟩
          | done =>
            refine ⟨position, some pending, ⟨(hlost _ hkept).found, (hlost _ hkept).behind,
              fun store' hsome => ?_⟩, List.prefix_rfl⟩
            obtain rfl := Option.some.inj hsome
            exact ⟨hmounts.readable, by rw [hmounts.store_eq], hmounts.room⟩
        | ok result =>
          have hcompleted : Completed sha256 access f pending candidate result f' := hresult
          obtain ⟨hfound, hblank⟩ := hspan.completed h.found hvalid hcompleted
          have horderly : Orderly ε sha256 access f' none (position.push pending) none :=
            ⟨hfound, .blank hblank, fun _ hsome => absurd hsome.symm (Option.some_ne_none _)⟩
          cases hrest with
          | cut => exact ⟨_, none, horderly, List.prefix_append _ _⟩
          | done =>
            refine ⟨_, none, ⟨horderly.found, horderly.behind, fun store' hsome => ?_⟩,
              List.prefix_append _ _⟩
            obtain rfl := Option.some.inj hsome
            rw [hcompleted.entry_eq]
            exact hmounts.complete hspan h.found hadmitted.room

/-- With nothing pending, a mount into an index with room builds the mounted store again. -/
theorem Orderly.remounts (h : Orderly ε sha256 access f (some store) position none) {capacity : ℕ}
    (hcapacity : store.entries.length ≤ capacity) :
    (LxmfStore.mount sha256 access capacity : MountAction ε MountedLxmfStore).answer f =
      .ok { store with capacity := capacity } := by
  have hmounts := h.mounts store rfl
  have hentries : store.entries = position.entries := by rw [hmounts.store_eq]
  rw [hentries] at hcapacity
  cases h.behind with
  | blank hblank => rw [h.found.mount hmounts.readable hblank hcapacity, hmounts.store_eq]

/-- A mount that succeeds knows what was found, every entry of before, and nothing else. -/
theorem Orderly.mount {mounted : Option MountedLxmfStore}
    (h : Orderly ε sha256 access f mounted position before) {capacity : ℕ}
    (hmount : (LxmfStore.mount sha256 access capacity : MountAction ε _).answer f = .ok store) :
    ∃ position', Orderly ε sha256 access f (some store) position' none ∧
      position.entries <+: position'.entries := by
  obtain ⟨hread, final, hwalk, hend, hhandle, hstore⟩ := walk_of_mount hmount
  obtain ⟨next, hfound, hblank, hgrows⟩ : ∃ next, Found ε sha256 access f next ∧
      BlankFrom access f next.extent ∧ position.entries <+: next.entries := by
    cases h.behind with
    | blank hblank => exact ⟨position, h.found, hblank, List.prefix_rfl⟩
    | pending hspan =>
      obtain ⟨next, hfound, hblank, ⟨-, rfl⟩ | ⟨-, hsame⟩⟩ :=
        hspan.settles h.found (validShape_of_read hread)
      · exact ⟨_, hfound, hblank, List.prefix_append _ _⟩
      · exact ⟨next, hfound, hblank, hsame ▸ List.prefix_rfl⟩
  have hroom : next.entries.length ≤ capacity := by
    have hgrows := ((hfound.walk _ le_rfl).withCapacity hwalk hend).grows
    have hindexed := (walked_mountStart.walk hwalk).indexed.room
    have hcapacity : final.store.capacity = capacity := hwalk.grows.2.2.1
    rw [hcapacity] at hindexed
    exact hgrows.1.length_le.trans hindexed
  have hanswer := hfound.mount hread hblank hroom
  obtain rfl := Except.ok.inj (hmount.symm.trans hanswer)
  refine ⟨next, ⟨hfound, .blank hblank, fun store' hsome => ?_⟩, hgrows⟩
  obtain rfl := Option.some.inj hsome
  exact ⟨hread, rfl, hroom⟩

/-- After a commit the system has the flash and the store that it left. -/
theorem LxmfSystem.afterCommit_orderly
    {r : Option (Except (LxmfCommitError ε) LxmfCommitOutcome × MountedLxmfStore)} :
    (system.afterCommit candidate g r).flash = g ∧
      (system.afterCommit candidate g r).store = storeAfter r := by
  match r with
  | none => exact ⟨rfl, rfl⟩
  | some (.ok (.committed _), _) => exact ⟨rfl, rfl⟩
  | some (.ok (.alreadyDurable _), _) => exact ⟨rfl, rfl⟩
  | some (.error _, _) => exact ⟨rfl, rfl⟩

/-- A step keeps the region orderly. -/
theorem LxmfSystem.Step.orderly {next : LxmfSystem}
    (hstep : LxmfSystem.Step ε φ sha256 access system next)
    (h : ∃ position pending, Orderly ε sha256 access system.flash system.store position pending) :
    ∃ position pending, Orderly ε sha256 access next.flash next.store position pending := by
  obtain ⟨position, pending, h⟩ := h
  cases hstep with
  | @mount capacity tr r g hrun =>
    obtain ⟨rfl, -, hanswer⟩ := (query_mount capacity).exec_answer hrun
    match r, hanswer with
    | some (.ok store), hanswer =>
      obtain ⟨position', horderly, -⟩ := h.mount (hanswer store rfl)
      exact ⟨position', none, horderly⟩
    | some (.error error), _ => exact ⟨position, pending, h.unmounted⟩
    | none, _ => exact ⟨position, pending, h.unmounted⟩
  | commit hstore hrun =>
    rw [hstore] at h
    rw [LxmfSystem.afterCommit_orderly.1, LxmfSystem.afterCommit_orderly.2]
    obtain ⟨position', after, horderly, -⟩ := h.commit hrun
    exact ⟨position', after, horderly⟩
  | reset => exact ⟨position, pending, h.unmounted⟩

/-- The region of every reachable system is orderly. -/
theorem LxmfSystem.Reachable.orderly (h : LxmfSystem.Reachable ε φ sha256 access system) :
    ∃ position pending, Orderly ε sha256 access system.flash system.store position pending := by
  induction h with
  | @fresh system hfresh =>
    obtain ⟨hblank, hstore, -, -⟩ := hfresh
    refine ⟨.start, none, found_start, .blank fun extent _ hto => hblank extent hto,
      fun store hsome => ?_⟩
    rw [hstore] at hsome
    cases hsome
  | step _ hstep ih => exact hstep.orderly ih

end Systems

section Mounts

variable {state next : MountState} {store : MountedLxmfStore} {capacity : ℕ}

/-- A walk stays in the region. -/
theorem Walk.inside (h : Walk ε sha256 access f state next)
    (hinside : state.extent ≤ access.binding.length / extentSize) :
    next.extent ≤ access.binding.length / extentSize := by
  induction h with
  | refl => exact hinside
  | tail _ hstep =>
    have hlt := hstep.1
    cases hstep.mountStep with
    | erased => exact hlt
    | undecodable => exact hlt
    | incomplete _ hinside => exact hinside
    | committed hcommitted => exact hcommitted.inside

/-- The wire of an indexed record as the flash holds it. -/
def storedWire (f : Flash) (entry : IndexEntry) : List Byte :=
  (payloadAt f entry.firstExtent entry.extentCount).take entry.wireLen

/-- What is established about a store that was mounted. -/
structure SafelyMounted (sha256 : Sha256) (access : BoundLxmfStore) (f : Flash)
    (store : MountedLxmfStore) : Prop where
  binding : store.binding = access.binding
  messages : store.entries.Pairwise fun earlier later =>
    earlier.receipt.messageId ≠ later.receipt.messageId
  handles : store.entries.Pairwise fun earlier later =>
    earlier.receipt.handle ≠ later.receipt.handle
  handle_lt : ∀ entry ∈ store.entries, entry.receipt.handle.get < store.nextHandle
  occupied : ∀ entry ∈ store.entries, 0 < entry.extentCount
  ascending : store.entries.Pairwise fun earlier later =>
    earlier.firstExtent + earlier.extentCount ≤ later.firstExtent
  below : ∀ entry ∈ store.entries, entry.firstExtent + entry.extentCount ≤ store.appendExtent
  inside : store.appendExtent ≤ access.binding.length / extentSize
  blank : BlankFrom access f store.appendExtent
  wire_length : ∀ entry ∈ store.entries, (storedWire f entry).length = entry.wireLen
  wire_digest : ∀ entry ∈ store.entries,
    sha256 (storedWire f entry) = entry.receipt.fingerprint.exactWireDigest

/-- The wire of a committed record has its length and its digest. -/
theorem CommittedAt.storedWire {first : ℕ} {header : HeaderFields}
    (h : CommittedAt sha256 access f first header) :
    (LxmfStore.storedWire f (recordEntry first header)).length =
        header.metadata.lengths.normalizedWire ∧
      sha256 (LxmfStore.storedWire f (recordEntry first header)) = header.exactWireDigest := by
  refine ⟨?_, h.verified.wire_digest⟩
  obtain ⟨-, -, -, hrequired, -⟩ := of_decodeHeader h.decoded
  change ((payloadAt f first header.extentCount).take
    header.metadata.lengths.normalizedWire).length = _
  rw [take_payloadAt h.count_pos (le_wireCapacity hrequired), List.length_map, List.length_range]

/-- A mount that answers is safe. -/
theorem safelyMounted (h : (mount sha256 access capacity : MountAction ε _).answer f = .ok store) :
    SafelyMounted sha256 access f store ∧ store.pending = none := by
  obtain ⟨-, final, hwalk, hend, -, rfl⟩ := walk_of_mount h
  have hwalked := walked_mountStart.walk hwalk
  have hindexed := hwalked.indexed
  have hverified : ∀ entry ∈ final.store.entries, 0 < entry.extentCount ∧
      (storedWire f entry).length = entry.wireLen ∧
      sha256 (storedWire f entry) = entry.receipt.fingerprint.exactWireDigest := by
    intro entry hentry
    obtain ⟨header, hcommitted, hrecord⟩ := hindexed.committed entry hentry
    rw [hrecord]
    exact ⟨hcommitted.count_pos, hcommitted.storedWire⟩
  refine ⟨⟨hwalk.grows.2.1, hindexed.messages, hindexed.handles, fun entry hentry => ?_,
    fun entry hentry => (hverified entry hentry).1, hindexed.ascending, hindexed.below, ?_,
    fun extent hfrom hto => hwalked.blank extent hfrom (hto.trans_le hend),
    fun entry hentry => (hverified entry hentry).2.1,
    fun entry hentry => (hverified entry hentry).2.2⟩, hwalk.grows.2.2.2.1⟩
  · exact Nat.lt_succ_of_le (hindexed.handle_le entry hentry)
  · exact hwalked.append_le.trans (hwalk.inside (Nat.zero_le _))

end Mounts

section Entries

/-- The entry of a candidate that is committed. -/
def committedEntry (sha256 : Sha256) (candidate : InboundMessageCandidate) (handle : MessageHandle)
    (firstExtent extentCount : ℕ) : IndexEntry where
  receipt := ⟨handle, candidateReplay sha256 candidate⟩
  metadata := candidate.metadata
  firstExtent := firstExtent
  extentCount := extentCount
  wireLen := candidate.wire.segments.totalLen
  formatVersion := physicalFormatVersion

/-- The entry of a pending mutation is the committed one of its candidate. -/
theorem pendingEntry_eq (hfor : IsFor sha256 pending candidate) :
    pendingEntry pending =
      committedEntry sha256 candidate pending.handle pending.firstExtent pending.extentCount := by
  obtain ⟨hreplay, hmetadata⟩ := hfor
  have hreceipt : (⟨pending.metadata.authenticatedFingerprint, pending.replay.exactWireDigest⟩ :
      ReplayFingerprint) = candidateReplay sha256 candidate := by
    rw [hreplay, hmetadata, candidateReplay]
  have hlength : pending.metadata.lengths.normalizedWire = candidate.wire.segments.totalLen := by
    rw [hmetadata, candidate.length_eq]
  change (⟨⟨pending.handle, ⟨pending.metadata.authenticatedFingerprint,
    pending.replay.exactWireDigest⟩⟩, pending.metadata, pending.firstExtent, pending.extentCount,
    pending.metadata.lengths.normalizedWire, physicalFormatVersion⟩ : IndexEntry) = _
  rw [hreceipt, hlength, hmetadata, committedEntry]

end Entries

end LxmfStore
