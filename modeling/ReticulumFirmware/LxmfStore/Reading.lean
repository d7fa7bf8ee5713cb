import ReticulumFirmware.LxmfStore.Read
import ReticulumFirmware.LxmfStore.FirstArrival

/-!
# Runs with reads

Reading a wire leaves the flash and the mounted store as they are, so a run with reads between its
mounts and commits visits the same systems. Whenever nothing is pending, the mounted store is the
one that a mount of the flash would build.
-/

namespace LxmfStore

open Nor Lxmf

variable {ε : Type} {φ : Faults} {sha256 : Sha256} {access : BoundLxmfStore}
  {store : MountedLxmfStore} {system : LxmfSystem}

section Queries

variable {binding : LxmfStoreBinding} {entry : IndexEntry}

/-- The check of a header only reads. -/
theorem query_validateIndexedHeader (index : ℕ) :
    Query LxmfWireReadError.backend (validateIndexedHeader sha256 access binding entry index :
      ReadAction ε Unit).run := by
  refine (Query.readAction _ _ _).bind fun header => ?_
  split
  · exact .pureAction _ _
  · split
    · exact .throwAction _ _
    · exact .throwAction _ _

/-- The check of an extent only reads. -/
theorem query_validateIndexedExtent (validated : Option ℕ) (index : ℕ) :
    Query LxmfWireReadError.backend (validateIndexedExtent sha256 access binding entry validated
      index : ReadAction ε Unit).run := by
  unfold validateIndexedExtent
  split
  · exact .pureAction _ _
  · exact query_validateIndexedHeader index

/-- A page of the wire is only read. -/
theorem query_readIndexedPage (position wanted : ℕ) :
    Query LxmfWireReadError.backend (readIndexedPage access binding entry position wanted :
      ReadAction ε (List Byte)).run :=
  (Query.ensureAction _ _ _).bind fun _ => (Query.readAction _ _ _).bind fun _ => .pureAction _ _

/-- Copying the pages of a wire only reads. The induction is on the turns. -/
theorem query_readIndexedPages (turns position wanted : ℕ) (validated : Option ℕ) :
    Query LxmfWireReadError.backend (readIndexedPages sha256 access binding entry turns position
      wanted validated : ReadAction ε (List Byte)).run := by
  induction turns generalizing position wanted validated with
  | zero => exact .pureAction _ _
  | succ turns ih =>
    unfold readIndexedPages
    split
    · exact (Query.ensureAction _ _ _).bind fun _ => (Query.ensureAction _ _ _).bind fun _ =>
        (query_validateIndexedExtent _ _).bind fun _ => (query_readIndexedPage _ _).bind fun _ =>
          (ih _ _ _).bind fun _ => .pureAction _ _
    · exact .pureAction _ _

/-- A chunk of the wire is only read. -/
theorem query_readWireChunk (handle : MessageHandle) (offset : ℕ) (output : List Byte) :
    Query LxmfWireReadError.backend (readWireChunk sha256 access store handle offset output :
      ReadAction ε (LxmfWireChunk × List Byte)).run := by
  unfold readWireChunk
  split
  · exact .throwAction _ _
  split
  · exact .throwAction _ _
  dsimp only
  split_ifs
  · exact .throwAction _ _
  · exact .pureAction _ _
  · exact ((Query.ensureAction _ _ _).bind fun _ => (Query.ensureAction _ _ _).bind fun _ =>
      query_readIndexedPages _ _ _ _).bind fun _ => .pureAction _ _

end Queries

section Runs

variable (ε φ) in
/-- The runs of the system with reads of wires between its steps. -/
inductive LxmfSystem.Visited (sha256 : Sha256) (access : BoundLxmfStore) : LxmfSystem → Prop
  | fresh {system : LxmfSystem} (h : system.Fresh access) : Visited sha256 access system
  | step {system next : LxmfSystem} (h : Visited sha256 access system)
      (hstep : LxmfSystem.Step ε φ sha256 access system next) : Visited sha256 access next
  | read {system : LxmfSystem} {store : MountedLxmfStore} {handle : MessageHandle} {offset : ℕ}
      {output : List Byte} {tr : List Mutation} {r : Option _} {g : Flash}
      (h : Visited sha256 access system) (hstore : system.store = some store)
      (hrun : Prog.Exec φ (readWireChunk sha256 access store handle offset output :
        ReadAction ε _).run system.flash tr r g) :
      Visited sha256 access { system with flash := g }

/-- Reads lead nowhere else. -/
theorem LxmfSystem.Visited.reachable (h : LxmfSystem.Visited ε φ sha256 access system) :
    LxmfSystem.Reachable ε φ sha256 access system := by
  induction h with
  | fresh h => exact .fresh h
  | step _ hstep ih => exact .step ih hstep
  | read _ _ hrun ih =>
    obtain ⟨rfl, -, -⟩ := (query_readWireChunk _ _ _).exec_answer hrun
    exact ih

/-- A run without reads is one. -/
theorem LxmfSystem.Reachable.visited (h : LxmfSystem.Reachable ε φ sha256 access system) :
    LxmfSystem.Visited ε φ sha256 access system := by
  induction h with
  | fresh h => exact .fresh h
  | step _ hstep ih => exact .step ih hstep

/-- In every run, whatever the backend reports and wherever power is lost: while nothing is
pending, a mount of the flash into an index that has room for the entries builds the mounted store
again, with its entries in their order, its append position and its next handle. -/
theorem remount_exact (h : LxmfSystem.Visited ε φ sha256 access system)
    (hstore : system.store = some store) (hpending : store.pending = none) {capacity : ℕ}
    (hcapacity : store.entries.length ≤ capacity) :
    (mount sha256 access capacity : MountAction ε MountedLxmfStore).answer system.flash =
      .ok { store with capacity := capacity } := by
  obtain ⟨position, pending, horderly⟩ := h.reachable.orderly
  have hmounts := horderly.mounts store hstore
  have hidle : pending = none := by
    rw [← hpending, hmounts.store_eq]
  subst hidle
  rw [hstore] at horderly
  exact horderly.remounts hcapacity

/-- A store with one message is mounted again after a read of the message. -/
theorem remount_exact_sample : ∃ system store tr r g,
    LxmfSystem.Reachable Unit Faults.none Nor.sha256 twoExtents system ∧
      store.entries = [pendingEntry (samplePending Nor.sha256)] ∧
      Prog.Exec Faults.none (readWireChunk Nor.sha256 twoExtents store
        (samplePending Nor.sha256).handle 0 (List.replicate 112 0) :
          ReadAction Unit (LxmfWireChunk × List Byte)).run system.flash tr r g ∧
      (mount Nor.sha256 twoExtents 1 : MountAction Unit MountedLxmfStore).answer g =
        .ok { store with capacity := 1 } := by
  obtain ⟨system, hreachable, -, hstore, -⟩ := committedSystem_reachable
    (admission_sample Nor.sha256)
  obtain ⟨tr, hrun⟩ := Prog.exec_run Faults.none (readWireChunk Nor.sha256 twoExtents
    ((emptyStore twoExtents).complete (samplePending Nor.sha256)
      (pendingEntry (samplePending Nor.sha256))) (samplePending Nor.sha256).handle 0
        (List.replicate 112 0) : ReadAction Unit (LxmfWireChunk × List Byte)).run system.flash
  generalize (readWireChunk Nor.sha256 twoExtents _ _ 0 (List.replicate 112 0) :
    ReadAction Unit (LxmfWireChunk × List Byte)).run.run system.flash = result at hrun
  have hvisited := hreachable.visited.read hstore hrun
  have hremount := remount_exact hvisited hstore rfl (by decide : 1 ≤ 1)
  exact ⟨system, _, tr, _, _, hreachable, rfl, hrun, hremount⟩

end Runs

end LxmfStore
