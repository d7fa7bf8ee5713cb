import ReticulumFirmware.Outbox.Index

/-!
# Mounting

A mount only reads. On a partition that satisfies the invariant it succeeds, unless a read
fails, and indexes every committed record.
-/

namespace Outbox

open Nor

variable {ε : Type} {sha256 : Sha256} {binding : OutboxBinding} {f : Flash} {frontier : ℕ}

/-- The entry of a committed state. -/
def RecordState.entry? : RecordState → Option OutboxEntry
  | .committed entry => some entry
  | _ => none

/-- A state has an entry exactly where it is committed. -/
theorem RecordState.entry?_eq_some {state : RecordState} {entry : OutboxEntry} :
    state.entry? = some entry ↔ state = .committed entry := by
  cases state <;> simp [RecordState.entry?]

/-- The entry of a committed record. -/
def committedEntry (sha256 : Sha256) (binding : OutboxBinding) (f : Flash) (slot : ℕ) :
    Option OutboxEntry :=
  (recordState sha256 binding f slot).bind RecordState.entry?

/-- A record has an entry exactly where one is committed at it. -/
theorem committedEntry_eq_some {slot : ℕ} {entry : OutboxEntry} :
    committedEntry sha256 binding f slot = some entry ↔
      CommittedAt sha256 binding f slot entry := by
  rw [← recordState_eq_committed, committedEntry, Option.bind_eq_some_iff]
  constructor
  · rintro ⟨state, hstate, hentry⟩
    rw [hstate, RecordState.entry?_eq_some.mp hentry]
  · intro h
    exact ⟨_, h, rfl⟩

/-- The entries of the first committed records. -/
def committedEntries (sha256 : Sha256) (binding : OutboxBinding) (f : Flash) (count : ℕ) :
    List OutboxEntry :=
  (List.range count).filterMap (committedEntry sha256 binding f)

/-- The entries are those that are committed at the records. -/
theorem mem_committedEntries {count : ℕ} {entry : OutboxEntry} :
    entry ∈ committedEntries sha256 binding f count ↔
      ∃ slot < count, CommittedAt sha256 binding f slot entry := by
  simp [committedEntries, committedEntry_eq_some]

/-- One more record adds its entry, if it has one. -/
theorem committedEntries_succ {count : ℕ} {state : RecordState}
    (hstate : recordState sha256 binding f count = some state) :
    committedEntries sha256 binding f (count + 1) =
      committedEntries sha256 binding f count ++ state.entry?.toList := by
  have hentry : committedEntry sha256 binding f count = state.entry? := by
    rw [committedEntry, hstate, Option.bind_some]
  rw [committedEntries, List.range_succ, List.filterMap_append, committedEntries]
  cases h : state.entry? <;> simp [hentry, h]

/-- The mounted outbox of a partition. -/
def mounted (sha256 : Sha256) (binding : OutboxBinding) (f : Flash) (frontier : ℕ) :
    MountedOutbox :=
  ⟨binding, committedEntries sha256 binding f frontier, 64, frontier⟩

/-- The scan before the frontier. -/
theorem eval_mountRecord_used {slot : ℕ} (hused : Used sha256 binding f slot) :
    (mountRecord sha256 binding ⟨committedEntries sha256 binding f slot, 64, false⟩ slot :
        OutboxAction ε MountScan).eval f =
      (.ok ⟨committedEntries sha256 binding f (slot + 1), 64, false⟩, f) := by
  rcases hused with htorn | ⟨entry, hentry⟩
  · have hinspect : (inspectRecord sha256 binding slot : OutboxAction ε _).eval f =
        (.ok .torn, f) := by
      rw [eval_inspectRecord, htorn]
      rfl
    rw [mountRecord, Action.eval_bind_ok hinspect, committedEntries_succ htorn]
    simp only [Action.eval_ensure_bind, if_true, RecordState.entry?, Option.toList_none,
      List.append_nil]
    rfl
  · have hstate := recordState_eq_committed.mpr hentry
    have hinspect : (inspectRecord sha256 binding slot : OutboxAction ε _).eval f =
        (.ok (.committed entry), f) := by
      rw [eval_inspectRecord, hstate]
      rfl
    rw [mountRecord, Action.eval_bind_ok hinspect, committedEntries_succ hstate]
    simp only [Action.eval_ensure_bind, if_true, RecordState.entry?, Option.toList_some]
    rfl

/-- The scan from the frontier on. -/
theorem eval_mountRecord_erased {slot : ℕ} {scan : MountScan}
    (herased : f.Erased (slot * 4096) 4096) :
    (mountRecord sha256 binding scan slot : OutboxAction ε MountScan).eval f =
      (.ok (if scan.erasedSeen then scan else { scan with nextSlot := slot, erasedSeen := true }),
        f) := by
  have hinspect : (inspectRecord sha256 binding slot : OutboxAction ε _).eval f =
      (.ok .erased, f) := by
    rw [eval_inspectRecord, recordState_erased herased]
    rfl
  rw [mountRecord, Action.eval_bind_ok hinspect]
  rfl

/-- The progress of a mount after the first records. -/
def scanned (sha256 : Sha256) (binding : OutboxBinding) (f : Flash) (frontier count : ℕ) :
    MountScan :=
  if count ≤ frontier then ⟨committedEntries sha256 binding f count, 64, false⟩
  else ⟨committedEntries sha256 binding f frontier, frontier, true⟩

/-- The scan of the first records answers what they hold. -/
theorem eval_mountRecords (hinv : StoreInv sha256 binding f frontier) {count : ℕ}
    (hcount : count ≤ 64) :
    ((List.range count).foldlM (mountRecord sha256 binding) ⟨[], 64, false⟩ :
        OutboxAction ε MountScan).eval f = (.ok (scanned sha256 binding f frontier count), f) := by
  induction count with
  | zero => rfl
  | succ slot ih =>
    rw [List.range_succ, List.foldlM_append, Action.eval_bind_ok (ih (by omega)),
      List.foldlM_cons]
    have hstep : (mountRecord sha256 binding (scanned sha256 binding f frontier slot) slot :
        OutboxAction ε MountScan).eval f =
        (.ok (scanned sha256 binding f frontier (slot + 1)), f) := by
      by_cases hslot : slot < frontier
      · rw [scanned, if_pos hslot.le, scanned, if_pos (by omega)]
        exact eval_mountRecord_used (hinv.used slot hslot)
      · rw [eval_mountRecord_erased (hinv.erased slot (by omega) (by omega))]
        by_cases heq : slot = frontier
        · subst heq
          simp [scanned]
        · have hscan : ∀ count, frontier < count → scanned sha256 binding f frontier count =
              ⟨committedEntries sha256 binding f frontier, frontier, true⟩ :=
            fun _ hlt => if_neg (by omega)
          rw [hscan slot (by omega), hscan (slot + 1) (by omega)]
          rfl
    rw [Action.eval_bind_ok hstep]
    rfl

/-- A mount without backend errors succeeds and indexes every committed record. -/
theorem eval_mount {geometry : Geometry} (hinv : StoreInv sha256 binding f frontier)
    (hvalid : AccessValid geometry binding 64) :
    (mount geometry sha256 binding 64 : OutboxAction ε MountedOutbox).eval f =
      (.ok (mounted sha256 binding f frontier), f) := by
  have hle := hinv.le
  rw [mount, Action.eval_ensure_bind, if_pos hvalid,
    Action.eval_bind_ok (eval_mountRecords hinv le_rfl), scanned, mounted]
  by_cases hfull : 64 ≤ frontier
  · have hfrontier : frontier = 64 := by omega
    subst hfrontier
    rw [if_pos le_rfl, Action.eval_pure]
  · rw [if_neg hfull, Action.eval_pure]

/-- Mounting only reads. -/
theorem query_mount (geometry : Geometry) (binding : OutboxBinding) (indexLen : ℕ) :
    Query .backend (mount geometry sha256 binding indexLen : OutboxAction ε MountedOutbox).run := by
  refine .bind (query_ensure ..) fun _ => .bind (.foldlM (fun scan slot => ?_) _ _) fun _ => .pure _
  refine .bind (query_inspectRecord ..) fun state => ?_
  cases state with
  | erased => exact .pure _
  | torn => exact .bind (query_ensure ..) fun _ => .pure _
  | committed entry => exact .bind (query_ensure ..) fun _ => .pure _

/-- A fresh mount is up to date. -/
theorem tracks_mounted (hinv : StoreInv sha256 binding f frontier) :
    Tracks sha256 binding f (mounted sha256 binding f frontier) := by
  refine ⟨rfl, rfl, hinv.le, ?_, hinv.used, fun entry hentry => ?_,
    fun slot hslot later hlater => ?_⟩
  · exact (List.length_filterMap_le ..).trans (by simp [mounted])
  · obtain ⟨slot, hslot, hcommitted⟩ := mem_committedEntries.mp hentry
    rw [hcommitted.entry_spec.1]
    exact ⟨hslot, entry, hcommitted, .refl entry⟩
  · exact ⟨later, mem_committedEntries.mpr ⟨slot, hslot, hlater⟩, hlater.entry_spec.1, .refl later⟩

end Outbox
