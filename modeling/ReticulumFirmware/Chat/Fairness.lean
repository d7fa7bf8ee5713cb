import Mathlib.Data.Finset.Sort
import ReticulumFirmware.Collections.Rotation
import ReticulumFirmware.Chat.Engine
import ReticulumFirmware.Chat.StatusProgress

/-!
# The rotation of reconciliation

Which rows a run of reconciliation calls attempts, and when an ordinary round attempts them all.
-/

namespace Chat

/-- A reconciliation call: an ordinary one, or one that prefers a row. -/
structure ReconcileCall (S D StoreError SessionError : Type) where
  store : ChatStore S StoreError
  session : LxmfSession D SessionError
  preferred : Option OutboxId

/-- The row that a call requested, and whether the call succeeded. -/
structure RowAttempt where
  ordinary : Bool
  row : Option OutboxId
  served : Bool
  deriving DecidableEq

variable {S D StoreError SessionError : Type}

namespace ChatEngine

variable (store : ChatStore S StoreError) (session : LxmfSession D SessionError)
  (engine : ChatEngine S) (device : D)

/-- The session answers the request for a row, and the store takes the answer. -/
def serves : ReconcileWork → Bool
  | .submit outboxId material =>
    match (session.submit device material).1 with
    | .error _ => false
    | .ok acceptance => (store.recordAcceptance engine.store outboxId acceptance).1.isOk
  | .refreshStatus _ acceptance =>
    match (session.submissionStatus device acceptance.submissionId).1 with
    | .error _ => false
    | .ok state =>
      (store.projectSubmissionStatus engine.store acceptance.submissionId state).1.isOk

/-- The row that a call requests. -/
def selectedItem (selection : ReconcileSelection) : Option ReconcileWork :=
  match store.reconcile engine.store with
  | .error _ => none
  | .ok work => work[(selectIndex work (engine.reconcileOffset % work.length) selection).1]?

/-- A request and its commit leave the rotation. -/
theorem reconcileOffset_reconcileItem (item : ReconcileWork) :
    (reconcileItem store session engine device item).2.1.reconcileOffset =
      engine.reconcileOffset := by
  cases item with
  | submit outboxId material =>
    unfold reconcileItem
    dsimp only
    split
    · rfl
    · split <;> rfl
  | refreshStatus outboxId acceptance =>
    unfold reconcileItem
    dsimp only
    split
    · rfl
    · split <;> rfl

/-- A request and its commit succeed exactly when the row is served. -/
theorem isOk_reconcileItem (item : ReconcileWork) :
    (reconcileItem store session engine device item).1.isOk =
      serves store session engine device item := by
  cases item with
  | submit outboxId material =>
    unfold reconcileItem serves
    dsimp only
    split
    · next heq =>
      rw [heq]
      rfl
    · next heq =>
      rw [heq]
      dsimp only
      split
      · next hstore => rw [hstore]; rfl
      · next hstore => rw [hstore]; rfl
  | refreshStatus outboxId acceptance =>
    unfold reconcileItem serves
    dsimp only
    split
    · next heq =>
      rw [heq]
      rfl
    · next heq =>
      rw [heq]
      dsimp only
      split
      · next hstore => rw [hstore]; rfl
      · next hstore => rw [hstore]; rfl

variable {store session engine device} {work : List ReconcileWork}

/-- With the work read, the selected item is the one at the selected index. -/
theorem selectedItem_of_work (hwork : store.reconcile engine.store = .ok work)
    (selection : ReconcileSelection) :
    selectedItem store engine selection =
      work[(selectIndex work (engine.reconcileOffset % work.length) selection).1]? := by
  rw [selectedItem, hwork]

/-- The rotation after a call moves on with a served row, unless the row was preferred. -/
theorem reconcileOffset_step (session : LxmfSession D SessionError) (device : D)
    (hwork : store.reconcile engine.store = .ok work)
    (hnonempty : work ≠ []) (selection : ReconcileSelection) :
    (reconcileStepSelecting store session engine device selection).2.1.reconcileOffset =
      if (selectedItem store engine selection).any (serves store session engine device) &&
          !(selectIndex work (engine.reconcileOffset % work.length) selection).2 then
        ((selectIndex work (engine.reconcileOffset % work.length) selection).1 + 1) % work.length
      else engine.reconcileOffset := by
  have hlength : work.length ≠ 0 := fun h => hnonempty (List.length_eq_zero_iff.mp h)
  have hindex := selectIndex_lt (Nat.mod_lt engine.reconcileOffset (Nat.pos_of_ne_zero hlength))
    selection
  have hitem : selectedItem store engine selection = some (work.get ⟨_, hindex⟩) := by
    rw [selectedItem_of_work hwork]
    exact List.getElem?_eq_getElem hindex
  have hoffset := reconcileOffset_reconcileItem store session engine device (work.get ⟨_, hindex⟩)
  have hok := isOk_reconcileItem store session engine device (work.get ⟨_, hindex⟩)
  rw [hitem, Option.any_some, ← hok]
  unfold reconcileStepSelecting
  rw [hwork]
  dsimp only
  rw [dif_neg hlength]
  generalize reconcileItem store session engine device (work.get ⟨_, hindex⟩) = result at hoffset ⊢
  obtain ⟨outcome, later, device'⟩ := result
  cases outcome with
  | error error => simpa [Except.isOk, Except.toBool] using hoffset
  | ok step =>
    cases hpreferred : (selectIndex work (engine.reconcileOffset % work.length) selection).2 with
    | false => simp [Except.isOk, Except.toBool]
    | true => simpa [Except.isOk, Except.toBool] using hoffset

end ChatEngine

namespace ReconcileCall

/-- How a call selects its row. -/
def selection (call : ReconcileCall S D StoreError SessionError) : ReconcileSelection :=
  match call.preferred with
  | none => .ordinary
  | some preferred => .prefer preferred

/-- What a call attempts. -/
def attempt (call : ReconcileCall S D StoreError SessionError) (engine : ChatEngine S)
    (device : D) : RowAttempt :=
  let item := ChatEngine.selectedItem call.store engine call.selection
  { ordinary := call.preferred.isNone
    row := item.map (·.outboxId)
    served := item.any (ChatEngine.serves call.store call.session engine device) }

/-- The engine and the device after a call. -/
def step (call : ReconcileCall S D StoreError SessionError) (engine : ChatEngine S)
    (device : D) : ChatEngine S × D :=
  (ChatEngine.reconcileStepSelecting call.store call.session engine device call.selection).2

/-- What the calls of a run attempt. -/
def attempts : List (ReconcileCall S D StoreError SessionError) → ChatEngine S → D → List RowAttempt
  | [], _, _ => []
  | call :: calls, engine, device =>
    call.attempt engine device ::
      attempts calls (call.step engine device).1 (call.step engine device).2

/-- A property of every call of a run and of the engine that it meets. -/
def Along (property : ReconcileCall S D StoreError SessionError → ChatEngine S → Prop) :
    List (ReconcileCall S D StoreError SessionError) → ChatEngine S → D → Prop
  | [], _, _ => True
  | call :: calls, engine, device =>
    property call engine ∧
      Along property calls (call.step engine device).1 (call.step engine device).2

/-- The work list has these rows, and a preferred row is one of them. -/
def Lists (ids : List OutboxId) (call : ReconcileCall S D StoreError SessionError)
    (engine : ChatEngine S) : Prop :=
  (∃ work, call.store.reconcile engine.store = .ok work ∧ work.map (·.outboxId) = ids) ∧
    ∀ preferred, call.preferred = some preferred → preferred ∈ ids

/-- The work list has this set of rows, and a preferred row is one of them. -/
def Steady (ids : Finset OutboxId) (call : ReconcileCall S D StoreError SessionError)
    (engine : ChatEngine S) : Prop :=
  (∃ work, call.store.reconcile engine.store = .ok work ∧
    (work.map (·.outboxId)).toFinset = ids) ∧
    ∀ preferred, call.preferred = some preferred → preferred ∈ ids

end ReconcileCall

/-- The ordinary ones of some attempts. -/
def ordinary (attempts : List RowAttempt) : List RowAttempt := attempts.filter (·.ordinary)

/-- The rows of a round that starts at an offset and moves on when a row is served. -/
def rotation (ids : List OutboxId) (offset : ℕ) (served : List Bool) : List (Option OutboxId) :=
  (Rotation.positions offset served).map fun position => ids[position % ids.length]?

/-- The first turn is the row at the offset, and the next offset follows if it was served. -/
theorem rotation_cons (ids : List OutboxId) (offset : ℕ) (served : Bool) (later : List Bool) :
    rotation ids offset (served :: later) =
      ids[offset % ids.length]? :: rotation ids (offset + served.toNat) later := rfl

section Run

open ReconcileCall

variable {ids : List OutboxId} {call : ReconcileCall S D StoreError SessionError}
  {calls : List (ReconcileCall S D StoreError SessionError)} {engine : ChatEngine S} {device : D}

/-- An ordinary call requests the row of the rotation, which moves on when it is served. -/
theorem attempt_ordinary (device : D) (hids : ids ≠ []) (hlists : Lists ids call engine)
    (hordinary : call.preferred = none) {offset : ℕ}
    (hoffset : engine.reconcileOffset % ids.length = offset % ids.length) :
    (call.attempt engine device).row = ids[offset % ids.length]? ∧
      (call.step engine device).1.reconcileOffset % ids.length =
        (offset + (call.attempt engine device).served.toNat) % ids.length := by
  obtain ⟨⟨work, hwork, hrows⟩, -⟩ := hlists
  have hlength : work.length = ids.length := by rw [← hrows, List.length_map]
  have hnonempty : work ≠ [] := by
    rintro rfl
    exact hids hrows.symm
  have hselection : call.selection = .ordinary := by rw [selection, hordinary]
  have hindex : (ChatEngine.selectIndex work (engine.reconcileOffset % work.length)
      call.selection) = (offset % ids.length, false) := by
    rw [hselection, hlength, hoffset]
    rfl
  have hitem := ChatEngine.selectedItem_of_work hwork call.selection
  rw [hindex] at hitem
  constructor
  · change (ChatEngine.selectedItem call.store engine call.selection).map (·.outboxId) = _
    rw [hitem, ← hrows, List.getElem?_map]
  · have hstep := ChatEngine.reconcileOffset_step call.session device
      hwork hnonempty call.selection
    rw [hindex, hlength] at hstep
    change (ChatEngine.reconcileStepSelecting call.store call.session engine device
      call.selection).2.1.reconcileOffset % _ = (offset + Bool.toNat
        ((ChatEngine.selectedItem call.store engine call.selection).any
          (ChatEngine.serves call.store call.session engine device))) % _
    rw [hstep]
    cases (ChatEngine.selectedItem call.store engine call.selection).any
        (ChatEngine.serves call.store call.session engine device) with
    | false => simpa using hoffset
    | true => simp

/-- A call that prefers a listed row leaves the rotation. -/
theorem reconcileOffset_preferred (device : D) (hids : ids ≠ []) (hlists : Lists ids call engine)
    {preferred : OutboxId} (hpreferred : call.preferred = some preferred) :
    (call.step engine device).1.reconcileOffset = engine.reconcileOffset := by
  obtain ⟨⟨work, hwork, hrows⟩, hlisted⟩ := hlists
  have hnonempty : work ≠ [] := by
    rintro rfl
    exact hids hrows.symm
  have hmem := hlisted preferred hpreferred
  rw [← hrows, List.mem_map] at hmem
  obtain ⟨item, hitem, hid⟩ := hmem
  have hselection : call.selection = .prefer preferred := by rw [selection, hpreferred]
  have hkept : (ChatEngine.selectIndex work (engine.reconcileOffset % work.length)
      call.selection).2 = true := by
    rw [hselection]
    unfold ChatEngine.selectIndex
    dsimp only
    split
    · rfl
    · next hnone =>
      rw [List.findIdx?_eq_none_iff] at hnone
      simpa [hid] using hnone item hitem
  have hstep := ChatEngine.reconcileOffset_step call.session device
    hwork hnonempty call.selection
  simp only [hkept, Bool.not_true, Bool.and_false, Bool.false_eq_true, if_false] at hstep
  exact hstep

/-- The ordinary calls of a run rotate, whatever the preferred ones do. -/
theorem ordinary_rotates (hids : ids ≠ []) (hlists : Along (Lists ids) calls engine device)
    {offset : ℕ} (hoffset : engine.reconcileOffset % ids.length = offset % ids.length) :
    (ordinary (attempts calls engine device)).map (·.row) =
      rotation ids offset ((ordinary (attempts calls engine device)).map (·.served)) := by
  induction calls generalizing engine device offset with
  | nil => rfl
  | cons call calls ih =>
    obtain ⟨hcall, hcalls⟩ := hlists
    rw [attempts]
    cases hpreferred : call.preferred with
    | none =>
      have hordinary : (call.attempt engine device).ordinary = true := by
        simp [attempt, hpreferred]
      obtain ⟨hrow, hnext⟩ := attempt_ordinary device hids hcall hpreferred hoffset
      rw [ordinary, List.filter_cons_of_pos hordinary, List.map_cons, List.map_cons, hrow,
        rotation_cons]
      exact congrArg _ (ih hcalls hnext)
    | some preferred =>
      have hordinary : ¬ (call.attempt engine device).ordinary = true := by
        simp [attempt, hpreferred]
      have hsame := reconcileOffset_preferred device hids hcall hpreferred
      rw [ordinary, List.filter_cons_of_neg hordinary]
      exact ih hcalls (by rw [hsame, hoffset])

/-- What a round of ordinary calls has to do: attempt every row, in the order of the rotation
whatever the preferred calls do. -/
structure Fair (ids : Finset OutboxId) (offset : ℕ) (attempts : List RowAttempt) : Prop where
  all : ∀ id ∈ ids, ∃ attempt ∈ ordinary attempts, attempt.row = some id
  undisturbed : (ordinary attempts).map (·.row) =
    rotation (ids.sort (· ≤ ·)) offset ((ordinary attempts).map (·.served))

/-- A round of a rotation attempts every row exactly when no call but the last one fails. -/
theorem fair_iff_of_rotates {ids : Finset OutboxId} (hids : ids.Nonempty) {offset : ℕ}
    {attempts : List RowAttempt} (hcount : (ordinary attempts).length = ids.card)
    (hrotates : (ordinary attempts).map (·.row) =
      rotation (ids.sort (· ≤ ·)) offset ((ordinary attempts).map (·.served))) :
    Fair ids offset attempts ↔ ∀ attempt ∈ (ordinary attempts).dropLast, attempt.served = true := by
  have hcovers := Rotation.covers_iff (Finset.card_pos.mpr hids) offset
    (show ((ordinary attempts).map (·.served)).length = ids.card by rw [List.length_map, hcount])
  rw [← List.map_dropLast, List.forall_mem_map] at hcovers
  rw [← hcovers]
  have hattempted : ∀ id, (∃ attempt ∈ ordinary attempts, attempt.row = some id) ↔
      ∃ position ∈ Rotation.positions offset ((ordinary attempts).map (·.served)),
        (ids.sort (· ≤ ·))[position % ids.card]? = some id := by
    intro id
    rw [← List.mem_map, hrotates, rotation, List.mem_map, Finset.length_sort]
  constructor
  · rintro ⟨hall, -⟩ i hi
    have hlength : i < (ids.sort (· ≤ ·)).length := by rwa [Finset.length_sort]
    have hmem : (ids.sort (· ≤ ·))[i] ∈ ids := (Finset.mem_sort _).mp (List.getElem_mem hlength)
    obtain ⟨position, hposition, hget⟩ := (hattempted _).mp (hall _ hmem)
    obtain ⟨hlt, hsame⟩ := List.getElem?_eq_some_iff.mp hget
    exact ⟨position, hposition, (Finset.sort_nodup _ _).getElem_inj_iff.mp hsame⟩
  · intro hall
    refine ⟨?_, hrotates⟩
    intro id hid
    rw [hattempted]
    obtain ⟨i, hlength, hget⟩ := List.mem_iff_getElem.mp ((Finset.mem_sort (· ≤ ·)).mpr hid)
    obtain ⟨position, hposition, hsame⟩ := hall i (by rwa [Finset.length_sort] at hlength)
    exact ⟨position, hposition, by rw [hsame, List.getElem?_eq_getElem hlength, hget]⟩

end Run

section Memory

open ReconcileCall

variable {engine : ChatEngine MemoryChatStore} {device : D}

/-- Work is listed in ascending row order. -/
theorem pairwise_reconcile {store : MemoryChatStore} (h : RowsSound store) :
    (store.reconcile.map (·.outboxId)).Pairwise (· < ·) := by
  have hrows : store.outbox.values.Pairwise fun v w => v.id < w.id :=
    BTreeMap.pairwise_values fun id row hrow => (h id row hrow).filed
  rw [List.pairwise_map]
  refine List.Pairwise.filterMap MemoryChatStore.reconcileRow (R := fun v w => v.id < w.id) ?_ hrows
  have hid : ∀ {record : OutboxRecord} {item : ReconcileWork},
      MemoryChatStore.reconcileRow record = some item → item.outboxId = record.id := by
    intro record item hitem
    unfold MemoryChatStore.reconcileRow at hitem
    split at hitem
    · cases hitem
      rfl
    · split_ifs at hitem
      cases hitem
      rfl
  intro record record' hlt item hitem item' hitem'
  rwa [hid hitem, hid hitem']

/-- A reconciliation call makes calls of the store. -/
theorem exists_after (engine : ChatEngine MemoryChatStore) (device : D) (now : Option UInt64)
    (session : LxmfSession D SessionError)
    (selection : ReconcileSelection) :
    ∃ calls, (engine.reconcileStepSelecting (memoryStore now) session device selection).2.1.store =
      engine.store.after calls := by
  have hitem : ∀ item, ∃ calls,
      (engine.reconcileItem (memoryStore now) session device item).2.1.store =
        engine.store.after calls := by
    intro item
    cases item with
    | submit outboxId material =>
      unfold ChatEngine.reconcileItem
      dsimp only
      split
      · exact ⟨[], rfl⟩
      · next acceptance _ _ =>
        refine ⟨[.recordAcceptance now outboxId acceptance], ?_⟩
        split
        · next hstore => exact (congrArg Prod.snd hstore).symm
        · next hstore => exact (congrArg Prod.snd hstore).symm
    | refreshStatus outboxId acceptance =>
      unfold ChatEngine.reconcileItem
      dsimp only
      split
      · exact ⟨[], rfl⟩
      · next state _ _ =>
        refine ⟨[.projectSubmissionStatus now acceptance.submissionId state], ?_⟩
        split
        · next hstore => exact (congrArg Prod.snd hstore).symm
        · next hstore => exact (congrArg Prod.snd hstore).symm
  unfold ChatEngine.reconcileStepSelecting
  split
  · exact ⟨[], rfl⟩
  · next work _ =>
    split
    · exact ⟨[], rfl⟩
    · next hlength =>
      have h := hitem (work.get ⟨_, ChatEngine.selectIndex_lt
        (Nat.mod_lt engine.reconcileOffset (Nat.pos_of_ne_zero hlength)) selection⟩)
      dsimp only
      split
      · next heq =>
        rw [heq] at h
        exact h
      · next heq =>
        rw [heq] at h
        split
        · exact h
        · exact h

/-- Over the in-memory store a set of rows is listed in one way. -/
theorem along_lists {ids : Finset OutboxId}
    {calls : List (ReconcileCall MemoryChatStore D StoreFailure SessionError)}
    (hmemory : ∀ call ∈ calls, ∃ now, call.store = memoryStore now)
    (hrows : RowsSound engine.store) (hsteady : Along (Steady ids) calls engine device) :
    Along (Lists (ids.sort (· ≤ ·))) calls engine device := by
  induction calls generalizing engine device with
  | nil => trivial
  | cons call calls ih =>
    obtain ⟨now, hstore⟩ := hmemory call (by simp)
    obtain ⟨⟨⟨work, hwork, hids⟩, hpreferred⟩, hcalls⟩ := hsteady
    have hsame : engine.store.reconcile = work := by
      rw [hstore] at hwork
      exact Except.ok.inj hwork
    have hascending := pairwise_reconcile hrows
    rw [hsame] at hascending
    refine ⟨⟨⟨work, hwork, ?_⟩, ?_⟩, ?_⟩
    · rw [← hids]
      exact ((List.toFinset_sort _ hascending.nodup).mpr (hascending.imp le_of_lt)).symm
    · intro preferred h
      exact (Finset.mem_sort _).mpr (hpreferred preferred h)
    · refine ih (fun later hmem => hmemory later (List.mem_cons_of_mem _ hmem)) ?_ hcalls
      obtain ⟨made, hmade⟩ := exists_after engine device now call.session
        call.selection
      change RowsSound (ChatEngine.reconcileStepSelecting call.store call.session engine device
        call.selection).2.1.store
      rw [hstore, hmade]
      exact hrows.after made

/-- In every run of reconciliation calls that keeps the set of listed rows, and in which as many
calls are ordinary as rows are listed, every row is attempted exactly when no ordinary call but
the last one fails. -/
theorem reconcile_fair_iff (reached : List Call) (hstore : engine.store = .after .new reached)
    {calls : List (ReconcileCall MemoryChatStore D StoreFailure SessionError)}
    (hmemory : ∀ call ∈ calls, ∃ now, call.store = memoryStore now) {ids : Finset OutboxId}
    (hids : ids.Nonempty) (hsteady : Along (Steady ids) calls engine device)
    (hcount : (ordinary (attempts calls engine device)).length = ids.card) :
    Fair ids engine.reconcileOffset (attempts calls engine device) ↔
      ∀ attempt ∈ (ordinary (attempts calls engine device)).dropLast, attempt.served = true := by
  have hrows : RowsSound engine.store := by
    rw [hstore]
    exact rowsSound_new.after reached
  have hlists := along_lists hmemory hrows hsteady
  have hnonempty : ids.sort (· ≤ ·) ≠ [] := by
    rw [← List.length_pos_iff, Finset.length_sort]
    exact Finset.card_pos.mpr hids
  exact fair_iff_of_rotates hids hcount (ordinary_rotates hnonempty hlists rfl)

end Memory

section Rounds

open ReconcileCall

/-- A line with its own submission key. -/
def lineMaterial (key : Nor.Byte) : OutboxMaterial :=
  ⟨Vector.replicate 16 1, ⟨9, by decide, by decide⟩, Vector.replicate 16 key, [], [0x68], none⟩

/-- An engine with two lines to submit. -/
def twoLines : ChatEngine MemoryChatStore :=
  .new (.after .new [.commitOutbound none (lineMaterial 1) .notObserved,
    .commitOutbound none (lineMaterial 2) .notObserved])

/-- The rows of the two lines. -/
def twoRows : Finset OutboxId := (twoLines.store.reconcile.map (·.outboxId)).toFinset

/-- A session that answers every submission alike. -/
def uniformSession (answer : Except Unit AcceptanceIds) : LxmfSession Unit Unit where
  submit _ _ := (answer, ())
  submissionStatus _ _ := (.error (), ())
  nextInbox _ _ := (.error (), ())
  readInbox _ _ := (.error (), ())
  acknowledgeInboxThrough _ _ := (.error (), ())

/-- An ordinary call whose submission is refused. -/
def refusedCall : ReconcileCall MemoryChatStore Unit StoreFailure Unit :=
  ⟨memoryStore none, uniformSession (.error ()), none⟩

/-- In two calls that fail, the first row is attempted twice and the second one not at all. -/
theorem refused_round_not_fair :
    Along (Steady twoRows) [refusedCall, refusedCall] twoLines () ∧
      (ordinary (attempts [refusedCall, refusedCall] twoLines ())).length = twoRows.card ∧
      ¬ Fair twoRows twoLines.reconcileOffset
        (attempts [refusedCall, refusedCall] twoLines ()) := by
  refine ⟨⟨⟨⟨_, rfl, by decide +kernel⟩, nofun⟩, ⟨⟨_, rfl, by decide +kernel⟩, nofun⟩, trivial⟩,
    by decide +kernel, ?_⟩
  intro hfair
  have hmissed : ∃ id ∈ twoRows, ∀ attempt ∈
      ordinary (attempts [refusedCall, refusedCall] twoLines ()), attempt.row ≠ some id := by
    decide +kernel
  obtain ⟨id, hid, hnever⟩ := hmissed
  obtain ⟨attempt, hattempt, hrow⟩ := hfair.all id hid
  exact hnever attempt hattempt hrow

/-- The condition for that round. -/
theorem refused_round_fair_iff :
    Fair twoRows twoLines.reconcileOffset (attempts [refusedCall, refusedCall] twoLines ()) ↔
      ∀ attempt ∈ (ordinary (attempts [refusedCall, refusedCall] twoLines ())).dropLast,
        attempt.served = true :=
  reconcile_fair_iff _ rfl (by simp [refusedCall]) (by decide +kernel)
    ⟨⟨⟨_, rfl, by decide +kernel⟩, nofun⟩, ⟨⟨_, rfl, by decide +kernel⟩, nofun⟩, trivial⟩
    (by decide +kernel)

end Rounds

end Chat
