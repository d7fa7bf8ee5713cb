import ReticulumFirmware.Nor.Driver

/-!
# Partition views

`nor-flash-region`: a view of one partition of a flash. A request is checked against the length of
the partition and against the end of the address space, and forwarded to its absolute range.
-/

namespace Nor

variable {ε σ : Type}

/-- Why a request of a client failed. -/
inductive RegionError (ε : Type) where
  | backend (error : ε)
  | outOfBounds
  deriving DecidableEq

/-- The greatest offset. -/
abbrev maxOffset : ℕ := 2 ^ 32 - 1

/-- The sum of two offsets, if it is one. -/
def checkedAddOffset (left right : ℕ) : Option ℕ :=
  if left + right ≤ maxOffset then some (left + right) else none

/-- A value, or the error of a request that does not fit. -/
def orOutOfBounds {α : Type} : Option α → Except (RegionError ε) α
  | some value => .ok value
  | none => .error .outOfBounds

/-- A checked view of a partition. -/
structure PartitionNorFlash (σ : Type) where
  flash : σ
  start : ℕ
  len : ℕ
  writeCalls : ℕ
  eraseCalls : ℕ

namespace PartitionNorFlash

/-- The view before any request. -/
def new (flash : σ) (start len : ℕ) : PartitionNorFlash σ := ⟨flash, start, len, 0, 0⟩

variable (view : PartitionNorFlash σ)

/-- Where a range of the partition starts in the flash, if it is inside the partition. -/
def absoluteOffset (offset len : ℕ) : Except (RegionError ε) ℕ := do
  let len ← orOutOfBounds (if len ≤ maxOffset then some len else none)
  let relativeEnd ← orOutOfBounds (checkedAddOffset offset len)
  if view.len < relativeEnd then .error .outOfBounds
  else
    let absolute ← orOutOfBounds (checkedAddOffset view.start offset)
    let _ ← orOutOfBounds (checkedAddOffset view.start relativeEnd)
    return absolute

/-- The range of the flash that a range of the partition is. -/
def absoluteEraseRange (start stop : ℕ) : Except (RegionError ε) (ℕ × ℕ) :=
  if stop < start ∨ view.len < stop then .error .outOfBounds
  else do
    let absoluteFrom ← orOutOfBounds (checkedAddOffset view.start start)
    let absoluteTo ← orOutOfBounds (checkedAddOffset view.start stop)
    return (absoluteFrom, absoluteTo)

variable (backend : Driver ε σ)

/-- A read of the range of the flash. -/
def read (offset : ℕ) (buffer : List Byte) :
    (Except (RegionError ε) Unit × List Byte) × PartitionNorFlash σ :=
  match view.absoluteOffset offset buffer.length with
  | .error error => ((.error error, buffer), view)
  | .ok absolute =>
    let answer := backend.read absolute buffer view.flash
    ((answer.1.1.mapError .backend, answer.1.2), { view with flash := answer.2 })

/-- A program. The call is counted before the backend sees it. -/
def write (offset : ℕ) (bytes : List Byte) : Except (RegionError ε) Unit × PartitionNorFlash σ :=
  match view.absoluteOffset offset bytes.length with
  | .error error => (.error error, view)
  | .ok absolute =>
    let answer := backend.write absolute bytes view.flash
    (answer.1.mapError .backend,
      { view with flash := answer.2, writeCalls := min (view.writeCalls + 1) maxOffset })

/-- An erase. The call is counted like a program. -/
def erase (start stop : ℕ) : Except (RegionError ε) Unit × PartitionNorFlash σ :=
  match view.absoluteEraseRange start stop with
  | .error error => (.error error, view)
  | .ok (absoluteFrom, absoluteTo) =>
    let answer := backend.erase absoluteFrom absoluteTo view.flash
    (answer.1.mapError .backend,
      { view with flash := answer.2, eraseCalls := min (view.eraseCalls + 1) maxOffset })

end PartitionNorFlash

/-- The driver that a client of a partition sees. -/
def Driver.partition (backend : Driver ε σ) : Driver (RegionError ε) (PartitionNorFlash σ) where
  read offset buffer view := view.read backend offset buffer
  write offset bytes view := view.write backend offset bytes
  erase start stop view := view.erase backend start stop

namespace PartitionNorFlash

variable (view : PartitionNorFlash σ)

/-- The request fits the partition, and its absolute range fits the address space. -/
def Fits (request : Request) : Prop :=
  request.Inside 0 view.len ∧ view.start + request.stop ≤ maxOffset

/-- The ends are compared. -/
instance (request : Request) : Decidable (view.Fits request) :=
  inferInstanceAs (Decidable (_ ∧ _))

/-- The view after the backend served a request. -/
def reached (request : Request) (flash : σ) : PartitionNorFlash σ :=
  match request with
  | .read .. => { view with flash }
  | .write .. => { view with flash, writeCalls := min (view.writeCalls + 1) maxOffset }
  | .erase .. => { view with flash, eraseCalls := min (view.eraseCalls + 1) maxOffset }

/-- After a request the view has the backend that served it. -/
@[simp] theorem flash_reached (request : Request) (flash : σ) :
    (view.reached request flash).flash = flash := by
  cases request <;> rfl

/-- A request leaves the start of the view. -/
@[simp] theorem start_reached (request : Request) (flash : σ) :
    (view.reached request flash).start = view.start := by
  cases request <;> rfl

/-- A request leaves the length of the view. -/
@[simp] theorem len_reached (request : Request) (flash : σ) :
    (view.reached request flash).len = view.len := by
  cases request <;> rfl

/-- What follows a bounds check runs where it passes. -/
theorem orOutOfBounds_bind {α β : Type} {condition : Prop} [Decidable condition] (value : α)
    (next : α → Except (RegionError ε) β) :
    (orOutOfBounds (if condition then some value else none) >>= next) =
      if condition then next value else .error .outOfBounds := by
  split_ifs <;> rfl

/-- The absolute offset is the shifted one where the range fits. -/
theorem absoluteOffset_eq (offset len : ℕ) :
    view.absoluteOffset offset len =
      if offset + len ≤ view.len ∧ view.start + (offset + len) ≤ maxOffset
      then .ok (view.start + offset) else (.error .outOfBounds : Except (RegionError ε) ℕ) := by
  unfold absoluteOffset checkedAddOffset
  simp only [orOutOfBounds_bind]
  split_ifs <;> first | rfl | omega

/-- The absolute range is the shifted one where it fits. -/
theorem absoluteEraseRange_eq (start stop : ℕ) :
    view.absoluteEraseRange start stop =
      if start ≤ stop ∧ stop ≤ view.len ∧ view.start + stop ≤ maxOffset
      then .ok (view.start + start, view.start + stop)
      else (.error .outOfBounds : Except (RegionError ε) (ℕ × ℕ)) := by
  unfold absoluteEraseRange checkedAddOffset
  simp only [orOutOfBounds_bind]
  split_ifs <;> first | rfl | omega

end PartitionNorFlash

section Forward

variable (backend : Driver ε σ)

/-- A request that fits goes to its absolute range. Any other is refused, and does not reach the
backend. -/
theorem serve_partition (request : Request) (view : PartitionNorFlash σ) :
    backend.partition.serve request view =
      if view.Fits request then
        let served := backend.serve (request.shift view.start) view.flash
        (served.1.wrap .backend, view.reached request served.2)
      else (⟨.error .outOfBounds, request.buffer⟩, view) := by
  have hread : ∀ offset length : ℕ,
      (0 ≤ offset ∧ offset ≤ offset + length ∧ offset + length ≤ view.len) ∧
        view.start + (offset + length) ≤ maxOffset ↔
      offset + length ≤ view.len ∧ view.start + (offset + length) ≤ maxOffset := by
    omega
  cases request with
  | read offset buffer =>
    simp only [Driver.serve, Driver.partition, PartitionNorFlash.read, view.absoluteOffset_eq,
      PartitionNorFlash.Fits, Request.Inside, Request.start, Request.stop, hread]
    split_ifs <;> rfl
  | write offset bytes =>
    simp only [Driver.serve, Driver.partition, PartitionNorFlash.write, view.absoluteOffset_eq,
      PartitionNorFlash.Fits, Request.Inside, Request.start, Request.stop, hread]
    split_ifs <;> rfl
  | erase start stop =>
    have herase : (0 ≤ start ∧ start ≤ stop ∧ stop ≤ view.len) ∧ view.start + stop ≤ maxOffset ↔
        start ≤ stop ∧ stop ≤ view.len ∧ view.start + stop ≤ maxOffset := by
      omega
    simp only [Driver.serve, Driver.partition, PartitionNorFlash.erase, view.absoluteEraseRange_eq,
      PartitionNorFlash.Fits, Request.Inside, Request.start, Request.stop, herase]
    split_ifs <;> rfl

end Forward

/-- The number of addresses of a partition that the address space has. -/
def addressable (start len : ℕ) : ℕ := min len (maxOffset - start)

section Isolation

variable {view : PartitionNorFlash σ}

/-- A request fits exactly where it lies inside the addressable part of the view. -/
theorem fits_iff (hstart : view.start ≤ maxOffset) (request : Request) :
    view.Fits request ↔ request.Inside 0 (addressable view.start view.len) := by
  unfold PartitionNorFlash.Fits Request.Inside addressable
  omega

/-- What a view has recorded: after requests that all ran through it. -/
structure Recorded (start len : ℕ) (log : List Request)
    (view : PartitionNorFlash (σ × List Request)) : Prop where
  start_eq : view.start = start
  len_eq : view.len = len
  log_eq : view.flash.2 = log

/-- Every run records the requests that fit, shifted. -/
theorem Recorded.run {backend : Driver ε σ} {start len : ℕ} (hstart : start ≤ maxOffset)
    (requests : List Request) {log : List Request}
    {view : PartitionNorFlash (σ × List Request)} (h : Recorded start len log view) :
    Recorded start len
      (log ++ (requests.filter (·.Inside 0 (addressable start len))).map (·.shift start))
      (backend.traced.partition.run requests view).2 := by
  induction requests generalizing view log with
  | nil =>
    rw [List.filter_nil, List.map_nil, List.append_nil]
    exact h
  | cons request requests ih =>
    obtain ⟨rfl, rfl, rfl⟩ := h
    have hfits := fits_iff hstart request
    rw [Driver.run, serve_partition]
    by_cases hinside : request.Inside 0 (addressable view.start view.len)
    · rw [if_pos (hfits.mpr hinside), Driver.serve_traced, List.filter_cons_of_pos (by simpa),
        List.map_cons, List.append_cons]
      exact ih ⟨view.start_reached .., view.len_reached .., by rw [view.flash_reached]⟩
    · rw [if_neg (hfits.not.mpr hinside), List.filter_cons_of_neg (by simpa)]
      exact ih ⟨rfl, rfl, rfl⟩

variable {η : Type}

/-- A flash of `size` bytes on its own, with the faults that a chip has from `start` on. A request
in its range is refused or fails as the chip does at the range shifted by `start`, so a rule about
alignment is one about absolute addresses. -/
def Chip.standalone (chip : Chip ε η) (start size : ℕ) : Driver (RegionError ε) (η × Flash) :=
  (chip.moved start).driver.bounded size .backend .outOfBounds

/-- A view of a chip with contents `f` outside the partition, and a flash that holds what the
partition does. -/
structure Separate (start len : ℕ) (f : Flash) (view : PartitionNorFlash (η × Flash))
    (alone : η × Flash) : Prop where
  start_eq : view.start = start
  len_eq : view.len = len
  hidden : view.flash.1 = alone.1
  window : view.flash.2.window start = alone.2
  outside : ∀ a, a < start ∨ start + addressable start len ≤ a → view.flash.2 a = f a

/-- A view on a chip and a flash on its own serve alike. -/
theorem separate_simulates (chip : Chip ε η) {start : ℕ} (len : ℕ) (hstart : start ≤ maxOffset)
    (f : Flash) :
    Driver.Simulates (Separate start len f) chip.driver.partition
      (chip.standalone start (addressable start len)) := by
  rintro request view ⟨hidden, cells⟩ ⟨rfl, rfl, rfl, rfl, houtside⟩
  have hfits := fits_iff hstart request
  rw [serve_partition, Chip.standalone, Driver.serve_bounded]
  by_cases hinside : request.Inside 0 (addressable view.start view.len)
  · rw [if_pos (hfits.mpr hinside), if_pos hinside]
    have hserve := chip.serve_shift view.start request view.flash
    dsimp only
    rw [hserve]
    refine ⟨rfl, view.start_reached .., view.len_reached .., ?_, ?_, fun a ha => ?_⟩
    · rw [view.flash_reached]
    · rw [view.flash_reached]
    · rw [view.flash_reached, chip.serve_frame]
      · exact houtside a ha
      · obtain ⟨-, -, hstop⟩ := hinside
        rw [Request.start_shift, Request.stop_shift]
        omega
  · rw [if_neg (hfits.not.mpr hinside), if_neg hinside]
    exact ⟨rfl, rfl, rfl, rfl, rfl, houtside⟩

end Isolation

/-- A view refuses a request without touching its backend, or forwards it to its absolute range
inside the partition. So the backend sees the requests that fit, and nothing else; and on a chip
with any faults, the answers and the contents of the partition are those of a flash on its own. Its
size is that of the partition, up to the end of the address space. -/
theorem partition_separate {ε σ η : Type} (backend : Driver ε σ) (chip : Chip ε η)
    (start len : Fin (2 ^ 32)) (requests : List Request) (s : σ) (hidden : η) (f : Flash) :
    (∀ (request : Request) (view : PartitionNorFlash σ),
      (backend.partition.serve request view = (⟨.error .outOfBounds, request.buffer⟩, view)) ∨
      (request.shift view.start).Inside view.start (view.start + view.len) ∧
        (request.shift view.start).stop ≤ maxOffset ∧
        (backend.partition.serve request view).1 =
          (backend.serve (request.shift view.start) view.flash).1.wrap .backend ∧
        (backend.partition.serve request view).2.flash =
          (backend.serve (request.shift view.start) view.flash).2) ∧
    (backend.traced.partition.run requests (.new (s, []) start len)).2.flash.2 =
      (requests.filter (·.Inside 0 (addressable start len))).map (·.shift start) ∧
    ((chip.driver.partition.run requests (.new (hidden, f) start len)).1 =
        ((chip.standalone start (addressable start len)).run requests
          (hidden, f.window start)).1 ∧
      Separate start len f (chip.driver.partition.run requests (.new (hidden, f) start len)).2
        ((chip.standalone start (addressable start len)).run requests
          (hidden, f.window start)).2) := by
  have hstart : (start : ℕ) ≤ 2 ^ 32 - 1 := by omega
  refine ⟨fun request view => ?_, ?_, ?_⟩
  · rw [serve_partition]
    by_cases hfits : view.Fits request
    · rw [if_pos hfits]
      obtain ⟨hinside, hstop⟩ := hfits
      refine .inr ⟨hinside.shift view.start, ?_, rfl, view.flash_reached ..⟩
      rw [Request.stop_shift]
      exact hstop
    · rw [if_neg hfits]
      exact .inl rfl
  · exact (Recorded.run hstart requests ⟨rfl, rfl, rfl⟩).log_eq
  · exact (separate_simulates chip len hstart f).run requests ⟨rfl, rfl, rfl, rfl, fun _ _ => rfl⟩

/-- The last address of the address space, as a partition of one byte: a flash of one byte would
answer a read of it. -/
theorem partition_at_end_refuses :
    ¬∀ (chip : Chip Unit Unit) (start len : Fin (2 ^ 32)) (requests : List Request) (f : Flash),
      (chip.driver.partition.run requests (.new ((), f) start len)).1 =
        ((chip.standalone start len).run requests ((), f.window start)).1 := by
  intro h
  have hreplies := h ⟨fun _ _ _ => (.done, ())⟩ ⟨2 ^ 32 - 1, by norm_num⟩ ⟨1, by norm_num⟩
    [.read 0 [0]] Flash.erased
  simp only [Driver.run, serve_partition, Chip.standalone, Driver.serve_bounded] at hreplies
  rw [if_neg (by decide), if_pos (by decide)] at hreplies
  have hresult := congrArg (fun replies => replies.map Reply.result) hreplies
  cases hresult

end Nor
