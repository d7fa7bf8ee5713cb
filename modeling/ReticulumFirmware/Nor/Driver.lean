import ReticulumFirmware.Nor.Flash

/-!
# Drivers

The operations of a raw NOR flash, whatever serves them. A read fills a buffer of its caller, and
any request may fail. Drivers that answer alike from related states, and keep their states related,
answer every sequence of requests alike. A chip is the driver of one flash: apart from its faults,
what it does is decided by its contents.
-/

namespace Nor

/-- What a client asks for. A read brings the buffer that it fills. -/
inductive Request where
  | read (offset : ℕ) (buffer : List Byte)
  | write (offset : ℕ) (bytes : List Byte)
  | erase (start stop : ℕ)
  deriving DecidableEq

namespace Request

/-- First addressed byte. -/
def start : Request → ℕ
  | .read offset _ | .write offset _ => offset
  | .erase start _ => start

/-- First byte after the addressed range. -/
def stop : Request → ℕ
  | .read offset buffer => offset + buffer.length
  | .write offset bytes => offset + bytes.length
  | .erase _ stop => stop

/-- The same request at higher addresses. -/
def shift (distance : ℕ) : Request → Request
  | .read offset buffer => .read (distance + offset) buffer
  | .write offset bytes => .write (distance + offset) bytes
  | .erase start stop => .erase (distance + start) (distance + stop)

/-- The request addresses a range of `[low, high)`. -/
def Inside (request : Request) (low high : ℕ) : Prop :=
  low ≤ request.start ∧ request.start ≤ request.stop ∧ request.stop ≤ high

/-- The ends are compared. -/
instance (request : Request) (low high : ℕ) : Decidable (request.Inside low high) :=
  inferInstanceAs (Decidable (_ ∧ _))

/-- The buffer of the client before the request is served. -/
def buffer : Request → List Byte
  | .read _ buffer => buffer
  | _ => []

variable (distance : ℕ) (request : Request)

/-- A shifted request starts later by the distance. -/
@[simp] theorem start_shift : (request.shift distance).start = distance + request.start := by
  cases request <;> rfl

/-- A shifted request stops later by the distance. -/
@[simp] theorem stop_shift : (request.shift distance).stop = distance + request.stop := by
  cases request <;> simp [shift, stop, Nat.add_assoc]

/-- A shifted request has the same buffer. -/
@[simp] theorem buffer_shift : (request.shift distance).buffer = request.buffer := by
  cases request <;> rfl

/-- A shifted request lies inside the shifted range. -/
theorem Inside.shift {request : Request} {low high : ℕ} (h : request.Inside low high) :
    (request.shift distance).Inside (distance + low) (distance + high) := by
  unfold Inside at h ⊢
  rw [start_shift, stop_shift]
  omega

end Request

/-- The answer to a request, and what a read leaves in its buffer. -/
structure Reply (ε : Type) where
  result : Except ε Unit
  buffer : List Byte

/-- The answer under another type of errors. -/
def Reply.wrap {ε err : Type} (wrap : ε → err) (reply : Reply ε) : Reply err :=
  ⟨reply.result.mapError wrap, reply.buffer⟩

/-- The operations of a raw NOR flash with states `σ`. -/
structure Driver (ε σ : Type) where
  read : ℕ → List Byte → σ → (Except ε Unit × List Byte) × σ
  write : ℕ → List Byte → σ → Except ε Unit × σ
  erase : ℕ → ℕ → σ → Except ε Unit × σ

namespace Driver

variable {ε σ τ : Type} (driver : Driver ε σ)

/-- One request. -/
def serve : Request → σ → Reply ε × σ
  | .read offset buffer, s =>
    let answer := driver.read offset buffer s
    (⟨answer.1.1, answer.1.2⟩, answer.2)
  | .write offset bytes, s =>
    let answer := driver.write offset bytes s
    (⟨answer.1, []⟩, answer.2)
  | .erase start stop, s =>
    let answer := driver.erase start stop s
    (⟨answer.1, []⟩, answer.2)

/-- A sequence of requests. -/
def run : List Request → σ → List (Reply ε) × σ
  | [], s => ([], s)
  | request :: requests, s =>
    let served := driver.serve request s
    let rest := run requests served.2
    (served.1 :: rest.1, rest.2)

/-- The driver, with a record of the requests that reached it. -/
def traced : Driver ε (σ × List Request) where
  read offset buffer s :=
    let answer := driver.read offset buffer s.1
    (answer.1, (answer.2, s.2 ++ [.read offset buffer]))
  write offset bytes s :=
    let answer := driver.write offset bytes s.1
    (answer.1, (answer.2, s.2 ++ [.write offset bytes]))
  erase start stop s :=
    let answer := driver.erase start stop s.1
    (answer.1, (answer.2, s.2 ++ [.erase start stop]))

/-- A traced driver serves as the driver does and records the request. -/
theorem serve_traced (request : Request) (s : σ × List Request) :
    driver.traced.serve request s =
      ((driver.serve request s.1).1, ((driver.serve request s.1).2, s.2 ++ [request])) := by
  cases request <;> rfl

/-- The driver of the first `size` addresses, which refuses every other request by itself. -/
def bounded {err : Type} (size : ℕ) (wrap : ε → err) (refusal : err) : Driver err σ where
  read offset buffer s :=
    if (Request.read offset buffer).Inside 0 size then
      let answer := driver.read offset buffer s
      ((answer.1.1.mapError wrap, answer.1.2), answer.2)
    else ((.error refusal, buffer), s)
  write offset bytes s :=
    if (Request.write offset bytes).Inside 0 size then
      let answer := driver.write offset bytes s
      (answer.1.mapError wrap, answer.2)
    else (.error refusal, s)
  erase start stop s :=
    if (Request.erase start stop).Inside 0 size then
      let answer := driver.erase start stop s
      (answer.1.mapError wrap, answer.2)
    else (.error refusal, s)

/-- A bounded driver serves what lies inside and refuses the rest. -/
theorem serve_bounded {err : Type} (size : ℕ) (wrap : ε → err) (refusal : err) (request : Request)
    (s : σ) :
    (driver.bounded size wrap refusal).serve request s =
      if request.Inside 0 size then
        ((driver.serve request s).1.wrap wrap, (driver.serve request s).2)
      else (⟨.error refusal, request.buffer⟩, s) := by
  cases request <;> simp only [serve, bounded] <;> split_ifs <;> rfl

/-- Related states stay related, and the answers are the same. -/
def Simulates (relation : σ → τ → Prop) (driver : Driver ε σ) (other : Driver ε τ) : Prop :=
  ∀ request s t, relation s t →
    (driver.serve request s).1 = (other.serve request t).1 ∧
      relation (driver.serve request s).2 (other.serve request t).2

/-- A driver that simulates another gives the same answers in every run. -/
theorem Simulates.run {relation : σ → τ → Prop} {driver : Driver ε σ} {other : Driver ε τ}
    (h : Simulates relation driver other) (requests : List Request) {s : σ} {t : τ}
    (hst : relation s t) :
    (driver.run requests s).1 = (other.run requests t).1 ∧
      relation (driver.run requests s).2 (other.run requests t).2 := by
  induction requests generalizing s t with
  | nil => exact ⟨rfl, hst⟩
  | cons request requests ih =>
    obtain ⟨hreply, hnext⟩ := h request s t hst
    obtain ⟨hreplies, hend⟩ := ih hnext
    exact ⟨congrArg₂ List.cons hreply hreplies, hend⟩

end Driver

section Chips

variable {ε η : Type}

/-- How a request ends. A read that fails leaves some bytes in its buffer. A program or an erase
that fails leaves the bits of the mask as they were, and changes the others. -/
inductive Outcome (ε : Type) where
  | done
  | failed (error : ε) (mask : List Byte)

/-- The faults of a chip. They may depend on the request, on the bytes that it addresses, and on
everything that happened before. -/
structure Chip (ε η : Type) where
  outcome : Request → List Byte → η → Outcome ε × η

/-- What an operation that fails leaves between `f` and its target. -/
def Flash.mixed (f target : Flash) (start : ℕ) (mask : List Byte) : Flash := fun a =>
  (f a &&& mask.getD (a - start) 0) ||| (target a &&& ~~~mask.getD (a - start) 0)

namespace Chip

variable (chip : Chip ε η)

/-- The driver of a chip. -/
def driver : Driver ε (η × Flash) where
  read offset buffer s :=
    let contents := s.2.read offset buffer.length
    match chip.outcome (.read offset buffer) contents s.1 with
    | (.done, next) => ((.ok (), contents), (next, s.2))
    | (.failed error mask, next) => ((.error error, mask), (next, s.2))
  write offset bytes s :=
    let target := s.2.program offset bytes
    match chip.outcome (.write offset bytes) (s.2.read offset bytes.length) s.1 with
    | (.done, next) => (.ok (), (next, target))
    | (.failed error mask, next) => (.error error, (next, s.2.mixed target offset mask))
  erase start stop s :=
    let target := s.2.erase start stop
    match chip.outcome (.erase start stop) (s.2.read start (stop - start)) s.1 with
    | (.done, next) => (.ok (), (next, target))
    | (.failed error mask, next) => (.error error, (next, s.2.mixed target start mask))

/-- The chip whose faults are those of `chip` at higher addresses. -/
def moved (distance : ℕ) : Chip ε η where
  outcome request := chip.outcome (request.shift distance)

end Chip

namespace Flash

/-- The contents from an address on. -/
def window (f : Flash) (start : ℕ) : Flash := fun a => f (start + a)

variable (f target : Flash) (start offset : ℕ)

/-- To program inside a window is to program the window. -/
theorem window_program (bytes : List Byte) :
    (f.program (start + offset) bytes).window start = (f.window start).program offset bytes := by
  funext a
  simp only [window, program]
  rw [show start + a - (start + offset) = a - offset by omega]
  exact if_congr (by omega) rfl rfl

/-- To erase inside a window is to erase the window. -/
theorem window_erase (stop : ℕ) :
    (f.erase (start + offset) (start + stop)).window start =
      (f.window start).erase offset stop := by
  funext a
  simp only [window, erase]
  exact if_congr (by omega) rfl rfl

/-- To mix inside a window is to mix the windows. -/
theorem window_mixed (mask : List Byte) :
    (f.mixed target (start + offset) mask).window start =
      (f.window start).mixed (target.window start) offset mask := by
  funext a
  simp only [window, mixed]
  rw [show start + a - (start + offset) = a - offset by omega]

/-- A window is read at its place. -/
theorem read_window (length : ℕ) :
    (f.window start).read offset length = f.read (start + offset) length := by
  simp [read, window, Nat.add_assoc]

/-- An operation that fails changes no byte that it would not have changed. -/
theorem mixed_of_eq {f target : Flash} {start : ℕ} {mask : List Byte} {a : ℕ}
    (h : target a = f a) : f.mixed target start mask a = f a := by
  rw [mixed, h]
  apply BitVec.eq_of_getLsbD_eq
  intro i hi
  simp only [BitVec.getLsbD_or, BitVec.getLsbD_and, BitVec.getLsbD_not, hi, decide_true,
    Bool.true_and]
  cases (f a).getLsbD i <;> simp

end Flash

namespace Chip

variable (chip : Chip ε η)

/-- A request changes no byte outside its range. -/
theorem serve_frame (request : Request) (s : η × Flash) {a : ℕ}
    (h : a < request.start ∨ request.stop ≤ a) :
    (chip.driver.serve request s).2.2 a = s.2 a := by
  cases request with
  | read offset buffer =>
    simp only [Driver.serve, driver]
    split <;> rfl
  | write offset bytes =>
    have htarget : s.2.program offset bytes a = s.2 a := Flash.program_of_not_mem h
    simp only [Driver.serve, driver]
    split
    · exact htarget
    · exact Flash.mixed_of_eq htarget
  | erase start stop =>
    have htarget : s.2.erase start stop a = s.2 a := Flash.erase_of_not_mem h
    simp only [Driver.serve, driver]
    split
    · exact htarget
    · exact Flash.mixed_of_eq htarget

/-- At higher addresses, a chip does to its contents what the moved chip does to its window. -/
theorem serve_shift (distance : ℕ) (request : Request) (s : η × Flash) :
    (chip.moved distance).driver.serve request (s.1, s.2.window distance) =
      ((chip.driver.serve (request.shift distance) s).1,
        (chip.driver.serve (request.shift distance) s).2.1,
        (chip.driver.serve (request.shift distance) s).2.2.window distance) := by
  cases request with
  | read offset buffer =>
    simp only [Driver.serve, driver, moved, Request.shift, Flash.read_window]
    split <;> simp_all
  | write offset bytes =>
    simp only [Driver.serve, driver, moved, Request.shift, Flash.read_window]
    split <;> simp_all [Flash.window_program, Flash.window_mixed]
  | erase start stop =>
    simp only [Driver.serve, driver, moved, Request.shift, Flash.read_window,
      Nat.add_sub_add_left]
    split <;> simp_all [Flash.window_erase, Flash.window_mixed]

end Chip

end Chips

end Nor
