import ReticulumFirmware.Nor.Flash

/-!
# Programs over a fallible NOR backend

A driver is a tree of reads, programs and erases whose continuations see the
backend's answer. One relation describes all of its executions: a backend may
report errors, a failed program or erase may leave any part of its bits behind,
and power may be lost between operations or inside one. Which of these can happen
is a parameter, so the same program is run with and without faults.
-/

namespace Nor

/-- The sizes a backend reports. -/
structure Geometry where
  /-- Addressable bytes. -/
  capacity : ℕ
  /-- Alignment of reads. -/
  readSize : ℕ
  /-- Alignment of programs. -/
  writeSize : ℕ
  /-- Alignment of erases. -/
  eraseSize : ℕ
  deriving DecidableEq

/-- The faults a backend may show. -/
structure Faults where
  /-- A read may fail. -/
  readError : Bool
  /-- A program may fail after programming any part of its bits. -/
  writeError : Bool
  /-- An erase may fail after setting any part of its bits. -/
  eraseError : Bool
  /-- Power may be lost between operations and inside a program. -/
  cut : Bool
  /-- Power may be lost inside an erase. -/
  cutErase : Bool
  deriving DecidableEq

namespace Faults

/-- A backend that never fails and never loses power. -/
def none : Faults := ⟨false, false, false, false, false⟩

/-- Whether a backend reports errors. -/
def Reporting (φ : Faults) : Prop :=
  φ.readError = true ∨ φ.writeError = true ∨ φ.eraseError = true

/-- Every power loss, without backend errors. -/
def cuts : Faults := ⟨false, false, false, true, true⟩

/-- Power loss between operations and inside programs; erases complete. -/
def programCuts : Faults := ⟨false, false, false, true, false⟩

/-- Every backend error, without power loss. -/
def errors : Faults := ⟨true, true, true, false, false⟩

/-- Every backend error and every power loss. -/
def all : Faults := ⟨true, true, true, true, true⟩

end Faults

/-- Which mutating operation was issued. -/
inductive MutationKind where
  /-- A program of some bytes. -/
  | program
  /-- An erase of a range. -/
  | erase
  deriving DecidableEq

/-- One program or erase as it happened: the addressed range and the contents
before and after it, complete or not. -/
structure Mutation where
  /-- The operation that was issued. -/
  kind : MutationKind
  /-- First addressed byte. -/
  start : ℕ
  /-- First byte after the addressed range. -/
  stop : ℕ
  /-- Contents before the operation. -/
  before : Flash
  /-- Contents the operation left. -/
  after : Flash

/-- The mutations of a trace follow each other from one contents to another. -/
def Mutation.Chain : Flash → List Mutation → Flash → Prop
  | f, [], g => g = f
  | f, m :: tr, g => m.before = f ∧ Chain m.after tr g

/-- A program that returns an `α` and sees backend errors of type `ε`. -/
inductive Prog (ε α : Type) where
  /-- Return a value. -/
  | pure (a : α)
  /-- Read a range and continue with the bytes or the backend error. -/
  | read (offset length : ℕ) (k : Except ε (List Byte) → Prog ε α)
  /-- Program bytes and continue with the backend's answer. -/
  | write (offset : ℕ) (bytes : List Byte) (k : Except ε Unit → Prog ε α)
  /-- Erase a range and continue with the backend's answer. -/
  | erase (start stop : ℕ) (k : Except ε Unit → Prog ε α)

namespace Prog

variable {ε α β : Type}

/-- Sequential composition. -/
def bind : Prog ε α → (α → Prog ε β) → Prog ε β
  | .pure a, next => next a
  | .read offset length k, next => .read offset length fun r => (k r).bind next
  | .write offset bytes k, next => .write offset bytes fun r => (k r).bind next
  | .erase start stop k, next => .erase start stop fun r => (k r).bind next

/-- Programs in sequence. -/
instance : Monad (Prog ε) where
  pure := .pure
  bind := bind

/-- What follows a value runs on it. -/
@[simp] theorem pure_bind (a : α) (next : α → Prog ε β) :
    (Prog.pure a >>= next) = next a := rfl

/-- What follows a read runs on its result. -/
@[simp] theorem read_bind (offset length : ℕ) (k : Except ε (List Byte) → Prog ε α)
    (next : α → Prog ε β) :
    (Prog.read offset length k >>= next) = .read offset length fun r => k r >>= next := rfl

/-- What follows a write runs on its result. -/
@[simp] theorem write_bind (offset : ℕ) (bytes : List Byte) (k : Except ε Unit → Prog ε α)
    (next : α → Prog ε β) :
    (Prog.write offset bytes k >>= next) = .write offset bytes fun r => k r >>= next := rfl

/-- What follows an erasure runs on its result. -/
@[simp] theorem erase_bind (start stop : ℕ) (k : Except ε Unit → Prog ε α)
    (next : α → Prog ε β) :
    (Prog.erase start stop k >>= next) = .erase start stop fun r => k r >>= next := rfl

/-- Composition is associative and returning is neutral for it. -/
instance : LawfulMonad (Prog ε) := LawfulMonad.mk' _
  (fun p => by
    induction p with
    | pure a => rfl
    | read offset length k ih => exact congrArg (Prog.read offset length) (funext ih)
    | write offset bytes k ih => exact congrArg (Prog.write offset bytes) (funext ih)
    | erase start stop k ih => exact congrArg (Prog.erase start stop) (funext ih))
  (fun _ _ => rfl)
  (fun p next last => by
    induction p with
    | pure a => rfl
    | read offset length k ih => exact congrArg (Prog.read offset length) (funext ih)
    | write offset bytes k ih => exact congrArg (Prog.write offset bytes) (funext ih)
    | erase start stop k ih => exact congrArg (Prog.erase start stop) (funext ih))

/-- Run a program on a backend that never fails. -/
def run : Prog ε α → Flash → α × Flash
  | .pure a, f => (a, f)
  | .read offset length k, f => (k (.ok (f.read offset length))).run f
  | .write offset bytes k, f => (k (.ok ())).run (f.program offset bytes)
  | .erase start stop k, f => (k (.ok ())).run (f.erase start stop)

/-- A composition runs its parts in order. -/
theorem run_bind (p : Prog ε α) (next : α → Prog ε β) (f : Flash) :
    (p >>= next).run f = (next (p.run f).1).run (p.run f).2 := by
  induction p generalizing f with
  | pure a => rfl
  | read offset length k ih => exact ih _ f
  | write offset bytes k ih => exact ih _ _
  | erase start stop k ih => exact ih _ _

/-- The executions of a program, with the mutations they made. The result is `none`
when power was lost. -/
inductive Exec (φ : Faults) : Prog ε α → Flash → List Mutation → Option α → Flash → Prop
  | done (a : α) (f : Flash) : Exec φ (.pure a) f [] (some a) f
  | cut (hcut : φ.cut = true) (p : Prog ε α) (f : Flash) : Exec φ p f [] none f
  | read {offset length k f tr r g} : Exec φ (k (.ok (f.read offset length))) f tr r g →
      Exec φ (.read offset length k) f tr r g
  | readError {offset length k f tr r g} (herror : φ.readError = true) (e : ε) :
      Exec φ (k (.error e)) f tr r g → Exec φ (.read offset length k) f tr r g
  | write {offset bytes k f tr r g} : Exec φ (k (.ok ())) (f.program offset bytes) tr r g →
      Exec φ (.write offset bytes k) f
        (⟨.program, offset, offset + bytes.length, f, f.program offset bytes⟩ :: tr) r g
  | writeError {offset bytes k f f' tr r g} (herror : φ.writeError = true) (e : ε)
      (htorn : f.Torn (f.program offset bytes) f') : Exec φ (k (.error e)) f' tr r g →
      Exec φ (.write offset bytes k) f (⟨.program, offset, offset + bytes.length, f, f'⟩ :: tr) r g
  | writeCut {offset bytes k f f'} (hcut : φ.cut = true)
      (htorn : f.Torn (f.program offset bytes) f') :
      Exec φ (.write offset bytes k) f [⟨.program, offset, offset + bytes.length, f, f'⟩] none f'
  | erase {start stop k f tr r g} : Exec φ (k (.ok ())) (f.erase start stop) tr r g →
      Exec φ (.erase start stop k) f (⟨.erase, start, stop, f, f.erase start stop⟩ :: tr) r g
  | eraseError {start stop k f f' tr r g} (herror : φ.eraseError = true) (e : ε)
      (htorn : f.Torn (f.erase start stop) f') : Exec φ (k (.error e)) f' tr r g →
      Exec φ (.erase start stop k) f (⟨.erase, start, stop, f, f'⟩ :: tr) r g
  | eraseCut {start stop k f f'} (hcut : φ.cutErase = true)
      (htorn : f.Torn (f.erase start stop) f') :
      Exec φ (.erase start stop k) f [⟨.erase, start, stop, f, f'⟩] none f'

/-- The run without faults is an execution under every policy. -/
theorem exec_run (φ : Faults) (p : Prog ε α) (f : Flash) :
    ∃ tr, Exec φ p f tr (some (p.run f).1) (p.run f).2 := by
  induction p generalizing f with
  | pure a => exact ⟨[], .done a f⟩
  | read offset length k ih =>
    obtain ⟨tr, h⟩ := ih (.ok (f.read offset length)) f
    exact ⟨tr, .read h⟩
  | write offset bytes k ih =>
    obtain ⟨tr, h⟩ := ih (.ok ()) (f.program offset bytes)
    exact ⟨_, .write h⟩
  | erase start stop k ih =>
    obtain ⟨tr, h⟩ := ih (.ok ()) (f.erase start stop)
    exact ⟨_, .erase h⟩

/-- Without faults, the run is the only execution. -/
theorem Exec.eq_run {p : Prog ε α} {f g : Flash} {tr : List Mutation} {r : Option α}
    (h : Exec Faults.none p f tr r g) : r = some (p.run f).1 ∧ g = (p.run f).2 := by
  generalize hφ : Faults.none = φ at h
  induction h with
  | done a f => exact ⟨rfl, rfl⟩
  | read _ ih => exact ih
  | write _ ih => exact ih
  | erase _ ih => exact ih
  | cut h | readError h | writeError h | writeCut h | eraseError h | eraseCut h =>
    subst hφ
    cases h

/-- A program may lose power where it could have returned. -/
theorem Exec.crash {φ : Faults} {p : Prog ε α} {f g : Flash} {tr : List Mutation} {a : α}
    (hx : Exec φ p f tr (some a) g) (hcut : φ.cut = true) : Exec φ p f tr none g := by
  generalize hr : some a = r at hx
  induction hx with
  | done => exact .cut hcut _ _
  | read _ ih => exact .read (ih hr)
  | readError he e _ ih => exact .readError he e (ih hr)
  | write _ ih => exact .write (ih hr)
  | writeError he e ht _ ih => exact .writeError he e ht (ih hr)
  | erase _ ih => exact .erase (ih hr)
  | eraseError he e ht _ ih => exact .eraseError he e ht (ih hr)
  | cut | writeCut | eraseCut => cases hr

/-- An execution is also one of a backend with every fault. -/
theorem Exec.all {φ : Faults} {p : Prog ε α} {f g : Flash} {tr : List Mutation} {r : Option α}
    (hx : Exec φ p f tr r g) : Exec Faults.all p f tr r g := by
  induction hx with
  | done => exact .done _ _
  | cut => exact .cut rfl _ _
  | read _ ih => exact .read ih
  | readError _ e _ ih => exact .readError rfl e ih
  | write _ ih => exact .write ih
  | writeError _ e ht _ ih => exact .writeError rfl e ht ih
  | writeCut _ ht => exact .writeCut rfl ht
  | erase _ ih => exact .erase ih
  | eraseError _ e ht _ ih => exact .eraseError rfl e ht ih
  | eraseCut _ ht => exact .eraseCut rfl ht

/-- The trace of an execution leads from its first to its last contents. -/
theorem Exec.chain {φ : Faults} {p : Prog ε α} {f g : Flash} {tr : List Mutation} {r : Option α}
    (hx : Exec φ p f tr r g) : Mutation.Chain f tr g := by
  induction hx with
  | done | cut => rfl
  | read _ ih | readError _ _ _ ih => exact ih
  | write _ ih | writeError _ _ _ _ ih => exact ⟨rfl, ih⟩
  | erase _ ih | eraseError _ _ _ _ ih => exact ⟨rfl, ih⟩
  | writeCut | eraseCut => exact ⟨rfl, rfl⟩

/-- A composition whose first part returns continues with the second. -/
theorem Exec.bind {φ : Faults} {p : Prog ε α} {next : α → Prog ε β} {f f' g : Flash}
    {tr₁ tr₂ : List Mutation} {a : α} {r : Option β} (hx : Exec φ p f tr₁ (some a) f')
    (hnext : Exec φ (next a) f' tr₂ r g) : Exec φ (p >>= next) f (tr₁ ++ tr₂) r g := by
  generalize hr : some a = ra at hx
  induction hx with
  | done => cases hr; exact hnext
  | read _ ih => exact .read (ih hnext hr)
  | readError he e _ ih => exact .readError he e (ih hnext hr)
  | write _ ih => exact .write (ih hnext hr)
  | writeError he e ht _ ih => exact .writeError he e ht (ih hnext hr)
  | erase _ ih => exact .erase (ih hnext hr)
  | eraseError he e ht _ ih => exact .eraseError he e ht (ih hnext hr)
  | cut | writeCut | eraseCut => cases hr

/-- A composition loses power where its first part does. -/
theorem Exec.bind_none {φ : Faults} {p : Prog ε α} {next : α → Prog ε β} {f g : Flash}
    {tr : List Mutation} (hx : Exec φ p f tr none g) : Exec φ (p >>= next) f tr none g := by
  generalize hr : (none : Option α) = r at hx
  induction hx with
  | done => cases hr
  | cut hcut => exact .cut hcut _ _
  | read _ ih => exact .read (ih hr)
  | readError he e _ ih => exact .readError he e (ih hr)
  | write _ ih => exact .write (ih hr)
  | writeError he e ht _ ih => exact .writeError he e ht (ih hr)
  | writeCut hcut ht => exact .writeCut hcut ht
  | erase _ ih => exact .erase (ih hr)
  | eraseError he e ht _ ih => exact .eraseError he e ht (ih hr)
  | eraseCut hcut ht => exact .eraseCut hcut ht

/-- An execution of a composition stops in the first part or continues into the second. -/
theorem Exec.bind_cases {φ : Faults} {p : Prog ε α} {next : α → Prog ε β} {f g : Flash}
    {tr : List Mutation} {r : Option β} (h : Exec φ (p >>= next) f tr r g) :
    (r = none ∧ Exec φ p f tr none g) ∨
      ∃ a f' tr₁ tr₂, tr = tr₁ ++ tr₂ ∧ Exec φ p f tr₁ (some a) f' ∧
        Exec φ (next a) f' tr₂ r g := by
  induction p generalizing f tr with
  | pure a => exact Or.inr ⟨a, f, [], tr, rfl, .done a f, h⟩
  | read offset length k ih =>
    cases h with
    | cut hcut => exact Or.inl ⟨rfl, .cut hcut _ _⟩
    | read h =>
      rcases ih _ h with ⟨hr, hx⟩ | ⟨a, f', tr₁, tr₂, rfl, hx, hy⟩
      · exact Or.inl ⟨hr, .read hx⟩
      · exact Or.inr ⟨a, f', _, _, rfl, .read hx, hy⟩
    | readError herror e h =>
      rcases ih _ h with ⟨hr, hx⟩ | ⟨a, f', tr₁, tr₂, rfl, hx, hy⟩
      · exact Or.inl ⟨hr, .readError herror e hx⟩
      · exact Or.inr ⟨a, f', _, _, rfl, .readError herror e hx, hy⟩
  | write offset bytes k ih =>
    cases h with
    | cut hcut => exact Or.inl ⟨rfl, .cut hcut _ _⟩
    | write h =>
      rcases ih _ h with ⟨hr, hx⟩ | ⟨a, f', tr₁, tr₂, rfl, hx, hy⟩
      · exact Or.inl ⟨hr, .write hx⟩
      · exact Or.inr ⟨a, f', _, _, rfl, .write hx, hy⟩
    | writeError herror e htorn h =>
      rcases ih _ h with ⟨hr, hx⟩ | ⟨a, f', tr₁, tr₂, rfl, hx, hy⟩
      · exact Or.inl ⟨hr, .writeError herror e htorn hx⟩
      · exact Or.inr ⟨a, f', _, _, rfl, .writeError herror e htorn hx, hy⟩
    | writeCut hcut htorn => exact Or.inl ⟨rfl, .writeCut hcut htorn⟩
  | erase start stop k ih =>
    cases h with
    | cut hcut => exact Or.inl ⟨rfl, .cut hcut _ _⟩
    | erase h =>
      rcases ih _ h with ⟨hr, hx⟩ | ⟨a, f', tr₁, tr₂, rfl, hx, hy⟩
      · exact Or.inl ⟨hr, .erase hx⟩
      · exact Or.inr ⟨a, f', _, _, rfl, .erase hx, hy⟩
    | eraseError herror e htorn h =>
      rcases ih _ h with ⟨hr, hx⟩ | ⟨a, f', tr₁, tr₂, rfl, hx, hy⟩
      · exact Or.inl ⟨hr, .eraseError herror e htorn hx⟩
      · exact Or.inr ⟨a, f', _, _, rfl, .eraseError herror e htorn hx, hy⟩
    | eraseCut hcut htorn => exact Or.inl ⟨rfl, .eraseCut hcut htorn⟩

end Prog

end Nor
