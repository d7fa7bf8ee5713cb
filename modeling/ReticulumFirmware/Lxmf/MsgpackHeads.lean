import ReticulumFirmware.Lxmf.Msgpack

/-!
# Markers and heads

The table of markers reads every head of the grammar, and nothing else. The condition under which
the scanner calls a form canonical is that the form is the shortest one.
-/

namespace Lxmf

open Nor MessagePack

variable {widen : BitVec 32 → BitVec 64}

/-- The kind of a value with this head. -/
def kindOf : Head → MessagePackKind
  | .nil => .nil
  | .bool _ => .boolean
  | .int _ => .integer
  | .float32 _ => .float32
  | .float64 _ => .float64
  | .str _ => .string
  | .bin _ => .binary
  | .ext _ => .extension
  | .array _ => .array
  | .map _ => .map

/-- A head that nothing follows. -/
def IsWhole : Head → Prop
  | .nil | .bool _ | .int _ | .float32 _ | .float64 _ => True
  | _ => False

/-- The bytes after the marker that hold an argument. -/
inductive Argument.Holds : Argument → List Byte → ℕ → Prop where
  | marker (n : ℕ) : Holds (.marker n) [] n
  | bytes (rest : List Byte) : Holds (.bytes rest.length) rest (beNat rest)

/-- A form of marker, followed by these bytes, is a head. The last argument says whether the
scanner calls it canonical. -/
inductive MarkerForm.Reads : MarkerForm → List Byte → Head → Bool → Prop where
  | scalar {rest : List Byte} {head : Head} {canonical : Bool} (h : IsWhole head) :
      Reads (.scalar (rest.length + 1) (kindOf head) canonical) rest head canonical
  | integer {canonical : ℕ → Bool} (rest : List Byte) (value : ℤ) :
      Reads (.integer rest.length canonical) rest (.int value) (canonical (beNat rest))
  | string {argument : Argument} {canonical : ℕ → Bool} {rest : List Byte} {n : ℕ}
      (h : argument.Holds rest n) :
      Reads (.string argument canonical) rest (.str n) (canonical n)
  | blob {argument : Argument} {canonical : ℕ → Bool} {rest : List Byte} {n : ℕ}
      (h : argument.Holds rest n) :
      Reads (.blob argument canonical) rest (.bin n) (canonical n)
  | extension {argument : Argument} {canonical : ℕ → Bool} {rest : List Byte} {n : ℕ}
      (h : argument.Holds rest n) :
      Reads (.extension argument canonical) rest (.ext n) (canonical n)
  | array {argument : Argument} {canonical : ℕ → Bool} {rest : List Byte} {n : ℕ}
      (h : argument.Holds rest n) :
      Reads (.array argument canonical) rest (.array n) (canonical n)
  | map {argument : Argument} {canonical : ℕ → Bool} {rest : List Byte} {n : ℕ}
      (h : argument.Holds rest n) :
      Reads (.map argument canonical) rest (.map n) (canonical n)

section Widths

/-- Two tagged numbers of one family agree exactly in their widths. -/
theorem tagged_eq_iff {marker k k' n : ℕ} (hk : marker + k < 256) (hk' : marker + k' < 256) :
    tagged marker k n = tagged marker k' n ↔ k = k' := by
  constructor
  · intro h
    have hhead := congrArg BitVec.toNat (List.cons.inj h).1
    rw [BitVec.toNat_ofNat, BitVec.toNat_ofNat, Nat.mod_eq_of_lt hk, Nat.mod_eq_of_lt hk'] at hhead
    omega
  · rintro rfl
    rfl

/-- A tagged number has a marker and its bytes. -/
theorem length_tagged (marker k n : ℕ) : (tagged marker k n).length = 2 ^ k + 1 := by
  rw [tagged, List.length_cons, length_beBytes]

/-- A form with an argument is longer than a bare marker. -/
theorem tagged_ne_singleton (marker k n : ℕ) (byte : Byte) : tagged marker k n ≠ [byte] := by
  intro h
  have hlength := congrArg List.length h
  have hpos : 0 < 2 ^ k := Nat.two_pow_pos k
  rw [length_tagged, List.length_singleton] at hlength
  omega

/-- A bare marker is the shortest form below the bound, and a form with an argument from the
bound on. -/
theorem tagged_eq_ite_iff {marker k k' n : ℕ} {p : Prop} [Decidable p] {byte : Byte}
    (hk : marker + k < 256) (hk' : marker + k' < 256) :
    tagged marker k n = (if p then [byte] else tagged marker k' n) ↔ ¬ p ∧ k = k' := by
  by_cases hp : p
  · rw [if_pos hp]
    simp only [hp, not_true_eq_false, false_and, iff_false]
    exact tagged_ne_singleton marker k n byte
  · rw [if_neg hp, tagged_eq_iff hk hk']
    simp only [hp, not_false_eq_true, true_and]

/-- A tagged number is the shortest form exactly where no narrower one holds it. -/
theorem tagged_eq_shortestInt {k n : ℕ} (hk : k ≤ 3) :
    tagged 0xcc k n = shortestInt n ↔ 128 ≤ n ∧ k = exponent n := by
  have hexponent := exponent_le n
  rw [shortestInt, if_pos (Int.natCast_nonneg n), Int.toNat_natCast,
    tagged_eq_ite_iff (by omega) (by omega)]
  refine and_congr_left fun _ => ?_
  omega

/-- A negative number is the only one that a signed form can be the shortest of. -/
theorem tagged_eq_shortestInt_signed {k n : ℕ} (hk : k ≤ 3) (hn : n < range k) :
    tagged 0xd0 k n = shortestInt (Int.bmod n (range k)) ↔
      Int.bmod n (range k) < -32 ∧ k = signedExponent (Int.bmod n (range k)) := by
  have hexponent := signedExponent_le (Int.bmod n (range k))
  have hupper : Int.bmod n (range k) < 0 → (n : ℤ) = Int.bmod n (range k) + range k := by
    intro hneg
    rw [Int.bmod_def, Int.emod_eq_of_lt (Int.natCast_nonneg n) (by exact_mod_cast hn)] at hneg ⊢
    split_ifs at hneg ⊢ <;> omega
  rw [shortestInt]
  by_cases hsmall : -32 ≤ Int.bmod n (range k) ∧ Int.bmod n (range k) < 128
  · rw [if_pos hsmall]
    simp only [tagged_ne_singleton, false_iff]
    omega
  · rw [if_neg hsmall]
    by_cases hneg : 0 ≤ Int.bmod n (range k)
    · rw [if_pos hneg]
      constructor
      · intro h
        have hhead := congrArg BitVec.toNat (List.cons.inj h).1
        have hunsigned := exponent_le (Int.bmod n (range k)).toNat
        rw [BitVec.toNat_ofNat, BitVec.toNat_ofNat] at hhead
        omega
      · intro h
        omega
    · rw [if_neg hneg]
      constructor
      · intro h
        have hhead := congrArg BitVec.toNat (List.cons.inj h).1
        rw [BitVec.toNat_ofNat, BitVec.toNat_ofNat] at hhead
        constructor <;> omega
      · rintro ⟨-, hk'⟩
        rw [← hk', ← hupper (by omega), Int.toNat_natCast]

end Widths

/-- The bytes behind a marker hold their number. -/
theorem holds_tagged {k n : ℕ} (hn : n < range k) :
    (Argument.bytes (2 ^ k)).Holds (beBytes (2 ^ k) n) n := by
  have h := Argument.Holds.bytes (beBytes (2 ^ k) n)
  rwa [length_beBytes, beNat_beBytes_of_lt hn] at h

/-- A marker of a number reads it from the bytes behind it. -/
theorem reads_integer {k n : ℕ} (hn : n < range k) (canonical : ℕ → Bool) (value : ℤ) :
    (MarkerForm.integer (2 ^ k) canonical).Reads (beBytes (2 ^ k) n) (.int value)
      (canonical n) := by
  have h := @MarkerForm.Reads.integer canonical (beBytes (2 ^ k) n) value
  rwa [length_beBytes, beNat_beBytes_of_lt hn] at h

/-- The bytes start with a marker whose form reads the head, and the form counts as canonical
exactly if the bytes are the shortest ones. -/
def Described (widen : BitVec 32 → BitVec 64) (head : Head) (raw : List Byte) : Prop :=
  ∃ marker rest, raw = marker :: rest ∧
    (markerForm marker).Reads rest head (decide (raw = head.shortest widen))

/-- A head is described by the form of its marker, where that reads it. -/
theorem described_of_reads {head : Head} {marker : Byte} {rest : List Byte} {form : MarkerForm}
    {canonical : Bool} (hform : markerForm marker = form) (h : form.Reads rest head canonical)
    (hcanonical : marker :: rest = head.shortest widen ↔ canonical = true) :
    Described widen head (marker :: rest) := by
  refine ⟨marker, rest, rfl, ?_⟩
  rw [hform, show decide (marker :: rest = head.shortest widen) = canonical by
    rw [Bool.eq_iff_iff, decide_eq_true_iff, hcanonical]]
  exact h

/-- The smallest argument that holds a number is the one whose predecessor does not hold it. -/
theorem eq_exponent_iff {k n : ℕ} (hk : k ≤ 3) (hn : n < range k) :
    k = exponent n ↔ k = 0 ∨ range (k - 1) ≤ n := by
  unfold exponent
  split_ifs with h0 h1 h2 <;> interval_cases k <;> norm_num at * <;> omega

/-- A width is that of a negative number exactly where the next narrower one is too small. -/
theorem eq_signedExponent_iff {k : ℕ} {value : ℤ} (hk : k ≤ 3) (hlow : -(range k : ℤ) ≤ 2 * value)
    (hneg : value < 0) : k = signedExponent value ↔ k = 0 ∨ 2 * value < -(range (k - 1) : ℤ) := by
  unfold signedExponent
  split_ifs with h0 h1 h2 <;> interval_cases k <;> norm_num at * <;> omega

/-- The unsigned forms of a number are described. -/
theorem described_uint {k n : ℕ} (hk : k ≤ 3) (hn : n < range k) :
    Described widen (.int n) (tagged 0xcc k n) := by
  have hshortest : tagged 0xcc k n = shortestInt n ↔ 128 ≤ n ∧ (k = 0 ∨ range (k - 1) ≤ n) := by
    rw [tagged_eq_shortestInt hk, eq_exponent_iff hk hn]
  interval_cases k
  · refine described_of_reads
      (rfl : markerForm _ = .integer 1 fun value => 128 ≤ value)
      (reads_integer hn _ n) (hshortest.trans ?_)
    simp
  · refine described_of_reads
      (rfl : markerForm _ = .integer 2 fun value => 256 ≤ value)
      (reads_integer hn _ n) (hshortest.trans ?_)
    norm_num
    omega
  · refine described_of_reads
      (rfl : markerForm _ = .integer 4 fun value => 65536 ≤ value)
      (reads_integer hn _ n) (hshortest.trans ?_)
    norm_num
    omega
  · refine described_of_reads
      (rfl : markerForm _ = .integer 8 fun value => 4294967296 ≤ value)
      (reads_integer hn _ n) (hshortest.trans ?_)
    norm_num
    omega

/-- The signed forms of a number are described. -/
theorem described_sint {k n : ℕ} (hk : k ≤ 3) (hn : n < range k) :
    Described widen (.int (Int.bmod n (range k))) (tagged 0xd0 k n) := by
  have hlow : -(range k : ℤ) ≤ 2 * Int.bmod n (range k) := by
    rw [Int.bmod_def, Int.emod_eq_of_lt (Int.natCast_nonneg n) (by exact_mod_cast hn)]
    split_ifs <;> omega
  have hshortest : tagged 0xd0 k n = shortestInt (Int.bmod n (range k)) ↔
      Int.bmod n (range k) < -32 ∧
        (k = 0 ∨ 2 * Int.bmod n (range k) < -(range (k - 1) : ℤ)) := by
    rw [tagged_eq_shortestInt_signed hk hn]
    refine and_congr_right fun hneg => ?_
    rw [eq_signedExponent_iff hk hlow (by omega)]
  interval_cases k
  · refine described_of_reads
      (rfl : markerForm _ = .integer 1 fun value => asSigned 1 value < -32)
      (reads_integer hn _ _) (hshortest.trans ?_)
    norm_num [asSigned]
  · refine described_of_reads
      (rfl : markerForm _ = .integer 2 fun value => asSigned 2 value < -128)
      (reads_integer hn _ _) (hshortest.trans ?_)
    norm_num [asSigned]
    omega
  · refine described_of_reads
      (rfl : markerForm _ = .integer 4 fun value => asSigned 4 value < -32768)
      (reads_integer hn _ _) (hshortest.trans ?_)
    norm_num [asSigned]
    omega
  · refine described_of_reads
      (rfl : markerForm _ = .integer 8 fun value => asSigned 8 value < -2147483648)
      (reads_integer hn _ _) (hshortest.trans ?_)
    norm_num [asSigned]
    omega

/-- A marker of a scalar describes the head that is the whole value. -/
theorem described_scalar {head : Head} {marker : Byte} {rest : List Byte} {length : ℕ}
    {kind : MessagePackKind} {canonical : Bool}
    (hform : markerForm marker = .scalar length kind canonical) (hwhole : IsWhole head)
    (hkind : kind = kindOf head) (hlength : length = rest.length + 1)
    (hcanonical : marker :: rest = head.shortest widen ↔ canonical = true) :
    Described widen head (marker :: rest) := by
  subst hkind hlength
  exact described_of_reads hform (.scalar hwhole) hcanonical

/-- A number of one byte is described. -/
theorem described_fixint {word : Byte} (h : -32 ≤ word.toInt) :
    Described widen (.int word.toInt) [word] := by
  have hupper := word.toInt_lt
  have hmarker : word.toNat ≤ 0x7f ∨ 0xe0 ≤ word.toNat := by
    rw [BitVec.toInt_eq_toNat_cond] at h
    split_ifs at h <;> omega
  have hshortest : [word] = shortestInt word.toInt := by
    rw [shortestInt, if_pos ⟨h, by omega⟩, BitVec.ofInt_toInt]
  exact described_scalar (if_pos hmarker) trivial rfl rfl (iff_of_true hshortest rfl)

/-- A number of four bytes is described. -/
theorem described_float32 (bits : BitVec 32) :
    Described widen (.float32 bits) (0xca :: beBytes 4 bits.toNat) := by
  refine described_scalar (rfl : markerForm 0xca = .scalar 5 .float32 false) trivial rfl ?_
    (iff_of_false ?_ Bool.false_ne_true)
  · rw [length_beBytes]
  · intro h
    exact absurd (List.cons.inj h).1 (by decide)

/-- A number of eight bytes is described. -/
theorem described_float64 (bits : BitVec 64) :
    Described widen (.float64 bits) (0xcb :: beBytes 8 bits.toNat) := by
  refine described_scalar (rfl : markerForm 0xcb = .scalar 9 .float64 true) trivial rfl ?_
    (iff_of_true rfl rfl)
  rw [length_beBytes]

/-- A length below the bound is in the marker, so that the bare marker is its shortest form. -/
theorem singleton_eq_ite {marker k n : ℕ} {p : Prop} [Decidable p] {byte : Byte} (hp : p) :
    [byte] = (if p then [byte] else tagged marker k n) ↔ true = true := by
  rw [if_pos hp]
  exact iff_of_true rfl rfl

/-- A short string is described. -/
theorem described_fixstr {n : ℕ} (hn : n < 32) :
    Described widen (.str n) [BitVec.ofNat 8 (0xa0 + n)] := by
  have hform : markerForm (BitVec.ofNat 8 (0xa0 + n)) = .string (.marker n) fun _ => true := by
    interval_cases n <;> rfl
  exact described_of_reads hform (.string (.marker n)) (singleton_eq_ite hn)

/-- A short array is described. -/
theorem described_fixarray {n : ℕ} (hn : n < 16) :
    Described widen (.array n) [BitVec.ofNat 8 (0x90 + n)] := by
  have hform : markerForm (BitVec.ofNat 8 (0x90 + n)) = .array (.marker n) fun _ => true := by
    interval_cases n <;> rfl
  exact described_of_reads hform (.array (.marker n)) (singleton_eq_ite hn)

/-- A short map is described. -/
theorem described_fixmap {n : ℕ} (hn : n < 16) :
    Described widen (.map n) [BitVec.ofNat 8 (0x80 + n)] := by
  have hform : markerForm (BitVec.ofNat 8 (0x80 + n)) = .map (.marker n) fun _ => true := by
    interval_cases n <;> rfl
  exact described_of_reads hform (.map (.marker n)) (singleton_eq_ite hn)

/-- An extension of a fixed length is described. -/
theorem described_fixext {k : ℕ} (hk : k ≤ 4) :
    Described widen (.ext (2 ^ k)) [BitVec.ofNat 8 (0xd4 + k)] := by
  have hform : markerForm (BitVec.ofNat 8 (0xd4 + k)) =
      .extension (.marker (2 ^ k)) fun _ => true := by
    interval_cases k <;> rfl
  refine described_of_reads hform (.extension (.marker (2 ^ k))) (iff_of_true ?_ rfl)
  rw [Head.shortest, shortestExt, if_pos (by interval_cases k <;> decide), Nat.log2_two_pow]

/-- The tagged strings are described. -/
theorem described_str {k n : ℕ} (hk : k ≤ 2) (hn : n < range k) :
    Described widen (.str n) (tagged 0xd9 k n) := by
  have hexponent := exponent_le n
  have hshortest : tagged 0xd9 k n = (Head.str n).shortest widen ↔
      32 ≤ n ∧ (k = 0 ∨ range (k - 1) ≤ n) := by
    rw [Head.shortest, tagged_eq_ite_iff (by omega) (by omega), eq_exponent_iff (by omega) hn,
      not_lt]
  interval_cases k
  · refine described_of_reads
      (rfl : markerForm _ = .string (.bytes 1) fun length => 32 ≤ length && length < 256)
      (.string (holds_tagged hn)) (hshortest.trans ?_)
    norm_num at hn ⊢
    omega
  · refine described_of_reads (rfl : markerForm _ = .string (.bytes 2) fun length => 256 ≤ length)
      (.string (holds_tagged hn)) (hshortest.trans ?_)
    norm_num
    omega
  · refine described_of_reads (rfl : markerForm _ = .string (.bytes 4) fun length => 65536 ≤ length)
      (.string (holds_tagged hn)) (hshortest.trans ?_)
    norm_num
    omega

/-- The byte strings are described. -/
theorem described_bin {k n : ℕ} (hk : k ≤ 2) (hn : n < range k) :
    Described widen (.bin n) (tagged 0xc4 k n) := by
  have hexponent := exponent_le n
  have hshortest : tagged 0xc4 k n = (Head.bin n).shortest widen ↔
      k = 0 ∨ range (k - 1) ≤ n := by
    rw [Head.shortest, tagged_eq_iff (by omega) (by omega), eq_exponent_iff (by omega) hn]
  interval_cases k
  · refine described_of_reads (rfl : markerForm _ = .blob (.bytes 1) fun length => length < 256)
      (.blob (holds_tagged hn)) (hshortest.trans ?_)
    norm_num at hn ⊢
    omega
  · refine described_of_reads (rfl : markerForm _ = .blob (.bytes 2) fun length => 256 ≤ length)
      (.blob (holds_tagged hn)) (hshortest.trans ?_)
    norm_num
  · refine described_of_reads (rfl : markerForm _ = .blob (.bytes 4) fun length => 65536 ≤ length)
      (.blob (holds_tagged hn)) (hshortest.trans ?_)
    norm_num

/-- The tagged extensions are described. -/
theorem described_ext {k n : ℕ} (hk : k ≤ 2) (hn : n < range k) :
    Described widen (.ext n) (tagged 0xc7 k n) := by
  have hexponent := exponent_le n
  have hshortest : tagged 0xc7 k n = (Head.ext n).shortest widen ↔
      n ∉ [1, 2, 4, 8, 16] ∧ (k = 0 ∨ range (k - 1) ≤ n) := by
    rw [Head.shortest, shortestExt, tagged_eq_ite_iff (by omega) (by omega),
      eq_exponent_iff (by omega) hn]
  interval_cases k
  · refine described_of_reads (rfl : markerForm _ = .extension (.bytes 1) fun length =>
      length < 256 && length ∉ [1, 2, 4, 8, 16]) (.extension (holds_tagged hn))
      (hshortest.trans ?_)
    norm_num at hn ⊢
    omega
  · refine described_of_reads
      (rfl : markerForm _ = .extension (.bytes 2) fun length => 256 ≤ length)
      (.extension (holds_tagged hn)) (hshortest.trans ?_)
    norm_num
    omega
  · refine described_of_reads
      (rfl : markerForm _ = .extension (.bytes 4) fun length => 65536 ≤ length)
      (.extension (holds_tagged hn)) (hshortest.trans ?_)
    norm_num
    omega

/-- The condition for the shortest form of a count with an argument. -/
theorem eq_max_exponent_iff {k n : ℕ} (hlow : 1 ≤ k) (hk : k ≤ 2) (hn : n < range k) :
    k = max 1 (exponent n) ↔ k = 1 ∨ range (k - 1) ≤ n := by
  have h := eq_exponent_iff (by omega : k ≤ 3) hn
  have hfirst : n < range 0 → n < range 1 := fun h => h.trans (by norm_num)
  rcases (by omega : k = 1 ∨ k = 2) with rfl | rfl
  · have hle : exponent n ≤ 1 := by
      unfold exponent
      split_ifs <;> omega
    omega
  · omega

/-- The tagged arrays are described. -/
theorem described_array {k n : ℕ} (hlow : 1 ≤ k) (hk : k ≤ 2) (hn : n < range k) :
    Described widen (.array n) (tagged 0xdb k n) := by
  have hexponent := exponent_le n
  have hshortest : tagged 0xdb k n = (Head.array n).shortest widen ↔
      16 ≤ n ∧ (k = 1 ∨ range (k - 1) ≤ n) := by
    rw [Head.shortest, tagged_eq_ite_iff (by omega) (by omega), eq_max_exponent_iff hlow hk hn,
      not_lt]
  interval_cases k
  · refine described_of_reads (rfl : markerForm _ = .array (.bytes 2) fun count => 16 ≤ count)
      (.array (holds_tagged hn)) (hshortest.trans ?_)
    norm_num
  · refine described_of_reads (rfl : markerForm _ = .array (.bytes 4) fun count => 65536 ≤ count)
      (.array (holds_tagged hn)) (hshortest.trans ?_)
    norm_num
    omega

/-- The tagged maps are described. -/
theorem described_map {k n : ℕ} (hlow : 1 ≤ k) (hk : k ≤ 2) (hn : n < range k) :
    Described widen (.map n) (tagged 0xdd k n) := by
  have hexponent := exponent_le n
  have hshortest : tagged 0xdd k n = (Head.map n).shortest widen ↔
      16 ≤ n ∧ (k = 1 ∨ range (k - 1) ≤ n) := by
    rw [Head.shortest, tagged_eq_ite_iff (by omega) (by omega), eq_max_exponent_iff hlow hk hn,
      not_lt]
  interval_cases k
  · refine described_of_reads (rfl : markerForm _ = .map (.bytes 2) fun count => 16 ≤ count)
      (.map (holds_tagged hn)) (hshortest.trans ?_)
    norm_num
  · refine described_of_reads (rfl : markerForm _ = .map (.bytes 4) fun count => 65536 ≤ count)
      (.map (holds_tagged hn)) (hshortest.trans ?_)
    norm_num
    omega

/-- The marker table reads every head of the grammar. -/
theorem described_of_form {head : Head} {raw : List Byte} (h : head.Form raw) :
    Described widen head raw := by
  cases h with
  | nil =>
    exact described_scalar (rfl : markerForm 0xc0 = .scalar 1 .nil true) trivial rfl rfl
      (iff_of_true rfl rfl)
  | bool value =>
    cases value
    · exact described_scalar (rfl : markerForm 0xc2 = .scalar 1 .boolean true) trivial rfl rfl
        (iff_of_true rfl rfl)
    · exact described_scalar (rfl : markerForm 0xc3 = .scalar 1 .boolean true) trivial rfl rfl
        (iff_of_true rfl rfl)
  | fixint h => exact described_fixint h
  | uint hk hn => exact described_uint hk hn
  | sint hk hn => exact described_sint hk hn
  | float32 bits => exact described_float32 bits
  | float64 bits => exact described_float64 bits
  | fixstr hn => exact described_fixstr hn
  | str hk hn => exact described_str hk hn
  | bin hk hn => exact described_bin hk hn
  | fixext hk => exact described_fixext hk
  | ext hk hn => exact described_ext hk hn
  | fixarray hn => exact described_fixarray hn
  | array hlow hk hn => exact described_array hlow hk hn
  | fixmap hn => exact described_fixmap hn
  | map hlow hk hn => exact described_map hlow hk hn

/-- The number of bytes that an argument takes. -/
def Argument.width : Argument → ℕ
  | .marker _ => 0
  | .bytes width => width

/-- The number of bytes of a head after its marker. -/
def MarkerForm.width : MarkerForm → ℕ
  | .scalar length _ _ => length - 1
  | .reserved => 0
  | .integer width _ => width
  | .string argument _ | .blob argument _ | .extension argument _ | .array argument _
  | .map argument _ => argument.width

/-- A head that some bytes announce. -/
def Announces (raw : List Byte) : Prop := ∃ head : Head, head.Form raw

/-- A marker with enough bytes behind it announces a head. -/
theorem announces_tagged {marker k : ℕ} {rest : List Byte} {head : ℕ → Head}
    (hform : ∀ {n}, n < range k → (head n).Form (tagged marker k n)) (h : rest.length = 2 ^ k) :
    Announces (BitVec.ofNat 8 (marker + k) :: rest) := by
  have hlt : beNat rest < range k := by
    have hlt := beNat_lt rest
    rwa [h] at hlt
  have hrest : beBytes (2 ^ k) (beNat rest) = rest := by rw [← h, beBytes_beNat]
  have hwrite := hform hlt
  rw [tagged, hrest] at hwrite
  exact ⟨_, hwrite⟩

/-- A marker that is a head by itself announces it. -/
theorem announces_marker {marker : Byte} {rest : List Byte} (h : rest.length = 0)
    (hform : Announces [marker]) : Announces (marker :: rest) := by
  rwa [List.eq_nil_of_length_eq_zero h]

/-- Bytes are the number that they hold, written back. -/
theorem beBytes_ofNat {width : ℕ} {rest : List Byte} (h : rest.length = width) :
    beBytes width (BitVec.ofNat (8 * width) (beNat rest)).toNat = rest := by
  have hlt := beNat_lt rest
  rw [h, show 256 = 2 ^ 8 by rfl, ← pow_mul] at hlt
  rw [BitVec.toNat_ofNat, Nat.mod_eq_of_lt hlt, ← h, beBytes_beNat]

/-- Four bytes behind their marker are a form of a number. -/
theorem form_float32 {rest : List Byte} (h : rest.length = 4) :
    (Head.float32 (BitVec.ofNat 32 (beNat rest))).Form (0xca :: rest) := by
  have hform := Head.Form.float32 (BitVec.ofNat 32 (beNat rest))
  rwa [beBytes_ofNat h] at hform

/-- Eight bytes behind their marker are a form of a number. -/
theorem form_float64 {rest : List Byte} (h : rest.length = 8) :
    (Head.float64 (BitVec.ofNat 64 (beNat rest))).Form (0xcb :: rest) := by
  have hform := Head.Form.float64 (BitVec.ofNat 64 (beNat rest))
  rwa [beBytes_ofNat h] at hform

/-- Every marker but the reserved one announces a head, whatever the bytes of its argument. -/
theorem announces_of_width {marker : Byte} {rest : List Byte}
    (hreserved : markerForm marker ≠ .reserved)
    (hwidth : rest.length = (markerForm marker).width) : Announces (marker :: rest) := by
  by_cases hint : marker.toNat ≤ 0x7f ∨ 0xe0 ≤ marker.toNat
  · rw [markerForm, if_pos hint] at hwidth
    have hlow : -32 ≤ marker.toInt := by
      rw [BitVec.toInt_eq_toNat_cond]
      split_ifs <;> omega
    exact announces_marker hwidth ⟨_, .fixint hlow⟩
  obtain ⟨n, hn, hlow, hhigh⟩ : ∃ n, marker = BitVec.ofNat 8 n ∧ 0x80 ≤ n ∧ n < 0xe0 :=
    ⟨marker.toNat, by simp, by omega, by omega⟩
  subst hn
  by_cases hfixed : n < 0xc0
  · have hnat : (BitVec.ofNat 8 n).toNat = n := by
      rw [BitVec.toNat_ofNat]
      omega
    rw [markerForm, if_neg hint, hnat] at hwidth
    by_cases hmap : n ≤ 0x8f
    · obtain ⟨i, rfl⟩ := Nat.exists_eq_add_of_le hlow
      rw [if_pos hmap] at hwidth
      exact announces_marker hwidth ⟨_, .fixmap (by omega)⟩
    · rw [if_neg hmap] at hwidth
      by_cases harray : n ≤ 0x9f
      · obtain ⟨i, rfl⟩ := Nat.exists_eq_add_of_le (by omega : 0x90 ≤ n)
        rw [if_pos harray] at hwidth
        exact announces_marker hwidth ⟨_, .fixarray (by omega)⟩
      · obtain ⟨i, rfl⟩ := Nat.exists_eq_add_of_le (by omega : 0xa0 ≤ n)
        rw [if_neg harray, if_pos (by omega)] at hwidth
        exact announces_marker hwidth ⟨_, .fixstr (by omega)⟩
  · interval_cases n
    · exact announces_marker hwidth ⟨_, .nil⟩
    · exact absurd rfl hreserved
    · exact announces_marker hwidth ⟨_, .bool false⟩
    · exact announces_marker hwidth ⟨_, .bool true⟩
    · exact announces_tagged (fun hn => .bin (k := 0) (by omega) hn) hwidth
    · exact announces_tagged (fun hn => .bin (k := 1) (by omega) hn) hwidth
    · exact announces_tagged (fun hn => .bin (k := 2) (by omega) hn) hwidth
    · exact announces_tagged (fun hn => .ext (k := 0) (by omega) hn) hwidth
    · exact announces_tagged (fun hn => .ext (k := 1) (by omega) hn) hwidth
    · exact announces_tagged (fun hn => .ext (k := 2) (by omega) hn) hwidth
    · exact ⟨_, form_float32 hwidth⟩
    · exact ⟨_, form_float64 hwidth⟩
    · exact announces_tagged (fun hn => .uint (k := 0) (by omega) hn) hwidth
    · exact announces_tagged (fun hn => .uint (k := 1) (by omega) hn) hwidth
    · exact announces_tagged (fun hn => .uint (k := 2) (by omega) hn) hwidth
    · exact announces_tagged (fun hn => .uint (k := 3) (by omega) hn) hwidth
    · exact announces_tagged (fun hn => .sint (k := 0) (by omega) hn) hwidth
    · exact announces_tagged (fun hn => .sint (k := 1) (by omega) hn) hwidth
    · exact announces_tagged (fun hn => .sint (k := 2) (by omega) hn) hwidth
    · exact announces_tagged (fun hn => .sint (k := 3) (by omega) hn) hwidth
    · exact announces_marker hwidth ⟨_, .fixext (k := 0) (by omega)⟩
    · exact announces_marker hwidth ⟨_, .fixext (k := 1) (by omega)⟩
    · exact announces_marker hwidth ⟨_, .fixext (k := 2) (by omega)⟩
    · exact announces_marker hwidth ⟨_, .fixext (k := 3) (by omega)⟩
    · exact announces_marker hwidth ⟨_, .fixext (k := 4) (by omega)⟩
    · exact announces_tagged (fun hn => .str (k := 0) (by omega) hn) hwidth
    · exact announces_tagged (fun hn => .str (k := 1) (by omega) hn) hwidth
    · exact announces_tagged (fun hn => .str (k := 2) (by omega) hn) hwidth
    · exact announces_tagged (fun hn => .array (k := 1) (by omega) (by omega) hn) hwidth
    · exact announces_tagged (fun hn => .array (k := 2) (by omega) (by omega) hn) hwidth
    · exact announces_tagged (fun hn => .map (k := 1) (by omega) (by omega) hn) hwidth
    · exact announces_tagged (fun hn => .map (k := 2) (by omega) (by omega) hn) hwidth

end Lxmf
