import ReticulumFirmware.Codec.Cbor

/-!
# The bytes of CBOR tokens

A head is a byte with the major type and a short argument, or with the width of a longer argument
that follows. Text is UTF-8, and a simple value of two bytes is at least 32. The primitives that
read and write these tokens are lawful.
-/

namespace Cbor

open Nor

/-- The argument of a head, with its width in the byte before it. -/
def argument (info : ℕ) (rest : List Byte) : Option (ℕ × List Byte) :=
  if info < 24 then some (info, rest)
  else
    let width := if info = 24 then 1 else if info = 25 then 2 else if info = 26 then 4 else 8
    if 27 < info ∨ rest.length < width then none
    else some (beNat (rest.take width), rest.drop width)

/-- The content behind a head that tells its length. -/
def content (head : Option (ℕ × List Byte)) (make : List Byte → Token) :
    Option (Token × List Byte) :=
  head.bind fun (length, rest) =>
    if rest.length < length then none else some (make (rest.take length), rest.drop length)

/-- Text is UTF-8. -/
def Token.isValid : Token → Bool
  | .text content => ByteArray.validateUTF8 ⟨(content.map UInt8.ofBitVec).toArray⟩
  | _ => true

/-- The token of a head of the last major type. A simple value of two bytes is at least 32. -/
def special (first : Byte) (info : ℕ) (rest : List Byte) : Option (Token × List Byte) :=
  if info = 20 then some (.bool false, rest)
  else if info = 21 then some (.bool true, rest)
  else if info = 22 then some (.null, rest)
  else if info = 31 then some (.stop, rest)
  else (argument info rest).bind fun (value, after) =>
    if info = 24 ∧ value < 32 then none
    else some (.simple (first :: rest.take (rest.length - after.length)), after)

/-- The token at the front of an input. -/
def nextToken : List Byte → Option (Token × List Byte)
  | [] => none
  | first :: rest =>
    let info := first.toNat % 32
    let head := argument info rest
    match first.toNat / 32 with
    | 0 => head.map fun (value, rest) => (.uint value, rest)
    | 1 => head.map fun (value, rest) => (.nint value, rest)
    | 2 => if info = 31 then some (.indefinite, rest) else content head .bytes
    | 3 => if info = 31 then some (.indefinite, rest) else
      (content head .text).filter fun (token, _) => token.isValid
    | 4 => if info = 31 then some (.indefinite, rest) else
      head.map fun (length, rest) => (.array length, rest)
    | 5 => if info = 31 then some (.indefinite, rest) else
      head.map fun (length, rest) => (.map length, rest)
    | 6 => head.map fun (value, rest) => (.tag value, rest)
    | _ => special first info rest

/-- The shortest head of a major type with an argument. -/
def head (major value : ℕ) : List Byte :=
  if value < 24 then [BitVec.ofNat 8 (32 * major + value)]
  else if value < 2 ^ 8 then BitVec.ofNat 8 (32 * major + 24) :: beBytes 1 value
  else if value < 2 ^ 16 then BitVec.ofNat 8 (32 * major + 25) :: beBytes 2 value
  else if value < 2 ^ 32 then BitVec.ofNat 8 (32 * major + 26) :: beBytes 4 value
  else BitVec.ofNat 8 (32 * major + 27) :: beBytes 8 value

/-- The shortest head has the length that its argument needs. -/
theorem length_head (major value : ℕ) : (head major value).length = headLength value := by
  unfold head headLength
  split_ifs <;> simp

/-- The argument of a head is read back. -/
theorem head_cases (major : ℕ) {value : ℕ} (hmajor : major < 8) (hvalue : value < 2 ^ 64)
    (rest : List Byte) : ∃ first middle, head major value ++ rest = first :: middle ∧
      first.toNat / 32 = major ∧ first.toNat % 32 < 28 ∧
      argument (first.toNat % 32) middle = some (value, rest) := by
  have hlong : ∀ info width, 24 ≤ info → info < 28 →
      (if info = 24 then 1 else if info = 25 then 2 else if info = 26 then 4 else 8) = width →
      value < 256 ^ width → ∃ first middle,
        BitVec.ofNat 8 (32 * major + info) :: beBytes width value ++ rest = first :: middle ∧
        first.toNat / 32 = major ∧ first.toNat % 32 < 28 ∧
        argument (first.toNat % 32) middle = some (value, rest) := by
    intro info width hlow hhigh hwidth hfits
    have hfirst : (BitVec.ofNat 8 (32 * major + info) : Byte).toNat = 32 * major + info := by
      rw [BitVec.toNat_ofNat]
      omega
    refine ⟨_, _, List.cons_append, ?_, ?_, ?_⟩
    · rw [hfirst]
      omega
    · rw [hfirst]
      omega
    · have hinfo : (32 * major + info) % 32 = info := by omega
      rw [hfirst, hinfo, argument, if_neg (by omega)]
      dsimp only
      rw [hwidth, if_neg (by simp; omega), List.take_left' (length_beBytes _ _),
        List.drop_left' (length_beBytes _ _), beNat_beBytes_of_lt hfits]
  unfold head
  split_ifs with h24 h8 h16 h32
  · have hfirst : (BitVec.ofNat 8 (32 * major + value) : Byte).toNat = 32 * major + value := by
      rw [BitVec.toNat_ofNat]
      omega
    refine ⟨_, _, rfl, ?_, ?_, ?_⟩
    · rw [hfirst]
      omega
    · rw [hfirst]
      omega
    · have hinfo : (32 * major + value) % 32 = value := by omega
      rw [hfirst, hinfo, argument, if_pos h24]
      rfl
  · exact hlong 24 1 (by omega) (by omega) rfl (by omega)
  · exact hlong 25 2 (by omega) (by omega) rfl (by omega)
  · exact hlong 26 4 (by omega) (by omega) rfl (by omega)
  · exact hlong 27 8 (by omega) (by omega) rfl (by omega)

section Primitives

/-- A number that fits its width. -/
def readUint (width : ℕ) (input : List Byte) : Option (BitVec width × List Byte) :=
  match nextToken input with
  | some (.uint value, rest) =>
    if value < 2 ^ width then some (BitVec.ofNat width value, rest) else none
  | _ => none

/-- A number is read exactly where the next token is one that fits the width. -/
theorem readUint_eq_some {width : ℕ} {input rest : List Byte} {value : BitVec width} :
    readUint width input = some (value, rest) ↔
      nextToken input = some (.uint value.toNat, rest) := by
  unfold readUint
  constructor
  · intro h
    split at h
    · rename_i number after hnext
      split_ifs at h with hfits
      cases h
      rw [hnext, BitVec.toNat_ofNat, Nat.mod_eq_of_lt hfits]
    · cases h
  · intro h
    rw [h]
    dsimp only
    rw [if_pos value.isLt, BitVec.ofNat_toNat, BitVec.setWidth_eq]

/-- A signed number of two bytes. -/
def readInt16 (input : List Byte) : Option (BitVec 16 × List Byte) :=
  match nextToken input with
  | some (.uint value, rest) =>
    if value < 2 ^ 15 then some (BitVec.ofInt 16 value, rest) else none
  | some (.nint value, rest) =>
    if value < 2 ^ 15 then some (BitVec.ofInt 16 (-1 - value), rest) else none
  | _ => none

/-- The token of a natural number is unsigned. -/
theorem Token.int_natCast (value : ℕ) : Token.int value = .uint value := rfl

/-- The token of a negative number holds its distance from `-1`. -/
theorem Token.int_neg (value : ℕ) : Token.int (-1 - value) = .nint value := by
  rw [show (-1 - value : ℤ) = Int.negSucc value by rw [Int.negSucc_eq]; omega]
  rfl

/-- A number that fits in 16 bits is kept by them. -/
theorem toInt_ofInt_of_fits {value : ℤ} (hlow : -2 ^ 15 ≤ value) (hhigh : value < 2 ^ 15) :
    (BitVec.ofInt 16 value).toInt = value :=
  BitVec.toInt_ofInt_eq_self (by decide) (by simpa using hlow) (by simpa using hhigh)

/-- A signed number is read exactly where the next token is one that fits 16 bits. -/
theorem readInt16_eq_some {input rest : List Byte} {value : BitVec 16} :
    readInt16 input = some (value, rest) ↔ nextToken input = some (.int value.toInt, rest) := by
  have hlow := BitVec.le_toInt value
  have hhigh := BitVec.toInt_lt (x := value)
  have hvalue : BitVec.ofInt 16 value.toInt = value := BitVec.ofInt_toInt
  unfold readInt16
  constructor
  · intro h
    split at h
    · rename_i number after hnext
      split_ifs at h with hfits
      cases h
      rw [hnext, toInt_ofInt_of_fits (by omega) (by omega), Token.int_natCast]
    · rename_i number after hnext
      split_ifs at h with hfits
      cases h
      rw [hnext, toInt_ofInt_of_fits (by omega) (by omega), Token.int_neg]
    · cases h
  · intro h
    rw [h]
    generalize value.toInt = number at hlow hhigh hvalue
    obtain ⟨magnitude, rfl | rfl⟩ : ∃ magnitude : ℕ,
      number = magnitude ∨ number = -1 - magnitude := by
      rcases lt_or_ge number 0 with hneg | hpos
      · exact ⟨(-1 - number).toNat, Or.inr (by omega)⟩
      · exact ⟨number.toNat, Or.inl (by omega)⟩
    · rw [Token.int_natCast]
      dsimp only
      rw [if_pos (by omega), hvalue]
    · rw [Token.int_neg]
      dsimp only
      rw [if_pos (by omega), hvalue]

/-- The length of an array or a map, unless it is indefinite. -/
def readLength (length : Token → Option ℕ) (input : List Byte) :
    Option (Option ℕ × List Byte) :=
  (nextToken input).bind fun (token, rest) =>
    if token = .indefinite then some (none, rest)
    else (length token).map fun length => (some length, rest)

/-- A length is read exactly where the next token is the head that tells it. -/
theorem readLength_eq_some {length : Token → Option ℕ} {make : ℕ → Token}
    (hmake : ∀ token n, length token = some n ↔ token = make n)
    (hdefinite : ∀ n, make n ≠ .indefinite)
    {input rest : List Byte} {n : ℕ} :
    readLength length input = some (some n, rest) ↔ nextToken input = some (make n, rest) := by
  unfold readLength
  cases hnext : nextToken input with
  | none => simp
  | some pair =>
    obtain ⟨token, after⟩ := pair
    rw [Option.bind_some]
    dsimp only
    split_ifs with hindefinite
    · subst hindefinite
      simp [(hdefinite n).symm]
    · simp [hmake]

/-- The token at the front of the input, when it is of the wanted form. -/
def readToken {α : Type} (select : Token → Option α) (input : List Byte) :
    Option (α × List Byte) :=
  (nextToken input).bind fun (token, rest) => (select token).map fun value => (value, rest)

/-- A value is read exactly where the next token is the one that holds it. -/
theorem readToken_eq_some {α : Type} {select : Token → Option α} {make : α → Token}
    (hmake : ∀ token value, select token = some value ↔ token = make value)
    {input rest : List Byte} {value : α} :
    readToken select input = some (value, rest) ↔ nextToken input = some (make value, rest) := by
  unfold readToken
  cases hnext : nextToken input with
  | none => simp
  | some pair => simp [hmake, Prod.ext_iff]

/-- The truth value, the bytes, and so on that a token carries. -/
def Token.bool? : Token → Option Bool
  | .bool value => some value
  | _ => none

/-- The null token. -/
def Token.null? : Token → Option Unit
  | .null => some ()
  | _ => none

/-- The content of a byte string. -/
def Token.bytes? : Token → Option (List Byte)
  | .bytes content => some content
  | _ => none

/-- The length of an array head. -/
def Token.array? : Token → Option ℕ
  | .array length => some length
  | _ => none

/-- The number of entries of a map head. -/
def Token.map? : Token → Option ℕ
  | .map length => some length
  | _ => none

/-- The number of a tag. -/
def Token.tag? : Token → Option ℕ
  | .tag value => some value
  | _ => none

/-- The primitives that read tokens. -/
def byteReader : Reader where
  datatype input := (nextToken input).map fun (token, _) => token.kind
  u8 := readUint 8
  u16 := readUint 16
  u32 := readUint 32
  u64 := readUint 64
  i16 := readInt16
  bool := readToken Token.bool?
  null := readToken Token.null?
  bytes := readToken Token.bytes?
  array := readLength Token.array?
  map := readLength Token.map?
  tag := readToken Token.tag?
  skip input := (nextToken input).bind fun (token, rest) =>
    if token.kind = .scalar ∨ token.kind = .null then some ((), rest) else none

/-- The primitives that read tokens are lawful. -/
theorem byteReader_lawful : byteReader.Lawful nextToken where
  datatype input token rest h := by simp [byteReader, h]
  u8 _ _ _ := readUint_eq_some
  u16 _ _ _ := readUint_eq_some
  u32 _ _ _ := readUint_eq_some
  u64 _ _ _ := readUint_eq_some
  i16 _ _ _ := readInt16_eq_some
  bool _ _ _ := readToken_eq_some fun token value => by cases token <;> simp [Token.bool?]
  null _ _ := @readToken_eq_some Unit Token.null? (fun _ => .null)
    (fun token value => by cases token <;> simp [Token.null?]) _ _ _
  bytes _ _ _ := readToken_eq_some fun token value => by cases token <;> simp [Token.bytes?]
  array _ _ _ := readLength_eq_some (fun token n => by cases token <;> simp [Token.array?])
    fun _ => Token.noConfusion
  map _ _ _ := readLength_eq_some (fun token n => by cases token <;> simp [Token.map?])
    fun _ => Token.noConfusion
  tag _ _ _ := readToken_eq_some fun token value => by cases token <;> simp [Token.tag?]
  skip input rest _ := by
    unfold Token.IsAtom
    cases hnext : nextToken input with
    | none => simp [byteReader, hnext]
    | some pair => simp [byteReader, hnext, Prod.ext_iff]

/-- The primitives that write the shortest heads. -/
def byteWriter : Writer where
  u8 value := head 0 value.toNat
  u16 value := head 0 value.toNat
  u32 value := head 0 value.toNat
  u64 value := head 0 value.toNat
  i16 value :=
    match value.toInt with
    | .ofNat number => head 0 number
    | .negSucc number => head 1 number
  bool value := [if value then 0xf5 else 0xf4]
  null := [0xf6]
  bytes content := head 2 content.length ++ content
  array length := head 4 length
  map length := head 5 length

/-- The shortest head of major type 0 is an unsigned number. -/
theorem writes_uint {value : ℕ} (h : value < 2 ^ 64) :
    Writes nextToken (head 0 value) (.uint value) := by
  refine ⟨fun rest => ?_, length_head _ _⟩
  obtain ⟨first, middle, heq, hmajor, -, hargument⟩ := head_cases 0 (by decide) h rest
  rw [heq, nextToken]
  dsimp only
  rw [hmajor, hargument]
  rfl

/-- The shortest head of major type 1 is a negative number. -/
theorem writes_nint {value : ℕ} (h : value < 2 ^ 64) :
    Writes nextToken (head 1 value) (.nint value) := by
  refine ⟨fun rest => ?_, length_head _ _⟩
  obtain ⟨first, middle, heq, hmajor, -, hargument⟩ := head_cases 1 (by decide) h rest
  rw [heq, nextToken]
  dsimp only
  rw [hmajor, hargument]
  rfl

/-- The primitives that write the shortest heads are lawful. -/
theorem byteWriter_lawful : byteWriter.Lawful nextToken where
  u8 value := writes_uint (value.isLt.trans_le (by decide))
  u16 value := writes_uint (value.isLt.trans_le (by decide))
  u32 value := writes_uint (value.isLt.trans_le (by decide))
  u64 value := writes_uint value.isLt
  i16 value := by
    have hlow := BitVec.le_toInt value
    have hhigh := BitVec.toInt_lt (x := value)
    unfold byteWriter
    dsimp only
    cases hvalue : value.toInt with
    | ofNat number =>
      rw [hvalue, Int.ofNat_eq_natCast] at hhigh
      exact writes_uint (by omega)
    | negSucc number =>
      rw [hvalue, Int.negSucc_eq] at hlow
      exact writes_nint (by omega)
  bool value := by
    cases value
    · exact ⟨fun _ => rfl, rfl⟩
    · exact ⟨fun _ => rfl, rfl⟩
  null := ⟨fun _ => rfl, rfl⟩
  bytes contents h := by
    refine ⟨fun rest => ?_, ?_⟩
    · obtain ⟨first, middle, heq, hmajor, hinfo, hargument⟩ :=
        head_cases 2 (by decide) h (contents ++ rest)
      unfold byteWriter
      dsimp only
      rw [List.append_assoc, heq, nextToken]
      dsimp only
      simp only [hmajor, hargument, if_neg (show first.toNat % 32 ≠ 31 by omega)]
      rw [content, Option.bind_some]
      dsimp only
      rw [if_neg (by simp), List.take_left, List.drop_left]
    · unfold byteWriter
      dsimp only
      rw [List.length_append, length_head]
      rfl
  array length h := by
    refine ⟨fun rest => ?_, length_head _ _⟩
    obtain ⟨first, middle, heq, hmajor, hinfo, hargument⟩ := head_cases 4 (by decide) h rest
    unfold byteWriter
    dsimp only
    rw [heq, nextToken]
    simp only [hmajor, hargument, if_neg (show first.toNat % 32 ≠ 31 by omega)]
    rfl
  map length h := by
    refine ⟨fun rest => ?_, length_head _ _⟩
    obtain ⟨first, middle, heq, hmajor, hinfo, hargument⟩ := head_cases 5 (by decide) h rest
    unfold byteWriter
    dsimp only
    rw [heq, nextToken]
    simp only [hmajor, hargument, if_neg (show first.toNat % 32 ≠ 31 by omega)]
    rfl

end Primitives

end Cbor
