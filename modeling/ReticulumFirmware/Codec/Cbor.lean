import Mathlib.Data.List.Basic
import ReticulumFirmware.Nor.Bytes

/-!
# CBOR items

A decoder takes one token after the other from its input, and an item is what a run of tokens
spells. The primitives of a decoder and of an encoder are parameters: they are told by the tokens
that they read and write.
-/

namespace Cbor

open Nor

/-- What stands at the front of an input. -/
inductive Token where
  | uint (value : ℕ)
  /-- The number `-1 - value`. -/
  | nint (value : ℕ)
  | bytes (content : List Byte)
  | text (content : List Byte)
  | array (length : ℕ)
  | map (length : ℕ)
  | tag (value : ℕ)
  | bool (value : Bool)
  | null
  /-- Undefined, another simple value or a float, as it is written. -/
  | simple (content : List Byte)
  /-- The start of an item of indefinite length. -/
  | indefinite
  | stop
  deriving DecidableEq

/-- The types that a decoder tells apart before it reads. -/
inductive Kind where
  | null
  | scalar
  | array
  | map
  | tag
  | indefinite
  | invalid
  deriving DecidableEq

namespace Token

/-- The token of a signed number. -/
def int : ℤ → Token
  | .ofNat value => uint value
  | .negSucc value => nint value

/-- The kind of a token. -/
def kind : Token → Kind
  | uint _ | nint _ | bytes _ | text _ | bool _ | simple _ => .scalar
  | null => .null
  | array _ => .array
  | map _ => .map
  | tag _ => .tag
  | indefinite => .indefinite
  | stop => .invalid

/-- Whether the token is an item of its own. -/
def IsAtom (token : Token) : Prop := token.kind = .scalar ∨ token.kind = .null

/-- A number is an atom. -/
theorem isAtom_int (value : ℤ) : (int value).IsAtom := by
  cases value <;> exact Or.inl rfl

end Token

/-- A complete item. -/
inductive Item where
  | atom (token : Token)
  | array (items : List Item)
  | map (entries : List (Item × Item))
  | tag (value : ℕ) (item : Item)

namespace Item

/-- An unsigned integer. -/
abbrev uint (value : ℕ) : Item := atom (.uint value)

/-- An integer of either sign. -/
abbrev int (value : ℤ) : Item := atom (.int value)

/-- A byte string. -/
abbrev bytes (content : List Byte) : Item := atom (.bytes content)

/-- A truth value. -/
abbrev bool (value : Bool) : Item := atom (.bool value)

/-- The null value. -/
abbrev null : Item := atom .null

/-- The items of a map as they are written, each key before its value. -/
def interleave (entries : List (Item × Item)) : List Item :=
  entries.flatMap fun entry => [entry.1, entry.2]

/-- The entries of a map are twice as many items. -/
@[simp] theorem length_interleave (entries : List (Item × Item)) :
    (interleave entries).length = 2 * entries.length := by
  induction entries with
  | nil => rfl
  | cons entry rest ih =>
    rw [interleave, List.flatMap_cons, List.length_append, ← interleave, ih]
    simp only [List.length_cons, List.length_nil]
    omega

/-- The entries can be told from the items. -/
theorem interleave_injective : Function.Injective interleave := by
  intro entries entries' h
  induction entries generalizing entries' with
  | nil =>
    cases entries' with
    | nil => rfl
    | cons entry rest => cases h
  | cons entry rest ih =>
    cases entries' with
    | nil => cases h
    | cons entry' rest' =>
      obtain ⟨hkey, h⟩ := List.cons.inj h
      obtain ⟨hvalue, h⟩ := List.cons.inj h
      rw [Prod.ext hkey hvalue, ih h]

mutual

/-- The levels inside an item. -/
def depth : Item → ℕ
  | .atom _ => 0
  | .array items => depths items + 1
  | .map entries => entryDepths entries + 1
  | .tag _ item => item.depth + 1

/-- The depth of the deepest item of a list. -/
def depths : List Item → ℕ
  | [] => 0
  | item :: items => max item.depth (depths items)

/-- The depth of the deepest key or value of a map. -/
def entryDepths : List (Item × Item) → ℕ
  | [] => 0
  | (key, value) :: entries => max (max key.depth value.depth) (entryDepths entries)

end

/-- The items of a map are as deep as its entries. -/
theorem depths_interleave (entries : List (Item × Item)) :
    depths (interleave entries) = entryDepths entries := by
  induction entries with
  | nil => rfl
  | cons entry entries ih =>
    rw [interleave, List.flatMap_cons, ← interleave, entryDepths, ← ih, max_assoc]
    rfl

/-- The depth of two groups of items is that of the deeper one. -/
theorem depths_append (items items' : List Item) :
    depths (items ++ items') = max (depths items) (depths items') := by
  induction items with
  | nil => exact (Nat.zero_max _).symm
  | cons item items ih => rw [List.cons_append, depths, ih, depths, max_assoc]

/-- The depth of one item is its own. -/
@[simp] theorem depths_singleton (item : Item) : depths [item] = item.depth := Nat.max_zero _

/-- The depth of two groups of entries is that of the deeper one. -/
theorem entryDepths_append (entries entries' : List (Item × Item)) :
    entryDepths (entries ++ entries') = max (entryDepths entries) (entryDepths entries') := by
  rw [← depths_interleave, interleave, List.flatMap_append, depths_append, ← interleave,
    ← interleave, depths_interleave, depths_interleave]

/-- The depth of one entry is that of its key or of its value. -/
@[simp] theorem entryDepths_singleton (key value : Item) :
    entryDepths [(key, value)] = max key.depth value.depth :=
  Nat.max_zero _

end Item

/-- Items one after the other, as the tokens of an input spell them. -/
inductive Reads (next : List Byte → Option (Token × List Byte)) :
    List Byte → List Item → List Byte → Prop
  | nil {input : List Byte} : Reads next input [] input
  | atom {input rest last : List Byte} {token : Token} {items : List Item}
      (hnext : next input = some (token, rest)) (htoken : token.IsAtom)
      (hrest : Reads next rest items last) : Reads next input (.atom token :: items) last
  | array {input body rest last : List Byte} {inner items : List Item}
      (hnext : next input = some (.array inner.length, body)) (hbody : Reads next body inner rest)
      (hrest : Reads next rest items last) : Reads next input (.array inner :: items) last
  | map {input body rest last : List Byte} {entries : List (Item × Item)} {items : List Item}
      (hnext : next input = some (.map entries.length, body))
      (hbody : Reads next body (Item.interleave entries) rest)
      (hrest : Reads next rest items last) : Reads next input (.map entries :: items) last
  | tag {input body rest last : List Byte} {value : ℕ} {item : Item} {items : List Item}
      (hnext : next input = some (.tag value, body)) (hbody : Reads next body [item] rest)
      (hrest : Reads next rest items last) : Reads next input (.tag value item :: items) last

namespace Reads

variable {next : List Byte → Option (Token × List Byte)} {input middle rest : List Byte}
  {items items' : List Item}

/-- Items that are read one after another are read together. -/
theorem append (h : Reads next input items middle) (h' : Reads next middle items' rest) :
    Reads next input (items ++ items') rest := by
  induction h with
  | nil => exact h'
  | atom hnext htoken _ ih => exact .atom hnext htoken (ih h')
  | array hnext hbody _ _ ih => exact .array hnext hbody (ih h')
  | map hnext hbody _ _ ih => exact .map hnext hbody (ih h')
  | tag hnext hbody _ _ ih => exact .tag hnext hbody (ih h')

/-- An input spells one list of each length. -/
theorem unique {rest' : List Byte} (h : Reads next input items rest)
    (h' : Reads next input items' rest') (hlength : items.length = items'.length) :
    items = items' ∧ rest = rest' := by
  induction h generalizing items' rest' with
  | nil =>
    cases h' with
    | nil => exact ⟨rfl, rfl⟩
    | _ => simp at hlength
  | atom hnext htoken hrest ih =>
    cases h' with
    | nil => simp at hlength
    | atom hnext' _ hrest' =>
      cases hnext.symm.trans hnext'
      obtain ⟨rfl, rfl⟩ := ih hrest' (Nat.succ.inj hlength)
      exact ⟨rfl, rfl⟩
    | array hnext' | map hnext' | tag hnext' =>
      cases hnext.symm.trans hnext'
      rcases htoken with h | h <;> cases h
  | array hnext hbody hrest ihbody ih =>
    cases h' with
    | nil => simp at hlength
    | atom hnext' htoken =>
      cases hnext.symm.trans hnext'
      rcases htoken with h | h <;> cases h
    | array hnext' hbody' hrest' =>
      obtain ⟨hcount, rfl⟩ := Prod.mk.inj (Option.some.inj (hnext.symm.trans hnext'))
      obtain ⟨rfl, rfl⟩ := ihbody hbody' (Token.array.inj hcount)
      obtain ⟨rfl, rfl⟩ := ih hrest' (Nat.succ.inj hlength)
      exact ⟨rfl, rfl⟩
    | map hnext' | tag hnext' => cases hnext.symm.trans hnext'
  | map hnext hbody hrest ihbody ih =>
    cases h' with
    | nil => simp at hlength
    | atom hnext' htoken =>
      cases hnext.symm.trans hnext'
      rcases htoken with h | h <;> cases h
    | map hnext' hbody' hrest' =>
      obtain ⟨hcount, rfl⟩ := Prod.mk.inj (Option.some.inj (hnext.symm.trans hnext'))
      obtain ⟨hentries, rfl⟩ := ihbody hbody' (by
        rw [Item.length_interleave, Item.length_interleave, Token.map.inj hcount])
      obtain ⟨rfl, rfl⟩ := ih hrest' (Nat.succ.inj hlength)
      exact ⟨by rw [Item.interleave_injective hentries], rfl⟩
    | array hnext' | tag hnext' => cases hnext.symm.trans hnext'
  | tag hnext hbody hrest ihbody ih =>
    cases h' with
    | nil => simp at hlength
    | atom hnext' htoken =>
      cases hnext.symm.trans hnext'
      rcases htoken with h | h <;> cases h
    | tag hnext' hbody' hrest' =>
      obtain ⟨hvalue, rfl⟩ := Prod.mk.inj (Option.some.inj (hnext.symm.trans hnext'))
      obtain ⟨hitem, rfl⟩ := ihbody hbody' rfl
      obtain ⟨rfl, rfl⟩ := ih hrest' (Nat.succ.inj hlength)
      rw [Token.tag.inj hvalue, (List.cons.inj hitem).1]
      exact ⟨rfl, rfl⟩
    | array hnext' | map hnext' => cases hnext.symm.trans hnext'

end Reads

/-- The bytes of the shortest head with an argument. -/
def headLength (argument : ℕ) : ℕ :=
  if argument < 24 then 1
  else if argument < 2 ^ 8 then 2
  else if argument < 2 ^ 16 then 3
  else if argument < 2 ^ 32 then 5
  else 9

/-- The bytes of a token with the shortest head. -/
def Token.width : Token → ℕ
  | uint value | nint value | tag value => headLength value
  | bytes content | text content => headLength content.length + content.length
  | array length | map length => headLength length
  | bool _ | null | indefinite | stop => 1
  | simple content => content.length

/-- The primitives of a decoder, each on the input that is left. -/
structure Reader where
  datatype : List Byte → Option Kind
  u8 : List Byte → Option (BitVec 8 × List Byte)
  u16 : List Byte → Option (BitVec 16 × List Byte)
  u32 : List Byte → Option (BitVec 32 × List Byte)
  u64 : List Byte → Option (BitVec 64 × List Byte)
  i16 : List Byte → Option (BitVec 16 × List Byte)
  bool : List Byte → Option (Bool × List Byte)
  null : List Byte → Option (Unit × List Byte)
  bytes : List Byte → Option (List Byte × List Byte)
  /-- The length of an array, unless it is indefinite. -/
  array : List Byte → Option (Option ℕ × List Byte)
  map : List Byte → Option (Option ℕ × List Byte)
  tag : List Byte → Option (ℕ × List Byte)
  /-- Pass over an item. -/
  skip : List Byte → Option (Unit × List Byte)

/-- The primitives read the tokens of their input. -/
structure Reader.Lawful (reader : Reader) (next : List Byte → Option (Token × List Byte)) :
    Prop where
  datatype : ∀ input token rest, next input = some (token, rest) →
    reader.datatype input = some token.kind
  u8 : ∀ input value rest, reader.u8 input = some (value, rest) ↔
    next input = some (.uint value.toNat, rest)
  u16 : ∀ input value rest, reader.u16 input = some (value, rest) ↔
    next input = some (.uint value.toNat, rest)
  u32 : ∀ input value rest, reader.u32 input = some (value, rest) ↔
    next input = some (.uint value.toNat, rest)
  u64 : ∀ input value rest, reader.u64 input = some (value, rest) ↔
    next input = some (.uint value.toNat, rest)
  i16 : ∀ input value rest, reader.i16 input = some (value, rest) ↔
    next input = some (.int value.toInt, rest)
  bool : ∀ input value rest, reader.bool input = some (value, rest) ↔
    next input = some (.bool value, rest)
  null : ∀ input rest, reader.null input = some ((), rest) ↔ next input = some (.null, rest)
  bytes : ∀ input content rest, reader.bytes input = some (content, rest) ↔
    next input = some (.bytes content, rest)
  array : ∀ input length rest, reader.array input = some (some length, rest) ↔
    next input = some (.array length, rest)
  map : ∀ input length rest, reader.map input = some (some length, rest) ↔
    next input = some (.map length, rest)
  tag : ∀ input value rest, reader.tag input = some (value, rest) ↔
    next input = some (.tag value, rest)
  skip : ∀ input rest, (reader.datatype input = some .scalar ∨ reader.datatype input = some .null) →
    (reader.skip input = some ((), rest) ↔
      ∃ token, token.IsAtom ∧ next input = some (token, rest))

/-- The primitives of an encoder. -/
structure Writer where
  u8 : BitVec 8 → List Byte
  u16 : BitVec 16 → List Byte
  u32 : BitVec 32 → List Byte
  u64 : BitVec 64 → List Byte
  i16 : BitVec 16 → List Byte
  bool : Bool → List Byte
  null : List Byte
  bytes : List Byte → List Byte
  array : ℕ → List Byte
  map : ℕ → List Byte

/-- The output spells the token in its shortest form. -/
structure Writes (next : List Byte → Option (Token × List Byte)) (output : List Byte)
    (token : Token) : Prop where
  reads : ∀ rest, next (output ++ rest) = some (token, rest)
  length : output.length = token.width

/-- The primitives write the shortest form of their values. -/
structure Writer.Lawful (writer : Writer) (next : List Byte → Option (Token × List Byte)) :
    Prop where
  u8 : ∀ value, Writes next (writer.u8 value) (.uint value.toNat)
  u16 : ∀ value, Writes next (writer.u16 value) (.uint value.toNat)
  u32 : ∀ value, Writes next (writer.u32 value) (.uint value.toNat)
  u64 : ∀ value, Writes next (writer.u64 value) (.uint value.toNat)
  i16 : ∀ value, Writes next (writer.i16 value) (.int value.toInt)
  bool : ∀ value, Writes next (writer.bool value) (.bool value)
  null : Writes next writer.null .null
  bytes : ∀ content, content.length < 2 ^ 64 → Writes next (writer.bytes content) (.bytes content)
  array : ∀ length, length < 2 ^ 64 → Writes next (writer.array length) (.array length)
  map : ∀ length, length < 2 ^ 64 → Writes next (writer.map length) (.map length)

/-- The output spells the items, whatever follows it. -/
def Spells (next : List Byte → Option (Token × List Byte)) (output : List Byte)
    (items : List Item) : Prop :=
  ∀ tail, Reads next (output ++ tail) items tail

section Spells

variable {next : List Byte → Option (Token × List Byte)} {output output' : List Byte}
  {items items' : List Item}

/-- Outputs one after another spell their items one after another. -/
theorem Spells.append (h : Spells next output items) (h' : Spells next output' items') :
    Spells next (output ++ output') (items ++ items') := by
  intro tail
  rw [List.append_assoc]
  exact (h (output' ++ tail)).append (h' tail)

/-- The head of an atom spells it. -/
theorem Writes.spells {token : Token} (h : Writes next output token) (htoken : token.IsAtom) :
    Spells next output [.atom token] :=
  fun tail => .atom (h.reads tail) htoken .nil

/-- The head of an array and its items spell the array. -/
theorem Writes.spells_array (h : Writes next output (.array items.length))
    (hitems : Spells next output' items) : Spells next (output ++ output') [.array items] := by
  intro tail
  rw [List.append_assoc]
  exact .array (h.reads (output' ++ tail)) (hitems tail) .nil

/-- The head of a map and its entries spell the map. -/
theorem Writes.spells_map {entries : List (Item × Item)}
    (h : Writes next output (.map entries.length))
    (hentries : Spells next output' (Item.interleave entries)) :
    Spells next (output ++ output') [.map entries] := by
  intro tail
  rw [List.append_assoc]
  exact .map (h.reads (output' ++ tail)) (hentries tail) .nil

end Spells

end Cbor
