import ReticulumFirmware.Lxmf.Msgpack
import Mathlib.Algebra.Order.BigOperators.Group.List

/-!
# The cost of a scan

What scanning a value takes from the limits, with the repeated scans that the comparison of map
keys makes. Apart from the steps, no value costs more than its encoding is long.
-/

namespace Lxmf

open Nor MessagePack

/-- What scanning takes from the limits: the values that are counted, the steps, the largest
container and the longest payload. -/
@[ext] structure Cost where
  values : ℕ
  visits : ℕ
  items : ℕ
  bytes : ℕ

namespace Cost

/-- Nothing costs nothing. -/
instance : Zero Cost := ⟨⟨0, 0, 0, 0⟩⟩

/-- The cost of one value after another. -/
instance : Add Cost where
  add a b := ⟨a.values + b.values, a.visits + b.visits, max a.items b.items, max a.bytes b.bytes⟩

variable (a b : Cost)

/-- No cost is no values. -/
@[simp] theorem values_zero : (0 : Cost).values = 0 := rfl

/-- No cost is no visits. -/
@[simp] theorem visits_zero : (0 : Cost).visits = 0 := rfl

/-- No cost is no items. -/
@[simp] theorem items_zero : (0 : Cost).items = 0 := rfl

/-- No cost is no bytes. -/
@[simp] theorem bytes_zero : (0 : Cost).bytes = 0 := rfl

/-- Values add up. -/
@[simp] theorem values_add : (a + b).values = a.values + b.values := rfl

/-- Visits add up. -/
@[simp] theorem visits_add : (a + b).visits = a.visits + b.visits := rfl

/-- Of two containers the larger one counts. -/
@[simp] theorem items_add : (a + b).items = max a.items b.items := rfl

/-- Of two byte strings the longer one counts. -/
@[simp] theorem bytes_add : (a + b).bytes = max a.bytes b.bytes := rfl

/-- Costs of any number of values. -/
instance : AddCommMonoid Cost where
  add_assoc a b c := by ext <;> simp [add_assoc, max_assoc]
  zero_add a := by ext <;> simp
  add_zero a := by ext <;> simp
  add_comm a b := by ext <;> simp [add_comm, max_comm]
  nsmul := nsmulRec

/-- One step of the scanner. -/
def visit : Cost := ⟨0, 1, 0, 0⟩

/-- One value that is counted. -/
def value : Cost := ⟨1, 0, 0, 0⟩

/-- One container. -/
def container (count : ℕ) : Cost := ⟨0, 0, count, 0⟩

/-- The payload of one string, binary or extension. -/
def payload (length : ℕ) : Cost := ⟨0, 0, 0, length⟩

/-- The cost of the same scan when values are not counted. -/
def uncounted (a : Cost) : Cost := { a with values := 0 }

/-- The cost of a scan that counts values or not. -/
def mode (countValues : Bool) (a : Cost) : Cost := if countValues then a else a.uncounted

/-- The uncounted cost of two parts is that of each. -/
@[simp] theorem uncounted_add : (a + b).uncounted = a.uncounted + b.uncounted := rfl

/-- No cost is no cost in both modes. -/
@[simp] theorem mode_zero (countValues : Bool) : (0 : Cost).mode countValues = 0 := by
  cases countValues <;> rfl

/-- The cost of two parts in a mode is that of each. -/
@[simp] theorem mode_add (countValues : Bool) :
    (a + b).mode countValues = a.mode countValues + b.mode countValues := by
  cases countValues <;> rfl

/-- A visit costs the same in both modes. -/
@[simp] theorem mode_visit (countValues : Bool) : visit.mode countValues = visit := by
  cases countValues <;> rfl

/-- A container costs the same in both modes. -/
@[simp] theorem mode_container (countValues : Bool) (count : ℕ) :
    (container count).mode countValues = container count := by
  cases countValues <;> rfl

/-- A payload costs the same in both modes. -/
@[simp] theorem mode_payload (countValues : Bool) (length : ℕ) :
    (payload length).mode countValues = payload length := by
  cases countValues <;> rfl

/-- An uncounted cost is that of the mode that does not count. -/
@[simp] theorem mode_uncounted (countValues : Bool) :
    a.uncounted.mode countValues = a.mode false := by
  cases countValues <;> rfl

/-- The cost of the entries of a map, after entries of the given cost: before the value of an entry
is scanned, all entries before it are scanned again. -/
def entries (prior : Cost) : List (Cost × Cost) → Cost
  | [] => 0
  | (key, value) :: rest =>
    key + (prior.uncounted + (value + entries (prior + (key + value)) rest))

end Cost

/-- The number of payload bytes that a head announces. -/
def payloadLength : Head → ℕ
  | .str n | .bin n | .ext n => n
  | _ => 0

/-- The cost of scanning a value once. -/
def costOf : Value → Cost :=
  Value.fold
    (fun value => .visit + (.value + .payload (payloadLength value.head)))
    (fun costs => .visit + (.value + (.container costs.length + costs.sum)))
    (fun costs => .visit + (.value + (.container costs.length + Cost.entries 0 costs)))

/-- The cost of what follows the head of a value. -/
def bodyCost : Value → Cost
  | .array items => .container items.length + (items.map costOf).sum
  | .map entries => .container entries.length + Cost.entries 0
      (entries.map (Prod.map costOf costOf))
  | value => .payload (payloadLength value.head)

/-- A value costs a visit, a value and what is in it. -/
theorem costOf_eq (value : Value) : costOf value = .visit + (.value + bodyCost value) := by
  cases value with
  | array items => rw [costOf, Value.fold_array, List.length_map]; rfl
  | map entries => rw [costOf, Value.fold_map, List.length_map]; rfl
  | _ => rfl

/-- The cost of scanning some entries again. -/
def entryCost (entry : Value × Value) : Cost := costOf entry.1 + costOf entry.2

namespace Scanner

variable {limits : WireLimits} {scanner : Scanner} {a b : Cost}

/-- The counters after a scan of this cost. -/
def spend (scanner : Scanner) (a : Cost) : Scanner :=
  ⟨scanner.totalValues + a.values, scanner.scanSteps + a.visits⟩

/-- The limits leave room for this cost. -/
def Affords (limits : WireLimits) (scanner : Scanner) (a : Cost) : Prop :=
  (a.values = 0 ∨ scanner.totalValues + a.values ≤ limits.maxTotalValues) ∧
  (a.visits = 0 ∨ scanner.scanSteps + a.visits ≤ limits.maxScanSteps) ∧
  a.items ≤ limits.maxContainerItems ∧ a.bytes ≤ limits.maxValueBytes

/-- To spend nothing leaves the scanner. -/
@[simp] theorem spend_zero : scanner.spend 0 = scanner := rfl

/-- Two costs are spent one after another. -/
theorem spend_add : scanner.spend (a + b) = (scanner.spend a).spend b := by
  simp [spend, add_assoc]

/-- Nothing is always afforded. -/
theorem affords_zero : scanner.Affords limits 0 :=
  ⟨Or.inl rfl, Or.inl rfl, Nat.zero_le _, Nat.zero_le _⟩

/-- Two costs are afforded where the first one is and then the second. -/
theorem affords_add :
    scanner.Affords limits (a + b) ↔
      scanner.Affords limits a ∧ (scanner.spend a).Affords limits b := by
  simp only [Affords, spend, Cost.values_add, Cost.visits_add, Cost.items_add, Cost.bytes_add]
  omega

end Scanner

/-- Apart from the steps, nothing costs more than `n`. -/
structure Cost.Within (a : Cost) (n : ℕ) : Prop where
  values : a.values ≤ n
  items : a.items ≤ n
  bytes : a.bytes ≤ n

section Within

variable {encodes : Value → List Byte → Bool → Prop}

/-- A cost within a length is within a longer one. -/
theorem Cost.Within.mono {a : Cost} {m n : ℕ} (h : a.Within m) (hle : m ≤ n) : a.Within n :=
  ⟨h.values.trans hle, h.items.trans hle, h.bytes.trans hle⟩

/-- Items cost no more than the length of their encodings. -/
theorem within_sequence
    (hencodes : ∀ {value raw shortest}, encodes value raw shortest →
      1 ≤ raw.length ∧ (costOf value).Within raw.length)
    {items : List Value} {raw : List Byte} {all : Bool} (h : Sequence encodes items raw all) :
    items.length ≤ raw.length ∧ (items.map costOf).sum.Within raw.length := by
  induction h with
  | nil => exact ⟨le_refl 0, le_refl 0, le_refl 0, le_refl 0⟩
  | cons head _ ih =>
    obtain ⟨hpos, hhead⟩ := hencodes head
    obtain ⟨hlength, hrest⟩ := ih
    have hvalues := hhead.values
    have hitems := hhead.items
    have hbytes := hhead.bytes
    have hrestValues := hrest.values
    have hrestItems := hrest.items
    have hrestBytes := hrest.bytes
    rw [List.map_cons, List.sum_cons, List.length_append, List.length_cons]
    refine ⟨by omega, ?_, ?_, ?_⟩
    · rw [Cost.values_add]
      omega
    · rw [Cost.items_add]
      omega
    · rw [Cost.bytes_add]
      omega

/-- Entries cost no more than the length of their encodings. -/
theorem within_entries
    (hencodes : ∀ {value raw shortest}, encodes value raw shortest →
      1 ≤ raw.length ∧ (costOf value).Within raw.length)
    {entries : List (Value × Value)} {raw : List Byte} {all : Bool}
    (h : Sequence (Entry encodes) entries raw all) {prior : Cost} {n : ℕ}
    (hitems : prior.items ≤ n) (hbytes : prior.bytes ≤ n) (hraw : raw.length ≤ n) :
    entries.length ≤ raw.length ∧
      (Cost.entries prior (entries.map (Prod.map costOf costOf))).values ≤ raw.length ∧
      (Cost.entries prior (entries.map (Prod.map costOf costOf))).items ≤ n ∧
      (Cost.entries prior (entries.map (Prod.map costOf costOf))).bytes ≤ n := by
  induction h generalizing prior with
  | nil => exact ⟨le_refl 0, le_refl 0, Nat.zero_le n, Nat.zero_le n⟩
  | @cons entry entries _ rest _ _ head _ ih =>
    cases head with
    | @mk key value rawKey rawValue _ _ hkey hvalue =>
    obtain ⟨hkeyPos, hkeyValues, hkeyItems, hkeyBytes⟩ := hencodes hkey
    obtain ⟨hvaluePos, hvalueValues, hvalueItems, hvalueBytes⟩ := hencodes hvalue
    rw [List.length_append, List.length_append] at hraw
    have hpriorItems : (prior + (costOf key + costOf value)).items ≤ n := by
      rw [Cost.items_add, Cost.items_add]
      omega
    have hpriorBytes : (prior + (costOf key + costOf value)).bytes ≤ n := by
      rw [Cost.bytes_add, Cost.bytes_add]
      omega
    obtain ⟨hlength, hvalues, hitems', hbytes'⟩ := ih hpriorItems hpriorBytes (by omega)
    have huncounted : prior.uncounted.values = 0 := rfl
    have huncountedItems : prior.uncounted.items = prior.items := rfl
    have huncountedBytes : prior.uncounted.bytes = prior.bytes := rfl
    rw [List.map_cons, Prod.map_apply, Cost.entries, List.length_cons, List.length_append,
      List.length_append]
    refine ⟨by omega, ?_, ?_, ?_⟩
    · simp only [Cost.values_add]
      omega
    · simp only [Cost.items_add]
      omega
    · simp only [Cost.bytes_add]
      omega

/-- A head has at least one byte. -/
theorem length_pos_of_form {head : Head} {raw : List Byte} (h : head.Form raw) :
    1 ≤ raw.length := by
  cases h <;> simp [tagged]

/-- Apart from the steps, no value costs more than its encoding is long. -/
theorem costOf_within {widen : BitVec 32 → BitVec 64} {depth : ℕ} {value : Value}
    {raw : List Byte} {shortest : Bool} (h : Encodes widen depth value raw shortest) :
    1 ≤ raw.length ∧ (costOf value).Within raw.length := by
  induction depth generalizing value raw shortest with
  | zero => cases h
  | succ depth ih =>
    obtain ⟨head, body, all, hform, hbody, rfl, -⟩ := h
    have hhead := length_pos_of_form hform
    rw [List.length_append]
    refine ⟨by omega, ?_⟩
    suffices hsuff : (bodyCost value).values ≤ body.length ∧
        (bodyCost value).items ≤ body.length ∧ (bodyCost value).bytes ≤ body.length by
      obtain ⟨hvalues, hitems, hbytes⟩ := hsuff
      rw [costOf_eq]
      constructor <;> simp [Cost.visit, Cost.value] <;> omega
    cases hbody with
    | nil | bool | int | float32 | float64 | str | bin | ext =>
      simp [bodyCost, Cost.payload, payloadLength, Value.head]
    | array hsequence =>
      obtain ⟨hlength, hwithin⟩ := within_sequence ih hsequence
      refine ⟨?_, ?_, ?_⟩
      · simpa [bodyCost, Cost.container] using hwithin.values
      · simpa [bodyCost, Cost.container] using ⟨hlength, hwithin.items⟩
      · simpa [bodyCost, Cost.container] using hwithin.bytes
    | map hsequence _ =>
      obtain ⟨hlength, hvalues, hitems, hbytes⟩ :=
        @within_entries _ ih _ _ _ hsequence 0 body.length (Nat.zero_le _) (Nat.zero_le _)
          (le_refl _)
      refine ⟨?_, ?_, ?_⟩
      · simpa [bodyCost, Cost.container] using hvalues
      · simpa [bodyCost, Cost.container] using ⟨hlength, hitems⟩
      · simpa [bodyCost, Cost.container] using hbytes

end Within

section Parts

namespace Cost

/-- Component by component. -/
instance : PartialOrder Cost where
  le a b := a.values ≤ b.values ∧ a.visits ≤ b.visits ∧ a.items ≤ b.items ∧ a.bytes ≤ b.bytes
  le_refl a := ⟨le_refl _, le_refl _, le_refl _, le_refl _⟩
  le_trans a b c hab hbc :=
    ⟨hab.1.trans hbc.1, hab.2.1.trans hbc.2.1, hab.2.2.1.trans hbc.2.2.1,
      hab.2.2.2.trans hbc.2.2.2⟩
  le_antisymm a b hab hba :=
    Cost.ext (le_antisymm hab.1 hba.1) (le_antisymm hab.2.1 hba.2.1)
      (le_antisymm hab.2.2.1 hba.2.2.1) (le_antisymm hab.2.2.2 hba.2.2.2)

/-- A cost is below another in each of its parts. -/
theorem le_def {a b : Cost} : a ≤ b ↔
    a.values ≤ b.values ∧ a.visits ≤ b.visits ∧ a.items ≤ b.items ∧ a.bytes ≤ b.bytes := Iff.rfl

/-- A part costs no more than the whole. -/
instance : IsOrderedAddMonoid Cost where
  add_le_add_left a b h c := by
    simp only [le_def, values_add, visits_add, items_add, bytes_add] at *
    omega

/-- No cost is below every cost. -/
theorem zero_le (a : Cost) : 0 ≤ a :=
  ⟨Nat.zero_le _, Nat.zero_le _, Nat.zero_le _, Nat.zero_le _⟩

/-- The entries of a map cost no more than their comparisons with those before them. -/
theorem sum_le_entries (prior : Cost) (costs : List (Cost × Cost)) :
    (costs.map fun cost => cost.1 + cost.2).sum ≤ entries prior costs := by
  induction costs generalizing prior with
  | nil => exact zero_le _
  | cons cost costs ih =>
    obtain ⟨key, value⟩ := cost
    rw [List.map_cons, List.sum_cons, entries, add_assoc]
    calc key + (value + (costs.map fun cost => cost.1 + cost.2).sum)
      _ ≤ key + (value + entries (prior + (key + value)) costs) :=
        add_le_add le_rfl (add_le_add le_rfl (ih _))
      _ ≤ key + (prior.uncounted + (value + entries (prior + (key + value)) costs)) :=
        add_le_add le_rfl (le_add_of_nonneg_left (zero_le _))

end Cost

/-- A scanner that affords a cost affords a smaller one. -/
theorem Scanner.Affords.mono {limits : WireLimits} {scanner : Scanner} {a b : Cost}
    (h : scanner.Affords limits b) (hle : a ≤ b) : scanner.Affords limits a := by
  simp only [Affords, Cost.le_def] at *
  omega

/-- What is in a value costs no more than the value. -/
theorem bodyCost_le (value : Value) : bodyCost value ≤ costOf value := by
  rw [costOf_eq, ← add_assoc]
  exact le_add_of_nonneg_left (Cost.zero_le _)

/-- The items of an array cost no more than the array. -/
theorem sum_le_costOf_array (items : List Value) :
    (items.map costOf).sum ≤ costOf (.array items) :=
  (le_add_of_nonneg_left (Cost.zero_le _)).trans (bodyCost_le (.array items))

/-- The entries of a map cost no more than the map. -/
theorem sum_le_costOf_map (entries : List (Value × Value)) :
    (entries.map entryCost).sum ≤ costOf (.map entries) := by
  have hsum := Cost.sum_le_entries 0 (entries.map (Prod.map costOf costOf))
  rw [List.map_map] at hsum
  exact (hsum.trans (le_add_of_nonneg_left (Cost.zero_le _))).trans (bodyCost_le (.map entries))

/-- The value of an entry costs no more than the map. -/
theorem costOf_value_le {entries : List (Value × Value)} {entry : Value × Value}
    (h : entry ∈ entries) : costOf entry.2 ≤ costOf (.map entries) :=
  calc costOf entry.2
    _ ≤ entryCost entry := le_add_of_nonneg_left (Cost.zero_le _)
    _ ≤ (entries.map entryCost).sum :=
      List.single_le_sum (fun _ _ => Cost.zero_le _) _ (List.mem_map_of_mem h)
    _ ≤ costOf (.map entries) := sum_le_costOf_map entries

end Parts
end Lxmf
