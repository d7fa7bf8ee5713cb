import Mathlib.Data.List.Lex
import Mathlib.Order.Lattice

/-!
# Ordered maps

A map as the list of its bindings in strictly ascending key order. The order makes the
list canonical, so two maps with the same lookups are equal, and iteration is the list.
-/

/-- A finite map whose bindings are iterated in ascending key order. -/
structure BTreeMap (κ ν : Type) [LinearOrder κ] where
  entries : List (κ × ν)
  sorted : entries.Pairwise (·.1 < ·.1)
  deriving DecidableEq

namespace BTreeMap

variable {κ ν : Type} [LinearOrder κ]

/-- The map with no bindings. -/
def empty : BTreeMap κ ν := ⟨[], List.Pairwise.nil⟩

/-- The value bound to a key. -/
def get? (m : BTreeMap κ ν) (key : κ) : Option ν :=
  (m.entries.find? (·.1 = key)).map (·.2)

/-- The values in ascending key order. -/
def values (m : BTreeMap κ ν) : List ν := m.entries.map (·.2)

/-- Bind a key in a list of bindings. -/
def insertEntries (key : κ) (value : ν) : List (κ × ν) → List (κ × ν)
  | [] => [(key, value)]
  | (first, old) :: rest =>
    if key < first then (key, value) :: (first, old) :: rest
    else if key = first then (key, value) :: rest
    else (first, old) :: insertEntries key value rest

/-- An entry after an insertion is the inserted one or an old one. -/
theorem mem_insertEntries {key : κ} {value : ν} {entry : κ × ν} {entries : List (κ × ν)}
    (h : entry ∈ insertEntries key value entries) : entry = (key, value) ∨ entry ∈ entries := by
  induction entries with
  | nil => simpa [insertEntries] using h
  | cons head rest ih =>
    unfold insertEntries at h
    split_ifs at h <;> simp only [List.mem_cons] at h ⊢ <;> tauto

/-- An insertion keeps the entries sorted. -/
theorem sorted_insertEntries {key : κ} {value : ν} {entries : List (κ × ν)}
    (h : entries.Pairwise (·.1 < ·.1)) :
    (insertEntries key value entries).Pairwise (·.1 < ·.1) := by
  induction entries with
  | nil => simp [insertEntries]
  | cons head rest ih =>
    rw [List.pairwise_cons] at h
    unfold insertEntries
    split_ifs with hlt heq
    · refine List.pairwise_cons.mpr ⟨fun entry hentry => ?_, List.pairwise_cons.mpr h⟩
      rcases List.mem_cons.mp hentry with rfl | hentry
      · exact hlt
      · exact hlt.trans (h.1 entry hentry)
    · exact List.pairwise_cons.mpr ⟨fun entry hentry => heq ▸ h.1 entry hentry, h.2⟩
    · refine List.pairwise_cons.mpr ⟨fun entry hentry => ?_, ih h.2⟩
      rcases mem_insertEntries hentry with rfl | hmem
      · exact lt_of_le_of_ne (not_lt.mp hlt) (Ne.symm heq)
      · exact h.1 entry hmem

/-- Bind a key, replacing its earlier value. -/
def insert (m : BTreeMap κ ν) (key : κ) (value : ν) : BTreeMap κ ν :=
  ⟨insertEntries key value m.entries, sorted_insertEntries m.sorted⟩

/-- Drop a key. -/
def remove (m : BTreeMap κ ν) (key : κ) : BTreeMap κ ν :=
  ⟨m.entries.filter (·.1 ≠ key), m.sorted.filter _⟩

/-- Replace the value of a bound key. -/
def modify (m : BTreeMap κ ν) (key : κ) (change : ν → ν) : BTreeMap κ ν :=
  match m.get? key with
  | some value => m.insert key (change value)
  | none => m

/-- A lookup finds exactly the bindings of the list. -/
theorem get?_eq_some {m : BTreeMap κ ν} {key : κ} {value : ν} :
    m.get? key = some value ↔ (key, value) ∈ m.entries := by
  obtain ⟨entries, hsorted⟩ := m
  simp only [get?]
  induction entries with
  | nil => simp
  | cons head rest ih =>
    rw [List.pairwise_cons] at hsorted
    by_cases hkey : head.1 = key
    · have hrest : (key, value) ∉ rest := fun hmem => absurd (hsorted.1 _ hmem) (by simp [hkey])
      obtain ⟨first, old⟩ := head
      simp only at hkey
      subst hkey
      simp [hrest, eq_comm]
    · have hhead : (key, value) ≠ head := fun h => hkey (by rw [← h])
      simp [hkey, hhead, ih hsorted.2]

/-- Maps with the same lookups are equal. -/
@[ext] theorem ext {m m' : BTreeMap κ ν} (h : ∀ key, m.get? key = m'.get? key) : m = m' := by
  obtain ⟨entries, hsorted⟩ := m
  obtain ⟨entries', hsorted'⟩ := m'
  have hmem : ∀ entry, entry ∈ entries ↔ entry ∈ entries' := fun entry =>
    ((@get?_eq_some _ _ _ ⟨entries, hsorted⟩ entry.1 entry.2).symm.trans (by rw [h])).trans
      (@get?_eq_some _ _ _ ⟨entries', hsorted'⟩ entry.1 entry.2)
  congr 1
  have hnodup : ∀ {l : List (κ × ν)}, l.Pairwise (·.1 < ·.1) → l.Nodup := fun h =>
    h.imp fun hlt heq => absurd hlt (by simp [heq])
  exact List.Perm.eq_of_pairwise (fun _ _ _ _ hlt hlt' => absurd hlt' hlt.asymm) hsorted hsorted'
    ((List.perm_ext_iff_of_nodup (hnodup hsorted) (hnodup hsorted')).mpr hmem)

/-- The list after binding a key. -/
theorem mem_insertEntries_iff {key : κ} {value : ν} {entry : κ × ν} {entries : List (κ × ν)}
    (h : entries.Pairwise (·.1 < ·.1)) :
    entry ∈ insertEntries key value entries ↔
      entry = (key, value) ∨ entry.1 ≠ key ∧ entry ∈ entries := by
  induction entries with
  | nil => simp [insertEntries]
  | cons head rest ih =>
    rw [List.pairwise_cons] at h
    have hafter : ∀ entry ∈ rest, head.1 < entry.1 := h.1
    unfold insertEntries
    split_ifs with hlt heq
    · have hne : ∀ entry ∈ head :: rest, entry.1 ≠ key := by
        intro entry hentry heq
        rcases List.mem_cons.mp hentry with rfl | hmem
        · exact absurd hlt (by simp [heq])
        · exact absurd (hlt.trans (hafter entry hmem)) (by simp [heq])
      simp only [List.mem_cons] at hne ⊢
      grind
    · have hne : ∀ entry ∈ rest, entry.1 ≠ key := fun entry hmem heq' =>
        absurd (hafter entry hmem) (by simp [heq', heq])
      simp only [List.mem_cons]
      grind
    · simp only [List.mem_cons, ih h.2]
      grind

/-- The empty map has no value at any key. -/
@[simp] theorem get?_empty (key : κ) : (empty : BTreeMap κ ν).get? key = none := rfl

/-- The empty map has no values. -/
@[simp] theorem values_empty : (empty : BTreeMap κ ν).values = [] := rfl

/-- An insertion changes the value at its key only. -/
@[grind =] theorem get?_insert {m : BTreeMap κ ν} {key k : κ} {value : ν} :
    (m.insert key value).get? k = if k = key then some value else m.get? k := by
  ext v
  rw [get?_eq_some, insert, mem_insertEntries_iff m.sorted]
  split_ifs with hkey
  · simp [hkey, eq_comm]
  · simp [hkey, get?_eq_some]

/-- An insertion puts its value at its key. -/
@[simp] theorem get?_insert_self {m : BTreeMap κ ν} {key : κ} {value : ν} :
    (m.insert key value).get? key = some value := by
  simp [get?_insert]

/-- A removal takes away the value at its key only. -/
@[grind =] theorem get?_remove {m : BTreeMap κ ν} {key k : κ} :
    (m.remove key).get? k = if k = key then none else m.get? k := by
  ext v
  rw [get?_eq_some, remove, List.mem_filter]
  split_ifs with hkey
  · simp [hkey]
  · simp [hkey, get?_eq_some]

/-- A modification changes the value at its key only. -/
@[grind =] theorem get?_modify {m : BTreeMap κ ν} {key k : κ} {change : ν → ν} :
    (m.modify key change).get? k = if k = key then (m.get? k).map change else m.get? k := by
  unfold modify
  split <;> rename_i h
  · rw [get?_insert]
    split_ifs with hkey <;> simp [hkey, h]
  · split_ifs with hkey <;> simp [hkey, h]

/-- A key that is bound again need not be dropped. -/
theorem insert_remove {m : BTreeMap κ ν} {key : κ} {value : ν} :
    (m.remove key).insert key value = m.insert key value := by
  ext k : 1
  rw [get?_insert, get?_insert, get?_remove]
  split_ifs <;> rfl

/-- The values of a map are those at its keys. -/
theorem mem_values {m : BTreeMap κ ν} {value : ν} :
    value ∈ m.values ↔ ∃ key, m.get? key = some value := by
  simp [values, get?_eq_some]

/-- The values of a map that is filed by a key have ascending keys. -/
theorem pairwise_values {m : BTreeMap κ ν} {key : ν → κ}
    (hkey : ∀ k v, m.get? k = some v → key v = k) : m.values.Pairwise fun v w => key v < key w := by
  rw [values, List.pairwise_map]
  refine m.sorted.imp_of_mem ?_
  intro entry entry' hentry hentry' hlt
  rw [hkey entry.1 entry.2 (get?_eq_some.mpr hentry),
    hkey entry'.1 entry'.2 (get?_eq_some.mpr hentry')]
  exact hlt

section Induced

variable {α : Type} {key : α → Option κ} {value : α → ν} {m m' : BTreeMap κ ν} {l : List α}

/-- The map that a list induces by a key and a value. -/
def Induced (m : BTreeMap κ ν) (key : α → Option κ) (value : α → ν) (l : List α) : Prop :=
  ∀ k v, m.get? k = some v ↔ ∃ a ∈ l, key a = some k ∧ value a = v

/-- The empty map is induced by no rows. -/
theorem induced_empty : Induced (empty : BTreeMap κ ν) key value [] := by
  simp [Induced]

/-- The rows determine the map that they induce. -/
theorem Induced.eq (h : Induced m key value l) (h' : Induced m' key value l) : m = m' := by
  ext k v
  rw [h, h']

/-- A key that no entry has is not bound. -/
theorem Induced.fresh (h : Induced m key value l) {k : κ} (hfresh : ∀ b ∈ l, key b ≠ some k) :
    m.get? k = none := by
  rw [Option.eq_none_iff_forall_ne_some]
  intro v hget
  obtain ⟨a, hmem, hkey, -⟩ := (h k v).mp hget
  exact hfresh a hmem hkey

/-- One more entry is bound. -/
theorem Induced.insert (h : Induced m key value l) {a : α} {k : κ} (hkey : key a = some k)
    (hfresh : ∀ b ∈ l, key b ≠ some k) :
    Induced (m.insert k (value a)) key value (l ++ [a]) := by
  intro k' v
  rw [get?_insert]
  simp only [List.mem_append, List.mem_singleton, or_and_right, exists_or, exists_eq_left, ← h k' v,
    hkey]
  split_ifs with heq
  · subst heq
    rw [h.fresh hfresh]
    simp
  · simp [Ne.symm heq]

/-- An entry without a key changes nothing. -/
theorem Induced.skip (h : Induced m key value l) {a : α} (hkey : key a = none) :
    Induced m key value (l ++ [a]) := by
  intro k v
  rw [h k v]
  simp [or_and_right, exists_or, hkey]

/-- A map that is filed by a key is induced by its values. -/
theorem induced_values {m : BTreeMap κ ν} {key : ν → κ}
    (hkey : ∀ k v, m.get? k = some v → key v = k) :
    Induced m (fun v => some (key v)) id m.values := by
  intro k v
  simp only [mem_values, Option.some.injEq, id, exists_eq_right_right]
  constructor
  · exact fun hget => ⟨⟨k, hget⟩, hkey k v hget⟩
  · rintro ⟨⟨k', hget⟩, hsame⟩
    rwa [← hsame, hkey k' v hget]

end Induced

end BTreeMap
