import Mathlib.Data.List.AList

/-!
# Tables

Hash maps of a program, as association lists without repeated keys: inserting, changing and removing one entry, and
what these do to the list of all entries.  The order of the entries stands for the unspecified iteration order of a
hash map, so lists of entries are compared up to permutation.
-/

/-- A hash map from `α` to `β`. -/
abbrev Table (α β : Type) : Type := AList fun _ : α => β

namespace AList

variable {α β γ : Type}

/-- The entries of a table. -/
def toPairs (s : Table α β) : List (α × β) := s.entries.map fun e => (e.1, e.2)

/-- The number of entries. -/
def size (s : Table α β) : Nat := s.entries.length

/-- Changes the value of every entry. -/
def mapValues (s : Table α β) (f : β → γ) : Table α γ where
  entries := s.entries.map fun e => ⟨e.1, f e.2⟩
  nodupKeys := by
    have h := s.nodupKeys
    rw [List.NodupKeys, List.keys] at h ⊢
    simpa [List.map_map, Function.comp_def] using h

theorem size_eq_length (s : Table α β) : s.size = s.toPairs.length := by simp [size, toPairs]

@[simp] theorem toPairs_empty : (∅ : Table α β).toPairs = [] := rfl

theorem map_fst_toPairs (s : Table α β) : s.toPairs.map Prod.fst = s.keys := by
  simp [toPairs, keys, List.keys]

theorem toPairs_injective : Function.Injective (toPairs : Table α β → List (α × β)) := by
  intro s s' h
  refine ext (List.map_injective_iff.2 ?_ h)
  rintro ⟨a, v⟩ ⟨a', v'⟩ he
  cases he
  rfl

theorem toPairs_mapValues (s : Table α β) (f : β → γ) :
    (s.mapValues f).toPairs = s.toPairs.map fun p => (p.1, f p.2) := by
  simp [toPairs, mapValues, List.map_map, Function.comp_def]

variable [DecidableEq α] {s : Table α β} {a b : α} {v w : β}

theorem lookup_eq_some_iff : s.lookup a = some v ↔ (a, v) ∈ s.toPairs := by
  rw [← Option.mem_def, mem_lookup_iff, toPairs, List.mem_map]
  constructor
  · intro h
    exact ⟨⟨a, v⟩, h, rfl⟩
  · rintro ⟨⟨a', v'⟩, h, he⟩
    simp only [Prod.mk.injEq] at he
    obtain ⟨rfl, rfl⟩ := he
    exact h

theorem mem_of_lookup (h : s.lookup a = some v) : a ∈ s := by
  rw [← lookup_isSome, h]; rfl

theorem exists_lookup_of_mem (h : a ∈ s) : ∃ v, s.lookup a = some v :=
  Option.isSome_iff_exists.1 (lookup_isSome.2 h)

theorem lookup_mapValues (s : Table α β) (f : β → γ) (a : α) : (s.mapValues f).lookup a = (s.lookup a).map f := by
  ext w
  rw [lookup_eq_some_iff, toPairs_mapValues, List.mem_map, Option.map_eq_some_iff]
  constructor
  · rintro ⟨⟨a', v⟩, h, he⟩
    simp only [Prod.mk.injEq] at he
    obtain ⟨rfl, rfl⟩ := he
    exact ⟨v, lookup_eq_some_iff.2 h, rfl⟩
  · rintro ⟨v, h, rfl⟩
    exact ⟨(a, v), lookup_eq_some_iff.1 h, rfl⟩

/-! ### One entry and the others -/

/-- An entry that is found after an insertion is the new one, or was there before. -/
theorem lookup_insert_cases (h : (s.insert a v).lookup b = some w) : b = a ∧ w = v ∨ s.lookup b = some w := by
  by_cases hb : b = a
  · subst hb
    rw [lookup_insert, Option.some.injEq] at h
    exact Or.inl ⟨rfl, h.symm⟩
  · rw [lookup_insert_ne hb] at h
    exact Or.inr h

theorem lookup_of_erase (h : (s.erase a).lookup b = some w) : s.lookup b = some w := by
  by_cases hb : b = a
  · subst hb
    rw [lookup_erase] at h
    cases h
  · rwa [lookup_erase_ne hb] at h

private theorem kerase_perm {l : List (Sigma fun _ : α => β)} (h : (⟨a, v⟩ : Sigma fun _ : α => β) ∈ l)
    (hl : l.NodupKeys) : l.Perm (⟨a, v⟩ :: l.kerase a) := by
  induction l with
  | nil => simp at h
  | cons e l ih =>
    rcases List.mem_cons.1 h with he | h
    · subst he
      simp [List.kerase]
    · have hne : a ≠ e.1 := by
        intro he
        exact List.notMem_keys_of_nodupKeys_cons hl (he ▸ List.mem_keys_of_mem h)
      rw [List.kerase_cons_ne hne]
      exact ((ih h (List.nodupKeys_of_nodupKeys_cons hl)).cons e).trans (.swap ..)

/-- A table with an entry is that entry and the rest. -/
theorem toPairs_perm_erase (h : s.lookup a = some v) : s.toPairs.Perm ((a, v) :: (s.erase a).toPairs) :=
  (kerase_perm (mem_lookup_iff.1 h) s.nodupKeys).map _

/-- Inserting puts an entry in front of the entries under other keys. -/
theorem toPairs_insert (s : Table α β) (a : α) (v : β) :
    (s.insert a v).toPairs = (a, v) :: (s.erase a).toPairs := by
  unfold toPairs
  rw [entries_insert]
  rfl

theorem erase_of_notMem (h : a ∉ s) : s.erase a = s :=
  ext (List.kerase_of_notMem_keys h)

theorem toPairs_insert_of_notMem (h : a ∉ s) : (s.insert a v).toPairs = (a, v) :: s.toPairs := by
  rw [toPairs_insert, erase_of_notMem h]

theorem size_insert_of_notMem (h : a ∉ s) : (s.insert a v).size = s.size + 1 := by
  simp [size_eq_length, toPairs_insert_of_notMem h]

end AList
