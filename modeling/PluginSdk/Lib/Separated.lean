import Mathlib

/-!
# Lists with separators at fixed places

`join sep sizes t` writes `sep` after each of the first groups of `t`, whose lengths are `sizes`; the rest of `t`
follows.  `strip sizes` takes the separators out again: it undoes `join` (`strip_join`), and is undone by it on a list
with separators at all `positions` (`join_strip`).
-/

namespace Separated

variable {α : Type*} {sep a : α} {sizes : List Nat} {s t : List α}

def join (sep : α) : List Nat → List α → List α
  | [], t => t
  | size :: sizes, t => t.take size ++ sep :: join sep sizes (t.drop size)

def strip : List Nat → List α → List α
  | [], s => s
  | size :: sizes, s => s.take size ++ strip sizes (s.drop (size + 1))

/-- Where `join` writes the separators. -/
def positions : List Nat → List Nat
  | [] => []
  | size :: sizes => size :: (positions sizes).map (size + 1 + ·)

/-- Where `join` writes the element of index `j`. -/
def place : List Nat → Nat → Nat
  | [], j => j
  | size :: sizes, j => if j < size then j else size + 1 + place sizes (j - size)

theorem length_join (h : sizes.sum ≤ t.length) : (join sep sizes t).length = t.length + sizes.length := by
  induction sizes generalizing t with
  | nil => rfl
  | cons size sizes ih =>
    rw [List.sum_cons] at h
    rw [join, List.length_append, List.length_take, List.length_cons, List.length_cons,
      ih (by rw [List.length_drop]; omega), List.length_drop]
    omega

theorem length_strip (h : ∀ i ∈ positions sizes, i < s.length) :
    (strip sizes s).length + sizes.length = s.length := by
  induction sizes generalizing s with
  | nil => rfl
  | cons size sizes ih =>
    have hat : size < s.length := h size List.mem_cons_self
    have hrest : ∀ i ∈ positions sizes, i < (s.drop (size + 1)).length := by
      intro i hi
      have hlt := h _ (List.mem_cons_of_mem _ (List.mem_map_of_mem hi))
      rw [List.length_drop]
      omega
    have hlength := ih hrest
    rw [List.length_drop] at hlength
    rw [strip, List.length_append, List.length_take, List.length_cons]
    omega

theorem strip_join (h : sizes.sum ≤ t.length) : strip sizes (join sep sizes t) = t := by
  induction sizes generalizing t with
  | nil => rfl
  | cons size sizes ih =>
    rw [List.sum_cons] at h
    have hsize : (t.take size).length = size := by
      rw [List.length_take]
      omega
    have hdrop : (t.take size ++ sep :: join sep sizes (t.drop size)).drop (size + 1) =
        join sep sizes (t.drop size) := by
      rw [← List.drop_drop, List.drop_left' hsize]
      rfl
    rw [join, strip, List.take_left' hsize, hdrop, ih (by rw [List.length_drop]; omega), List.take_append_drop]

theorem join_strip (h : ∀ i ∈ positions sizes, s[i]? = some sep) : join sep sizes (strip sizes s) = s := by
  induction sizes generalizing s with
  | nil => rfl
  | cons size sizes ih =>
    have hat : s[size]? = some sep := h size List.mem_cons_self
    have hrest : ∀ i ∈ positions sizes, (s.drop (size + 1))[i]? = some sep := by
      intro i hi
      rw [List.getElem?_drop]
      exact h _ (List.mem_cons_of_mem _ (List.mem_map_of_mem hi))
    obtain ⟨hlt, hsep⟩ := List.getElem?_eq_some_iff.1 hat
    have hsize : (s.take size).length = size := by
      rw [List.length_take]
      omega
    rw [strip, join, List.take_left' hsize, List.drop_left' hsize, ih hrest, ← hsep, ← List.drop_eq_getElem_cons hlt,
      List.take_append_drop]

/-- The elements that are not separators stay. -/
theorem mem_strip : a ∈ strip sizes s ↔ ∃ i, i ∉ positions sizes ∧ s[i]? = some a := by
  induction sizes generalizing s with
  | nil => simp [strip, positions, List.mem_iff_getElem?]
  | cons size sizes ih =>
    have hposition : ∀ i, i ∉ positions (size :: sizes) ↔ i ≠ size ∧ ∀ j ∈ positions sizes, size + 1 + j ≠ i := by
      simp [positions]
    simp only [strip, List.mem_append, ih, hposition, List.getElem?_drop]
    constructor
    · rintro (hfirst | ⟨j, hj, hat⟩)
      · obtain ⟨i, hi⟩ := List.mem_iff_getElem?.1 hfirst
        rw [List.getElem?_take] at hi
        split at hi
        · exact ⟨i, ⟨by omega, fun j _ => by omega⟩, hi⟩
        · cases hi
      · refine ⟨size + 1 + j, ⟨by omega, fun k hk he => hj ?_⟩, hat⟩
        rwa [← Nat.add_left_cancel he]
    · rintro ⟨i, ⟨hne, hrest⟩, hat⟩
      rcases Nat.lt_or_gt_of_ne hne with hlt | hgt
      · refine Or.inl (List.mem_iff_getElem?.2 ⟨i, ?_⟩)
        rwa [List.getElem?_take_of_lt hlt]
      · have hi : size + 1 + (i - (size + 1)) = i := by omega
        exact Or.inr ⟨i - (size + 1), fun hmem => hrest _ hmem hi, by rwa [hi]⟩

theorem getElem?_place (h : sizes.sum ≤ t.length) (j : Nat) : (join sep sizes t)[place sizes j]? = t[j]? := by
  induction sizes generalizing t j with
  | nil => rfl
  | cons size sizes ih =>
    rw [List.sum_cons] at h
    have hsize : (t.take size).length = size := by
      rw [List.length_take]
      omega
    rw [join, place]
    by_cases hj : j < size
    · rw [if_pos hj, List.getElem?_append_left (by omega), List.getElem?_take_of_lt hj]
    · rw [if_neg hj, List.getElem?_append_right (by omega), hsize,
        show size + 1 + place sizes (j - size) - size = place sizes (j - size) + 1 by omega, List.getElem?_cons_succ,
        ih (by rw [List.length_drop]; omega), List.getElem?_drop, show size + (j - size) = j by omega]

theorem getElem?_of_mem_positions (h : sizes.sum ≤ t.length) :
    ∀ i ∈ positions sizes, (join sep sizes t)[i]? = some sep := by
  induction sizes generalizing t with
  | nil => simp [positions]
  | cons size sizes ih =>
    rw [List.sum_cons] at h
    have hsize : (t.take size).length = size := by
      rw [List.length_take]
      omega
    intro i hi
    rw [join]
    rcases List.mem_cons.1 hi with rfl | hi
    · rw [List.getElem?_append_right (by omega), hsize, Nat.sub_self]
      rfl
    · obtain ⟨j, hj, rfl⟩ := List.mem_map.1 hi
      rw [List.getElem?_append_right (by omega), hsize, show size + 1 + j - size = j + 1 by omega,
        List.getElem?_cons_succ]
      exact ih (by rw [List.length_drop]; omega) j hj

end Separated
