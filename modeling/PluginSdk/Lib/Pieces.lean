import Mathlib.Data.List.Basic

/-!
# Cutting a list into pieces

`cut size l` cuts `l` into pieces of `size` elements, of which the last may be shorter.  The pieces make up the list
(`flatten_cut`), none is empty or too long (`mem_cut`), and all but the last have exactly the size
(`mem_dropLast_cut`).  The recursion goes over the number of pieces that are still to be taken, as a loop over them
does (`pieces`).
-/

namespace Pieces

variable {α : Type*} {size count : Nat} {l : List α}

/-- The first `count` pieces. -/
def pieces (size : Nat) : Nat → List α → List (List α)
  | 0, _ => []
  | count + 1, l => l.take size :: pieces size count (l.drop size)

/-- How many pieces there are. -/
def number (size length : Nat) : Nat := (length + (size - 1)) / size

def cut (size : Nat) (l : List α) : List (List α) := pieces size (number size l.length) l

/-- So many pieces are enough, and each of them has an element. -/
structure Covers (size count : Nat) (l : List α) : Prop where
  enough : l.length ≤ count * size
  needed : ∀ fewer, fewer < count → fewer * size < l.length

theorem length_pieces (count : Nat) (l : List α) : (pieces size count l).length = count := by
  induction count generalizing l with
  | zero => rfl
  | succ count ih => rw [pieces, List.length_cons, ih]

namespace Covers

theorem pos (h : Covers size (count + 1) l) : 0 < l.length := by
  have hneeded := h.needed 0 (Nat.succ_pos count)
  omega

theorem drop (h : Covers size (count + 1) l) : Covers size count (l.drop size) := by
  have henough := h.enough
  rw [Nat.succ_mul] at henough
  constructor
  · rw [List.length_drop]
    omega
  · intro fewer hfewer
    have hneeded := h.needed (fewer + 1) (by omega)
    rw [Nat.succ_mul] at hneeded
    rw [List.length_drop]
    omega

private theorem flatten (h : Covers size count l) : (pieces size count l).flatten = l := by
  induction count generalizing l with
  | zero =>
    have henough := h.enough
    rw [Nat.zero_mul, Nat.le_zero, List.length_eq_zero_iff] at henough
    rw [henough]
    rfl
  | succ count ih => rw [pieces, List.flatten_cons, ih h.drop, List.take_append_drop]

private theorem mem (hsize : 0 < size) (h : Covers size count l) {p : List α} (hp : p ∈ pieces size count l) :
    p ≠ [] ∧ p.length ≤ size := by
  induction count generalizing l with
  | zero => cases hp
  | succ count ih =>
    rcases List.mem_cons.1 hp with rfl | hp
    · have hpos := h.pos
      rw [← List.length_pos_iff, List.length_take]
      omega
    · exact ih h.drop hp

private theorem mem_dropLast (h : Covers size count l) {p : List α} (hp : p ∈ (pieces size count l).dropLast) :
    p.length = size := by
  induction count generalizing l with
  | zero => cases hp
  | succ count ih =>
    cases count with
    | zero => cases hp
    | succ count =>
      change p ∈ (l.take size :: pieces size (count + 1) (l.drop size)).dropLast at hp
      rw [List.dropLast_cons_of_ne_nil (by simp [pieces])] at hp
      rcases List.mem_cons.1 hp with rfl | hp
      · have hneeded := h.needed 1 (by omega)
        rw [List.length_take]
        omega
      · exact ih h.drop hp

end Covers

/-- An index is that of a piece if something is left when the pieces before it have been taken. -/
theorem lt_number_iff (hsize : 0 < size) {i length : Nat} : i < number size length ↔ i * size < length := by
  unfold number
  rw [← Nat.succ_le_iff, Nat.le_div_iff_mul_le hsize, Nat.succ_mul]
  omega

theorem covers_number (hsize : 0 < size) (l : List α) : Covers size (number size l.length) l := by
  constructor
  · by_contra hmore
    exact Nat.lt_irrefl _ ((lt_number_iff hsize).2 (Nat.lt_of_not_le hmore))
  · intro fewer hfewer
    exact (lt_number_iff hsize).1 hfewer

/-! ### The cut -/

theorem length_cut (l : List α) : (cut size l).length = number size l.length := length_pieces _ _

theorem flatten_cut (hsize : 0 < size) (l : List α) : (cut size l).flatten = l := (covers_number hsize l).flatten

theorem mem_cut (hsize : 0 < size) {p : List α} (hp : p ∈ cut size l) : p ≠ [] ∧ p.length ≤ size :=
  (covers_number hsize l).mem hsize hp

theorem mem_dropLast_cut (hsize : 0 < size) {p : List α} (hp : p ∈ (cut size l).dropLast) : p.length = size :=
  (covers_number hsize l).mem_dropLast hp

end Pieces
