import Mathlib.Data.List.Basic

/-!
# Length-delimited messages and a decoder's recursion budget

Of an encoded message only its nesting matters to a decoder that counts recursion: the messages it contains, each
decoded with one unit less of the budget.  A message is decodable within a budget exactly when its depth is at
most the budget (`decodable_iff`), and the depth of a message is bounded by bounding each message in it
(`depth_mk_le`).
-/

/-- A message as a decoder meets it: the messages nested in it, scalar fields left out. -/
inductive Message
  | mk (nested : List Message)

namespace Message

/-- A message without nested messages. -/
def leaf : Message := .mk []

/-- Decoding with a recursion budget: a nested message is decoded with one unit less, and meeting one with an empty
budget fails. -/
def decodable : Nat → Message → Bool
  | 0, .mk nested => nested.isEmpty
  | budget + 1, .mk nested => nested.all (decodable budget)

mutual
/-- The number of messages nested in one another below a message. -/
def depth : Message → Nat
  | .mk nested => depths nested
def depths : List Message → Nat
  | [] => 0
  | m :: ms => max (m.depth + 1) (depths ms)
end

private theorem depths_le {ms : List Message} {n : Nat} : depths ms ≤ n ↔ ∀ m ∈ ms, m.depth + 1 ≤ n := by
  induction ms with
  | nil => simp [depths]
  | cons m ms ih => simp only [depths, Nat.max_le, ih, List.forall_mem_cons]

theorem depth_mk_le {ms : List Message} {n : Nat} : (mk ms).depth ≤ n ↔ ∀ m ∈ ms, m.depth + 1 ≤ n := by
  rw [depth, depths_le]

@[simp] theorem depth_leaf : leaf.depth = 0 := by simp [leaf, depth, depths]

/-- A message is decodable within a budget exactly when the budget covers its depth. -/
theorem decodable_iff {budget : Nat} {m : Message} : decodable budget m = true ↔ m.depth ≤ budget := by
  induction budget generalizing m with
  | zero =>
    obtain ⟨ms⟩ := m
    rw [depth_mk_le]
    cases ms with
    | nil => simp [decodable]
    | cons m ms => exact ⟨fun h => by simp [decodable] at h, fun h => absurd (h m List.mem_cons_self) (by omega)⟩
  | succ budget ih =>
    obtain ⟨ms⟩ := m
    rw [depth_mk_le]
    simp only [decodable, List.all_eq_true, ih, Nat.add_le_add_iff_right]

end Message
