import Mathlib.Data.List.Basic

/-!
# Bytes of ASCII strings

A check of the UTF-8 bytes of a string that only ASCII bytes pass is a check of its characters (`all_utf8_iff`), and
the bytes of an ASCII string are its characters one by one (`utf8_eq_map`).
-/

namespace Ascii

/-- The byte of an ASCII character. -/
def byte (c : Char) : UInt8 := UInt8.ofNat c.toNat

private theorem utf8EncodeChar_of_lt {c : Char} (h : c.toNat < 128) : String.utf8EncodeChar c = [byte c] := by
  have hle : c.val.toNat ≤ 0x7f := Nat.le_of_lt_succ h
  unfold String.utf8EncodeChar
  simp only [hle, if_true]
  rfl

/-- A character beyond ASCII begins with a byte that is none. -/
theorem exists_byte_of_le {c : Char} (h : 128 ≤ c.toNat) : ∃ b ∈ String.utf8EncodeChar c, 128 ≤ b.toNat := by
  have hvalid := c.valid
  simp only [UInt32.isValidChar, Nat.isValidChar] at hvalid
  have hlt : ¬ c.val.toNat ≤ 0x7f := Nat.not_le.2 h
  unfold String.utf8EncodeChar
  simp only [hlt, if_false]
  split_ifs
  all_goals
    refine ⟨_, List.mem_cons_self, ?_⟩
    rw [UInt8.toNat_ofNat']
    omega

private theorem toList_loop (bytes : ByteArray) (i : Nat) (r : List UInt8) :
    ByteArray.toList.loop bytes i r = r.reverse ++ bytes.data.toList.drop i := by
  fun_induction ByteArray.toList.loop with
  | case1 i r hlt ih =>
    have hi : i < bytes.data.toList.length := hlt
    have hget : bytes.get! i = bytes.data.toList[i] := getElem!_pos bytes.data i hlt
    rw [ih, List.reverse_cons, List.append_assoc, hget, List.singleton_append,
      ← List.drop_eq_getElem_cons hi]
  | case2 i r hge =>
    have hi : bytes.data.toList.length ≤ i := Nat.le_of_not_lt hge
    rw [List.drop_eq_nil_of_le hi, List.append_nil]

theorem toUTF8_toList (s : String) : s.toUTF8.toList = s.toList.flatMap String.utf8EncodeChar := by
  rw [String.toUTF8_eq_toByteArray, ← String.utf8Encode_toList, ByteArray.toList, toList_loop]
  simp [List.utf8Encode]

theorem utf8ByteSize_eq (s : String) : s.utf8ByteSize = (s.toList.flatMap String.utf8EncodeChar).length := by
  change s.toByteArray.size = _
  rw [← String.utf8Encode_toList]
  exact List.size_toByteArray

variable {p : UInt8 → Bool} {l : List Char}

/-- Where only ASCII bytes pass, only ASCII characters do. -/
theorem all_utf8_iff (hp : ∀ b, p b = true → b.toNat < 128) :
    (∀ b ∈ l.flatMap String.utf8EncodeChar, p b = true) ↔ ∀ c ∈ l, c.toNat < 128 ∧ p (byte c) = true := by
  constructor
  · intro hall c hc
    have hchar : ∀ b ∈ String.utf8EncodeChar c, p b = true := fun b hb => hall b (List.mem_flatMap.2 ⟨c, hc, hb⟩)
    have hlt : c.toNat < 128 := by
      by_contra hge
      obtain ⟨b, hb, hle⟩ := exists_byte_of_le (Nat.le_of_not_lt hge)
      have hascii := hp b (hchar b hb)
      omega
    rw [utf8EncodeChar_of_lt hlt] at hchar
    exact ⟨hlt, hchar _ (List.mem_singleton.2 rfl)⟩
  · intro hall b hb
    obtain ⟨c, hc, hb⟩ := List.mem_flatMap.1 hb
    obtain ⟨hlt, hpass⟩ := hall c hc
    rw [utf8EncodeChar_of_lt hlt] at hb
    rwa [List.mem_singleton.1 hb]

theorem utf8_eq_map (h : ∀ c ∈ l, c.toNat < 128) : l.flatMap String.utf8EncodeChar = l.map byte := by
  induction l with
  | nil => rfl
  | cons c l ih =>
    rw [List.flatMap_cons, utf8EncodeChar_of_lt (h c (by simp)), ih fun c' hc' => h c' (by simp [hc'])]
    rfl

/-- What holds of all ASCII characters, by their numbers. -/
theorem forall_lt {P : Char → Prop} (h : ∀ n < 128, P (Char.ofNat n)) {c : Char} (hc : c.toNat < 128) : P c := by
  have hP := h c.toNat hc
  rwa [Char.ofNat_toNat] at hP

end Ascii
