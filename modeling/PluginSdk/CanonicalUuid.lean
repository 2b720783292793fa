import PluginSdk.Artifact
import PluginSdk.Lib.Separated

/-!
# Canonical UUIDs

The `uuid` crate accepts a UUID in four spellings, with digits in either case (`Uuid.Spelling`).
`canonical_uuid_v4` compares the text with the crate's own rendering of what it has parsed, which leaves one
spelling of each UUID (`UuidCrate.canonicalUuidV4_iff`), and reads the version.  It does not read the variant, so it
is wrong about the texts that are no UUIDs of version 4 for their variant alone (`canonicalUuidV4_correct_iff`).
-/

namespace PluginSdk

open Separated

/-! ### The crate -/

namespace Uuid

/-- The groups of digits that a hyphen follows. -/
def groups : List Nat := [8, 4, 4, 4]

/-- The text has the digits of the UUID, in either case. -/
def WrittenAs (id : Uuid) (t : List Char) : Prop := t.map hexDigit = id.digits.map some

/-- The spellings that `Uuid::parse_str` accepts. -/
inductive Spelling (id : Uuid) : List Char → Prop
  | simple {t : List Char} : id.WrittenAs t → Spelling id t
  | hyphenated {t : List Char} : id.WrittenAs t → Spelling id (join '-' groups t)
  | braced {t : List Char} : id.WrittenAs t → Spelling id ('{' :: join '-' groups t ++ ['}'])
  | urn {t : List Char} : id.WrittenAs t → Spelling id ("urn:uuid:".toList ++ join '-' groups t)

/-- The lowercase hyphenated form. -/
def rendered (id : Uuid) : String := String.ofList (join '-' groups (id.digits.map digitChar))

/-- The version is 4, and the variant that of RFC 9562: the high bits of byte 8 are `10`. -/
def IsV4 (id : Uuid) : Prop := id.version.map Fin.val = some 4 ∧ ∃ d, id.digits[16]? = some d ∧ d.val / 4 = 2

end Uuid

/-- What the SDK uses of the `uuid` crate; a version is given by its number. -/
structure UuidCrate where
  parseStr : String → Option Uuid
  getVersion : Uuid → Option Nat
  hyphenated : Uuid → String

namespace UuidCrate

def canonicalUuidV4 (crate : UuidCrate) (value : String) : Bool :=
  match crate.parseStr value with
  | some id => crate.getVersion id == some 4 && crate.hyphenated id == value
  | none => false

/-- The crate does what it documents. -/
structure Documented (crate : UuidCrate) : Prop where
  parseStr : ∀ s id, crate.parseStr s = some id ↔ id.Spelling s.toList
  getVersion : ∀ id, crate.getVersion id = some 4 ↔ id.digits[12]? = some 4
  hyphenated : ∀ id, crate.hyphenated id = id.rendered

/-- The crate as the validation of the host's messages models it. -/
def model : UuidCrate := ⟨Uuid.parseStr, fun id => id.version.map Fin.val, Uuid.hyphenated⟩

end UuidCrate

/-! ### Digits -/

namespace Uuid

private theorem hexDigit_digitChar : ∀ d, hexDigit (digitChar d) = some d := by decide

private theorem digitChar_injective : Function.Injective digitChar := fun a b h =>
  Option.some.inj (by rw [← hexDigit_digitChar, h, hexDigit_digitChar])

private theorem writtenAs_digitChar (id : Uuid) : id.WrittenAs (id.digits.map digitChar) := by
  unfold WrittenAs
  rw [List.map_map]
  exact List.map_congr_left fun d _ => hexDigit_digitChar d

/-! ### The parser -/

private theorem mapM_eq_some_iff {α β : Type} {f : α → Option β} {l : List α} {r : List β} :
    l.mapM f = some r ↔ l.map f = r.map some := by
  induction l generalizing r with
  | nil => cases r <;> simp
  | cons a l ih =>
    cases hb : f a with
    | none => cases r <;> simp [hb]
    | some b => cases r with
      | nil => cases hl : l.mapM f <;> simp [hb, hl]
      | cons c r => cases hl : l.mapM f <;> simp [hb, hl, ← ih]

private theorem parseSimple_eq_some {s : List Char} {id : Uuid} : parseSimple s = some id ↔ id.WrittenAs s := by
  unfold WrittenAs
  rw [← mapM_eq_some_iff]
  unfold parseSimple
  cases hdigits : s.mapM hexDigit with
  | none => simp
  | some digits =>
    by_cases hlength : digits.length = 32
    · simp only [dif_pos hlength, Option.some.injEq]
      constructor
      · rintro rfl
        rfl
      · rintro rfl
        rfl
    · simp only [dif_neg hlength, Option.some.injEq, false_iff, reduceCtorEq]
      rintro rfl
      exact hlength id.length_digits

private theorem WrittenAs.length {t : List Char} {id : Uuid} (ht : id.WrittenAs t) : t.length = 32 := by
  have hlength := congrArg List.length ht
  rwa [List.length_map, List.length_map, id.length_digits] at hlength

private theorem WrittenAs.sum_groups_le {t : List Char} {id : Uuid} (ht : id.WrittenAs t) :
    groups.sum ≤ t.length := by
  rw [ht.length]
  decide

section Digits

variable {t : List Char} {id : Uuid}

private theorem WrittenAs.length_join (ht : id.WrittenAs t) : (join '-' groups t).length = 36 := by
  rw [Separated.length_join ht.sum_groups_le, ht.length]
  rfl

private theorem parseHyphenated_eq_some {s : List Char} :
    parseHyphenated s = some id ↔ ∃ t, id.WrittenAs t ∧ s = join '-' groups t := by
  have hpositions : (∀ i ∈ positions groups, s[i]? = some '-') ↔
      s[8]? = some '-' ∧ s[13]? = some '-' ∧ s[18]? = some '-' ∧ s[23]? = some '-' := by
    simp [groups, positions]
  have hstrip : s.take 8 ++ (s.drop 9).take 4 ++ (s.drop 14).take 4 ++ (s.drop 19).take 4 ++ s.drop 24 =
      strip groups s := by
    simp [groups, strip]
  unfold parseHyphenated
  rw [hstrip]
  constructor
  · intro h
    split at h
    · rename_i hs
      exact ⟨strip groups s, parseSimple_eq_some.1 h, (join_strip (hpositions.2 hs.2)).symm⟩
    · cases h
  · rintro ⟨t, ht, rfl⟩
    rw [if_pos ⟨ht.length_join, hpositions.1 (getElem?_of_mem_positions ht.sum_groups_le)⟩,
      strip_join ht.sum_groups_le]
    exact parseSimple_eq_some.2 ht

private theorem parseHyphenated_join (ht : id.WrittenAs t) : parseHyphenated (join '-' groups t) = some id :=
  parseHyphenated_eq_some.2 ⟨t, ht, rfl⟩

/-- A text in braces is what they enclose, between them. -/
private theorem eq_of_braces {s : List Char} (hlength : s.length = 38) (hhead : s.head? = some '{')
    (hlast : s.getLast? = some '}') : s = '{' :: (s.drop 1).dropLast ++ ['}'] := by
  obtain ⟨tail, rfl⟩ := List.head?_eq_some_iff.1 hhead
  have htail : tail ≠ [] := by
    rintro rfl
    cases hlength
  rw [List.getLast?_cons_of_ne_nil htail] at hlast
  obtain ⟨inner, rfl⟩ := List.getLast?_eq_some_iff.1 hlast
  rw [List.drop_one, List.tail_cons, List.dropLast_concat]
  rfl

private theorem parseStr_eq_some {s : String} : parseStr s = some id ↔ id.Spelling s.toList := by
  unfold parseStr
  generalize s.toList = s
  constructor
  · intro h
    simp only at h
    split at h
    · exact .simple (parseSimple_eq_some.1 h)
    · split at h
      · obtain ⟨t, ht, rfl⟩ := parseHyphenated_eq_some.1 h
        exact .hyphenated ht
      · split at h
        · rename_i hbraces
          obtain ⟨t, ht, hs⟩ := parseHyphenated_eq_some.1 h
          rw [eq_of_braces hbraces.1 hbraces.2.1 hbraces.2.2, hs]
          exact .braced ht
        · split at h
          · rename_i hurn
            obtain ⟨t, ht, hs⟩ := parseHyphenated_eq_some.1 h
            obtain ⟨r, rfl⟩ := List.isPrefixOf_iff_prefix.1 hurn
            rw [show ("urn:uuid:".toList ++ r).drop 9 = r from rfl] at hs
            rw [hs]
            exact .urn ht
          · cases h
  · intro h
    cases h with
    | simple ht =>
      rw [if_pos (ht.length)]
      exact parseSimple_eq_some.2 ht
    | hyphenated ht =>
      have hlength := ht.length_join
      rw [if_neg (by omega), if_pos hlength]
      exact parseHyphenated_join ht
    | @braced t ht =>
      have hlength : ('{' :: join '-' groups t ++ ['}']).length = 38 := by
        rw [List.length_append, List.length_cons, ht.length_join]
        rfl
      rw [if_neg (by omega), if_neg (by omega), if_pos ⟨hlength, rfl, List.getLast?_concat⟩, List.cons_append,
        List.drop_one, List.tail_cons, List.dropLast_concat]
      exact parseHyphenated_join ht
    | @urn t ht =>
      have hlength : ("urn:uuid:".toList ++ join '-' groups t).length = 45 := by
        rw [List.length_append, ht.length_join]
        rfl
      rw [if_neg (by omega), if_neg (by omega), if_neg (by omega),
        if_pos (List.isPrefixOf_iff_prefix.2 (List.prefix_append _ _)),
        show ("urn:uuid:".toList ++ join '-' groups t).drop 9 = join '-' groups t from rfl]
      exact parseHyphenated_join ht

end Digits

private theorem parseStr_rendered (id : Uuid) : id.Spelling id.rendered.toList := by
  unfold rendered
  rw [String.toList_ofList]
  exact .hyphenated id.writtenAs_digitChar

/-- The digits of the rendered form stand where the hyphens leave them. -/
private theorem getElem?_rendered (id : Uuid) (j : Nat) :
    id.rendered.toList[place groups j]? = id.digits[j]?.map digitChar := by
  unfold rendered
  rw [String.toList_ofList, getElem?_place id.writtenAs_digitChar.sum_groups_le, List.getElem?_map]

end Uuid

/-! ### The check -/

namespace UuidCrate

private theorem map_version_eq (id : Uuid) : id.version.map Fin.val = some 4 ↔ id.version = some 4 :=
  (Option.map_injective Fin.val_injective).eq_iff' rfl

private theorem model_documented : model.Documented where
  parseStr _ _ := Uuid.parseStr_eq_some
  getVersion := map_version_eq
  hyphenated id := by
    unfold model Uuid.hyphenated Uuid.rendered Uuid.groups
    simp [join, List.drop_drop]

/-- The accepted texts are the rendered forms of the UUIDs with the version. -/
theorem canonicalUuidV4_iff {crate : UuidCrate} (hcrate : crate.Documented) {s : String} :
    crate.canonicalUuidV4 s = true ↔ ∃ id : Uuid, s = id.rendered ∧ id.digits[12]? = some 4 := by
  unfold canonicalUuidV4
  constructor
  · intro h
    cases hparse : crate.parseStr s with
    | none => simp [hparse] at h
    | some id =>
      simp only [hparse, Bool.and_eq_true, beq_iff_eq, hcrate.getVersion, hcrate.hyphenated] at h
      exact ⟨id, h.2.symm, h.1⟩
  · rintro ⟨id, rfl, hversion⟩
    have hparse := (hcrate.parseStr id.rendered id).2 id.parseStr_rendered
    simp only [hparse, Bool.and_eq_true, beq_iff_eq, hcrate.getVersion, hcrate.hyphenated]
    exact ⟨hversion, trivial⟩

/-- The check does not depend on the crate, as long as it does what it documents. -/
private theorem Documented.canonicalUuidV4_eq {crate : UuidCrate} (hcrate : crate.Documented) (s : String) :
    crate.canonicalUuidV4 s = Validation.canonicalUuidV4 s := by
  have hmodel : Validation.canonicalUuidV4 s = model.canonicalUuidV4 s := by
    unfold Validation.canonicalUuidV4 canonicalUuidV4
    change _ = match Uuid.parseStr s with
      | some id => id.version.map Fin.val == some 4 && id.hyphenated == s
      | none => false
    cases Uuid.parseStr s with
    | none => rfl
    | some id =>
      rw [Bool.eq_iff_iff]
      simp only [Bool.and_eq_true, beq_iff_eq, map_version_eq]
  rw [hmodel, Bool.eq_iff_iff, canonicalUuidV4_iff hcrate, canonicalUuidV4_iff model_documented]

end UuidCrate

/-! ### The grammar -/

/-- Lowercase hexadecimal digits in groups of 8, 4, 4, 4 and 12, with hyphens between them. -/
structure Hyphenated (s : String) : Prop where
  length : s.toList.length = 36
  hyphens : ∀ i ∈ [8, 13, 18, 23], s.toList[i]? = some '-'
  digits : ∀ i c, i ∉ [8, 13, 18, 23] → s.toList[i]? = some c → c ∈ "0123456789abcdef".toList

structure CanonicalUuidV4 (s : String) : Prop extends Hyphenated s where
  version : s.toList[14]? = some '4'
  variant : ∃ c ∈ "89ab".toList, s.toList[19]? = some c

private theorem mem_lowercase_iff {c : Char} : c ∈ "0123456789abcdef".toList ↔ ∃ d, Uuid.digitChar d = c := by
  have hdigits : "0123456789abcdef".toList = (List.finRange 16).map Uuid.digitChar := by decide
  rw [hdigits, List.mem_map]
  simp only [List.mem_finRange, true_and]

/-- The digits `8` to `b` are those whose high bits are `10`. -/
private theorem digitChar_mem_variant : ∀ d, Uuid.digitChar d ∈ "89ab".toList ↔ d.val / 4 = 2 := by decide

private theorem hyphenated_rendered (id : Uuid) : Hyphenated id.rendered := by
  have hwritten := id.writtenAs_digitChar
  have hat : ∀ i ∈ positions Uuid.groups, (join '-' Uuid.groups (id.digits.map Uuid.digitChar))[i]? = some '-' :=
    getElem?_of_mem_positions hwritten.sum_groups_le
  unfold Uuid.rendered
  constructor
  case length =>
    rw [String.toList_ofList]
    exact hwritten.length_join
  case hyphens =>
    rw [String.toList_ofList]
    exact hat
  case digits =>
    intro i c hi hc
    rw [String.toList_ofList] at hc
    have hmem : c ∈ strip Uuid.groups (join '-' Uuid.groups (id.digits.map Uuid.digitChar)) := mem_strip.2 ⟨i, hi, hc⟩
    rw [strip_join hwritten.sum_groups_le] at hmem
    obtain ⟨d, -, hd⟩ := List.mem_map.1 hmem
    exact mem_lowercase_iff.2 ⟨d, hd⟩

private theorem Hyphenated.exists_rendered {s : String} (hs : Hyphenated s) : ∃ id : Uuid, s = id.rendered := by
  have hdigits : ∀ c ∈ strip Uuid.groups s.toList, c ∈ Set.range Uuid.digitChar := by
    intro c hc
    obtain ⟨i, hi, hat⟩ := mem_strip.1 hc
    exact mem_lowercase_iff.1 (hs.digits i c hi hat)
  obtain ⟨digits, hmap⟩ : strip Uuid.groups s.toList ∈ Set.range (List.map Uuid.digitChar) := by
    rw [Set.range_list_map]
    exact hdigits
  have hlength : digits.length = 32 := by
    have hstrip : (strip Uuid.groups s.toList).length + 4 = s.toList.length := by
      refine length_strip fun i hi => ?_
      exact (List.getElem?_eq_some_iff.1 (hs.hyphens i hi)).1
    rw [← hmap, List.length_map, hs.length] at hstrip
    omega
  have hjoin : join '-' Uuid.groups (strip Uuid.groups s.toList) = s.toList := join_strip hs.hyphens
  refine ⟨⟨digits, hlength⟩, ?_⟩
  unfold Uuid.rendered
  rw [hmap, hjoin, String.ofList_toList]

/-- The text has been admitted as the ID of a job, of an artifact, or of a node. -/
inductive AdmittedId (s : String) : Prop
  | job : Validation.jobId (some ⟨s⟩) = .ok s → AdmittedId s
  | artifact {descriptor : ArtifactDescriptor} : validateDescriptor descriptor = .ok ⟨s⟩ → AdmittedId s
  | node {pluginId : String} {hello : HostHello} {node : NodeIdentity} :
      Validation.hostHello pluginId hello = .ok () → hello.node = some node → node.nodeId = some s → AdmittedId s

private theorem canonicalUuidV4_of_hostHello {pluginId s : String} {hello : HostHello} {node : NodeIdentity}
    (h : Validation.hostHello pluginId hello = .ok ()) (hnode : hello.node = some node) (hid : node.nodeId = some s) :
    Validation.canonicalUuidV4 s = true := by
  unfold Validation.hostHello at h
  by_contra hnot
  rw [Bool.not_eq_true] at hnot
  simp [hnode, hid, hnot] at h

/-- All IDs pass the same check. -/
private theorem admittedId_iff {s : String} : AdmittedId s ↔ Validation.canonicalUuidV4 s = true := by
  constructor
  · intro h
    cases h with
    | job h =>
      unfold Validation.jobId at h
      by_contra hnot
      simp [hnot] at h
    | artifact h => exact (Option.filter_eq_some_iff.1 (filter_of_validateDescriptor h)).2
    | node h hnode hid => exact canonicalUuidV4_of_hostHello h hnode hid
  · intro h
    refine .job ?_
    unfold Validation.jobId
    exact if_pos h

/-- What the check accepts: the variant is not read. -/
theorem canonicalUuidV4_iff_hyphenated {s : String} :
    Validation.canonicalUuidV4 s = true ↔ Hyphenated s ∧ s.toList[14]? = some '4' := by
  rw [← UuidCrate.model_documented.canonicalUuidV4_eq, UuidCrate.canonicalUuidV4_iff UuidCrate.model_documented]
  have hversion : ∀ id : Uuid, id.rendered.toList[14]? = some '4' ↔ id.digits[12]? = some 4 := by
    intro id
    have hat : id.rendered.toList[14]? = id.digits[12]?.map Uuid.digitChar := id.getElem?_rendered 12
    rw [hat]
    exact (Option.map_injective Uuid.digitChar_injective).eq_iff' rfl
  constructor
  · rintro ⟨id, rfl, hid⟩
    exact ⟨hyphenated_rendered id, (hversion id).2 hid⟩
  · rintro ⟨hs, hid⟩
    obtain ⟨id, rfl⟩ := hs.exists_rendered
    exact ⟨id, rfl, (hversion id).1 hid⟩

private theorem variant_rendered (id : Uuid) :
    (∃ c ∈ "89ab".toList, id.rendered.toList[19]? = some c) ↔ ∃ d, id.digits[16]? = some d ∧ d.val / 4 = 2 := by
  have hat : id.rendered.toList[19]? = id.digits[16]?.map Uuid.digitChar := id.getElem?_rendered 16
  rw [hat]
  constructor
  · rintro ⟨c, hc, hmap⟩
    obtain ⟨d, hd, rfl⟩ := Option.map_eq_some_iff.1 hmap
    exact ⟨d, hd, (digitChar_mem_variant d).1 hc⟩
  · rintro ⟨d, hd, hvariant⟩
    exact ⟨_, (digitChar_mem_variant d).2 hvariant, by rw [hd, Option.map_some]⟩

/-- The check is right about a text: it accepts it if and only if it is a canonical UUID of version 4, and what is
admitted denotes such a UUID and is the only ID that does. -/
structure CheckedRight (crate : UuidCrate) (s : String) : Prop where
  accepts : crate.canonicalUuidV4 s = true ↔ CanonicalUuidV4 s
  denotes : AdmittedId s → ∃ id : Uuid, crate.parseStr s = some id ∧ id.IsV4 ∧
    ∀ s', AdmittedId s' → crate.parseStr s' = some id → s' = s

/-- The check is right about all texts but those of UUIDs of version 4 with another variant.  Each UUID of version 4
has exactly one ID. -/
theorem canonicalUuidV4_correct_iff {crate : UuidCrate} (hcrate : crate.Documented) :
    (∀ s, CheckedRight crate s ↔
      (Hyphenated s → s.toList[14]? = some '4' → ∃ c ∈ "89ab".toList, s.toList[19]? = some c)) ∧
    ∀ id : Uuid, id.IsV4 → ∃! s, AdmittedId s ∧ crate.parseStr s = some id := by
  have hadmitted : ∀ {s}, AdmittedId s ↔ ∃ id : Uuid, s = id.rendered ∧ id.digits[12]? = some 4 := by
    intro s
    rw [admittedId_iff, ← hcrate.canonicalUuidV4_eq, UuidCrate.canonicalUuidV4_iff hcrate]
  have hparse : ∀ id : Uuid, crate.parseStr id.rendered = some id :=
    fun id => (hcrate.parseStr _ id).2 id.parseStr_rendered
  have honly : ∀ {s} {id : Uuid}, AdmittedId s → crate.parseStr s = some id → s = id.rendered := by
    intro s id hs hid
    obtain ⟨id', rfl, -⟩ := hadmitted.1 hs
    rw [Option.some.inj ((hparse id').symm.trans hid)]
  constructor
  · intro s
    constructor
    · intro h hs hversion
      have haccepted : Validation.canonicalUuidV4 s = true := canonicalUuidV4_iff_hyphenated.2 ⟨hs, hversion⟩
      rw [← hcrate.canonicalUuidV4_eq] at haccepted
      exact (h.accepts.1 haccepted).variant
    · intro h
      constructor
      · rw [hcrate.canonicalUuidV4_eq, canonicalUuidV4_iff_hyphenated]
        constructor
        · rintro ⟨hs, hversion⟩
          exact ⟨hs, hversion, h hs hversion⟩
        · intro hs
          exact ⟨hs.toHyphenated, hs.version⟩
      · intro hs
        obtain ⟨hhyphenated, hversion⟩ := canonicalUuidV4_iff_hyphenated.1 (admittedId_iff.1 hs)
        obtain ⟨id, rfl, hid⟩ := hadmitted.1 hs
        have hvariant := (variant_rendered id).1 (h hhyphenated hversion)
        exact ⟨id, hparse id, ⟨(UuidCrate.map_version_eq id).2 hid, hvariant⟩, fun s' hs' => honly hs'⟩
  · intro id hid
    have hrendered : AdmittedId id.rendered := hadmitted.2 ⟨id, rfl, (UuidCrate.map_version_eq id).1 hid.1⟩
    exact ⟨id.rendered, ⟨hrendered, hparse id⟩, fun s' hs' => honly hs'.1 hs'.2⟩

theorem canonicalUuidV4_correct_iff_canonical : CheckedRight UuidCrate.model "0f337c0c-51d6-44a9-a691-a31fce775ab1" :=
  ((canonicalUuidV4_correct_iff UuidCrate.model_documented).1 _).2 fun _ _ => ⟨'a', by decide, by decide⟩

/-- A variant reserved for other uses. -/
theorem canonicalUuidV4_reservedVariant :
    Validation.canonicalUuidV4 "0f337c0c-51d6-44a9-c691-a31fce775ab1" = true ∧
      Validation.jobId (some ⟨"0f337c0c-51d6-44a9-c691-a31fce775ab1"⟩) = .ok "0f337c0c-51d6-44a9-c691-a31fce775ab1" ∧
      ¬ CanonicalUuidV4 "0f337c0c-51d6-44a9-c691-a31fce775ab1" := by
  refine ⟨by decide, by decide, fun h => ?_⟩
  obtain ⟨c, hc, hat⟩ := h.variant
  cases (show some 'c' = some c from hat)
  revert hc
  decide

end PluginSdk
