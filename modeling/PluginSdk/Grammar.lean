import PluginSdk.Value
import Mathlib.Data.Int.Order.Basic

/-!
# The grammar of configuration values

The values that `config.proto` documents: a tree of at most 33 levels below its root, each node of which is admitted
for itself.  The validators of `value.rs` accept exactly these (`validators_accept`).
-/

namespace PluginSdk

namespace ConfigValue

/-- `v.Node d w`: `w` is a node of `v`, `d` levels below the root. -/
inductive Node : ConfigValue → Nat → ConfigValue → Prop
  | root {v : ConfigValue} : Node v 0 v
  | element {values : List ConfigValue} {v w : ConfigValue} {d : Nat} : v ∈ values → Node v d w →
      Node (.listValue values) (d + 1) w
  | entry {entries : List (String × ConfigValue)} {key : String} {v w : ConfigValue} {d : Nat} : (key, v) ∈ entries →
      Node v d w → Node (.mapValue entries) (d + 1) w

/-- The exponent of a number that is infinite or not a number. -/
def maximumExponent : Nat := 2 ^ 11 - 1

/-- A finite number: the eleven bits of its exponent are not all set. -/
def FiniteNumber (bits : BitVec 64) : Prop := bits.toNat / 2 ^ 52 % 2 ^ 11 ≠ maximumExponent

/-- `google.protobuf.Timestamp`: the years 1 to 9999. -/
def TimestampDomain (value : Timestamp) : Prop :=
  -62135596800 ≤ value.seconds ∧ value.seconds ≤ 253402300799 ∧ 0 ≤ value.nanos ∧ value.nanos ≤ 999999999

/-- `google.protobuf.Duration`: about ten thousand years either way, with seconds and nanoseconds not of opposite
sign. -/
def DurationDomain (value : Duration) : Prop :=
  -315576000000 ≤ value.seconds ∧ value.seconds ≤ 315576000000 ∧ -999999999 ≤ value.nanos ∧ value.nanos ≤ 999999999 ∧
    0 ≤ value.seconds * value.nanos

/-- A node for itself, in a session or in a durable value. -/
def Admitted (session : Option String) : ConfigValue → Prop
  | .unset => False
  | .nullValue value => value = 0
  | .boolValue _ | .integerValue _ | .stringValue _ | .bytesValue _ | .listValue _ | .mapValue _ => True
  | .numberValue bits => FiniteNumber bits
  | .functionValue function => session = some function.sessionId ∧ function.functionId ≠ ""
  | .timestampValue value => TimestampDomain value
  | .durationValue value => DurationDomain value

/-- All nodes of a value lie at most 33 levels deep and are admitted. -/
def Grammatical (session : Option String) (v : ConfigValue) : Prop :=
  ∀ d w, v.Node d w → d ≤ 33 ∧ w.Admitted session

end ConfigValue

open ConfigValue

/-! ### The checks of single nodes -/

theorem ite_eq_ok {p : Prop} [Decidable p] {e : SdkError} : (if p then .ok () else .error e) = Except.ok () ↔ p := by
  by_cases hp : p
  · rw [if_pos hp]
    exact iff_of_true rfl hp
  · rw [if_neg hp]
    exact iff_of_false (fun h => by cases h) hp

private theorem isFinite_eq_true {bits : BitVec 64} : isFinite bits = true ↔ FiniteNumber bits := by
  unfold isFinite FiniteNumber maximumExponent
  rw [bne_iff_ne, ne_eq, ne_eq, ← BitVec.toNat_inj, BitVec.extractLsb'_toNat, Nat.shiftRight_eq_div_pow]
  rfl

theorem validTimestamp_eq_true {value : Timestamp} : validTimestamp value = true ↔ TimestampDomain value := by
  unfold validTimestamp TimestampDomain protobufTimestampMinSeconds protobufTimestampMaxSeconds protobufMaxNanoseconds
  simp only [Bool.and_eq_true, decide_eq_true_eq, and_assoc]

private theorem validDuration_eq_true {value : Duration} : validDuration value = true ↔ DurationDomain value := by
  unfold validDuration DurationDomain protobufDurationMaxSeconds protobufMaxNanoseconds
  rw [Int.mul_nonneg_iff]
  simp only [Bool.and_eq_true, Bool.not_eq_true', Bool.and_eq_false_iff, decide_eq_true_eq, decide_eq_false_iff_not]
  omega

private theorem validateFunction_eq_ok {function : ConfigFunctionRef} {session : Option String} :
    validateFunction function session = .ok () ↔ session = some function.sessionId ∧ function.functionId ≠ "" := by
  cases session with
  | none => simp [validateFunction]
  | some sessionId =>
    unfold validateFunction
    simp only
    by_cases hf : function.sessionId = sessionId ∧ function.functionId ≠ ""
    · rw [if_pos hf, hf.1]
      exact ⟨fun _ => ⟨rfl, hf.2⟩, fun _ => rfl⟩
    · rw [if_neg hf]
      constructor
      · intro h
        split at h <;> cases h
      · rintro ⟨hsession, hid⟩
        exact absurd ⟨(Option.some.inj hsession).symm, hid⟩ hf

/-! ### The validators -/

/-- A value that is no container has no node but itself. -/
private theorem forall_node_leaf (v : ConfigValue) {P : Nat → ConfigValue → Prop}
    (hlist : ∀ values, v ≠ .listValue values) (hmap : ∀ entries, v ≠ .mapValue entries) :
    (∀ d w, v.Node d w → P d w) ↔ P 0 v := by
  constructor
  · intro h
    exact h 0 v .root
  · intro h d w hw
    cases hw with
    | root => exact h
    | element => exact absurd rfl (hlist _)
    | entry => exact absurd rfl (hmap _)

/-- The nodes of a list are the list and the nodes of its elements. -/
private theorem forall_node_listValue {values : List ConfigValue} {P : Nat → ConfigValue → Prop} :
    (∀ d w, Node (.listValue values) d w → P d w) ↔
      P 0 (.listValue values) ∧ ∀ v ∈ values, ∀ d w, v.Node d w → P (d + 1) w := by
  constructor
  · intro h
    exact ⟨h _ _ .root, fun v hv d w hw => h _ _ (.element hv hw)⟩
  · rintro ⟨hroot, helements⟩ d w hw
    cases hw with
    | root => exact hroot
    | element hv hw => exact helements _ hv _ _ hw

private theorem forall_node_mapValue {entries : List (String × ConfigValue)} {P : Nat → ConfigValue → Prop} :
    (∀ d w, Node (.mapValue entries) d w → P d w) ↔
      P 0 (.mapValue entries) ∧ ∀ entry ∈ entries, ∀ d w, entry.2.Node d w → P (d + 1) w := by
  constructor
  · intro h
    exact ⟨h _ _ .root, fun entry hentry d w hw => h _ _ (.entry hentry hw)⟩
  · rintro ⟨hroot, hentries⟩ d w hw
    cases hw with
    | root => exact hroot
    | entry hentry hw => exact hentries _ hentry _ _ hw

mutual
/-- At a depth, a value is accepted if and only if its nodes are admitted and not too deep. -/
theorem validate_eq_ok (v : ConfigValue) (depth : Nat) (session : Option String) :
    validate v depth session = .ok () ↔ ∀ d w, v.Node d w → depth + d ≤ 33 ∧ w.Admitted session := by
  by_cases hdepth : depth > maximumValueDepth
  · rw [validate.eq_def, if_pos hdepth]
    constructor
    · intro h
      cases h
    · intro h
      have hroot := (h 0 v .root).1
      unfold maximumValueDepth at hdepth
      omega
  · have hle : depth + 0 ≤ 33 := by
      unfold maximumValueDepth at hdepth
      omega
    rw [validate.eq_def, if_neg hdepth]
    cases v with
    | listValue values =>
      simp only
      rw [validateList_eq_ok values, forall_node_listValue]
      simp only [Nat.add_assoc, Nat.add_comm 1, hle, Admitted, and_self, true_and]
    | mapValue entries =>
      simp only
      rw [validateEntries_eq_ok entries, forall_node_mapValue]
      simp only [Nat.add_assoc, Nat.add_comm 1, hle, Admitted, and_self, true_and]
    | unset =>
      rw [forall_node_leaf .unset nofun nofun]
      simp [Admitted]
    | nullValue value =>
      rw [forall_node_leaf (.nullValue value) nofun nofun, and_iff_right hle]
      exact ite_eq_ok
    | boolValue value =>
      rw [forall_node_leaf (.boolValue value) nofun nofun, and_iff_right hle]
      exact iff_of_true rfl trivial
    | integerValue value =>
      rw [forall_node_leaf (.integerValue value) nofun nofun, and_iff_right hle]
      exact iff_of_true rfl trivial
    | stringValue value =>
      rw [forall_node_leaf (.stringValue value) nofun nofun, and_iff_right hle]
      exact iff_of_true rfl trivial
    | bytesValue value =>
      rw [forall_node_leaf (.bytesValue value) nofun nofun, and_iff_right hle]
      exact iff_of_true rfl trivial
    | numberValue bits =>
      rw [forall_node_leaf (.numberValue bits) nofun nofun, and_iff_right hle]
      exact ite_eq_ok.trans isFinite_eq_true
    | functionValue function =>
      rw [forall_node_leaf (.functionValue function) nofun nofun, and_iff_right hle]
      exact validateFunction_eq_ok
    | timestampValue value =>
      rw [forall_node_leaf (.timestampValue value) nofun nofun, and_iff_right hle]
      exact ite_eq_ok.trans validTimestamp_eq_true
    | durationValue value =>
      rw [forall_node_leaf (.durationValue value) nofun nofun, and_iff_right hle]
      exact ite_eq_ok.trans validDuration_eq_true
private theorem validateList_eq_ok (values : List ConfigValue) (depth : Nat) (session : Option String) :
    validateList values depth session = .ok () ↔
      ∀ v ∈ values, ∀ d w, v.Node d w → depth + d ≤ 33 ∧ w.Admitted session := by
  cases values with
  | nil => simp [validateList]
  | cons v rest => rw [validateList_cons_eq_ok, validate_eq_ok v, validateList_eq_ok rest, List.forall_mem_cons]
theorem validateEntries_eq_ok (entries : List (String × ConfigValue)) (depth : Nat) (session : Option String) :
    validateEntries entries depth session = .ok () ↔
      ∀ entry ∈ entries, ∀ d w, entry.2.Node d w → depth + d ≤ 33 ∧ w.Admitted session := by
  cases entries with
  | nil => simp [validateEntries]
  | cons entry rest =>
    obtain ⟨key, v⟩ := entry
    rw [validateEntries_cons_eq_ok, validate_eq_ok v, validateEntries_eq_ok rest, List.forall_mem_cons]
end

theorem grammatical_iff {v : ConfigValue} {session : Option String} :
    Grammatical session v ↔ validate v 0 session = .ok () := by
  rw [validate_eq_ok]
  simp only [Grammatical, Nat.zero_add]

/-- A list of values is accepted if and only if each of them is. -/
theorem validateSessionValues_eq_ok {values : List ConfigValue} {sessionId : String} :
    validateSessionValues values sessionId = .ok () ↔ ∀ v ∈ values, Grammatical (some sessionId) v := by
  unfold validateSessionValues
  rw [validateList_eq_ok]
  simp only [Grammatical, Nat.zero_add]

theorem validateSerializable_eq_ok {v : ConfigValue} : validateSerializable v = .ok () ↔ Grammatical none v :=
  grammatical_iff.symm

/-- A durable value is one of any session without a function handle. -/
theorem grammatical_none_iff {v : ConfigValue} {sessionId : String} :
    Grammatical none v ↔ Grammatical (some sessionId) v ∧ ∀ d function, ¬ v.Node d (.functionValue function) := by
  constructor
  · intro h
    refine ⟨fun d w hw => ⟨(h d w hw).1, ?_⟩, fun d function hf => ?_⟩
    · have hadmitted := (h d w hw).2
      cases w with
      | functionValue function => cases hadmitted.1
      | _ => exact hadmitted
    · cases (h d _ hf).2.1
  · rintro ⟨h, hfunction⟩ d w hw
    refine ⟨(h d w hw).1, ?_⟩
    have hadmitted := (h d w hw).2
    cases w with
    | functionValue function => exact absurd hw (hfunction d function)
    | _ => exact hadmitted

/-- The validators accept exactly the documented grammar. -/
theorem validators_accept (v : ConfigValue) (sessionId : String) :
    (validateSessionValues [v] sessionId = .ok () ↔
      ∀ d w, v.Node d w → d ≤ 33 ∧ w.Admitted (some sessionId)) ∧
    (validateSerializable v = .ok () ↔
      (∀ d w, v.Node d w → d ≤ 33 ∧ w.Admitted (some sessionId)) ∧
        ∀ d function, ¬ v.Node d (.functionValue function)) ∧
    ∀ values, validateSessionValues values sessionId = .ok () ↔
      ∀ v ∈ values, validateSessionValues [v] sessionId = .ok () := by
  have hsingle : ∀ v, validateSessionValues [v] sessionId = .ok () ↔ Grammatical (some sessionId) v := by
    intro v
    rw [validateSessionValues_eq_ok, List.forall_mem_singleton]
  refine ⟨hsingle v, validateSerializable_eq_ok.trans grammatical_none_iff, fun values => ?_⟩
  rw [validateSessionValues_eq_ok]
  exact forall₂_congr fun v _ => (hsingle v).symm

/-- A map is accepted at the deepest level as long as it is empty. -/
example : validate (.mapValue []) 33 none = .ok () ∧
    validate (.mapValue [("key", .boolValue true)]) 33 none ≠ .ok () := by
  decide

end PluginSdk
