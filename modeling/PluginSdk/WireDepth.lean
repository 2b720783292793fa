import PluginSdk.Value

/-!
# The nesting of encoded values

`value.rs` limits the depth of a configuration value so that the envelope around it stays inside the recursion
budget of the decoder.  A list level of a value is two nested messages on the wire, a map level three, a leaf that is
itself a message one more, and the messages around the value come on top.  So the budget bounds a weighted count of
the levels above each node of the value (`decodable_iff_fits`), and thirty-three map levels exceed it
(`deepMap_not_decodable`).
-/

namespace PluginSdk

/-- `prost`'s default recursion budget. -/
def decodeBudget : Nat := 100

/-! ### The nesting of each message -/

/-- An optional message field. -/
def nested {α : Type} (field : Option α) (wire : α → Message) : List Message := (field.map wire).toList

mutual
def ConfigValue.wire : ConfigValue → Message
  | .listValue values => .mk [.mk (wireList values)]
  | .mapValue entries => .mk [.mk (wireEntries entries)]
  | .functionValue _ | .timestampValue _ | .durationValue _ => .mk [.leaf]
  | .unset | .nullValue _ | .boolValue _ | .integerValue _ | .numberValue _ | .stringValue _ | .bytesValue _ => .leaf
def wireList : List ConfigValue → List Message
  | [] => []
  | value :: rest => value.wire :: wireList rest
/-- Each entry of a map is a message that contains the value. -/
def wireEntries : List (String × ConfigValue) → List Message
  | [] => []
  | (_, value) :: rest => .mk [value.wire] :: wireEntries rest
end

def ProtocolError.wire (error : ProtocolError) : Message :=
  .mk (error.metadata.map (fun _ => .leaf) ++ error.details.map fun _ => .leaf)

def ArtifactDescriptor.wire (descriptor : ArtifactDescriptor) : Message :=
  .mk (nested descriptor.artifactId fun _ => .leaf)

def JobUpdate.wire (update : JobUpdate) : Message :=
  .mk (nested update.jobId (fun _ => .leaf) ++ nested update.result ConfigValue.wire ++
    nested update.error ProtocolError.wire ++ update.artifacts.map ArtifactDescriptor.wire)

def LogRecord.wire (record : LogRecord) : Message :=
  .mk (nested record.timestamp (fun _ => .leaf) ++ wireEntries record.fields)

def InvokeConfigFunctionRequest.wire (request : InvokeConfigFunctionRequest) : Message :=
  .mk (nested request.function (fun _ => .leaf) ++ wireList request.arguments)

def GetConfigResponse.wire (response : GetConfigResponse) : Message :=
  .mk (nested response.value ConfigValue.wire)

def InvokeConfigFunctionResponse.wire (response : InvokeConfigFunctionResponse) : Message :=
  .mk (wireList response.results)

/-- The messages in which the SDK sends or receives configuration values. -/
inductive ValueMessage
  | jobUpdate (update : JobUpdate)
  | log (record : LogRecord)
  | invokeConfigFunction (request : InvokeConfigFunctionRequest)
  | getConfigResult (response : GetConfigResponse)
  | invokeConfigFunctionResult (response : InvokeConfigFunctionResponse)

namespace ValueMessage

def payload : ValueMessage → Payload
  | jobUpdate update => .jobUpdate update
  | log record => .log record
  | invokeConfigFunction request => .hostCall { call := some (.invokeConfigFunction request) }
  | getConfigResult response => .hostResult { result := some (.getConfig response) }
  | invokeConfigFunctionResult response => .hostResult { result := some (.invokeConfigFunction response) }

/-- The message in the `oneof payload` of the envelope. -/
def wire : ValueMessage → Message
  | jobUpdate update => update.wire
  | log record => record.wire
  | invokeConfigFunction request => .mk [request.wire]
  | getConfigResult response => .mk [response.wire]
  | invokeConfigFunctionResult response => .mk [response.wire]

def values : ValueMessage → List ConfigValue
  | jobUpdate update => update.result.toList
  | log record => record.fields.map Prod.snd
  | invokeConfigFunction request => request.arguments
  | getConfigResult response => response.value.toList
  | invokeConfigFunctionResult response => response.results

/-- The messages from the envelope down to a value, the value's own included. -/
def enclosing : ValueMessage → Nat
  | jobUpdate _ => 2
  | log _ | invokeConfigFunction _ | getConfigResult _ | invokeConfigFunctionResult _ => 3

/-- The values have passed the validator that the SDK applies to this message. -/
def Accepted (sessionId : String) (m : ValueMessage) : Prop :=
  match m with
  | jobUpdate _ | log _ => ∀ value ∈ m.values, validateSerializable value = .ok ()
  | invokeConfigFunction _ | getConfigResult _ | invokeConfigFunctionResult _ =>
    validateSessionValues m.values sessionId = .ok ()

/-- The message in an envelope with the given trace. -/
def envelopeWire (m : ValueMessage) (trace : Option TraceContext) : Message :=
  .mk (nested trace (fun _ => .leaf) ++ [m.wire])

/-- The envelope is decodable within the default budget. -/
def Survives (m : ValueMessage) (trace : Option TraceContext) : Prop :=
  (m.envelopeWire trace).decodable decodeBudget = true

end ValueMessage

/-! ### The levels above a node of a value -/

/-- A node of a value: the list and map levels above it, and whether it is itself encoded as a message (a list, a
map, a function handle, a timestamp or a duration). -/
structure Place where
  lists : Nat
  maps : Nat
  isMessage : Bool

/-- The messages nested below the root value down to a node. -/
def Place.cost (p : Place) : Nat := 2 * p.lists + 3 * p.maps + p.isMessage.toNat

mutual
def ConfigValue.places : ConfigValue → Nat → Nat → List Place
  | .listValue values, l, m => ⟨l, m, true⟩ :: placesList values (l + 1) m
  | .mapValue entries, l, m => ⟨l, m, true⟩ :: placesEntries entries l (m + 1)
  | .functionValue _, l, m | .timestampValue _, l, m | .durationValue _, l, m => [⟨l, m, true⟩]
  | .unset, l, m | .nullValue _, l, m | .boolValue _, l, m | .integerValue _, l, m | .numberValue _, l, m
  | .stringValue _, l, m | .bytesValue _, l, m => [⟨l, m, false⟩]
def placesList : List ConfigValue → Nat → Nat → List Place
  | [], _, _ => []
  | value :: rest, l, m => value.places l m ++ placesList rest l m
def placesEntries : List (String × ConfigValue) → Nat → Nat → List Place
  | [], _, _ => []
  | (_, value) :: rest, l, m => value.places l m ++ placesEntries rest l m
end

theorem depth_mk_singleton_le {msg : Message} {n : Nat} : (Message.mk [msg]).depth ≤ n ↔ msg.depth + 1 ≤ n := by
  rw [Message.depth_mk_le, List.forall_mem_singleton]

/-- A container inside its value: the container's own message, and two messages more for each member. -/
private theorem depth_container_le {ms : List Message} {c n : Nat} :
    c + (Message.mk [Message.mk ms]).depth ≤ n ↔ c + 1 ≤ n ∧ ∀ msg ∈ ms, c + 2 + msg.depth ≤ n := by
  constructor
  · intro h
    have h1 := depth_mk_singleton_le.1 (Nat.le_refl (Message.mk [Message.mk ms]).depth)
    refine ⟨by omega, fun msg hm => ?_⟩
    have h2 := Message.depth_mk_le.1 (Nat.le_refl (Message.mk ms).depth) msg hm
    omega
  · rintro ⟨h1, h2⟩
    have h3 : (Message.mk ms).depth ≤ n - c - 1 := by
      rw [Message.depth_mk_le]
      intro msg hm
      have := h2 msg hm
      omega
    have h4 : (Message.mk [Message.mk ms]).depth ≤ n - c := depth_mk_singleton_le.2 (by omega)
    omega

mutual
/-- The nesting of an encoded value is the largest cost of its nodes. -/
private theorem depth_wire_le (v : ConfigValue) (l m n : Nat) :
    2 * l + 3 * m + v.wire.depth ≤ n ↔ ∀ p ∈ v.places l m, p.cost ≤ n := by
  cases v with
  | listValue values =>
    rw [ConfigValue.wire, depth_container_le, ConfigValue.places, List.forall_mem_cons,
      ← depth_wireList_le values (l + 1) m n]
    simp only [Place.cost, Bool.toNat_true, Nat.mul_add, Nat.mul_one, Nat.add_right_comm _ 2]
  | mapValue entries =>
    rw [ConfigValue.wire, depth_container_le, ConfigValue.places, List.forall_mem_cons,
      ← depth_wireEntries_le entries l (m + 1) n]
    simp only [Place.cost, Bool.toNat_true]
    refine and_congr_right fun _ => forall₂_congr fun msg _ => ?_
    omega
  | functionValue _ | timestampValue _ | durationValue _ =>
    simp [ConfigValue.wire, ConfigValue.places, Place.cost, Message.depth, Message.depths]
  | _ => simp [ConfigValue.wire, ConfigValue.places, Place.cost]
theorem depth_wireList_le (vs : List ConfigValue) (l m n : Nat) :
    (∀ msg ∈ wireList vs, 2 * l + 3 * m + msg.depth ≤ n) ↔ ∀ p ∈ placesList vs l m, p.cost ≤ n := by
  cases vs with
  | nil => simp [wireList, placesList]
  | cons v rest =>
    rw [wireList, placesList, List.forall_mem_cons, List.forall_mem_append, depth_wire_le v,
      depth_wireList_le rest]
theorem depth_wireEntries_le (es : List (String × ConfigValue)) (l m n : Nat) :
    (∀ msg ∈ wireEntries es, 2 * l + 3 * m + msg.depth ≤ n + 1) ↔ ∀ p ∈ placesEntries es l m, p.cost ≤ n := by
  cases es with
  | nil => simp [wireEntries, placesEntries]
  | cons e rest =>
    obtain ⟨_, v⟩ := e
    rw [wireEntries, placesEntries, List.forall_mem_cons, List.forall_mem_append, ← depth_wire_le v,
      depth_wireEntries_le rest]
    simp [Message.depth, Message.depths, ← Nat.add_assoc]
end

/-! ### The messages around a value -/

private theorem wireList_eq_map (vs : List ConfigValue) : wireList vs = vs.map ConfigValue.wire := by
  induction vs with
  | nil => rfl
  | cons v vs ih => rw [wireList, ih, List.map_cons]

private theorem wireEntries_eq_map (es : List (String × ConfigValue)) :
    wireEntries es = (es.map Prod.snd).map fun v => .mk [v.wire] := by
  induction es with
  | nil => rfl
  | cons e es ih => rw [wireEntries, ih, List.map_cons, List.map_cons]

theorem forall_mem_nested {α : Type} {field : Option α} {wire : α → Message} {P : Message → Prop} :
    (∀ msg ∈ nested field wire, P msg) ↔ ∀ a ∈ field.toList, P (wire a) := by
  cases field <;> simp [nested]

theorem depth_error_le (error : ProtocolError) : error.wire.depth ≤ 1 := by
  rw [ProtocolError.wire, Message.depth_mk_le, List.forall_mem_append]
  constructor <;> simp

theorem depth_descriptor_le (descriptor : ArtifactDescriptor) : descriptor.wire.depth ≤ 1 := by
  rw [ArtifactDescriptor.wire, Message.depth_mk_le, forall_mem_nested]
  simp

/-- What a message adds to the nesting of its values; its other fields are never deeper than two. -/
theorem ValueMessage.depth_wire_le (m : ValueMessage) {n : Nat} (hn : 2 ≤ n) :
    m.wire.depth ≤ n ↔ ∀ v ∈ m.values, v.wire.depth + m.enclosing ≤ n + 1 := by
  cases m with
  | jobUpdate update =>
    have he := fun error => depth_error_le error
    have hd := fun descriptor => depth_descriptor_le descriptor
    rw [wire, JobUpdate.wire, Message.depth_mk_le]
    simp only [List.forall_mem_append, forall_mem_nested, List.forall_mem_map, values, enclosing, Message.depth_leaf]
    constructor
    · rintro ⟨⟨⟨-, hv⟩, -⟩, -⟩ v hmem
      have := hv v hmem
      omega
    · intro h
      refine ⟨⟨⟨fun _ _ => by omega, fun v hmem => ?_⟩, fun error _ => ?_⟩, fun descriptor _ => ?_⟩
      · have := h v hmem
        omega
      · have := he error
        omega
      · have := hd descriptor
        omega
  | log record =>
    rw [wire, LogRecord.wire, Message.depth_mk_le, List.forall_mem_append, forall_mem_nested, wireEntries_eq_map,
      List.forall_mem_map]
    simp only [values, enclosing, Message.depth_leaf, Message.depth, Message.depths]
    constructor
    · rintro ⟨-, h⟩ v hmem
      have := h v hmem
      omega
    · intro h
      refine ⟨fun _ _ => by omega, fun v hmem => ?_⟩
      have := h v hmem
      omega
  | invokeConfigFunction request =>
    have hk : ∀ k, request.wire.depth ≤ k ↔ (∀ a ∈ request.function.toList, 1 ≤ k) ∧
        ∀ v ∈ request.arguments, v.wire.depth + 1 ≤ k := by
      intro k
      rw [InvokeConfigFunctionRequest.wire, Message.depth_mk_le, List.forall_mem_append, forall_mem_nested,
        wireList_eq_map, List.forall_mem_map, Message.depth_leaf]
    obtain ⟨k, rfl⟩ : ∃ k, n = k + 1 := ⟨n - 1, by omega⟩
    rw [wire, depth_mk_singleton_le, Nat.add_le_add_iff_right, hk]
    simp only [values, enclosing]
    constructor
    · rintro ⟨-, h⟩ v hmem
      have := h v hmem
      omega
    · intro h
      refine ⟨fun _ _ => by omega, fun v hmem => ?_⟩
      have := h v hmem
      omega
  | getConfigResult response =>
    obtain ⟨k, rfl⟩ : ∃ k, n = k + 1 := ⟨n - 1, by omega⟩
    rw [wire, depth_mk_singleton_le, Nat.add_le_add_iff_right, GetConfigResponse.wire, Message.depth_mk_le,
      forall_mem_nested]
    simp only [values, enclosing]
    refine forall₂_congr fun v _ => ?_
    omega
  | invokeConfigFunctionResult response =>
    obtain ⟨k, rfl⟩ : ∃ k, n = k + 1 := ⟨n - 1, by omega⟩
    rw [wire, depth_mk_singleton_le, Nat.add_le_add_iff_right, InvokeConfigFunctionResponse.wire,
      Message.depth_mk_le, wireList_eq_map, List.forall_mem_map]
    simp only [values, enclosing]
    refine forall₂_congr fun v _ => ?_
    omega

/-- An envelope survives exactly when no node of its values is nested deeper than the budget. -/
theorem ValueMessage.survives_iff (m : ValueMessage) (trace : Option TraceContext) :
    m.Survives trace ↔ ∀ v ∈ m.values, ∀ p ∈ v.places 0 0, m.enclosing + p.cost ≤ decodeBudget := by
  have hm := m.depth_wire_le (n := decodeBudget - 1) (by decide)
  have he : (m.envelopeWire trace).depth ≤ decodeBudget ↔ m.wire.depth ≤ decodeBudget - 1 := by
    rw [envelopeWire, Message.depth_mk_le, List.forall_mem_append, forall_mem_nested, List.forall_mem_singleton,
      Message.depth_leaf]
    simp only [decodeBudget]
    constructor
    · rintro ⟨-, h⟩
      omega
    · intro h
      exact ⟨fun _ _ => by omega, by omega⟩
  rw [Survives, Message.decodable_iff, he, hm]
  refine forall₂_congr fun v _ => ?_
  have hv : v.wire.depth ≤ decodeBudget - m.enclosing ↔ ∀ p ∈ v.places 0 0, p.cost ≤ decodeBudget - m.enclosing := by
    simpa using PluginSdk.depth_wire_le v 0 0 (decodeBudget - m.enclosing)
  have hle : m.enclosing ≤ decodeBudget := by cases m <;> simp [enclosing, decodeBudget]
  constructor
  · intro h p hp
    have := hv.1 (by simp only [decodeBudget] at *; omega) p hp
    omega
  · intro h
    have := hv.2 fun p hp => by have := h p hp; omega
    simp only [decodeBudget] at *
    omega

/-! ### Accepted values -/

mutual
/-- The validator bounds the levels above every node. -/
theorem levels_le_of_validate (v : ConfigValue) (l m : Nat) (session : Option String)
    (h : validate v (l + m) session = .ok ()) : ∀ p ∈ v.places l m, p.lists + p.maps ≤ maximumValueDepth := by
  have hlm := depth_le_of_validate h
  cases v with
  | listValue values =>
    rw [validate.eq_def, if_neg (by omega), Nat.add_right_comm] at h
    rw [ConfigValue.places, List.forall_mem_cons]
    exact ⟨hlm, levels_le_of_validateList values (l + 1) m session h⟩
  | mapValue entries =>
    rw [validate.eq_def, if_neg (by omega), Nat.add_assoc] at h
    rw [ConfigValue.places, List.forall_mem_cons]
    exact ⟨hlm, levels_le_of_validateEntries entries l (m + 1) session h⟩
  | _ => simpa [ConfigValue.places] using hlm
theorem levels_le_of_validateList (vs : List ConfigValue) (l m : Nat) (session : Option String)
    (h : validateList vs (l + m) session = .ok ()) :
    ∀ p ∈ placesList vs l m, p.lists + p.maps ≤ maximumValueDepth := by
  cases vs with
  | nil => simp [placesList]
  | cons v rest =>
    obtain ⟨hv, hrest⟩ := validateList_cons_eq_ok.1 h
    rw [placesList, List.forall_mem_append]
    exact ⟨levels_le_of_validate v l m session hv, levels_le_of_validateList rest l m session hrest⟩
theorem levels_le_of_validateEntries (es : List (String × ConfigValue)) (l m : Nat) (session : Option String)
    (h : validateEntries es (l + m) session = .ok ()) :
    ∀ p ∈ placesEntries es l m, p.lists + p.maps ≤ maximumValueDepth := by
  cases es with
  | nil => simp [placesEntries]
  | cons e rest =>
    obtain ⟨_, v⟩ := e
    obtain ⟨hv, hrest⟩ := validateEntries_cons_eq_ok.1 h
    rw [placesEntries, List.forall_mem_append]
    exact ⟨levels_le_of_validate v l m session hv, levels_le_of_validateEntries rest l m session hrest⟩
end

/-- Every value of an accepted message has been validated, in one of the two modes. -/
theorem ValueMessage.Accepted.validate {sessionId : String} {m : ValueMessage} (h : m.Accepted sessionId) :
    ∀ v ∈ m.values, ∃ session, validate v 0 session = .ok () := by
  have hlist : ∀ vs, validateList vs 0 (some sessionId) = .ok () → ∀ v ∈ vs,
      ∃ session, PluginSdk.validate v 0 session = .ok () := by
    intro vs hvs
    induction vs with
    | nil => simp
    | cons v vs ih =>
      obtain ⟨hv, hrest⟩ := validateList_cons_eq_ok.1 hvs
      exact List.forall_mem_cons.2 ⟨⟨_, hv⟩, ih hrest⟩
  cases m with
  | jobUpdate _ | log _ => exact fun v hv => ⟨none, h v hv⟩
  | invokeConfigFunction _ | getConfigResult _ | invokeConfigFunctionResult _ => exact hlist _ h

/-- Thirty map levels are within the budget in every position and below any number of accepted list levels. -/
theorem ValueMessage.Accepted.survives_of_maps_le {sessionId : String} {m : ValueMessage}
    (h : m.Accepted sessionId) (hmaps : ∀ v ∈ m.values, ∀ p ∈ v.places 0 0, p.maps ≤ 30)
    (trace : Option TraceContext) : m.Survives trace := by
  rw [m.survives_iff trace]
  intro v hv p hp
  obtain ⟨session, hval⟩ := h.validate v hv
  have hlevels := levels_le_of_validate v 0 0 session hval p hp
  have hm := hmaps v hv p hp
  have henc : m.enclosing ≤ 3 := by cases m <;> simp [enclosing]
  have hbool := Bool.toNat_le p.isMessage
  simp only [Place.cost, decodeBudget, maximumValueDepth] at *
  omega

/-- For every message that carries values: the envelope with accepted values is decodable exactly when none of
these values has a node under `l` list levels and `m` map levels with `2 l + 3 m`, one more if the node is itself a
message, and the messages around the value above the budget. -/
theorem accepted_survives_iff (sessionId : String) (m : ValueMessage) (trace : Option TraceContext) :
    (m.Accepted sessionId → m.Survives trace) ↔
      (m.Accepted sessionId → ∀ v ∈ m.values, ∀ p ∈ v.places 0 0,
        m.enclosing + (2 * p.lists + 3 * p.maps + p.isMessage.toNat) ≤ decodeBudget) := by
  rw [m.survives_iff trace]
  rfl

/-- A null value under `n` map levels. -/
def deepMap : Nat → ConfigValue
  | 0 => .nullValue 0
  | n + 1 => .mapValue [("k", deepMap n)]

/-- The update that reports a result. -/
def resultUpdate (result : ConfigValue) : JobUpdate :=
  { jobId := some ⟨"00000000-0000-4000-8000-000000000001"⟩
    state := .succeeded
    progress := some 0x3FF0000000000000#64
    statusMessage := none
    result := some result
    error := none
    artifacts := [] }

/-- A result of thirty-three map levels is accepted, and the envelope that reports it is not decodable. -/
theorem deepMap_not_decodable :
    (ValueMessage.jobUpdate (resultUpdate (deepMap 33))).Accepted "session" ∧
      ¬(ValueMessage.jobUpdate (resultUpdate (deepMap 33))).Survives
        (some ⟨"correlation", none, 0, 0, none, none⟩) := by
  constructor
  · have hacc : validateSerializable (deepMap 33) = .ok () := by decide
    exact List.forall_mem_singleton.2 hacc
  · rw [ValueMessage.Survives]
    decide +kernel

end PluginSdk
