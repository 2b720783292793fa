import PluginSdk.Conformance
import PluginSdk.Lib.Ascii

/-!
# The builder of a plugin

The calls with which an author declares a plugin, and what they check.  Every sequence of calls is accepted or not
by what it says alone (`Plugin.declare_eq_ok`), under IDs that are dotted lower-case DNS names
(`Validation.pluginId_eq_ok`).  What a session of such a plugin announces in its greeting is what it then accepts
(`Connection.greeting_truthful`).
-/

namespace PluginSdk

open Lts

/-! ### Names -/

namespace Validation

def maximumPluginIdBytes : Nat := 191

def labels (value : String) : List String := (value.toList.splitOn '.').map String.ofList

def pluginId (value : String) : Except SdkError Unit :=
  if value.utf8ByteSize > maximumPluginIdBytes ∨ (labels value).length < 2 ∨ ¬ (labels value).all validDnsLabel then
    .error (.invalidArgument "plugin ID must be a lower-case dotted DNS name")
  else .ok ()

/-- A lower-case letter or a digit. -/
def LowercaseOrDigit (c : Char) : Prop := 'a' ≤ c ∧ c ≤ 'z' ∨ '0' ≤ c ∧ c ≤ '9'

instance (c : Char) : Decidable (LowercaseOrDigit c) := inferInstanceAs (Decidable (_ ∨ _))

/-- A label of a DNS name, by its characters. -/
structure DnsLabel (label : List Char) : Prop where
  length : label.length ≤ maximumDnsLabelBytes
  first : ∃ c, label.head? = some c ∧ LowercaseOrDigit c
  last : ∃ c, label.getLast? = some c ∧ LowercaseOrDigit c
  all : ∀ c ∈ label, LowercaseOrDigit c ∨ c = '-'

private theorem isLowercaseOrDigit_byte {c : Char} (hc : c.toNat < 128) :
    isLowercaseOrDigit (Ascii.byte c) = true ↔ LowercaseOrDigit c :=
  Ascii.forall_lt (P := fun c => isLowercaseOrDigit (Ascii.byte c) = true ↔ LowercaseOrDigit c) (by decide +kernel) hc

private theorem byte_eq_hyphen {c : Char} (hc : c.toNat < 128) : Ascii.byte c = '-'.toUInt8 ↔ c = '-' :=
  Ascii.forall_lt (P := fun c => Ascii.byte c = '-'.toUInt8 ↔ c = '-') (by decide +kernel) hc

private theorem lt_of_lowercaseOrDigit {c : Char} (hc : LowercaseOrDigit c ∨ c = '-') : c.toNat < 128 := by
  rcases hc with (⟨-, hle⟩ | ⟨-, hle⟩) | rfl
  · exact (UInt32.le_iff_toNat_le.1 hle).trans_lt (by decide)
  · exact (UInt32.le_iff_toNat_le.1 hle).trans_lt (by decide)
  · decide

private theorem lt_of_passes {b : UInt8} (hb : (isLowercaseOrDigit b || b == '-'.toUInt8) = true) :
    b.toNat < 128 := by
  simp only [isLowercaseOrDigit, Bool.or_eq_true, Bool.and_eq_true, decide_eq_true_eq, beq_iff_eq] at hb
  rcases hb with (⟨-, hle⟩ | ⟨-, hle⟩) | rfl
  · exact (UInt8.le_iff_toNat_le.1 hle).trans_lt (by decide)
  · exact (UInt8.le_iff_toNat_le.1 hle).trans_lt (by decide)
  · decide

private theorem any_head {l : List Char} (hascii : ∀ c ∈ l, c.toNat < 128) :
    (l.map Ascii.byte).head?.any isLowercaseOrDigit = true ↔ ∃ c, l.head? = some c ∧ LowercaseOrDigit c := by
  cases l with
  | nil => simp
  | cons c l => simp [isLowercaseOrDigit_byte (hascii c (by simp))]

private theorem any_getLast {l : List Char} (hascii : ∀ c ∈ l, c.toNat < 128) :
    (l.map Ascii.byte).getLast?.any isLowercaseOrDigit = true ↔ ∃ c, l.getLast? = some c ∧ LowercaseOrDigit c := by
  rw [List.getLast?_map]
  cases hlast : l.getLast? with
  | none => simp
  | some c => simp [isLowercaseOrDigit_byte (hascii c (List.mem_of_getLast? hlast))]

/-- The check of the bytes is the grammar of labels. -/
theorem validDnsLabel_iff (value : String) : validDnsLabel value = true ↔ DnsLabel value.toList := by
  have hpasses := Ascii.all_utf8_iff (l := value.toList) fun b hb => lt_of_passes hb
  unfold validDnsLabel
  rw [Ascii.toUTF8_toList]
  simp only [Bool.and_eq_true, Bool.not_eq_true', List.isEmpty_eq_false_iff, decide_eq_true_eq,
    List.all_eq_true, hpasses]
  have hall : ∀ c ∈ value.toList, c.toNat < 128 →
      ((isLowercaseOrDigit (Ascii.byte c) || Ascii.byte c == '-'.toUInt8) = true ↔ LowercaseOrDigit c ∨ c = '-') := by
    intro c _ hlt
    rw [Bool.or_eq_true, beq_iff_eq, isLowercaseOrDigit_byte hlt, byte_eq_hyphen hlt]
  constructor
  · rintro ⟨⟨⟨⟨-, hlength⟩, hfirst⟩, hlast⟩, hbytes⟩
    have hascii : ∀ c ∈ value.toList, c.toNat < 128 := fun c hc => (hbytes c hc).1
    rw [Ascii.utf8_eq_map hascii] at hlength hfirst hlast
    rw [List.length_map] at hlength
    exact ⟨hlength, (any_head hascii).1 hfirst, (any_getLast hascii).1 hlast,
      fun c hc => (hall c hc (hascii c hc)).1 (hbytes c hc).2⟩
  · intro hlabel
    have hascii : ∀ c ∈ value.toList, c.toNat < 128 := fun c hc => lt_of_lowercaseOrDigit (hlabel.all c hc)
    rw [Ascii.utf8_eq_map hascii, List.length_map]
    refine ⟨⟨⟨⟨?_, hlabel.length⟩, (any_head hascii).2 hlabel.first⟩, (any_getLast hascii).2 hlabel.last⟩,
      fun c hc => ?_⟩
    · obtain ⟨c, hfirst, -⟩ := hlabel.first
      intro hnil
      rw [List.map_eq_nil_iff] at hnil
      rw [hnil] at hfirst
      cases hfirst
    · exact ⟨hascii c hc, (hall c hc (hascii c hc)).2 (hlabel.all c hc)⟩

private theorem DnsLabel.not_mem_dot {label : List Char} (h : DnsLabel label) : '.' ∉ label := fun hmem => by
  have hdot := h.all '.' hmem
  revert hdot
  decide

private theorem mem_intercalate {c : Char} {labels : List (List Char)} (h : c ∈ ['.'].intercalate labels) :
    c = '.' ∨ ∃ label ∈ labels, c ∈ label := by
  induction labels with
  | nil => simp at h
  | cons label rest ih =>
    cases rest with
    | nil => exact Or.inr ⟨label, by simp, by simpa using h⟩
    | cons label' rest =>
      rw [List.intercalate_cons_cons, List.append_assoc, List.mem_append, List.mem_append, List.mem_singleton] at h
      rcases h with h | h | h
      · exact Or.inr ⟨label, by simp, h⟩
      · exact Or.inl h
      · exact (ih h).imp_right fun ⟨l, hl, hc⟩ => ⟨l, List.mem_cons_of_mem _ hl, hc⟩

/-- A DNS name of at least two labels. -/
structure DottedName (value : String) (labels : List (List Char)) : Prop where
  dotted : value.toList = ['.'].intercalate labels
  valid : ∀ label ∈ labels, DnsLabel label
  many : 2 ≤ labels.length
  length : value.length ≤ maximumPluginIdBytes

private theorem DottedName.ascii {value : String} {labels : List (List Char)}
    (hdotted : value.toList = ['.'].intercalate labels) (hlabels : ∀ label ∈ labels, DnsLabel label) :
    value.utf8ByteSize = value.length := by
  have hascii : ∀ c ∈ value.toList, c.toNat < 128 := by
    intro c hc
    rw [hdotted] at hc
    rcases mem_intercalate hc with rfl | ⟨label, hlabel, hc⟩
    · decide
    · exact lt_of_lowercaseOrDigit ((hlabels label hlabel).all c hc)
  rw [Ascii.utf8ByteSize_eq, Ascii.utf8_eq_map hascii, List.length_map, String.length_toList]

/-- The check of a plugin ID is the grammar of dotted names. -/
theorem pluginId_eq_ok {value : String} : pluginId value = .ok () ↔ ∃ labels, DottedName value labels := by
  unfold pluginId
  constructor
  · intro h
    split_ifs at h with hcheck
    simp only [not_or, not_not, Nat.not_lt] at hcheck
    obtain ⟨hsize, hmany, hall⟩ := hcheck
    have hdotted : value.toList = ['.'].intercalate (value.toList.splitOn '.') := (List.intercalate_splitOn '.').symm
    have hlabels : ∀ label ∈ value.toList.splitOn '.', DnsLabel label := by
      intro label hlabel
      have hvalid := List.all_eq_true.1 hall _ (List.mem_map_of_mem hlabel)
      rwa [validDnsLabel_iff, String.toList_ofList] at hvalid
    refine ⟨_, hdotted, hlabels, ?_, ?_⟩
    · simpa [labels] using hmany
    · rw [← DottedName.ascii hdotted hlabels]
      exact hsize
  · rintro ⟨parts, hdotted, hlabels, hmany, hlength⟩
    have hsplit : value.toList.splitOn '.' = parts := by
      rw [hdotted]
      refine List.splitOn_intercalate '.' (fun label hlabel => (hlabels label hlabel).not_mem_dot) ?_
      rintro rfl
      simp at hmany
    rw [if_neg]
    simp only [not_or, not_not, Nat.not_lt]
    refine ⟨?_, ?_, ?_⟩
    · rwa [DottedName.ascii hdotted hlabels]
    · rw [labels, hsplit, List.length_map]
      exact hmany
    · rw [labels, hsplit, List.all_eq_true]
      intro label hlabel
      obtain ⟨part, hpart, rfl⟩ := List.mem_map.1 hlabel
      rw [validDnsLabel_iff, String.toList_ofList]
      exact hlabels part hpart

end Validation

/-! ### The builder -/

def defaultMaximumConcurrentJobs : Nat := 256

structure PluginBuilder where
  plugin : Plugin

def Plugin.builder (pluginId version : String) : PluginBuilder :=
  ⟨{ pluginId, version, actions := ∅, maximumConcurrentJobs := defaultMaximumConcurrentJobs }⟩

namespace PluginBuilder

def maximumConcurrentJobs (b : PluginBuilder) (maximum : Nat) : Except SdkError PluginBuilder :=
  if maximum = 0 then .error (.invalidArgument "maximum concurrent jobs must be nonzero")
  else .ok ⟨{ b.plugin with maximumConcurrentJobs := maximum }⟩

/-- What the handler does is left open. -/
def action (b : PluginBuilder) (name description : String) : Except SdkError PluginBuilder :=
  if name = "" ∨ (b.plugin.actions.lookup name).isSome then
    .error (.invalidArgument "action names must be nonempty and unique")
  else .ok ⟨{ b.plugin with actions := b.plugin.actions.insert name ⟨description⟩ }⟩

def build (b : PluginBuilder) : Except SdkError Plugin := do
  Validation.pluginId b.plugin.pluginId
  if b.plugin.version = "" then .error (.invalidArgument "plugin version must not be empty") else .ok b.plugin

/-- What an author calls between `builder` and `build`. -/
inductive Call
  | maximumConcurrentJobs (maximum : Nat)
  | action (name description : String)

def call (b : PluginBuilder) : Call → Except SdkError PluginBuilder
  | .maximumConcurrentJobs maximum => b.maximumConcurrentJobs maximum
  | .action name description => b.action name description

end PluginBuilder

/-- The builder, some calls, and `build`. -/
def Plugin.declare (pluginId version : String) (calls : List PluginBuilder.Call) : Except SdkError Plugin := do
  let b ← calls.foldlM PluginBuilder.call (Plugin.builder pluginId version)
  b.build

namespace PluginBuilder

/-- The action that a call registers. -/
def Call.registered : Call → Option (String × String)
  | .maximumConcurrentJobs _ => none
  | .action name description => some (name, description)

/-- The bound that a call sets. -/
def Call.maximum : Call → Option Nat
  | .maximumConcurrentJobs maximum => some maximum
  | .action _ _ => none

/-- The actions that some calls register, with their descriptions. -/
def registered (calls : List Call) : List (String × String) := calls.filterMap Call.registered

def maxima (calls : List Call) : List Nat := calls.filterMap Call.maximum

/-- The last bound that some calls set. -/
def capacity (calls : List Call) : Nat := (maxima calls).getLastD defaultMaximumConcurrentJobs

/-- Calls that are all accepted. -/
structure Valid (calls : List Call) : Prop where
  names : ((registered calls).map Prod.fst).Nodup
  named : ∀ entry ∈ registered calls, entry.1 ≠ ""
  maxima : ∀ maximum ∈ maxima calls, maximum ≠ 0

/-- What some calls make of a plugin: the actions they register, latest first, and the last bound they set. -/
structure Assembled (pluginId version : String) (calls : List Call) (plugin : Plugin) : Prop where
  pluginId : plugin.pluginId = pluginId
  version : plugin.version = version
  actions : plugin.actions.toPairs = ((registered calls).map fun entry => (entry.1, ⟨entry.2⟩)).reverse
  maximumConcurrentJobs : plugin.maximumConcurrentJobs = capacity calls

variable {b b' : PluginBuilder} {calls : List Call} {pluginId version : String} {plugin plugin' : Plugin}

private theorem registered_snoc (calls : List Call) (c : Call) :
    registered (calls ++ [c]) = registered calls ++ c.registered.toList :=
  filterMap_snoc ..

private theorem maxima_snoc (calls : List Call) (c : Call) :
    maxima (calls ++ [c]) = maxima calls ++ c.maximum.toList :=
  filterMap_snoc ..

private theorem Valid.init {c : Call} (h : Valid (calls ++ [c])) : Valid calls := by
  obtain ⟨hnames, hnamed, hmaxima⟩ := h
  rw [registered_snoc] at hnames hnamed
  rw [maxima_snoc] at hmaxima
  rw [List.map_append] at hnames
  exact ⟨hnames.of_append_left, (List.forall_mem_append.1 hnamed).1, (List.forall_mem_append.1 hmaxima).1⟩

private theorem Valid.capacity_pos (h : Valid calls) : 0 < capacity calls := by
  unfold capacity
  rw [List.getLastD_eq_getLast?]
  cases hlast : (PluginBuilder.maxima calls).getLast? with
  | none => exact Nat.succ_pos 255
  | some maximum => exact Nat.pos_of_ne_zero (h.maxima maximum (List.mem_of_getLast? hlast))

namespace Assembled

private theorem keys (h : Assembled pluginId version calls plugin) :
    plugin.actions.keys = ((registered calls).map Prod.fst).reverse := by
  rw [← AList.map_fst_toPairs, h.actions, List.map_reverse, List.map_map]
  rfl

private theorem mem_actions (h : Assembled pluginId version calls plugin) {name : String} :
    name ∈ plugin.actions ↔ name ∈ (registered calls).map Prod.fst := by
  rw [AList.mem_keys, h.keys, List.mem_reverse]

private theorem lookup_isSome (h : Assembled pluginId version calls plugin) {name : String} :
    (plugin.actions.lookup name).isSome ↔ ∃ description, (name, description) ∈ registered calls := by
  rw [AList.lookup_isSome, h.mem_actions, List.mem_map]
  constructor
  · rintro ⟨⟨_, description⟩, hmem, rfl⟩
    exact ⟨description, hmem⟩
  · rintro ⟨description, hmem⟩
    exact ⟨_, hmem, rfl⟩

/-- The calls determine the plugin. -/
private theorem unique (h : Assembled pluginId version calls plugin) (h' : Assembled pluginId version calls plugin') :
    plugin = plugin' := by
  obtain ⟨id, v, actions, maximum⟩ := plugin
  obtain ⟨id', v', actions', maximum'⟩ := plugin'
  obtain rfl : id = id' := h.pluginId.trans h'.pluginId.symm
  obtain rfl : v = v' := h.version.trans h'.version.symm
  obtain rfl : actions = actions' := AList.toPairs_injective (h.actions.trans h'.actions.symm)
  obtain rfl : maximum = maximum' := h.maximumConcurrentJobs.trans h'.maximumConcurrentJobs.symm
  rfl

end Assembled

/-- What one more accepted call makes of the plugin. -/
theorem assembled_call {c : Call} (h : Assembled pluginId version calls b.plugin) (hc : b.call c = .ok b') :
    Assembled pluginId version (calls ++ [c]) b'.plugin := by
  cases c with
  | maximumConcurrentJobs maximum =>
    simp only [call, maximumConcurrentJobs] at hc
    split_ifs at hc
    cases hc
    refine ⟨h.pluginId, h.version, ?_, ?_⟩
    · rw [registered_snoc]
      simpa [Call.registered] using h.actions
    · rw [capacity, maxima_snoc]
      simp [Call.maximum]
  | action name description =>
    simp only [call, action] at hc
    split_ifs at hc with hname
    cases hc
    have hnew : name ∉ b.plugin.actions := by
      rw [← AList.lookup_isSome]
      exact fun hsome => hname (Or.inr hsome)
    refine ⟨h.pluginId, h.version, ?_, ?_⟩
    · rw [registered_snoc]
      simp only [Call.registered, Option.toList_some, List.map_append, List.reverse_append,
        AList.toPairs_insert_of_notMem hnew, h.actions]
      rfl
    · rw [capacity, maxima_snoc]
      simpa [Call.maximum, capacity] using h.maximumConcurrentJobs

private theorem assembled (h : calls.foldlM call (Plugin.builder pluginId version) = .ok b) :
    Assembled pluginId version calls b.plugin := by
  induction calls using List.reverseRecOn generalizing b with
  | nil =>
    cases h
    exact ⟨rfl, rfl, rfl, rfl⟩
  | append_singleton calls c ih =>
    rw [List.foldlM_append] at h
    obtain ⟨b₁, hcalls, h⟩ := bind_eq_ok.1 h
    rw [List.foldlM_cons] at h
    obtain ⟨b₂, hc, h⟩ := bind_eq_ok.1 h
    cases h
    exact assembled_call (ih hcalls) hc

/-- One more call is accepted exactly if the calls are then still valid. -/
theorem call_accepted {c : Call} (h : Assembled pluginId version calls b.plugin) (hcalls : Valid calls) :
    (∃ b', b.call c = .ok b') ↔ Valid (calls ++ [c]) := by
  cases c with
  | maximumConcurrentJobs maximum =>
    have hvalid : Valid (calls ++ [.maximumConcurrentJobs maximum]) ↔ maximum ≠ 0 := by
      constructor
      · intro hv
        exact hv.maxima maximum (by simp [maxima_snoc, Call.maximum])
      · intro hmaximum
        refine ⟨?_, ?_, ?_⟩
        · simpa [registered_snoc, Call.registered] using hcalls.names
        · simpa [registered_snoc, Call.registered] using hcalls.named
        · rw [maxima_snoc]
          exact List.forall_mem_append.2 ⟨hcalls.maxima, by simpa [Call.maximum] using hmaximum⟩
    rw [hvalid]
    unfold call maximumConcurrentJobs
    by_cases hzero : maximum = 0
    · simp [hzero]
    · simp [hzero]
  | action name description =>
    have hvalid : Valid (calls ++ [.action name description]) ↔ name ≠ "" ∧ name ∉ b.plugin.actions := by
      rw [h.mem_actions]
      constructor
      · intro hv
        have hnames := hv.names
        have hnamed := hv.named (name, description) (by simp [registered_snoc, Call.registered])
        rw [registered_snoc, List.map_append, List.nodup_append] at hnames
        refine ⟨hnamed, fun hmem => hnames.2.2 name hmem name ?_ rfl⟩
        simp [Call.registered]
      · rintro ⟨hname, hnew⟩
        refine ⟨?_, ?_, ?_⟩
        · rw [registered_snoc, List.map_append, List.nodup_append]
          refine ⟨hcalls.names, by simp [Call.registered], ?_⟩
          rintro a ha b' hb rfl
          simp only [Call.registered, Option.toList_some, List.map_cons, List.map_nil, List.mem_singleton] at hb
          exact hnew (hb ▸ ha)
        · rw [registered_snoc]
          exact List.forall_mem_append.2 ⟨hcalls.named, by simpa [Call.registered] using hname⟩
        · simpa [maxima_snoc, Call.maximum] using hcalls.maxima
    rw [hvalid]
    unfold call action
    rw [← AList.lookup_isSome]
    by_cases hname : name = "" ∨ (b.plugin.actions.lookup name).isSome
    · simp only [if_pos hname]
      refine iff_of_false (by simp) fun hand => ?_
      exact hname.elim hand.1 hand.2
    · simp only [if_neg hname]
      exact iff_of_true ⟨_, rfl⟩ (not_or.1 hname)

private theorem calls_accepted (pluginId version : String) (calls : List Call) :
    (∃ b, calls.foldlM call (Plugin.builder pluginId version) = .ok b) ↔ Valid calls := by
  induction calls using List.reverseRecOn with
  | nil => exact iff_of_true ⟨_, rfl⟩ ⟨List.nodup_nil, by simp [registered], by simp [maxima]⟩
  | append_singleton calls c ih =>
    rw [List.foldlM_append]
    constructor
    · rintro ⟨b', h⟩
      obtain ⟨b, hcalls, h⟩ := bind_eq_ok.1 h
      rw [List.foldlM_cons] at h
      obtain ⟨b₁, hc, -⟩ := bind_eq_ok.1 h
      exact (call_accepted (assembled hcalls) (ih.1 ⟨b, hcalls⟩)).1 ⟨b₁, hc⟩
    · intro hvalid
      obtain ⟨b, hcalls⟩ := ih.2 hvalid.init
      obtain ⟨b', hc⟩ := (call_accepted (assembled hcalls) hvalid.init).2 hvalid
      refine ⟨b', bind_eq_ok.2 ⟨b, hcalls, ?_⟩⟩
      rw [List.foldlM_cons]
      exact bind_eq_ok.2 ⟨b', hc, rfl⟩

private theorem build_eq_ok : b.build = .ok plugin ↔
    (∃ labels, Validation.DottedName b.plugin.pluginId labels) ∧ b.plugin.version ≠ "" ∧ b.plugin = plugin := by
  unfold build
  rw [bind_eq_ok, ← Validation.pluginId_eq_ok]
  constructor
  · rintro ⟨_, hid, h⟩
    split_ifs at h with hversion
    exact ⟨hid, hversion, Except.ok.inj h⟩
  · rintro ⟨hid, hversion, rfl⟩
    exact ⟨(), hid, if_neg hversion⟩

end PluginBuilder

namespace Plugin

variable {pluginId version : String} {calls : List PluginBuilder.Call} {plugin : Plugin}

private theorem of_declare (h : declare pluginId version calls = .ok plugin) :
    (∃ labels, Validation.DottedName pluginId labels) ∧ version ≠ "" ∧ PluginBuilder.Valid calls ∧
    PluginBuilder.Assembled pluginId version calls plugin := by
  obtain ⟨b, hcalls, hbuild⟩ := bind_eq_ok.1 h
  obtain ⟨hid, hversion, rfl⟩ := PluginBuilder.build_eq_ok.1 hbuild
  have hassembled := PluginBuilder.assembled hcalls
  rw [hassembled.pluginId] at hid
  rw [hassembled.version] at hversion
  exact ⟨hid, hversion, (PluginBuilder.calls_accepted ..).1 ⟨b, hcalls⟩, hassembled⟩

/-- A declaration is accepted exactly if the ID is a dotted name, the version is there and every call is valid, and
then it is what the calls say. -/
theorem declare_eq_ok : declare pluginId version calls =
    .ok plugin ↔ (∃ labels, Validation.DottedName pluginId labels) ∧ version ≠ "" ∧ PluginBuilder.Valid calls ∧
    PluginBuilder.Assembled pluginId version calls plugin := by
  constructor
  · exact of_declare
  · rintro ⟨hid, hversion, hvalid, hassembled⟩
    obtain ⟨b, hcalls⟩ := (PluginBuilder.calls_accepted pluginId version calls).2 hvalid
    have heq := hassembled.unique (PluginBuilder.assembled hcalls)
    refine bind_eq_ok.2 ⟨b, hcalls, PluginBuilder.build_eq_ok.2 ?_⟩
    rw [← heq, hassembled.pluginId, hassembled.version]
    exact ⟨hid, hversion, rfl⟩

end Plugin

/-! ### What a session announces -/

namespace Serve

variable {s : Serve} {envelope : PluginEnvelope} {trace : TraceContext} {request : StartJobRequest} {jobId : String}
  {invocation : ActionInvocation}

/-- A request for a job that is not active, for whichever action. -/
structure JobRequest (s : Serve) (envelope : PluginEnvelope) (trace : TraceContext) (request : StartJobRequest)
    (jobId : String) (invocation : ActionInvocation) : Prop where
  asks : ∃ session, s.Request envelope trace session (.startJob request)
  id : Validation.jobId request.jobId = .ok jobId
  deadline : Validation.optionalTimestamp request.deadline "StartJobRequest deadline" = .ok ()
  inactive : s.jobs.active.lookup jobId = none
  action : request.invocation = some invocation

/-- What the loop is about to send and do if it accepts the job. -/
def Accepts (s : Serve) (envelope : PluginEnvelope) (trace : TraceContext)
    (request : StartJobRequest) (jobId : String) (invocation : ActionInvocation) : Prop :=
  (s.process envelope).1.loop = .sending [⟨some envelope.messageId, trace, .jobAccepted ⟨some ⟨jobId⟩⟩⟩]
    (.spawn ⟨jobId, request.deadline, trace, envelope.messageId, invocation.arguments⟩)

private theorem JobRequest.live_iff (h : s.JobRequest envelope trace request jobId invocation) (hlive : s.Live) :
    (s.process envelope).1.Live ↔ (s.jobs.actions.lookup invocation.action).isSome := by
  obtain ⟨session, hreq⟩ := h.asks
  rw [live_process hlive]
  constructor
  · rintro ⟨trace', session', -, hobeys⟩
    rw [hreq.replyTo, hreq.payload] at hobeys
    obtain ⟨jobId', invocation', hobeys⟩ := hobeys
    obtain rfl : invocation = invocation' := Option.some.inj (h.action.symm.trans hobeys.action)
    exact hobeys.known
  · intro hknown
    refine ⟨trace, session, hreq.valid, ?_⟩
    rw [hreq.replyTo, hreq.payload]
    exact ⟨jobId, invocation, h.id, h.deadline, by simp [h.inactive], h.action, hknown⟩

private theorem JobRequest.accepts_iff (h : s.JobRequest envelope trace request jobId invocation) (hlive : s.Live) :
    s.Accepts envelope trace request jobId invocation ↔
      (s.jobs.actions.lookup invocation.action).isSome ∧ s.jobs.active.size < s.jobs.maximumConcurrentJobs := by
  obtain ⟨session, hreq⟩ := h.asks
  by_cases hknown : (s.jobs.actions.lookup invocation.action).isSome
  · have hok : s.jobs.Startable request jobId invocation := ⟨h.id, h.deadline, h.inactive, h.action, hknown⟩
    unfold Accepts
    rw [process_of_startable hreq hok]
    by_cases hfull : s.jobs.maximumConcurrentJobs ≤ s.jobs.active.size
    · rw [if_pos hfull]
      refine iff_of_false (fun heq => ?_) fun hand => absurd hand.2 (by omega)
      cases heq
    · rw [if_neg hfull]
      exact iff_of_true rfl ⟨hknown, by omega⟩
  · -- the loop has failed on the request
    refine iff_of_false (fun haccepts => ?_) fun hand => hknown hand.1
    refine hknown ((h.live_iff hlive).1 ?_)
    unfold Accepts at haccepts
    rw [Live, haccepts]
    trivial

end Serve

namespace Connection

variable {plugin : Plugin} {pluginId version : String} {calls : List PluginBuilder.Call}
  {h : List ServeEvent} {s : Serve}

/-- The plugin announces what its author has declared, and the session then accepts what was announced: a request
for a new job fails the session unless its action is in the greeting, and is refused only if as many jobs are active
as the author has allowed. -/
theorem greeting_truthful (hplugin : Plugin.declare pluginId version calls = .ok plugin)
    (hr : Steps Step (.opening false) h (.serving s : Connection plugin)) (hloop : s.loop = .head) :
    ∃ greeting hello rest, outbound h = greeting :: rest ∧ greeting.payload = some (.pluginHello hello) ∧
      hello.pluginId = some pluginId ∧ hello.pluginVersion = version ∧
      (hello.actions.map fun a => (a.name, a.description)).Perm (PluginBuilder.registered calls) ∧
      0 < PluginBuilder.capacity calls ∧
      ∀ envelope trace request jobId invocation, s.JobRequest envelope trace request jobId invocation →
        ((s.process envelope).1.Live ↔ ∃ a ∈ hello.actions, a.name = invocation.action) ∧
        (s.Accepts envelope trace request jobId invocation ↔
          (∃ a ∈ hello.actions, a.name = invocation.action) ∧ s.jobs.active.size < PluginBuilder.capacity calls) := by
  -- the session has the actions and the bound of the plugin, and its first envelope is the greeting
  obtain ⟨-, -, hvalid, hassembled⟩ := Plugin.of_declare hplugin
  have hlive : s.Live := by simp [Serve.Live, hloop]
  have ht := trail hr
  generalize inbound h = inb at ht
  generalize outbound h = out at ht ⊢
  cases ht with
  | serving o hready hserve =>
    have hperm : ((plugin.hello o.hello).actions.map fun a => (a.name, a.description)).Perm
        (PluginBuilder.registered calls) := by
      have heq : (plugin.hello o.hello).actions.map (fun a => (a.name, a.description)) =
          (PluginBuilder.registered calls).reverse := by
        simp [Plugin.hello, hassembled.actions, Function.comp_def]
      rw [heq]
      exact List.reverse_perm _
    have hnames : ∀ name, (s.jobs.actions.lookup name).isSome ↔ ∃ a ∈ (plugin.hello o.hello).actions,
      a.name = name := by
      intro name
      have hactions : s.jobs.actions = plugin.actions := Serve.actions_eq hserve
      rw [hactions, hassembled.lookup_isSome]
      constructor
      · rintro ⟨description, hmem⟩
        obtain ⟨a, ha, heq⟩ := List.mem_map.1 (hperm.mem_iff.2 hmem)
        exact ⟨a, ha, (Prod.mk.inj heq).1⟩
      · rintro ⟨a, ha, rfl⟩
        exact ⟨a.description, hperm.mem_iff.1 (List.mem_map_of_mem ha)⟩
    have hmaximum : s.jobs.maximumConcurrentJobs = PluginBuilder.capacity calls :=
      (Serve.maximum_eq hserve).trans hassembled.maximumConcurrentJobs
    refine ⟨o.greeting, plugin.hello o.hello, _, rfl, rfl, ?_, hassembled.version, hperm, hvalid.capacity_pos, ?_⟩
    · exact congrArg some hassembled.pluginId
    · intro envelope trace request jobId invocation hreq
      rw [hreq.live_iff hlive, hreq.accepts_iff hlive, hnames, hmaximum]
      exact ⟨Iff.rfl, Iff.rfl⟩

open Serve (sampleStart sampleTrace sampleJobId)

def sampleCalls : List PluginBuilder.Call := [.action "echo" "Echoes.", .maximumConcurrentJobs 1]

private theorem declare_sampleCalls : Plugin.declare "org.example.echo" "1.0.0" sampleCalls = .ok samplePlugin := by
  have hid : Validation.pluginId "org.example.echo" = .ok () := by decide +kernel
  exact bind_eq_ok.2 ⟨⟨samplePlugin⟩, rfl, bind_eq_ok.2 ⟨(), hid, rfl⟩⟩

private theorem sampleHandshake_serving : ∃ s, Steps Step (.opening false) sampleHandshake
    (.serving s : Connection samplePlugin) ∧ s.loop = .head ∧ s.session = Serve.sampleSetup.session ∧
    s.jobs = (Serve.init Serve.sampleSetup).jobs := by
  have hready : receiveReady (Serve.sampleRequest 2 .ready) sampleOpening.trace sampleOpening.session =
      .ok ⟨⟨"session", "instance"⟩, 2, 10, 10⟩ := by decide +kernel
  exact ⟨_, .cons (.opened sampleOpening) (.cons (.greet (by decide) rfl)
    (.cons (.accepted hready) (.single (.ready (by decide) rfl)))), rfl, rfl, rfl⟩

/-- The sample plugin accepts a job for the action that it has announced. -/
theorem greeting_truthful_sampleHandshake : ∃ s, Steps Step (.opening false) sampleHandshake
    (.serving s : Connection samplePlugin) ∧ s.Accepts sampleStart sampleTrace
      ⟨some ⟨sampleJobId⟩, none, some ⟨"echo", []⟩⟩ sampleJobId ⟨"echo", []⟩ := by
  obtain ⟨s, hr, hloop, hsession, hjobs⟩ := sampleHandshake_serving
  obtain ⟨greeting, hello, rest, -, -, -, -, hperm, hcapacity, hjob⟩ := greeting_truthful declare_sampleCalls hr hloop
  have hreq : s.JobRequest sampleStart sampleTrace ⟨some ⟨sampleJobId⟩, none, some ⟨"echo", []⟩⟩
    sampleJobId ⟨"echo", []⟩ :=
    ⟨⟨_, Serve.sampleRequest_valid hsession (by decide)⟩, Serve.jobId_sampleJobId, rfl, by rw [hjobs]; rfl, rfl⟩
  refine ⟨s, hr, (hjob _ _ _ _ _ hreq).2.2 ⟨?_, ?_⟩⟩
  · obtain ⟨a, ha, heq⟩ := List.mem_map.1 (hperm.mem_iff.2 (List.mem_singleton_self ("echo", "Echoes.")))
    exact ⟨a, ha, (Prod.mk.inj heq).1⟩
  · rw [hjobs]
    exact hcapacity

end Connection

end PluginSdk
