import Workflow.Primitive.Schema
import Workflow.Proofs.Json.Gives
import Workflow.Proofs.Keyed

/-!
# What is reported of an input

A schema says of each of its fields what the value must be.  The input of a primitive is accepted
if it meets all that the schema says, and otherwise the fields that do not are reported, each once
and in key order.  What is reported of one field depends on that field alone: on its own schema and
on the value that the input has under its name.
-/

namespace Workflow

variable {schema : InputSchema} {field : FieldSchema} {fields : Keyed Json} {name : String}

/-! ### Values of a field -/

/-- The values of a type. -/
inductive FieldType.Has : FieldType → Json → Prop
  | string (s : String) : Has .string (.str s)
  | number (n : Number) : Has .number (.num n)
  | integer (i : Int) : Has .integer (.num (.whole i))
  | boolean (b : Bool) : Has .boolean (.bool b)
  | object (fields : Keyed Json) : Has .object (.obj fields)
  | array (items : List Json) : Has .array (.arr items)
  | any (v : Json) : Has .any v

/-- What a field may have: nothing or null, if it is not required, or a value of its type which is
one of those that are listed, if any are. -/
inductive FieldSchema.Admits (field : FieldSchema) : Option Json → Prop
  | absent (h : field.required = false) : Admits field none
  | null (h : field.required = false) : Admits field (some .null)
  | present {v : Json} (hnull : v ≠ .null) (htype : field.type.Has v)
      (hlisted : ∀ allowed, field.allowed = some allowed → ∃ w ∈ allowed, (v == w) = true) :
      Admits field (some v)

theorem FieldType.accepts_iff {type : FieldType} {v : Json} :
    type.accepts v = true ↔ type.Has v := by
  constructor
  · intro h
    rw [FieldType.accepts.eq_def] at h
    split at h
    · exact .string _
    · exact .number _
    · exact .integer _
    · exact .boolean _
    · exact .object _
    · exact .array _
    · exact .any _
    · cases h
  · intro h
    cases h <;> rfl

/-- Nothing is wrong with the value of a field exactly if the field may have it. -/
theorem FieldSchema.fault?_eq_none {value : Option Json} :
    field.fault? value = none ↔ field.Admits value := by
  have hmissing : (if field.required then some FieldFault.missing else none) = none ↔
      field.required = false := by
    cases field.required <;> simp
  rw [FieldSchema.fault?.eq_def]
  split
  · exact hmissing.trans ⟨.absent, fun | .absent h => h⟩
  · exact hmissing.trans ⟨.null, fun | .null h => h | .present hnull _ _ => absurd rfl hnull⟩
  · next v hnull =>
    constructor
    · intro h
      split at h
      · next htype =>
        refine .present hnull (FieldType.accepts_iff.mp htype) fun allowed hallowed => ?_
        simp only [hallowed] at h
        split at h
        · next hlisted => exact List.contains_iff_exists_mem_beq.mp hlisted
        · cases h
      · cases h
    · intro h
      cases h with
      | null => exact absurd rfl hnull
      | present _ htype hlisted =>
          rw [if_pos (FieldType.accepts_iff.mpr htype)]
          cases hallowed : field.allowed with
          | none => rfl
          | some allowed =>
              exact if_pos (List.contains_iff_exists_mem_beq.mpr (hlisted allowed hallowed))

theorem FieldSchema.isSome_fault? {value : Option Json} :
    (field.fault? value).isSome = true ↔ ¬ field.Admits value := by
  rw [← FieldSchema.fault?_eq_none, Option.isSome_iff_ne_none]

/-! ### Fields that are wrong -/

namespace InputSchema

theorem faults_eq_nil :
    faults schema fields = [] ↔
      ∀ name field, (name, field) ∈ schema → field.Admits (Keyed.get? name fields) := by
  simp only [faults, List.filterMap_eq_nil_iff, Option.map_eq_none_iff,
    FieldSchema.fault?_eq_none, Prod.forall]

theorem keys_faults :
    Keyed.keys (faults schema fields) = Keyed.keys
      (schema.filter fun entry => (entry.2.fault? (Keyed.get? entry.1 fields)).isSome) := by
  rw [faults, Keyed.keys, Keyed.keys, List.map_filterMap, ← List.filterMap_eq_map,
    List.filterMap_filter]
  refine List.filterMap_congr fun entry _ => ?_
  obtain ⟨name, field⟩ := entry
  dsimp only
  cases field.fault? (Keyed.get? name fields) <;> rfl

/-- The fields that are wrong are those whose value the schema does not admit. -/
theorem mem_keys_faults :
    name ∈ Keyed.keys (faults schema fields) ↔
      ∃ field, (name, field) ∈ schema ∧ ¬ field.Admits (Keyed.get? name fields) := by
  rw [keys_faults, Keyed.keys, List.mem_map]
  constructor
  · rintro ⟨⟨name, field⟩, hentry, rfl⟩
    obtain ⟨hmem, hfault⟩ := List.mem_filter.mp hentry
    exact ⟨field, hmem, FieldSchema.isSome_fault?.mp hfault⟩
  · rintro ⟨field, hmem, hfault⟩
    exact ⟨(name, field), List.mem_filter.mpr ⟨hmem, FieldSchema.isSome_fault?.mpr hfault⟩, rfl⟩

theorem ordered_faults (h : Keyed.Ordered schema) : Keyed.Ordered (faults schema fields) := by
  rw [Keyed.Ordered, keys_faults]
  exact h.sublist (List.filter_sublist.map Prod.fst)

theorem faults_erase :
    faults (Keyed.erase name schema) fields = Keyed.erase name (faults schema fields) := by
  rw [faults, faults, Keyed.erase, Keyed.erase, List.filterMap_filter, List.filter_filterMap]
  refine List.filterMap_congr fun entry _ => ?_
  obtain ⟨other, field⟩ := entry
  dsimp only
  by_cases hname : other = name
  · subst hname
    cases field.fault? (Keyed.get? other fields) <;> simp [Option.filter_some]
  · cases field.fault? (Keyed.get? other fields) <;> simp [Option.filter_some, hname]

/-- Only the values of the fields of the schema matter. -/
theorem faults_congr {fields' : Keyed Json}
    (h : ∀ name ∈ Keyed.keys schema, Keyed.get? name fields' = Keyed.get? name fields) :
    faults schema fields' = faults schema fields := by
  refine List.filterMap_congr fun entry hentry => ?_
  obtain ⟨name, field⟩ := entry
  simp only [h name (List.mem_map_of_mem hentry)]

/-! ### Inputs -/

/-- What a schema asks of an input: anything will do for a schema without fields, and else it is an
object in which each field may have the value that it has. -/
def Accepts (schema : InputSchema) (input : Json) : Prop :=
  schema = [] ∨ ∃ fields, input = .obj fields ∧
    ∀ name field, (name, field) ∈ schema → field.Admits (Keyed.get? name fields)

/-- What is reported of an input: the fields, each with a message. -/
def reported (schema : InputSchema) (input : Json) : List (String × String) :=
  ((schema.fault? input).map InputFault.entries).getD []

theorem fault?_obj :
    schema.fault? (.obj fields) =
      if faults schema fields = [] then none else some (.fields (faults schema fields)) := by
  cases schema with
  | nil => rfl
  | cons entry schema =>
      rw [fault?, if_neg (by simp)]
      cases faults (entry :: schema) fields <;> rfl

theorem fault?_of_not_obj {input : Json} (hne : schema ≠ []) (h : ∀ fields, input ≠ .obj fields) :
    schema.fault? input = some (.notObject input.kind) := by
  rw [fault?, if_neg (by simpa using hne)]
  exact h

theorem fault?_eq_none {input : Json} : schema.fault? input = none ↔ schema.Accepts input := by
  by_cases hne : schema = []
  · subst hne
    exact ⟨fun _ => .inl rfl, fun _ => rfl⟩
  · by_cases hobj : ∃ fields, input = .obj fields
    · obtain ⟨fields, rfl⟩ := hobj
      simp [fault?_obj, Accepts, hne, faults_eq_nil]
    · rw [not_exists] at hobj
      rw [fault?_of_not_obj hne hobj]
      simp [Accepts, hne, hobj]

theorem reported_obj :
    schema.reported (.obj fields) =
      (faults schema fields).map fun (field, fault) => (field, fault.message) := by
  rw [reported, fault?_obj]
  split
  · next hfaults => rw [hfaults]; rfl
  · rfl

theorem keys_reported : Keyed.keys (schema.reported (.obj fields)) =
    Keyed.keys (faults schema fields) := by
  rw [reported_obj, Keyed.keys, List.map_map]
  rfl

/-- A schema that is read has its fields in key order. -/
theorem ordered_of_ofJson {v : Json} (h : ofJson v = .ok schema) : Keyed.Ordered schema := by
  rw [ofJson.eq_def] at h
  split at h
  · cases h
    exact .nil
  · exact Json.Decoder.keyed_ordered.ofValue h

/-- An input is accepted exactly if it is what the schema asks.  Of an object the fields are
reported that are not, each once and in key order, and of anything else that it is no object.
Fields outside the schema do not matter, and without a field of the schema only what was reported
of this field is left out. -/
theorem reports_what_fails (h : Keyed.Ordered schema) :
    (∀ input, schema.fault? input = none ↔ schema.Accepts input) ∧
    (∀ fields, Keyed.Ordered (schema.reported (.obj fields)) ∧
      ∀ name, name ∈ Keyed.keys (schema.reported (.obj fields)) ↔
        ∃ field, (name, field) ∈ schema ∧ ¬ field.Admits (Keyed.get? name fields)) ∧
    (∀ input, ¬ schema.Accepts input → (∀ fields, input ≠ .obj fields) →
      ∃ message, schema.reported input = [("$input", message)]) ∧
    (∀ fields fields',
      (∀ name ∈ Keyed.keys schema, Keyed.get? name fields' = Keyed.get? name fields) →
      schema.fault? (.obj fields') = schema.fault? (.obj fields)) ∧
    ∀ name, (∃ other ∈ Keyed.keys schema, other ≠ name) →
      (∀ fields, InputSchema.reported (Keyed.erase name schema) (.obj fields) =
        Keyed.erase name (schema.reported (.obj fields))) ∧
      ∀ input, (∀ fields, input ≠ .obj fields) →
        InputSchema.fault? (Keyed.erase name schema) input = schema.fault? input := by
  refine ⟨fun _ => fault?_eq_none, fun fields => ⟨?_, fun name => ?_⟩, fun input hfails hnot => ?_,
    fun fields fields' hsame => ?_, fun name hother => ⟨fun fields => ?_, fun input hnot => ?_⟩⟩
  · rw [Keyed.Ordered, keys_reported]
    exact ordered_faults h
  · rw [keys_reported]
    exact mem_keys_faults
  · refine ⟨"expected an object, got " ++ input.kind, ?_⟩
    rw [reported, fault?_of_not_obj (fun hempty => hfails (.inl hempty)) hnot]
    rfl
  · rw [fault?_obj, fault?_obj, faults_congr hsame]
  · rw [reported_obj, reported_obj, faults_erase, Keyed.erase, Keyed.erase, List.filter_map]
    rfl
  · obtain ⟨other, hmem, hne⟩ := hother
    have hschema : schema ≠ [] := by
      rintro rfl
      cases hmem
    have hrest : Keyed.erase name schema ≠ [] := by
      intro hempty
      have herased := Keyed.mem_keys_erase_of_ne hne hmem
      rw [hempty] at herased
      cases herased
    rw [fault?_of_not_obj hrest hnot, fault?_of_not_obj hschema hnot]

end InputSchema

def emailSchema : InputSchema :=
  [("priority", ⟨.string, false, some [.str "low", .str "high"], none⟩),
    ("retries", ⟨.integer, false, none, none⟩), ("subject", ⟨.string, true, none, none⟩),
    ("to", ⟨.string, true, none, none⟩)]

def emailInput : Keyed Json :=
  [("extra", .null), ("priority", .str "urgent"), ("retries", .num (.double 1.5)),
    ("subject", .num (.whole 42))]

/-- Four fields are reported, and three without the one that is taken out of the schema. -/
theorem email_reports_what_fails :
    Keyed.Ordered emailSchema ∧ ¬ emailSchema.Accepts (.obj emailInput) ∧
    Keyed.keys (emailSchema.reported (.obj emailInput)) =
      ["priority", "retries", "subject", "to"] ∧
    (∃ field, ("to", field) ∈ emailSchema ∧ ¬ field.Admits none) ∧
    Keyed.keys (InputSchema.reported (Keyed.erase "subject" emailSchema) (.obj emailInput)) =
      ["priority", "retries", "to"] := by
  have hread : InputSchema.ofJson emailSchema.toJson = .ok emailSchema := by rfl
  have hordered := InputSchema.ordered_of_ofJson hread
  have hkeys : Keyed.keys (emailSchema.reported (.obj emailInput)) =
      ["priority", "retries", "subject", "to"] := by rfl
  obtain ⟨haccepts, hreported, -, -, herase⟩ := InputSchema.reports_what_fails hordered
  refine ⟨hordered, fun h => ?_, hkeys, ?_, ?_⟩
  · cases (haccepts (.obj emailInput)).mpr h
  · exact ((hreported emailInput).2 "to").mp (by rw [hkeys]; decide)
  · rw [(herase "subject" ⟨"to", by decide, by decide⟩).1 emailInput]
    rfl

end Workflow
