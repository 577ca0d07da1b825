import Workflow.Proofs.Json.Gives
import Workflow.Proofs.Keyed
import Workflow.Run.Visit

/-!
# The input of a primitive node

The input of a primitive node is its fixed input with its mapping laid over it: it has the keys of
both, and under each the value that the entry of the mapping has, or the fixed value where the
entry has none.  A null is taken for no value here, though an entry may well give one: a fixed
value that is not null then stays in its place.
-/

namespace Workflow

variable {key : String} {fixed mapped : Keyed Json} {scope : Scope} {config : PrimitiveConfig}

/-! ### Laying values over others -/

theorem Json.isNull_iff {v : Json} : v.isNull = true ↔ v = .null := by
  cases v <;> simp [isNull]

namespace PrimitiveConfig

/-- One value laid over the fixed ones. -/
def lay (input : Keyed Json) (key : String) (value : Json) : Keyed Json :=
  if value.isNull && Keyed.has key input then input else Keyed.insert key value input

theorem mergeInput_cons {value : Json} :
    mergeInput fixed ((key, value) :: mapped) = mergeInput (lay fixed key value) mapped := rfl

/-- A null gives way to what is there. -/
theorem get?_lay_self {value : Json} :
    Keyed.get? key (lay fixed key value) =
      some (if value.isNull then (Keyed.get? key fixed).getD .null else value) := by
  rw [lay, Keyed.has]
  cases hnull : value.isNull with
  | false => exact Keyed.get?_insert_self key value fixed
  | true =>
      cases hfixed : Keyed.get? key fixed with
      | some v => exact hfixed
      | none =>
          rw [Json.isNull_iff.mp hnull]
          exact Keyed.get?_insert_self key .null fixed

theorem get?_lay_of_ne {other : String} {value : Json} (h : other ≠ key) :
    Keyed.get? other (lay fixed key value) = Keyed.get? other fixed := by
  rw [lay]
  split
  · rfl
  · exact Keyed.get?_insert_of_ne value fixed h

/-- What is under a key of the result, if the values that are laid over have each key once. -/
theorem get?_mergeInput (h : (Keyed.keys mapped).Nodup) :
    Keyed.get? key (mergeInput fixed mapped) =
      match Keyed.get? key mapped with
      | none => Keyed.get? key fixed
      | some value =>
        some (if value.isNull then (Keyed.get? key fixed).getD .null else value) := by
  induction mapped generalizing fixed with
  | nil => rfl
  | cons field mapped ih =>
      obtain ⟨k, value⟩ := field
      obtain ⟨hk, hrest⟩ := List.nodup_cons.mp h
      rw [mergeInput_cons, ih hrest, Keyed.get?]
      by_cases hkey : k = key
      · subst hkey
        -- No later value has this key, so what is laid here stays.
        rw [if_pos rfl, Keyed.get?_of_notMem hk]
        exact get?_lay_self
      · rw [if_neg hkey, get?_lay_of_ne (Ne.symm hkey)]

theorem ordered_mergeInput (h : Keyed.Ordered fixed) :
    Keyed.Ordered (mergeInput fixed mapped) := by
  induction mapped generalizing fixed with
  | nil => exact h
  | cons field mapped ih =>
      obtain ⟨k, value⟩ := field
      rw [mergeInput_cons]
      apply ih
      rw [lay]
      split
      · exact h
      · exact h.insert

theorem mem_keys_mergeInput (h : (Keyed.keys mapped).Nodup) :
    key ∈ Keyed.keys (mergeInput fixed mapped) ↔
      key ∈ Keyed.keys fixed ∨ key ∈ Keyed.keys mapped := by
  rw [← Keyed.isSome_get?, ← Keyed.isSome_get?, ← Keyed.isSome_get?, get?_mergeInput h]
  cases Keyed.get? key mapped <;> simp

end PrimitiveConfig

/-! ### Entries without a value -/

/-- What keeps an entry of a mapping from having a value: its path leads nowhere, or its expression
cannot be read or evaluated. -/
inductive Mapping.Entry.Unresolved (scope : Scope) : Mapping.Entry → Prop
  | reference {path : String} (h : scope.resolve path = none) :
      Unresolved scope (.typed (.reference path))
  | unparsed {source : String} {e : Expr.ParseError} (h : Expr.parse source = .error e) :
      Unresolved scope (.typed (.expression source))
  | unevaluated {source : String} {tree : Expr} {e : Expr.EvalError}
      (h : Expr.parse source = .ok tree) (heval : Expr.eval scope tree = .error e) :
      Unresolved scope (.typed (.expression source))

theorem Mapping.Entry.resolve?_eq_none {entry : Mapping.Entry} :
    entry.resolve? scope = none ↔ entry.Unresolved scope := by
  constructor
  · intro h
    cases entry with
    | shorthand text | literal v => cases h
    | typed t =>
        cases t with
        | fixed v | template text => cases h
        | reference path => exact .reference h
        | expression source =>
            rw [resolve?, Expr.evaluate?, Expr.evaluate] at h
            cases hparse : Expr.parse source with
            | error e => exact .unparsed hparse
            | ok tree =>
                cases heval : Expr.eval scope tree with
                | error e => exact .unevaluated hparse heval
                | ok v =>
                    rw [hparse] at h
                    simp only [heval] at h
                    cases h
  · intro h
    cases h with
    | reference h => exact h
    | unparsed h => rw [resolve?, Expr.evaluate?, Expr.evaluate, h]
    | unevaluated h heval =>
        rw [resolve?, Expr.evaluate?, Expr.evaluate, h]
        simp only [heval]
        rfl

/-! ### Inputs of nodes -/

namespace PrimitiveConfig

/-- The input that a configuration makes in a scope. -/
def input (config : PrimitiveConfig) (scope : Scope) : Keyed Json :=
  mergeInput config.fixed (Mapping.resolve scope config.mapping)

/-- The value that is meant to be under a key: that of the entry of the mapping, if it has one, else
the fixed value, and null if there is only an entry without a value. -/
def meant? (config : PrimitiveConfig) (scope : Scope) (key : String) : Option Json :=
  match Keyed.get? key config.mapping with
  | some entry =>
    some ((entry.resolve? scope).getD ((Keyed.get? key config.fixed).getD .null))
  | none => Keyed.get? key config.fixed

/-- Whether there is a fixed value under a key for which the entry of the mapping gives null. -/
def KeepsFixed (config : PrimitiveConfig) (scope : Scope) (key : String) : Prop :=
  ∃ entry v, Keyed.get? key config.mapping = some entry ∧ entry.resolve? scope = some .null ∧
    Keyed.get? key config.fixed = some v ∧ v ≠ .null

/-- Configurations that were read have their keys in order. -/
theorem decoder_gives :
    decoder.Gives fun config => Keyed.Ordered config.mapping ∧ Keyed.Ordered config.fixed := by
  have hmapping : (Json.Record.defaulted "input_mapping" Mapping.decoder []).Gives
      fun entries => Keyed.Ordered entries :=
    Json.Record.defaulted_gives Json.Decoder.keyed_ordered .nil
  have hfixed : (Json.Record.defaulted "config" (Json.Decoder.keyed Json.Decoder.json) []).Gives
      fun fields => Keyed.Ordered fields :=
    Json.Record.defaulted_gives Json.Decoder.keyed_ordered .nil
  refine Json.Record.Gives.decoder _ (.seq (.seq (.seq
    (.map Json.Record.gives_true ?_) Json.Record.gives_true) hmapping) hfixed)
  exact fun _ _ _ _ _ hmapping _ hfixed => ⟨hmapping, hfixed⟩

section

variable (h : Keyed.Ordered config.mapping)

include h

theorem get?_input :
    Keyed.get? key (config.input scope) =
      match Keyed.get? key config.mapping with
      | none => Keyed.get? key config.fixed
      | some entry =>
        some (if (entry.resolve scope).isNull then (Keyed.get? key config.fixed).getD .null
          else entry.resolve scope) := by
  have hkeys : (Keyed.keys (Mapping.resolve scope config.mapping)).Nodup := by
    rw [Mapping.resolve, Keyed.keys_mapValues]
    exact h.nodup
  rw [input, get?_mergeInput hkeys, Mapping.resolve, Keyed.get?_mapValues]
  cases Keyed.get? key config.mapping <;> rfl

theorem mem_keys_input :
    key ∈ Keyed.keys (config.input scope) ↔
      key ∈ Keyed.keys config.fixed ∨ key ∈ Keyed.keys config.mapping := by
  have hkeys : Keyed.keys (Mapping.resolve scope config.mapping) = Keyed.keys config.mapping :=
    Keyed.keys_mapValues _ _
  rw [input, mem_keys_mergeInput (hkeys ▸ h.nodup), hkeys]

theorem get?_input_of_keepsFixed (hkeeps : config.KeepsFixed scope key) :
    Keyed.get? key (config.input scope) = Keyed.get? key config.fixed := by
  obtain ⟨entry, v, hentry, hnull, hfixed, -⟩ := hkeeps
  have hvalue : entry.resolve scope = .null := by rw [Mapping.Entry.resolve, hnull]; rfl
  simp only [get?_input h, hentry, hvalue, hfixed]
  rfl

/-- The value under a key is the one that is meant, unless a fixed value stays for a null. -/
theorem get?_input_eq_meant? :
    Keyed.get? key (config.input scope) = config.meant? scope key ↔
      ¬ config.KeepsFixed scope key := by
  constructor
  · intro heq hkeeps
    rw [get?_input_of_keepsFixed h hkeeps] at heq
    obtain ⟨entry, v, hentry, hnull, hfixed, hne⟩ := hkeeps
    simp only [meant?, hentry, hnull, hfixed] at heq
    exact hne (Option.some.inj heq)
  · intro hkeeps
    cases hentry : Keyed.get? key config.mapping with
    | none => simp only [get?_input h, meant?, hentry]
    | some entry =>
        simp only [get?_input h, meant?, hentry]
        apply congrArg some
        cases hvalue : entry.resolve? scope with
        | none =>
            rw [Mapping.Entry.resolve, hvalue]
            rfl
        | some value =>
            rw [Mapping.Entry.resolve, hvalue, Option.getD_some, Option.getD_some]
            by_cases hnull : value = .null
            · -- Both sides are the fixed value and null; they differ if the fixed value does.
              subst hnull
              cases hfixed : Keyed.get? key config.fixed with
              | none => rfl
              | some v =>
                  by_contra hne
                  exact hkeeps ⟨entry, v, hentry, hvalue, hfixed, hne⟩
            · exact if_neg (mt Json.isNull_iff.mp hnull)

end

end PrimitiveConfig

namespace Walk

/-- A primitive node hands its input to the primitive that it names.  The input has the keys of the
fixed input and of the mapping, and under each the value that is meant, unless the entry of the
mapping gives null: then a fixed value stays.  An entry has no value only if its path leads nowhere
or its expression cannot be read or evaluated. -/
theorem input_merged_unless_null {H : Type} (w : Walk H) {node : Node}
    (hread : node.read PrimitiveConfig.decoder = .ok config) {reference : PrimitiveRef}
    (hreference : primitiveRef node.id config = .ok reference) (c : Context)
    (now : Time.Instant) :
    let scope := c.scope now
    let site : CallSite :=
      ⟨some c.executionId, some c.workflowId, some node.id, some c.executionId⟩
    w.runPrimitive node c now =
      ((w.adapter.execute reference (.obj (config.input scope)) site).bind fun outcome =>
        .done (primitiveOutcome node.id outcome)) ∧
    Keyed.Ordered (config.input scope) ∧
    (∀ key, key ∈ Keyed.keys (config.input scope) ↔
      key ∈ Keyed.keys config.fixed ∨ key ∈ Keyed.keys config.mapping) ∧
    (∀ key, (Keyed.get? key (config.input scope) = config.meant? scope key ↔
        ¬ config.KeepsFixed scope key) ∧
      (config.KeepsFixed scope key →
        Keyed.get? key (config.input scope) = Keyed.get? key config.fixed)) ∧
    ∀ entry : Mapping.Entry, entry.resolve? scope = none ↔ entry.Unresolved scope := by
  intro scope site
  obtain ⟨hmapping, hfixed⟩ := PrimitiveConfig.decoder_gives.ofValue hread
  refine ⟨?_, PrimitiveConfig.ordered_mergeInput hfixed,
    fun _ => PrimitiveConfig.mem_keys_input hmapping, fun _ => ⟨?_, ?_⟩,
    fun _ => Mapping.Entry.resolve?_eq_none⟩
  · rw [runPrimitive, hread]
    simp only [hreference]
    rfl
  · exact PrimitiveConfig.get?_input_eq_meant? hmapping
  · exact PrimitiveConfig.get?_input_of_keepsFixed hmapping

/-- A node with a fixed channel for which its mapping gives null. -/
def silencing : Node :=
  ⟨"notify", .primitive, none, .obj
    [("config", .obj [("channel", .str "email")]),
      ("input_mapping", .obj [("channel", .obj [("type", .str "static"), ("value", .null)])]),
      ("primitive", .str "echo")]⟩

def silencingConfig : PrimitiveConfig :=
  ⟨none, some "echo", [("channel", .typed (.fixed .null))], [("channel", .str "email")]⟩

def silencingWalk : Walk Empty :=
  ⟨.create ⟨0⟩ "silencing" .manual [⟨"start", .trigger, none, .null⟩, silencing]
    [⟨"start", "notify", none, none⟩], ⟨[], [], 1000⟩, 1⟩

/-- Null is meant for the channel, and the fixed channel is handed over. -/
theorem fixed_kept_for_null :
    let c : Context := .start ⟨1⟩ ⟨0⟩ ⟨0, 0⟩ .null []
    let now : Time.Instant := ⟨0, 0⟩
    let given : Json := .obj [("channel", .str "email")]
    silencing.read PrimitiveConfig.decoder = .ok silencingConfig ∧
    primitiveRef silencing.id silencingConfig = .ok (.name "echo") ∧
    silencingConfig.meant? (c.scope now) "channel" = some .null ∧
    Keyed.get? "channel" (silencingConfig.input (c.scope now)) = some (.str "email") ∧
    silencingWalk.runPrimitive silencing c now =
      (silencingWalk.adapter.execute (.name "echo") given
        ⟨some ⟨1⟩, some ⟨0⟩, some "notify", some ⟨1⟩⟩).bind fun outcome =>
          .done (primitiveOutcome "notify" outcome) := by
  intro c now given
  have hread : silencing.read PrimitiveConfig.decoder = .ok silencingConfig := by rfl
  have hreference : primitiveRef silencing.id silencingConfig = .ok (.name "echo") := rfl
  have hkeeps : silencingConfig.KeepsFixed (c.scope now) "channel" :=
    ⟨.typed (.fixed .null), .str "email", rfl, rfl, rfl, nofun⟩
  obtain ⟨hhanded, -, -, hvalues, -⟩ :=
    input_merged_unless_null silencingWalk hread hreference c now
  exact ⟨hread, hreference, rfl, (hvalues "channel").2 hkeeps, hhanded⟩

end Walk

end Workflow
