import Workflow.Definition.Codec
import Workflow.Proofs.Json.Reads

/-!
# Graphs come back as they were

What is written of a graph is read back as it was: its trigger, each node, each edge with the whole
tree of its guard, and its variables.
-/

namespace Workflow

open Json

/-! ### Members -/

section

variable {pairs : List (String × Json)} {key other : String}

theorem nodup_keys_ofList : (Keyed.keys (Keyed.ofList pairs)).Nodup :=
  (Keyed.ordered_ofList pairs).nodup

theorem get?_erase_ofList (h : other ≠ key) :
    Keyed.get? other (Keyed.erase key (Keyed.ofList pairs)) = pairs.reverse.lookup other := by
  rw [Keyed.get?_erase_of_ne h, Keyed.get?_ofList]

end

/-! ### Triggers -/

theorem Trigger.decoder_reads (t : Trigger) : Trigger.decoder.Reads t.toJson t := by
  cases t with
  | manual =>
      exact Decoder.tagged_reads (s := "manual") nodup_keys_ofList (Keyed.get?_ofList _) rfl
        (Decoder.bare_reads _)
  | webhook =>
      exact Decoder.tagged_reads (s := "webhook") nodup_keys_ofList (Keyed.get?_ofList _) rfl
        (Decoder.bare_reads _)
  | schedule cron =>
      refine Decoder.tagged_reads (s := "schedule") nodup_keys_ofList (Keyed.get?_ofList _) rfl ?_
      refine Record.Reads.decoder _ (.map _ ?_) (Keyed.nodup_keys_erase nodup_keys_ofList)
      exact Record.required_reads (get?_erase_ofList (by decide)) (Decoder.text_reads cron)
  | event name =>
      refine Decoder.tagged_reads (s := "event") nodup_keys_ofList (Keyed.get?_ofList _) rfl ?_
      refine Record.Reads.decoder _ (.map _ ?_) (Keyed.nodup_keys_erase nodup_keys_ofList)
      exact Record.required_reads (get?_erase_ofList (by decide)) (Decoder.text_reads name)

/-! ### Conditions -/

theorem Operator.lookup_name (op : Operator) : Operator.names.lookup op.name = some op := by
  cases op <;> decide

namespace Condition

/-- Whether all values in a condition are in key order. -/
inductive Ordered : Condition → Prop
  | simple {c : Comparison} (h : c.value.Ordered) : Ordered (.simple c)
  | expression (source : String) : Ordered (.expression source)
  | all {cs : List Condition} (h : ∀ c ∈ cs, Ordered c) : Ordered (.all cs)
  | any {cs : List Condition} (h : ∀ c ∈ cs, Ordered c) : Ordered (.any cs)
  | none {cs : List Condition} (h : ∀ c ∈ cs, Ordered c) : Ordered (.none cs)

theorem toJsons_eq_map (cs : List Condition) : toJsons cs = cs.map toJson := by
  induction cs with
  | nil => rfl
  | cons c cs ih => rw [toJsons, ih, List.map_cons]

/-- The decoder of a condition on several others, of which each is read by a given decoder. -/
def group (decode : Decoder Condition) (variant : String) (make : List Condition → Condition) :
    Decoder Condition :=
  Record.decoder ("struct variant Condition::" ++ variant)
    (make <$> Record.required "conditions" decode.list)

theorem decoderWithin_succ (n : Nat) :
    decoderWithin (n + 1) = Decoder.tagged title "type"
      [("simple", fun d => (comparison d).map Condition.simple),
        ("expression", Record.decoder "struct variant Condition::Expression"
          (Condition.expression <$> Record.required "expression" Decoder.text)),
        ("all", group (decoderWithin n) "All" .all), ("any", group (decoderWithin n) "Any" .any),
        ("none", group (decoderWithin n) "None" .none)] := by
  have hall : "All".toLower = "all" := by decide +kernel
  have hany : "Any".toLower = "any" := by decide +kernel
  have hnone : "None".toLower = "none" := by decide +kernel
  simp only [decoderWithin, hall, hany, hnone]
  rfl

section

variable {fields : Keyed Json} {decode : Decoder Condition} {n : Nat}

theorem comparison_reads {c : Comparison} (hvalue : c.value.Ordered)
    (hnodup : (Keyed.keys fields).Nodup) (hfield : Keyed.get? "field" fields = some (.str c.field))
    (hoperator : Keyed.get? "operator" fields = some (.str c.operator.name))
    (hget : Keyed.get? "value" fields = some c.value) :
    comparison.Reads (.obj fields) c := by
  refine Record.Reads.decoder _ (.seq (.seq (.map Comparison.mk ?_) ?_) ?_) hnodup
  · exact Record.required_reads hfield (Decoder.text_reads _)
  · exact Record.required_reads hoperator (Decoder.name_reads c.operator.lookup_name)
  · exact Record.defaulted_reads hget (Decoder.json_reads hvalue)

theorem group_reads {variant : String} {make : List Condition → Condition} {cs : List Condition}
    (hnodup : (Keyed.keys fields).Nodup)
    (hget : Keyed.get? "conditions" fields = some (.arr (toJsons cs)))
    (h : ∀ c ∈ cs, decode.Reads c.toJson c) :
    (group decode variant make).Reads (.obj fields) (make cs) := by
  rw [toJsons_eq_map] at hget
  exact Record.Reads.decoder _ (.map make (Record.required_reads hget (Decoder.list_reads h)))
    hnodup

theorem depth_lt_of_mem {c : Condition} {cs : List Condition} (hc : c ∈ cs)
    (hget : Keyed.get? "conditions" fields = some (.arr (toJsons cs)))
    (hn : (Document.ofJson .value (.obj fields)).depth < n + 1) :
    (Document.ofJson .value c.toJson).depth < n := by
  have hitem : c.toJson ∈ toJsons cs := by
    rw [toJsons_eq_map]
    exact List.mem_map_of_mem hc
  have hinner := Document.depth_lt_of_mem (o := .value) hitem
  have houter := Document.depth_lt_of_get? (o := .value) hget
  omega

end

/-- A condition is read back with all the conditions in it, by a decoder that goes deep enough. -/
theorem decoderWithin_reads {c : Condition} (h : c.Ordered) {n : Nat}
    (hn : (Document.ofJson .value c.toJson).depth < n) : (decoderWithin n).Reads c.toJson c := by
  have herase {pairs : List (String × Json)} :
      (Keyed.keys (Keyed.erase "type" (Keyed.ofList pairs))).Nodup :=
    Keyed.nodup_keys_erase nodup_keys_ofList
  induction h generalizing n
  all_goals
    obtain ⟨n, rfl⟩ := Nat.exists_eq_succ_of_ne_zero (Nat.ne_zero_of_lt hn)
    rw [decoderWithin_succ]
  case simple hvalue =>
    refine Decoder.tagged_reads (s := "simple") nodup_keys_ofList (Keyed.get?_ofList _) rfl
      fun o => ?_
    rw [comparison_reads hvalue herase (get?_erase_ofList (by decide))
      (get?_erase_ofList (by decide)) (get?_erase_ofList (by decide))]
    rfl
  case expression source =>
    refine Decoder.tagged_reads (s := "expression") nodup_keys_ofList (Keyed.get?_ofList _) rfl
      (Record.Reads.decoder _ (.map _ ?_) herase)
    exact Record.required_reads (get?_erase_ofList (by decide)) (Decoder.text_reads source)
  case all ih =>
    refine Decoder.tagged_reads (s := "all") nodup_keys_ofList (Keyed.get?_ofList _) rfl
      (group_reads herase (get?_erase_ofList (by decide)) fun c hc => ?_)
    exact ih c hc (depth_lt_of_mem hc (Keyed.get?_ofList _) hn)
  case any ih =>
    refine Decoder.tagged_reads (s := "any") nodup_keys_ofList (Keyed.get?_ofList _) rfl
      (group_reads herase (get?_erase_ofList (by decide)) fun c hc => ?_)
    exact ih c hc (depth_lt_of_mem hc (Keyed.get?_ofList _) hn)
  case none ih =>
    refine Decoder.tagged_reads (s := "none") nodup_keys_ofList (Keyed.get?_ofList _) rfl
      (group_reads herase (get?_erase_ofList (by decide)) fun c hc => ?_)
    exact ih c hc (depth_lt_of_mem hc (Keyed.get?_ofList _) hn)

theorem decoder_reads {c : Condition} (h : c.Ordered) : decoder.Reads c.toJson c := by
  intro o
  exact decoderWithin_reads h (Nat.lt_succ_of_le (Document.depth_ofJson c.toJson).le) o

end Condition

/-! ### Graphs -/

theorem NodeType.lookup_name (t : NodeType) : NodeType.names.lookup t.name = some t := by
  cases t <;> decide

theorem Node.decoder_reads {n : Node} (h : n.config.Ordered) : Node.decoder.Reads n.toJson n := by
  refine Record.Reads.decoder _ (.seq (.seq (.seq (.map Node.mk ?_) ?_) ?_) ?_) nodup_keys_ofList
  · refine Record.required_reads ?_ (Decoder.text_reads n.id)
    rw [Keyed.get?_ofList]
    cases n.name <;> rfl
  · refine Record.required_reads ?_ (Decoder.name_reads n.type.lookup_name)
    rw [Keyed.get?_ofList]
    cases n.name <;> rfl
  · refine Record.optional_reads ?_ fun name _ => ⟨Decoder.text_reads name, rfl⟩
    rw [Keyed.get?_ofList]
    cases n.name <;> rfl
  · refine Record.defaulted_reads ?_ (Decoder.json_reads h)
    rw [Keyed.get?_ofList]
    cases n.name <;> rfl

theorem Condition.isNull_toJson (c : Condition) : c.toJson.isNull = false := by
  cases c <;> rfl

theorem Edge.decoder_reads {e : Edge} (h : ∀ c, e.guard = some c → c.Ordered) :
    Edge.decoder.Reads e.toJson e := by
  refine Record.Reads.decoder _ (.seq (.seq (.seq (.map Edge.mk ?_) ?_) ?_) ?_) nodup_keys_ofList
  · refine Record.required_reads ?_ (Decoder.text_reads e.source)
    rw [Keyed.get?_ofList]
    cases e.handle <;> cases e.guard <;> rfl
  · refine Record.required_reads ?_ (Decoder.text_reads e.target)
    rw [Keyed.get?_ofList]
    cases e.handle <;> cases e.guard <;> rfl
  · refine Record.optional_reads ?_ fun handle _ => ⟨Decoder.text_reads handle, rfl⟩
    rw [Keyed.get?_ofList]
    cases e.handle <;> cases e.guard <;> rfl
  · refine Record.optional_reads ?_ fun c hc =>
      ⟨Condition.decoder_reads (h c hc), c.isNull_toJson⟩
    rw [Keyed.get?_ofList]
    cases e.handle <;> cases e.guard <;> rfl

/-- Whether all values in a graph are in key order. -/
structure Graph.Ordered (g : Graph) : Prop where
  configs : ∀ n ∈ g.nodes, n.config.Ordered
  guards : ∀ e ∈ g.edges, ∀ c, e.guard = some c → c.Ordered
  bindings : (Json.obj g.bindings).Ordered

theorem Graph.decoder_reads {g : Graph} (h : g.Ordered) : Graph.decoder.Reads g.toJson g := by
  have hbindings : (Decoder.keyed Decoder.json).Reads (.obj g.bindings) g.bindings := by
    cases h.bindings with
    | obj hkeys hfields => exact Decoder.keyed_json_reads hkeys hfields
  refine Record.Reads.decoder _ (.seq (.seq (.seq (.map Graph.mk ?_) ?_) ?_) ?_) nodup_keys_ofList
  · exact Record.required_reads (Keyed.get?_ofList _) g.trigger.decoder_reads
  · exact Record.defaulted_reads (Keyed.get?_ofList _)
      (Decoder.list_reads fun n hn => Node.decoder_reads (h.configs n hn))
  · exact Record.defaulted_reads (Keyed.get?_ofList _)
      (Decoder.list_reads fun e he => Edge.decoder_reads (h.guards e he))
  · exact Record.defaulted_reads (Keyed.get?_ofList _) hbindings

end Workflow
