import Workflow.Definition.Order
import Workflow.Definition.Row
import Workflow.Proofs.Definition.Roundtrip
import Workflow.Proofs.Json.Gives
import Workflow.Proofs.Store.Carrying
import Workflow.Proofs.Store.Orders

/-!
# Definitions persist

Definitions that were read are in key order, so they come back from their rows.  An enabled one
that was put into a store when it was valid is listed with the workflows of its kind, and is valid
when it is read again.
-/

namespace Workflow

open Json Sql

/-! ### What is read -/

namespace Condition

theorem comparison_gives : comparison.Gives fun c => c.value.Ordered := by
  have hvalue : (Record.defaulted "value" Decoder.json .null).Gives Json.Ordered :=
    Record.defaulted_gives Decoder.json_gives .null
  refine Record.Gives.decoder _ (.seq (.seq (.map Record.gives_true ?_) Record.gives_true) hvalue)
  exact fun _ _ _ _ _ hv => hv

theorem decoderWithin_gives (n : Nat) : (decoderWithin n).Gives Ordered := by
  induction n with
  | zero => exact fun _ _ h => nomatch h
  | succ n ih =>
      have hgroup {variant : String} {make : List Condition → Condition}
          (hmake : ∀ cs, (∀ c ∈ cs, Ordered c) → Ordered (make cs)) :
          (group (decoderWithin n) variant make).Gives Ordered :=
        Record.Gives.decoder _ (.map (Record.required_gives (Decoder.list_gives ih)) hmake)
      rw [decoderWithin_succ]
      refine Decoder.tagged_gives ?_
      simp only [List.forall_mem_cons, List.not_mem_nil, false_implies, implies_true, and_true]
      refine ⟨?_, ?_, hgroup fun _ => .all, hgroup fun _ => .any, hgroup fun _ => .none⟩
      · intro d c hc
        obtain ⟨comparison, hcomparison, rfl⟩ := map_eq_ok hc
        exact .simple (comparison_gives d _ hcomparison)
      · exact Record.Gives.decoder _ (.map Record.gives_true fun source _ => .expression source)

theorem decoder_gives : decoder.Gives Ordered := fun d => decoderWithin_gives (d.depth + 1) d

end Condition

theorem Node.decoder_gives : Node.decoder.Gives fun n => n.config.Ordered := by
  have hconfig : (Record.defaulted "config" Decoder.json .null).Gives Json.Ordered :=
    Record.defaulted_gives Decoder.json_gives .null
  refine Record.Gives.decoder _
    (.seq (.seq (.seq (.map Record.gives_true ?_) Record.gives_true) Record.gives_true) hconfig)
  exact fun _ _ _ _ _ _ _ hv => hv

theorem Edge.decoder_gives : Edge.decoder.Gives fun e => ∀ c, e.guard = some c → c.Ordered := by
  have hguard : (Record.optional "condition" Condition.decoder).Gives
      fun c? => ∀ c, c? = some c → c.Ordered := Record.optional_gives Condition.decoder_gives
  refine Record.Gives.decoder _
    (.seq (.seq (.seq (.map Record.gives_true ?_) Record.gives_true) Record.gives_true) hguard)
  exact fun _ _ _ _ _ _ _ hguard => hguard

theorem bindings_give :
    (Decoder.keyed Decoder.json).Gives fun fields => (Json.obj fields).Ordered :=
  fun d fields h => .obj (Decoder.keyed_gives Decoder.json_gives d fields h).1
    (Decoder.keyed_gives Decoder.json_gives d fields h).2

namespace Definition

/-- Definitions that were read are in key order. -/
theorem decoder_gives (fresh : Uuid) : (decoder fresh).Gives fun d => d.graph.Ordered := by
  have hnodes : (Record.required "nodes" (Decoder.list Node.decoder)).Gives
      fun nodes => ∀ n ∈ nodes, n.config.Ordered :=
    Record.required_gives (Decoder.list_gives Node.decoder_gives)
  have hedges : (Record.defaulted "edges" (Decoder.list Edge.decoder) []).Gives
      fun edges => ∀ e ∈ edges, ∀ c, e.guard = some c → c.Ordered :=
    Record.defaulted_gives (Decoder.list_gives Edge.decoder_gives) fun _ h => nomatch h
  have hbindings : (Record.defaulted "variables" (Decoder.keyed Decoder.json) []).Gives
      fun fields => (Json.obj fields).Ordered :=
    Record.defaulted_gives bindings_give (.obj List.Pairwise.nil fun _ h => nomatch h)
  refine Record.Gives.decoder _ (.seq (.seq (.seq (.seq (.seq (.seq (.seq (.seq
    (.map Record.gives_true ?_) Record.gives_true) Record.gives_true) Record.gives_true) hnodes)
    hedges) hbindings) Record.gives_true) Record.gives_true)
  exact fun _ _ _ _ _ _ _ _ _ hnodes _ hedges _ hbindings _ _ _ _ => ⟨hnodes, hedges, hbindings⟩

/-! ### What is stored -/

/-- Whether a valid definition is among the rows that were found: one of them is its own, and is
read as a definition with the same graph, which is valid in the same order. -/
def IsAmong (d : Definition) (sorted : List String) (rows : List WorkflowRow) : Prop :=
  ∃ row ∈ rows, row.id = d.id ∧
    ∃ d', ofRow row = .ok d' ∧ d'.graph = d.graph ∧ d'.order = .ok sorted

section

variable {d : Definition} {sorted : List String} {createdAt : Time.Instant}

theorem ofRow_of_graph (h : d.graph.Ordered) {row : WorkflowRow}
    (hrow : row.definition = d.graph.toJson) : ofRow row = .ok (ofGraph row d.graph) := by
  have hread : Decoder.ofValue Graph.decoder row.definition = .ok d.graph := by
    rw [hrow]
    exact (Graph.decoder_reads h).ofValue
  rw [ofRow, hread]

theorem isAmong_enabled (h : d.graph.Ordered) (henabled : d.enabled = true)
    (hvalid : d.order = .ok sorted) (m : Memory) :
    d.IsAmong sorted ((m.putWorkflow (d.toRow createdAt)).enabled d.trigger.kind.name) := by
  have hlisted : ((d.toRow createdAt).enabled &&
      decide ((d.toRow createdAt).triggerType = d.trigger.kind.name)) = true := by
    simp [toRow, henabled]
  refine ⟨d.toRow createdAt, ?_, rfl, _, ofRow_of_graph h rfl, rfl, hvalid⟩
  exact List.mem_filter.mpr ⟨List.mem_append_right _ (List.mem_singleton.mpr rfl), hlisted⟩

theorem isAmong_listEnabled {D : Type} {database : Statement → D → Except String Reply × D}
    {tables : D → Tables} (hdatabase : Obeys database tables) (h : d.graph.Ordered)
    (henabled : d.enabled = true) (hvalid : d.order = .ok sorted) {s : D} {ws : List WorkflowRow}
    (hrows : tables s "workflows" = ws.map WorkflowRow.cells) {reply : Reply}
    (hreply : (database (insertWorkflow (d.toRow createdAt)) s).1 = .ok reply) (fresh : Uuid)
    (now : Time.Instant) :
    ∃ rows, (Sql.answer database fresh now (.listEnabled d.trigger.kind.name)
        (database (insertWorkflow (d.toRow createdAt)) s).2).1 = .ok rows ∧
      d.IsAmong sorted rows := by
  have hinserted := hdatabase.insertWorkflow hrows hreply
  obtain ⟨-, rows, hperm, -, hanswer⟩ :=
    hdatabase.listEnabled fresh now hinserted d.trigger.kind.name
  have hlisted : ((d.toRow createdAt).stored.enabled &&
      decide ((d.toRow createdAt).stored.triggerType = d.trigger.kind.name)) = true := by
    simp [WorkflowRow.stored, toRow, henabled]
  refine ⟨rows, hanswer, (d.toRow createdAt).stored, hperm.mem_iff.mpr ?_, rfl, _,
    ofRow_of_graph h rfl, rfl, hvalid⟩
  exact List.mem_filter.mpr ⟨List.mem_append_right _ (List.mem_singleton.mpr rfl), hlisted⟩

/-- A definition comes back from its row as it was, with the kind of its trigger beside it, and is
as valid as it was. If it is enabled and valid, it is listed with the workflows of its kind once it
was put into a store, in memory or in a database that obeys, and is valid again when it is read. -/
theorem persists (h : d.graph.Ordered) (createdAt : Time.Instant) :
    ofRow (d.toRow createdAt) = .ok d ∧
      (∀ d', ofRow (d.toRow createdAt) = .ok d' →
        (d.toRow createdAt).triggerType = d'.trigger.kind.name ∧ d'.order = d.order) ∧
      ∀ sorted, d.enabled = true → d.order = .ok sorted →
        (∀ m : Memory,
          d.IsAmong sorted ((m.putWorkflow (d.toRow createdAt)).enabled d.trigger.kind.name)) ∧
        ∀ {D : Type} {database : Statement → D → Except String Reply × D} {tables : D → Tables},
          Obeys database tables → ∀ (s : D) (ws : List WorkflowRow),
          tables s "workflows" = ws.map WorkflowRow.cells → ∀ reply,
          (database (insertWorkflow (d.toRow createdAt)) s).1 = .ok reply → ∀ fresh now,
          ∃ rows, (Sql.answer database fresh now (.listEnabled d.trigger.kind.name)
              (database (insertWorkflow (d.toRow createdAt)) s).2).1 = .ok rows ∧
            d.IsAmong sorted rows := by
  have hread : ofRow (d.toRow createdAt) = .ok d := ofRow_of_graph h rfl
  refine ⟨hread, fun d' hd' => ?_, fun sorted henabled hvalid => ⟨?_, ?_⟩⟩
  · cases hread.symm.trans hd'
    exact ⟨rfl, rfl⟩
  · exact isAmong_enabled h henabled hvalid
  · intro D database tables hdatabase s ws hrows reply hreply fresh now
    exact isAmong_listEnabled hdatabase h henabled hvalid hrows hreply fresh now

end

/-- A workflow with a guard in which conditions of all kinds are nested. -/
def guardedExample : Definition where
  id := ⟨1⟩
  name := "Guarded"
  slug := "guarded"
  trigger := .event "order.created"
  nodes :=
    [⟨"start", .trigger, none, .null⟩, ⟨"call", .primitive, some "Call", .obj [("a", .null)]⟩]
  edges := [⟨"start", "call", some "then", some (.all [.simple ⟨"x", .eq, .arr [.bool true]⟩,
    .any [.expression "x > 1", .none []]])⟩]
  bindings := [("region", .str "eu"), ("size", .obj [])]
  enabled := true
  lastRunAt := none

theorem persists_guardedExample :
    ofRow (guardedExample.toRow ⟨0, 0⟩) = .ok guardedExample ∧
      guardedExample.IsAmong ["start", "call"]
        ((Memory.empty.putWorkflow (guardedExample.toRow ⟨0, 0⟩)).enabled "event") ∧
      ∃ rows, (Sql.answer carryOut ⟨0⟩ ⟨0, 0⟩ (.listEnabled "event")
          (carryOut (insertWorkflow (guardedExample.toRow ⟨0, 0⟩)) fun _ => []).2).1 = .ok rows ∧
        guardedExample.IsAmong ["start", "call"] rows := by
  have hconfigs : ∀ n ∈ guardedExample.nodes, n.config.Ordered := by
    simp only [guardedExample, List.forall_mem_cons, List.not_mem_nil, false_implies, implies_true,
      and_true]
    exact ⟨.null, .obj (List.pairwise_singleton _ _) (by simpa using .null)⟩
  have hguards : ∀ e ∈ guardedExample.edges, ∀ c, e.guard = some c → c.Ordered := by
    simp only [guardedExample, List.forall_mem_cons, List.not_mem_nil, false_implies, implies_true,
      and_true]
    rintro c ⟨⟩
    refine .all (List.forall_mem_cons.mpr ⟨.simple (.arr (by simpa using .bool true)), ?_⟩)
    refine List.forall_mem_singleton.mpr (.any (List.forall_mem_cons.mpr ⟨.expression _, ?_⟩))
    exact List.forall_mem_singleton.mpr (.none fun _ h => nomatch h)
  have hbindings : (Json.obj guardedExample.bindings).Ordered := by
    have hkeys : Keyed.Ordered guardedExample.bindings := by
      unfold Keyed.Ordered
      decide
    refine .obj hkeys (List.forall_mem_cons.mpr ⟨.str _, List.forall_mem_singleton.mpr ?_⟩)
    exact .obj List.Pairwise.nil fun _ h => nomatch h
  have hordered : guardedExample.graph.Ordered := ⟨hconfigs, hguards, hbindings⟩
  have hvalid : guardedExample.order = .ok ["start", "call"] := rfl
  have hids : ([(guardedExample.toRow ⟨0, 0⟩).stored].map WorkflowRow.id).Nodup :=
    List.nodup_singleton _
  have hslugs : ([(guardedExample.toRow ⟨0, 0⟩).stored].map WorkflowRow.slug).Nodup :=
    List.nodup_singleton _
  have hreply : (carryOut (insertWorkflow (guardedExample.toRow ⟨0, 0⟩)) fun _ => []).1 =
      .ok ⟨[(guardedExample.toRow ⟨0, 0⟩).stored.cells.project workflows.columnNames], 1⟩ := by
    have hwrite : carryOut (insertWorkflow (guardedExample.toRow ⟨0, 0⟩)) (fun _ => []) =
        write Schema.workflows (fun _ => [])
          ([(guardedExample.toRow ⟨0, 0⟩).stored].map WorkflowRow.cells)
          ⟨[(guardedExample.toRow ⟨0, 0⟩).stored.cells.project workflows.columnNames], 1⟩ := rfl
    rw [hwrite, write, if_pos (accepts_workflows hids hslugs)]
  obtain ⟨hread, -, hstored⟩ := persists hordered ⟨0, 0⟩
  obtain ⟨hmemory, hdatabase⟩ := hstored _ rfl hvalid
  exact ⟨hread, hmemory _, hdatabase obeys_carryOut (fun _ => []) [] rfl _ hreply _ _⟩

end Definition

end Workflow
