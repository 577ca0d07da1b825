import Workflow.Proofs.Definition.Sort

/-!
# What graphs can run

A graph is refused for the first rule that it breaks, and a graph that breaks none has an order in
which every edge points forward.
-/

namespace Workflow

/-- The node at an end of an edge. -/
def Side.of (e : Edge) : Side → String
  | .source => e.source
  | .target => e.target

namespace Graph

variable {ids seen : List String} {edges : List Edge} {id : String} {side : Side}

theorem repeated?_eq_none :
    repeated? seen ids = none ↔ ids.Nodup ∧ ∀ id ∈ ids, id ∉ seen := by
  induction ids generalizing seen with
  | nil => simp [repeated?]
  | cons id rest ih =>
      by_cases hid : id ∈ seen
      · simp [repeated?, hid]
      · rw [repeated?, if_neg hid, ih, List.nodup_cons, List.forall_mem_cons]
        constructor
        · rintro ⟨hnodup, hrest⟩
          have hnew : id ∉ rest := fun hmem => hrest id hmem List.mem_cons_self
          exact ⟨⟨hnew, hnodup⟩, hid, fun b hb hseen => hrest b hb (List.mem_cons_of_mem _ hseen)⟩
        · rintro ⟨⟨hnew, hnodup⟩, -, hrest⟩
          refine ⟨hnodup, fun b hb hseen => ?_⟩
          rcases List.mem_cons.mp hseen with rfl | hseen
          · exact hnew hb
          · exact hrest b hb hseen

theorem two_le_count_of_repeated? (h : repeated? seen ids = some id) :
    2 ≤ ids.count id ∨ id ∈ seen ∧ id ∈ ids := by
  induction ids generalizing seen with
  | nil => simp [repeated?] at h
  | cons first rest ih =>
      rw [repeated?] at h
      split_ifs at h with hfirst
      · obtain rfl : first = id := Option.some.inj h
        exact .inr ⟨hfirst, List.mem_cons_self⟩
      · rcases ih h with hcount | ⟨hseen, hrest⟩
        · exact .inl (hcount.trans List.count_le_count_cons)
        · rcases List.mem_cons.mp hseen with rfl | hseen
          · left
            rw [List.count_cons_self]
            exact Nat.succ_le_succ (List.count_pos_iff.mpr hrest)
          · exact .inr ⟨hseen, List.mem_cons_of_mem _ hrest⟩

theorem dangling?_eq_none :
    dangling? ids edges = none ↔ ∀ e ∈ edges, e.source ∈ ids ∧ e.target ∈ ids := by
  induction edges with
  | nil => simp [dangling?]
  | cons e rest ih =>
      by_cases hsource : e.source ∈ ids <;> by_cases htarget : e.target ∈ ids <;>
        simp [dangling?, hsource, htarget, ih]

theorem dangling?_eq_some (h : dangling? ids edges = some (id, side)) :
    id ∉ ids ∧ ∃ e ∈ edges, side.of e = id := by
  induction edges with
  | nil => simp [dangling?] at h
  | cons e rest ih =>
      by_cases hsource : e.source ∈ ids
      · by_cases htarget : e.target ∈ ids
        · rw [dangling?, if_neg (not_not.mpr hsource), if_neg (not_not.mpr htarget)] at h
          obtain ⟨hid, e', he', hside⟩ := ih h
          exact ⟨hid, e', List.mem_cons_of_mem _ he', hside⟩
        · rw [dangling?, if_neg (not_not.mpr hsource), if_pos htarget] at h
          obtain ⟨rfl, rfl⟩ := Prod.mk.inj (Option.some.inj h)
          exact ⟨htarget, e, List.mem_cons_self, rfl⟩
      · rw [dangling?, if_pos hsource] at h
        obtain ⟨rfl, rfl⟩ := Prod.mk.inj (Option.some.inj h)
        exact ⟨hsource, e, List.mem_cons_self, rfl⟩

end Graph

namespace Definition

/-! ### Rules -/

/-- The identifiers of the nodes. -/
def ids (d : Definition) : List String := d.nodes.map Node.id

/-- Different nodes have different identifiers. -/
def Distinct (d : Definition) : Prop := d.ids.Nodup

/-- Edges join nodes. -/
def Joined (d : Definition) : Prop := ∀ e ∈ d.edges, e.source ∈ d.ids ∧ e.target ∈ d.ids

/-- How many nodes are triggers. -/
def triggers (d : Definition) : Nat := d.nodes.countP fun n => n.type = .trigger

/-- No path comes back to where it began. -/
def Acyclic (d : Definition) : Prop := ∀ id, ¬ Relation.TransGen (Graph.Leads d.edges) id id

/-- What is wrong with a workflow that is refused for a reason. -/
def Breaks (d : Definition) : GraphError → Prop
  | .duplicateNode id => 2 ≤ d.ids.count id
  | .unknownNode id side => id ∉ d.ids ∧ ∃ e ∈ d.edges, side.of e = id
  | .missingTrigger => d.triggers = 0
  | .multipleTriggers count => 2 ≤ count ∧ d.triggers = count
  | .cycle => ¬ d.Acyclic

/-! ### The sort -/

/-- The identifiers in the order in which they are taken, as `Graph.sorted` gives them, as long as
there is an edge left for each that is counted off, and until the queue is empty. -/
def sorted? (d : Definition) : Option (List String) :=
  let degrees := d.ids.map fun id => (id, Graph.inDegree d.edges id)
  Graph.sort? d.edges d.ids.length (d.ids.filter fun id => Graph.inDegree d.edges id = 0) degrees

variable {d : Definition}

theorem count_degrees (hjoined : d.Joined) (id : String) :
    Graph.Degrees.count id (d.ids.map fun id => (id, Graph.inDegree d.edges id)) =
      Graph.inDegree d.edges id := by
  have hout : id ∉ d.ids → Graph.inDegree d.edges id = 0 := by
    intro hid
    rw [Graph.inDegree, List.countP_eq_zero]
    intro e he htarget
    exact hid (of_decide_eq_true htarget ▸ (hjoined e he).2)
  generalize d.ids = ids at hout
  induction ids with
  | nil => exact (hout List.not_mem_nil).symm
  | cons first rest ih =>
      rw [List.map_cons, Graph.Degrees.count_cons]
      split_ifs with heq
      · rw [heq]
      · exact ih fun hid => hout (by simp [heq, hid])

theorem sorting (hdistinct : d.Distinct) (hjoined : d.Joined) :
    Graph.Sorting d.edges d.ids [] (d.ids.filter fun id => Graph.inDegree d.edges id = 0)
      (d.ids.map fun id => (id, Graph.inDegree d.edges id)) where
  nodup := hdistinct.filter _
  mem id := by simp [count_degrees hjoined]
  count id := by rw [count_degrees hjoined, Graph.pending_nil]
  forward before b after hsplit := by simp at hsplit

theorem exists_sorting (hdistinct : d.Distinct) (hjoined : d.Joined) :
    d.sorted? = some (Graph.sorted d.nodes d.edges) ∧
      ∃ degrees, Graph.Sorting d.edges d.ids (Graph.sorted d.nodes d.edges) [] degrees :=
  (sorting hdistinct hjoined).run (fun e he => (hjoined e he).2) (by simp)

/-! ### The order -/

theorem order_eq (d : Definition) :
    d.order = match Graph.repeated? [] d.ids with
      | some id => .error (.duplicateNode id)
      | none =>
        match Graph.dangling? d.ids d.edges with
        | some (id, side) => .error (.unknownNode id side)
        | none =>
          match d.triggers with
          | 0 => .error .missingTrigger
          | 1 =>
            let order := Graph.sorted d.nodes d.edges
            if order.length = d.nodes.length then .ok order else .error .cycle
          | count => .error (.multipleTriggers count) := rfl

theorem Joined.mem (hjoined : d.Joined) {a b : String} (h : Graph.Leads d.edges a b) :
    a ∈ d.ids ∧ b ∈ d.ids := by
  obtain ⟨e, he, rfl, rfl⟩ := h
  exact hjoined e he

/-- An order is given after the rules but the last were checked, and an error for a rule that is
broken. -/
theorem order_spec (d : Definition) :
    (d.order = .ok (Graph.sorted d.nodes d.edges) ∧ d.Distinct ∧ d.Joined ∧ d.triggers = 1 ∧
      (Graph.sorted d.nodes d.edges).length = d.ids.length) ∨
    ∃ error, d.order = .error error ∧ d.Breaks error := by
  have hids : d.ids.length = d.nodes.length := List.length_map _
  rw [order_eq]
  cases hrepeated : Graph.repeated? [] d.ids with
  | some id =>
      have hcount := (Graph.two_le_count_of_repeated? hrepeated).resolve_right (by simp)
      exact .inr ⟨.duplicateNode id, rfl, hcount⟩
  | none =>
      have hdistinct : d.Distinct := (Graph.repeated?_eq_none.mp hrepeated).1
      cases hdangling : Graph.dangling? d.ids d.edges with
      | some found =>
          exact .inr ⟨.unknownNode found.1 found.2, rfl, Graph.dangling?_eq_some hdangling⟩
      | none =>
          have hjoined : d.Joined := Graph.dangling?_eq_none.mp hdangling
          match htriggers : d.triggers with
          | 0 => exact .inr ⟨.missingTrigger, rfl, htriggers⟩
          | 1 =>
              obtain ⟨-, degrees, hsorting⟩ := exists_sorting hdistinct hjoined
              by_cases hlength : (Graph.sorted d.nodes d.edges).length = d.ids.length
              · exact .inl ⟨if_pos (hlength.trans hids), hdistinct, hjoined, rfl, hlength⟩
              · obtain ⟨id, -, hcycle⟩ :=
                  hsorting.exists_cycle hdistinct (fun a b h => (hjoined.mem h).1) hlength
                refine .inr ⟨.cycle, if_neg fun h => hlength (h.trans hids.symm), ?_⟩
                exact fun hacyclic => hacyclic id hcycle
          | count + 2 =>
              exact .inr ⟨.multipleTriggers (count + 2), rfl, Nat.le_add_left 2 count, htriggers⟩

theorem not_breaks (hdistinct : d.Distinct) (hjoined : d.Joined) (htriggers : d.triggers = 1)
    (hacyclic : d.Acyclic) (error : GraphError) : ¬ d.Breaks error := by
  cases error with
  | duplicateNode id =>
      intro hcount
      exact absurd (List.nodup_iff_count_le_one.mp hdistinct id) (Nat.not_le.mpr hcount)
  | unknownNode id side =>
      rintro ⟨hid, e, he, rfl⟩
      cases side with
      | source => exact hid (hjoined e he).1
      | target => exact hid (hjoined e he).2
  | missingTrigger =>
      intro hnone
      exact absurd (htriggers.symm.trans hnone) (by decide)
  | multipleTriggers count =>
      rintro ⟨hcount, hmany⟩
      omega
  | cycle => exact fun hcycle => hcycle hacyclic

theorem of_order_eq_ok {order : List String} (h : d.order = .ok order) :
    d.Distinct ∧ d.Joined ∧ d.triggers = 1 ∧ order.Perm d.ids ∧ Graph.Forward d.edges order := by
  rcases d.order_spec with ⟨hok, hdistinct, hjoined, htriggers, hlength⟩ | ⟨error, herror, -⟩
  · obtain rfl : Graph.sorted d.nodes d.edges = order := Except.ok.inj (hok.symm.trans h)
    obtain ⟨-, degrees, hsorting⟩ := exists_sorting hdistinct hjoined
    exact ⟨hdistinct, hjoined, htriggers, hsorting.perm hlength, hsorting.forward⟩
  · rw [herror] at h
    cases h

theorem breaks_of_order {error : GraphError} (h : d.order = .error error) : d.Breaks error := by
  rcases d.order_spec with ⟨hok, -⟩ | ⟨error', herror, hbreaks⟩
  · rw [hok] at h
    cases h
  · rw [herror] at h
    cases h
    exact hbreaks

/-- Validation is exact.  A workflow has an order if and only if its nodes are distinct, its edges
join nodes, one node is the trigger and no path comes back; its order is one of all its nodes in
which every edge points forward; an error is given only for a rule that is broken; and while the
nodes are taken, no count falls below zero. -/
theorem order_exact (d : Definition) :
    ((∃ order, d.order = .ok order) ↔
      d.Distinct ∧ d.Joined ∧ d.triggers = 1 ∧ d.Acyclic) ∧
    (∀ order, d.order = .ok order → order.Perm d.ids ∧
      ∀ e ∈ d.edges, order.idxOf e.source < order.idxOf e.target) ∧
    (∀ error, d.order = .error error → d.Breaks error) ∧
    (d.Distinct → d.Joined → d.sorted? = some (Graph.sorted d.nodes d.edges)) := by
  refine ⟨⟨?_, ?_⟩, ?_, fun error => breaks_of_order,
    fun hdistinct hjoined => (exists_sorting hdistinct hjoined).1⟩
  · rintro ⟨order, hok⟩
    obtain ⟨hdistinct, hjoined, htriggers, hperm, hforward⟩ := of_order_eq_ok hok
    have hacyclic : d.Acyclic := hforward.acyclic fun a b h => hperm.mem_iff.mpr (hjoined.mem h).2
    exact ⟨hdistinct, hjoined, htriggers, hacyclic⟩
  · rintro ⟨hdistinct, hjoined, htriggers, hacyclic⟩
    cases hok : d.order with
    | ok order => exact ⟨order, rfl⟩
    | error error =>
        exact absurd (breaks_of_order hok) (not_breaks hdistinct hjoined htriggers hacyclic error)
  · intro order hok
    obtain ⟨-, hjoined, -, hperm, hforward⟩ := of_order_eq_ok hok
    refine ⟨hperm, fun e he => hforward.idxOf_lt ?_ ⟨e, he, rfl, rfl⟩⟩
    exact hperm.mem_iff.mpr (hjoined e he).2

end Definition

end Workflow
