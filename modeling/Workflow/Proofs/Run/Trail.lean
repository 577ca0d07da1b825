import Workflow.Proofs.Keyed
import Workflow.Proofs.Run.Depth

/-!
# The trail of a path

A path leaves a trail of legs: the nodes that it ran, each with its output and with the results of
the nodes inside it.  The context at its end, and the results on the way, can be read off the trail.
A visit that does not fail leaves a tour of its node, on which each leg was opened by one before it,
and nothing is left out that a leg had to lead to; a visit that fails leaves a trail to the node
that failed.
-/

namespace Workflow

variable {H : Type}

/-! ### Legs -/

/-- A node that ran on a path, with its output and the results of the nodes inside it. -/
structure Leg where
  node : Node
  output : Json
  inner : List NodeResult
  startedAt : Time.Instant
  durationMs : Nat

abbrev Trail := List Leg

namespace Leg

def result (l : Leg) : NodeResult :=
  ⟨l.node.id, l.node.type, .ok l.output, l.startedAt, l.durationMs⟩

/-- The results that a leg leaves: those inside it, and then its own. -/
def results (l : Leg) : List NodeResult := l.inner ++ [l.result]

/-- A leg leads to a node by an edge that may be followed. -/
def Opens (l : Leg) (d : Definition) (id : String) : Prop :=
  ∃ e ∈ d.outgoing l.node.id, e.isOpen l.node l.output = true ∧ e.target = id

/-- A leg must lead to a node, by an edge that has no guard. -/
def Forces (l : Leg) (d : Definition) (id : String) : Prop :=
  ∃ e ∈ d.outgoing l.node.id, e.isOpen l.node l.output = true ∧ e.guard = none ∧ e.target = id

/-- What a leg says came of its node, in some context, with less room inside. -/
def Ran (l : Leg) (w : Walk H) (room : Nat) : Prop :=
  w.workflow.node? l.node.id = some l.node ∧ ∃ inner < room, ∃ c,
    Walk.Ran w (w.visitInside inner) l.node c ⟨l.inner, .ok l.output⟩

theorem Ran.mono {l : Leg} {w : Walk H} {room room' : Nat} (h : l.Ran w room)
    (hroom : room ≤ room') : l.Ran w room' := by
  obtain ⟨hnode, inner, hinner, c, hran⟩ := h
  exact ⟨hnode, inner, hinner.trans_le hroom, c, hran⟩

end Leg

namespace Trail

variable {t t₁ t₂ : Trail} {l : Leg} {id : String}

def ids (t : Trail) : List String := t.map fun l => l.node.id

def results (t : Trail) : List NodeResult := t.flatMap Leg.results

@[simp] theorem ids_nil : ids [] = [] := rfl

@[simp] theorem ids_cons : ids (l :: t) = l.node.id :: ids t := rfl

@[simp] theorem ids_append : ids (t₁ ++ t₂) = ids t₁ ++ ids t₂ := List.map_append

@[simp] theorem results_nil : results [] = [] := rfl

@[simp] theorem results_cons : results (l :: t) = l.inner ++ l.result :: results t := by
  simp [results, Leg.results]

@[simp] theorem results_append : results (t₁ ++ t₂) = results t₁ ++ results t₂ :=
  List.flatMap_append

theorem mem_ids : id ∈ t.ids ↔ ∃ l ∈ t, l.node.id = id := List.mem_map

end Trail

/-! ### Contexts -/

namespace Context

variable {c : Context} {t t₁ t₂ : Trail} {l : Leg} {id : String}

/-- A context after the legs of a trail. -/
def after (c : Context) (t : Trail) : Context :=
  t.foldl (fun c l => c.withOutput l.node.id l.output) c

@[simp] theorem after_nil : c.after [] = c := rfl

@[simp] theorem after_cons :
    c.after (l :: t) = (c.withOutput l.node.id l.output).after t := rfl

theorem after_append : c.after (t₁ ++ t₂) = (c.after t₁).after t₂ := List.foldl_append

/-- Of a context a trail changes the outputs, and adds to what was executed. -/
theorem after_eq (c : Context) (t : Trail) :
    c.after t = { c with outputs := (c.after t).outputs, executed := c.executed ++ t.ids } := by
  induction t generalizing c with
  | nil => simp
  | cons l t ih =>
      rw [after_cons, ih]
      simp [withOutput]

@[simp] theorem executed_after : (c.after t).executed = c.executed ++ t.ids := by
  rw [after_eq]

theorem hasExecuted_eq_false : c.hasExecuted id = false ↔ id ∉ c.executed := by
  simp [hasExecuted]

theorem hasExecuted_eq_true : c.hasExecuted id = true ↔ id ∈ c.executed := by
  simp [hasExecuted]

theorem output?_after_of_notMem (h : id ∉ t.ids) : (c.after t).output? id = c.output? id := by
  induction t generalizing c with
  | nil => rfl
  | cons l t ih =>
      rw [Trail.ids_cons, List.mem_cons, not_or] at h
      obtain ⟨hne, hrest⟩ := h
      rw [after_cons, ih hrest]
      exact Keyed.get?_insert_of_ne _ _ hne

theorem output?_after (hnodup : t.ids.Nodup) (hl : l ∈ t) :
    (c.after t).output? l.node.id = some l.output := by
  induction t generalizing c with
  | nil => cases hl
  | cons first t ih =>
      obtain ⟨hfirst, hrest⟩ := List.nodup_cons.mp hnodup
      rcases List.mem_cons.mp hl with rfl | hl
      · rw [after_cons, output?_after_of_notMem hfirst]
        exact Keyed.get?_insert_self _ _ _
      · exact ih hrest hl

theorem mem_keys_after :
    id ∈ Keyed.keys (c.after t).outputs ↔ id ∈ Keyed.keys c.outputs ∨ id ∈ t.ids := by
  induction t generalizing c with
  | nil => simp
  | cons l t ih =>
      rw [after_cons, ih, withOutput, Keyed.mem_keys_insert, Trail.ids_cons, List.mem_cons]
      tauto

end Context

/-! ### Tours -/

/-- A trail of nodes that had not run, each of them once, and each of them one to begin with or one
that was opened by one before it. -/
structure Walked (w : Walk H) (room : Nat) (begins : String → Prop) (c : Context) (t : Trail) :
    Prop where
  ran : ∀ l ∈ t, l.Ran w room
  nodup : t.ids.Nodup
  fresh : ∀ id ∈ t.ids, id ∉ c.executed
  opened : ∀ before l after, t = before ++ l :: after →
    begins l.node.id ∨ ∃ b ∈ before, b.Opens w.workflow l.node.id

/-- A trail that leaves out nothing that it must lead to. -/
structure Tour (w : Walk H) (room : Nat) (begins must : String → Prop) (c : Context) (t : Trail) :
    Prop extends Walked w room begins c t where
  reached : ∀ id, must id → id ∈ c.executed ++ t.ids
  forced : ∀ l ∈ t, ∀ id, l.Forces w.workflow id → id ∈ c.executed ++ t.ids

/-- How a path fails: behind a trail, at a node that had not run. -/
inductive Fell (w : Walk H) (room : Nat) (begins : String → Prop) (c : Context) :
    List NodeResult → PathFailure → Prop where
  | behind {t : Trail} {node : Node} {inner : List NodeResult} {e : RunError} {less : Nat}
      {startedAt : Time.Instant} {millis : Nat} :
      Walked w room begins c t → (begins node.id ∨ ∃ b ∈ t, b.Opens w.workflow node.id) →
        w.workflow.node? node.id = some node → node.id ∉ (c.after t).executed → less < room →
          Walk.Ran w (w.visitInside less) node (c.after t) ⟨inner, .error e⟩ →
            Fell w room begins c
              (t.results ++ inner ++ [⟨node.id, node.type, .error e.message, startedAt, millis⟩])
              (failPath node.id e (c.after t))

section

variable {w : Walk H} {room room' : Nat} {c : Context} {t t₁ t₂ : Trail} {l : Leg}
  {begins begins₁ begins₂ must must₁ must₂ : String → Prop}

namespace Walked

theorem nil : Walked w room begins c [] :=
  ⟨by simp, List.nodup_nil, by simp, fun before l after hsplit => by simp at hsplit⟩

theorem append (h₁ : Walked w room begins₁ c t₁) (h₂ : Walked w room begins₂ (c.after t₁) t₂) :
    Walked w room (fun id => begins₁ id ∨ begins₂ id) c (t₁ ++ t₂) := by
  have hfresh : ∀ id ∈ t₂.ids, id ∉ c.executed ∧ id ∉ t₁.ids := by
    intro id hid
    have hnew := h₂.fresh id hid
    rw [Context.executed_after, List.mem_append, not_or] at hnew
    exact hnew
  refine ⟨fun l hl => ?_, ?_, fun id hid => ?_, fun before l after hsplit => ?_⟩
  · rcases List.mem_append.mp hl with hl | hl
    · exact h₁.ran l hl
    · exact h₂.ran l hl
  · rw [Trail.ids_append, List.nodup_append]
    refine ⟨h₁.nodup, h₂.nodup, fun a ha b hb hab => ?_⟩
    exact (hfresh b hb).2 (hab ▸ ha)
  · rw [Trail.ids_append, List.mem_append] at hid
    rcases hid with hid | hid
    · exact h₁.fresh id hid
    · exact (hfresh id hid).1
  · rcases List.append_eq_append_iff.mp hsplit with ⟨middle, rfl, hrest⟩ | ⟨middle, rfl, hrest⟩
    · -- The leg is one of the second trail.
      rcases h₂.opened middle l after hrest with hl | ⟨b, hb, hopens⟩
      · exact .inl (.inr hl)
      · exact .inr ⟨b, List.mem_append_right _ hb, hopens⟩
    · cases middle with
      | nil =>
          rcases h₂.opened [] l after hrest.symm with hl | ⟨b, hb, -⟩
          · exact .inl (.inr hl)
          · cases hb
      | cons first middle =>
          obtain ⟨rfl, -⟩ := List.cons.inj hrest
          rcases h₁.opened before l middle rfl with hl | hb
          · exact .inl (.inl hl)
          · exact .inr hb

theorem weaken (h : Walked w room begins₁ c t) (hroom : room ≤ room')
    (hbegins : ∀ id, begins₁ id → begins₂ id) : Walked w room' begins₂ c t where
  ran l hl := (h.ran l hl).mono hroom
  nodup := h.nodup
  fresh := h.fresh
  opened before l after hsplit := (h.opened before l after hsplit).imp_left (hbegins _)

/-- A trail from a node: the node itself, and a trail from what it leads to. -/
theorem cons (hran : l.Ran w room) (hnew : l.node.id ∉ c.executed)
    (h : Walked w room (l.Opens w.workflow) (c.withOutput l.node.id l.output) t) :
    Walked w room (· = l.node.id) c (l :: t) := by
  have hfresh : ∀ id ∈ t.ids, id ∉ c.executed ∧ id ≠ l.node.id := by
    intro id hid
    simpa [Context.withOutput] using h.fresh id hid
  refine ⟨fun l' hl => ?_, ?_, fun id hid => ?_, fun before l' after hsplit => ?_⟩
  · rcases List.mem_cons.mp hl with rfl | hl
    · exact hran
    · exact h.ran l' hl
  · rw [Trail.ids_cons, List.nodup_cons]
    exact ⟨fun hl => (hfresh _ hl).2 rfl, h.nodup⟩
  · rcases List.mem_cons.mp hid with rfl | hid
    · exact hnew
    · exact (hfresh id hid).1
  · cases before with
    | nil =>
        obtain ⟨rfl, -⟩ := List.cons.inj hsplit
        exact .inl rfl
    | cons first before =>
        obtain ⟨rfl, rfl⟩ := List.cons.inj hsplit
        rcases h.opened before l' after rfl with hopens | ⟨b, hb, hopens⟩
        · exact .inr ⟨l, List.mem_cons_self, hopens⟩
        · exact .inr ⟨b, List.mem_cons_of_mem _ hb, hopens⟩

end Walked

namespace Tour

theorem nil (hmust : ∀ id, must id → id ∈ c.executed) : Tour w room begins must c [] where
  toWalked := .nil
  reached id hid := by simpa using hmust id hid
  forced := by simp

theorem append (h₁ : Tour w room begins₁ must₁ c t₁)
    (h₂ : Tour w room begins₂ must₂ (c.after t₁) t₂) :
    Tour w room (fun id => begins₁ id ∨ begins₂ id) (fun id => must₁ id ∨ must₂ id) c
      (t₁ ++ t₂) where
  toWalked := h₁.toWalked.append h₂.toWalked
  reached id hid := by
    rw [Trail.ids_append, ← List.append_assoc]
    rcases hid with hid | hid
    · exact List.mem_append_left _ (h₁.reached id hid)
    · simpa using h₂.reached id hid
  forced l hl id hid := by
    rw [Trail.ids_append, ← List.append_assoc]
    rcases List.mem_append.mp hl with hl | hl
    · exact List.mem_append_left _ (h₁.forced l hl id hid)
    · simpa using h₂.forced l hl id hid

theorem weaken (h : Tour w room begins₁ must₁ c t) (hroom : room ≤ room')
    (hbegins : ∀ id, begins₁ id → begins₂ id) (hmust : ∀ id, must₂ id → must₁ id) :
    Tour w room' begins₂ must₂ c t where
  toWalked := h.toWalked.weaken hroom hbegins
  reached id hid := h.reached id (hmust id hid)
  forced := h.forced

/-- A tour of a node: the node itself, and a tour of what it leads to. -/
theorem cons (hran : l.Ran w room) (hnew : l.node.id ∉ c.executed)
    (h : Tour w room (l.Opens w.workflow) (l.Forces w.workflow)
      (c.withOutput l.node.id l.output) t) :
    Tour w room (· = l.node.id) (· = l.node.id) c (l :: t) where
  toWalked := .cons hran hnew h.toWalked
  reached id hid := by simp [hid]
  forced l' hl id hid := by
    have hid' : id ∈ (c.withOutput l.node.id l.output).executed ++ t.ids := by
      rcases List.mem_cons.mp hl with rfl | hl
      · exact h.reached id hid
      · exact h.forced l' hl id hid
    simpa [Context.withOutput] using hid'

end Tour

namespace Fell

variable {results : List NodeResult} {failure : PathFailure}

theorem weaken (h : Fell w room begins₁ c results failure) (hroom : room ≤ room')
    (hbegins : ∀ id, begins₁ id → begins₂ id) : Fell w room' begins₂ c results failure := by
  cases h with
  | behind hwalked hled hnode hnew hless hran =>
      exact .behind (hwalked.weaken hroom hbegins) (hled.imp_left (hbegins _)) hnode hnew
        (hless.trans_le hroom) hran

theorem after (ht : Walked w room begins₁ c t)
    (h : Fell w room begins₂ (c.after t) results failure) :
    Fell w room (fun id => begins₁ id ∨ begins₂ id) c (t.results ++ results) failure := by
  cases h with
  | @behind t' node inner e less startedAt millis hwalked hled hnode hnew hless hran =>
      have hled' : (begins₁ node.id ∨ begins₂ node.id) ∨
          ∃ b ∈ t ++ t', b.Opens w.workflow node.id := by
        rcases hled with hbegins | ⟨b, hb, hopens⟩
        · exact .inl (.inr hbegins)
        · exact .inr ⟨b, List.mem_append_right _ hb, hopens⟩
      rw [← Context.after_append] at hnew hran ⊢
      rw [← List.append_assoc, ← List.append_assoc, ← Trail.results_append]
      exact .behind (ht.append hwalked) hled' hnode hnew hless hran

theorem cons (hran : l.Ran w room) (hnew : l.node.id ∉ c.executed)
    (h : Fell w room (l.Opens w.workflow) (c.withOutput l.node.id l.output) results failure) :
    Fell w room (· = l.node.id) c (l.results ++ results) failure := by
  cases h with
  | @behind t node inner e less startedAt millis hwalked hled hnode hnew' hless hran' =>
      have hled' : ∃ b ∈ l :: t, b.Opens w.workflow node.id := by
        rcases hled with hopens | ⟨b, hb, hopens⟩
        · exact ⟨l, List.mem_cons_self, hopens⟩
        · exact ⟨b, List.mem_cons_of_mem _ hb, hopens⟩
      have htrail : l.results ++ t.results = Trail.results (l :: t) := rfl
      rw [← List.append_assoc, ← List.append_assoc, htrail]
      rw [← Context.after_cons] at hnew' hran' ⊢
      exact .behind (.cons hran hnew hwalked) (.inr hled') hnode hnew' hless hran'

end Fell

end

/-! ### Visits -/

namespace Walk

variable {w : Walk H} {visit : Visitor H} {choose : Edge → Context → Proc (Call H) Bool}
  {edges : List Edge} {room room' : Nat} {c c' : Context} {nodeId : String}
  {results : List NodeResult} {failure : PathFailure}

/-- Visits that do not fail leave tours of their nodes. -/
def Tours (w : Walk H) (visit : Visitor H) (room : Nat) : Prop :=
  ∀ nodeId c results c', (visit nodeId c).Yields ⟨results, .ok c'⟩ →
    ∃ t, Tour w room (· = nodeId) (· = nodeId) c t ∧ c' = c.after t ∧ results = t.results

/-- Visits that fail do so behind trails from their nodes. -/
def Falls (w : Walk H) (visit : Visitor H) (room : Nat) : Prop :=
  ∀ nodeId c results failure, (visit nodeId c).Yields ⟨results, .error failure⟩ →
    Fell w room (· = nodeId) c results failure

/-- An edge may be followed to a node. -/
def Offers (choose : Edge → Context → Proc (Call H) Bool) (edges : List Edge) (id : String) :
    Prop :=
  ∃ e ∈ edges, (∃ c, (choose e c).Yields true) ∧ e.target = id

/-- An edge is followed to a node in any context. -/
def Compels (choose : Edge → Context → Proc (Call H) Bool) (edges : List Edge) (id : String) :
    Prop :=
  ∃ e ∈ edges, (∀ c b, (choose e c).Yields b → b = true) ∧ e.target = id

theorem Followed.tour (hvisit : Tours w visit room)
    (h : Followed visit choose edges c ⟨results, .ok c'⟩) :
    ∃ t, Tour w room (Offers choose edges) (Compels choose edges) c t ∧ c' = c.after t ∧
      results = t.results := by
  generalize hv : (⟨results, .ok c'⟩ : Visited) = v at h
  induction h generalizing results with
  | done c =>
      obtain ⟨rfl, hending⟩ := Visited.mk.inj hv
      obtain rfl := Except.ok.inj hending
      exact ⟨[], .nil (by simp [Compels]), rfl, rfl⟩
  | @passed e rest c v hchosen _ ih =>
      obtain ⟨t, htour, hafter, hresults⟩ := ih hv
      refine ⟨t, htour.weaken le_rfl ?_ ?_, hafter, hresults⟩
      · rintro id ⟨e', he', hid⟩
        exact ⟨e', List.mem_cons_of_mem _ he', hid⟩
      · rintro id ⟨e', he', hsure, hid⟩
        rcases List.mem_cons.mp he' with rfl | he'
        · cases hsure c false hchosen
        · exact ⟨e', he', hsure, hid⟩
  | @went e rest c c₁ inner v hchosen hvisited _ ih =>
      obtain ⟨rfl, hending⟩ := Visited.mk.inj hv
      obtain ⟨t₁, htour₁, rfl, rfl⟩ := hvisit _ _ _ _ hvisited
      have hv' : (⟨v.results, .ok c'⟩ : Visited) = v := by rw [hending]
      obtain ⟨t₂, htour₂, hafter, hresults⟩ := ih hv'
      refine ⟨t₁ ++ t₂, (htour₁.append htour₂).weaken le_rfl ?_ ?_, ?_, ?_⟩
      · rintro id (rfl | ⟨e', he', hid⟩)
        · exact ⟨e, List.mem_cons_self, ⟨c, hchosen⟩, rfl⟩
        · exact ⟨e', List.mem_cons_of_mem _ he', hid⟩
      · rintro id ⟨e', he', hsure, hid⟩
        rcases List.mem_cons.mp he' with rfl | he'
        · exact .inl hid.symm
        · exact .inr ⟨e', he', hsure, hid⟩
      · rw [hafter, Context.after_append]
      · rw [hresults, Trail.results_append]
  | failed => simp at hv

theorem Followed.fell (htours : Tours w visit room) (hfalls : Falls w visit room)
    (h : Followed visit choose edges c ⟨results, .error failure⟩) :
    Fell w room (Offers choose edges) c results failure := by
  obtain ⟨before, e, after, c', first, last, rfl, hbefore, hchosen, hvisited, rfl⟩ := h.split_error
  obtain ⟨t, htour, rfl, rfl⟩ := hbefore.tour htours
  have hlast := hfalls _ _ _ _ hvisited
  refine (hlast.after htour.toWalked).weaken le_rfl ?_
  rintro id (⟨e', he', hid⟩ | rfl)
  · exact ⟨e', List.mem_append_left _ he', hid⟩
  · exact ⟨e, List.mem_append_right _ List.mem_cons_self, ⟨c.after t, hchosen⟩, rfl⟩

theorem opens_of_offers {l : Leg} {id : String}
    (hid : Offers (H := H) (follows l.node l.output) (w.workflow.outgoing l.node.id) id) :
    l.Opens w.workflow id := by
  obtain ⟨e, he, ⟨c, hfollows⟩, hid⟩ := hid
  exact ⟨e, he, isOpen_of_follows hfollows, hid⟩

theorem compels_of_forces {l : Leg} {id : String} (hid : l.Forces w.workflow id) :
    Compels (H := H) (follows l.node l.output) (w.workflow.outgoing l.node.id) id := by
  obtain ⟨e, he, hopen, hguard, hid⟩ := hid
  exact ⟨e, he, fun c b hb => follows_yields hopen hguard hb, hid⟩

theorem tours_visitInside (w : Walk H) (room : Nat) : Tours w (w.visitInside room) room := by
  induction room with
  | zero => exact fun _ _ _ _ h => h.elim
  | succ room ih =>
      intro nodeId c results c' h
      obtain ⟨inner, node, hinner, hnode, harrived⟩ := visitInside_yields h
      obtain rfl : room = inner := Nat.succ.inj hinner
      obtain rfl := Definition.id_of_node? hnode
      generalize hv : (⟨results, .ok c'⟩ : Visited) = v at harrived
      cases harrived with
      | skipped hold =>
          obtain ⟨rfl, hending⟩ := Visited.mk.inj hv
          obtain rfl := Except.ok.inj hending
          refine ⟨[], .nil ?_, rfl, rfl⟩
          rintro id rfl
          exact Context.hasExecuted_eq_true.mp hold
      | failed => simp at hv
      | @went within output startedAt millis v hnew hran hleft =>
          obtain ⟨rfl, hending⟩ := Visited.mk.inj hv
          obtain ⟨more, ending⟩ := v
          obtain rfl : Except.ok c' = ending := hending
          obtain ⟨t, htour, rfl, rfl⟩ := hleft.tour ih
          let leg : Leg := ⟨node, output, within, startedAt, millis⟩
          have hlegRan : leg.Ran w (room + 1) := ⟨hnode, room, Nat.lt_succ_self room, c, hran⟩
          refine ⟨leg :: t, .cons hlegRan (Context.hasExecuted_eq_false.mp hnew) ?_, rfl, ?_⟩
          · refine htour.weaken (Nat.le_succ room) (fun id hid => ?_) (fun id hid => ?_)
            · exact opens_of_offers (l := leg) hid
            · exact compels_of_forces (l := leg) hid
          · rw [Trail.results_cons]
            rfl

theorem falls_visitInside (w : Walk H) (room : Nat) : Falls w (w.visitInside room) room := by
  induction room with
  | zero => exact fun _ _ _ _ h => h.elim
  | succ room ih =>
      intro nodeId c results failure h
      obtain ⟨inner, node, hinner, hnode, harrived⟩ := visitInside_yields h
      obtain rfl : room = inner := Nat.succ.inj hinner
      obtain rfl := Definition.id_of_node? hnode
      rcases harrived.error_cases with ⟨inner, e, startedAt, millis, hnew, hran, rfl, rfl⟩ |
        ⟨inner, output, startedAt, millis, more, hnew, hran, hleft, rfl⟩
      · have hfresh := Context.hasExecuted_eq_false.mp hnew
        exact .behind (t := []) .nil (.inl rfl) hnode hfresh (Nat.lt_succ_self room) hran
      · let leg : Leg := ⟨node, output, inner, startedAt, millis⟩
        have hlegRan : leg.Ran w (room + 1) := ⟨hnode, room, Nat.lt_succ_self room, c, hran⟩
        have hmore : Fell w (room + 1) (leg.Opens w.workflow) (c.withOutput node.id output) more
            failure := by
          apply (hleft.fell (tours_visitInside w room) ih).weaken (Nat.le_succ room)
          intro id hid
          exact opens_of_offers (l := leg) hid
        have hresults := hmore.cons hlegRan (Context.hasExecuted_eq_false.mp hnew)
        simpa [Leg.results, Leg.result] using hresults

/-! ### A loop -/

/-- A loop over the payload, with a node of some type in its body. -/
def looping (step : NodeType) : Walk Empty :=
  let node (id : String) (type : NodeType) (config : Json) : Node := ⟨id, type, none, config⟩
  let edge (a b : String) (handle : Option String) : Edge := ⟨a, b, handle, none⟩
  let d : Definition := .create ⟨0⟩ "looping" .manual
    [node "start" .trigger .null, node "each" .loop (.obj [("collection", .str "trigger")]),
      node "step" step .null, node "end" .output .null]
    [edge "start" "each" none, edge "each" "step" (some bodyHandle), edge "each" "end" none]
  ⟨d, (Engine.create [] [] .standard).adapter, 2⟩

def loopingStart : Context := .start ⟨1⟩ ⟨0⟩ ⟨0, 0⟩ (.arr [.null, .null]) []

def loopingEnd : Context :=
  let empty : Json := .obj []
  ((loopingStart.withOutput "start" loopingStart.trigger).withOutput "each"
    (.arr [empty, empty])).withOutput "end" empty

/-- The step runs for each of the items, and is not seen at the end. -/
theorem looping_yields :
    let now : Time.Instant := ⟨0, 0⟩
    let empty : Json := .obj []
    let result (id : String) (type : NodeType) (output : Json) : NodeResult :=
      ⟨id, type, .ok output, now, elapsedMillis now now⟩
    ((looping .output).visit 4 "start" loopingStart).Yields
      ⟨[result "start" .trigger loopingStart.trigger, result "step" .output empty,
        result "step" .output empty, result "each" .loop (.arr [empty, empty]),
        result "end" .output empty], .ok loopingEnd⟩ := by
  intro now empty result
  -- The trigger and the loop begin.
  refine Exists.intro now (Exists.intro false (Exists.intro now ?_))
  refine Exists.intro now (Exists.intro false ?_)
  -- The step runs for each item, and then the loop is over.
  refine Exists.intro now (Exists.intro false (Exists.intro now ?_))
  refine Exists.intro now (Exists.intro false (Exists.intro now ?_))
  refine Exists.intro now ?_
  -- The node behind the loop runs.
  refine Exists.intro now (Exists.intro false (Exists.intro now ?_))
  exact rfl

end Walk

end Workflow
