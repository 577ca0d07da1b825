import Workflow.Store.Memory

/-!
# Laws of the store in memory

What is found after an order.  An execution is found as it was left by the last order that
applied to it, and a running one is ended exactly once.
-/

namespace Workflow

@[simp] theorem ExecutionStatus.parse_name (status : ExecutionStatus) :
    ExecutionStatus.parse status.name = .ok status := by
  simp [ExecutionStatus.parse, ExecutionStatus.ofName?_name]

theorem ExecutionStatus.isTerminal_iff (status : ExecutionStatus) :
    status.isTerminal = true ↔ status.name ≠ ExecutionStatus.running.name := by
  cases status <;> decide

@[simp] theorem NewExecution.toRow_id (new : NewExecution) (id : Uuid) (now : Time.Instant) :
    (new.toRow id now).id = id := rfl

@[simp] theorem NewExecution.toRow_state (new : NewExecution) (id : Uuid) (now : Time.Instant) :
    (new.toRow id now).state = .ok .running := ExecutionStatus.parse_name .running

@[simp] theorem ExecutionRow.finish_state (row : ExecutionRow) (f : Finish) (now : Time.Instant) :
    (row.finish f now).state = .ok f.status := ExecutionStatus.parse_name f.status

namespace Memory

variable {α κ : Type} [DecidableEq κ] {key : α → κ} {f : α → α}

/-- A change of the first item under a key is seen under that key only. -/
theorem find?_modifyFirst (hf : ∀ a, key (f a) = key a) (k k' : κ) (l : List α) :
    (modifyFirst (fun a => key a = k) f l).find? (fun a => key a = k') =
      if k' = k then (l.find? fun a => key a = k').map f else l.find? fun a => key a = k' := by
  induction l with
  | nil => simp [modifyFirst]
  | cons a l ih =>
      by_cases ha : key a = k
      · by_cases hk : k' = k
        · simp [modifyFirst, ha, hk, hf]
        · have hk' : k ≠ k' := fun h => hk h.symm
          simp [modifyFirst, ha, hk, hk', hf]
      · by_cases hk : k' = k
        · subst hk
          simpa [modifyFirst, ha] using ih
        · by_cases ha' : key a = k'
          · simp [modifyFirst, hk, ha']
          · simpa [modifyFirst, ha, hk, ha'] using ih

theorem modifyFirst_of_find?_eq_none {k : κ} {l : List α}
    (h : l.find? (fun a => key a = k) = none) : modifyFirst (fun a => key a = k) f l = l := by
  induction l with
  | nil => rfl
  | cons a l ih =>
      by_cases ha : key a = k
      · simp [ha] at h
      · simp only [ha, decide_false, Bool.false_eq_true, not_false_eq_true,
          List.find?_cons_of_neg] at h
        simp [modifyFirst, ha, ih h]

/-- Where no two items have the same key, the first item under a key is the only one. -/
theorem filter_eq_toList_find? {l : List α} (hnodup : (l.map key).Nodup) (k : κ) :
    l.filter (fun a => key a = k) = (l.find? fun a => key a = k).toList := by
  induction l with
  | nil => rfl
  | cons a l ih =>
      obtain ⟨ha, hl⟩ := List.nodup_cons.mp hnodup
      by_cases hk : key a = k
      · have hrest : l.filter (fun a => key a = k) = [] := by
          refine List.filter_eq_nil_iff.mpr fun b hb hbk => ha ?_
          rw [hk, ← of_decide_eq_true hbk]
          exact List.mem_map_of_mem hb
        simp [hk, hrest]
      · simp [hk, ih hl]

theorem eq_of_find? {k : κ} {a b : α} {l : List α} (hnodup : (l.map key).Nodup)
    (h : l.find? (fun a => key a = k) = some a) (hb : b ∈ l) (hk : key b = k) : b = a := by
  have hmem : b ∈ l.filter fun a => key a = k := List.mem_filter.mpr ⟨hb, decide_eq_true hk⟩
  rw [filter_eq_toList_find? hnodup, h] at hmem
  exact List.mem_singleton.mp hmem

/-- At most one item is under a key and passes a test besides. -/
theorem countP_le_one {l : List α} (hnodup : (l.map key).Nodup) (k : κ) (p : α → Bool) :
    (l.countP fun a => key a = k && p a) ≤ 1 := by
  have hunder : (l.countP fun a => key a = k) ≤ 1 := by
    rw [List.countP_eq_length_filter, filter_eq_toList_find? hnodup]
    exact Option.length_toList_le
  refine Nat.le_trans (List.countP_mono_left fun a _ h => ?_) hunder
  exact (Bool.and_eq_true_iff.mp h).1

theorem modifyFirst_eq_map {l : List α} (hnodup : (l.map key).Nodup) (k : κ) :
    modifyFirst (fun a => key a = k) f l = l.map fun a => if key a = k then f a else a := by
  induction l with
  | nil => rfl
  | cons a l ih =>
      obtain ⟨ha, hl⟩ := List.nodup_cons.mp hnodup
      by_cases hk : key a = k
      · have hrest : ∀ b ∈ l, (if key b = k then f b else b) = b := by
          refine fun b hb => if_neg fun hbk => ha ?_
          rw [hk, ← hbk]
          exact List.mem_map_of_mem hb
        simp [modifyFirst, hk, List.map_congr_left hrest]
      · simp [modifyFirst, hk, ih hl]

omit [DecidableEq κ] in
/-- A change that leaves the keys leaves the list of keys. -/
theorem map_key_of_change (p : α → Prop) [DecidablePred p] (f : α → α)
    (hf : ∀ a, key (f a) = key a) (l : List α) :
    (l.map fun a => if p a then f a else a).map key = l.map key := by
  rw [List.map_map]
  refine List.map_congr_left fun a _ => ?_
  rw [Function.comp_apply, apply_ite key, hf, ite_self]

theorem map_of_any_eq_false {p : α → Bool} {l : List α} (h : l.any p = false) :
    (l.map fun a => if p a then f a else a) = l := by
  have hsame : ∀ a ∈ l, (if p a then f a else a) = a :=
    fun a ha => if_neg (List.any_eq_false.mp h a ha)
  rw [List.map_congr_left hsame, List.map_id']

variable {m m' : Memory} {id x : Uuid}

/-- The memory after the execution of an identifier was ended. -/
def ended (m : Memory) (id : Uuid) (f : Finish) (now : Time.Instant) : Memory :=
  { m with executions := modifyFirst (fun e => e.id = id) (fun e => e.finish f now) m.executions }

theorem execution?_ended (f : Finish) (now : Time.Instant) :
    (m.ended id f now).execution? x =
      if x = id then (m.execution? x).map fun row => row.finish f now else m.execution? x :=
  find?_modifyFirst (f := fun e : ExecutionRow => e.finish f now) (fun _ => rfl) id x m.executions

theorem execution?_addExecution (row : ExecutionRow) :
    (m.addExecution row).execution? x =
      (m.execution? x).or (if row.id = x then some row else none) := by
  by_cases h : row.id = x <;> simp [execution?, addExecution, List.find?_append, h]

theorem execution?_addExecution_of_ne {row : ExecutionRow} (h : row.id ≠ x) :
    (m.addExecution row).execution? x = m.execution? x := by
  simp [execution?_addExecution, h]

/-- An order to end an execution applies to one that is running, and to no other. -/
theorem finish_eq_ok {f : Finish} {now : Time.Instant} {applied : Bool}
    (h : m.finish id f now = .ok (applied, m')) :
    (applied = true ∧ m' = m.ended id f now ∧
        ∃ row, m.execution? id = some row ∧ row.state = .ok .running) ∨
      (applied = false ∧ m' = m ∧ ∀ row, m.execution? id = some row →
        ∃ status, row.state = .ok status ∧ status.isTerminal = true) := by
  rw [finish] at h
  cases hrow : m.execution? id with
  | none =>
      rw [hrow] at h
      cases h
      exact .inr ⟨rfl, rfl, by simp⟩
  | some row =>
      simp only [hrow] at h
      cases hstate : row.state with
      | error e => simp [hstate] at h
      | ok status =>
          simp only [hstate] at h
          by_cases hterm : status.isTerminal = true
          · rw [if_pos hterm] at h
            cases h
            refine .inr ⟨rfl, rfl, fun row' hrow' => ?_⟩
            cases hrow'
            exact ⟨status, hstate, hterm⟩
          · rw [if_neg hterm] at h
            cases h
            refine .inl ⟨rfl, rfl, row, rfl, ?_⟩
            cases status <;> simp_all [ExecutionStatus.isTerminal]

theorem finish_eq_error {f : Finish} {now : Time.Instant} {e : StoreError}
    (h : m.finish id f now = .error e) :
    ∃ row, m.execution? id = some row ∧ row.state = .error e := by
  rw [finish] at h
  cases hrow : m.execution? id with
  | none => simp [hrow] at h
  | some row =>
      simp only [hrow] at h
      cases hstate : row.state with
      | error e' =>
          simp only [hstate] at h
          cases h
          exact ⟨row, rfl, hstate⟩
      | ok status =>
          simp only [hstate] at h
          split at h <;> cases h

/-- Workflows with the last run of one stamped. -/
def stamped (workflows : List WorkflowRow) (id : Uuid) (instant : Time.Instant) :
    List WorkflowRow :=
  modifyFirst (fun w => w.id = id) (fun w => { w with lastRunAt := some instant }) workflows

/-- The order to stamp the last run of a workflow fails for one that is not there, and then there
is nothing to stamp. -/
theorem touch_eq (m : Memory) (id : Uuid) (instant : Time.Instant) :
    m.touch id instant =
      if (m.workflow? id).isSome then .ok { m with workflows := stamped m.workflows id instant }
      else .error .notFound := by
  cases h : m.workflow? id <;> simp [touch, h, stamped]

theorem stamped_of_workflow?_eq_none {instant : Time.Instant} (h : m.workflow? id = none) :
    stamped m.workflows id instant = m.workflows :=
  modifyFirst_of_find?_eq_none h

end Memory

end Workflow
