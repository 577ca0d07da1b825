import Mathlib.Data.Fintype.Card
import Mathlib.Data.Fintype.EquivFin
import Mathlib.Data.Fintype.Sets
import Workflow.Definition.Order

/-!
# Taking nodes in order

A node is taken when no edge from a node that is not yet taken leads to it.  The counts kept beside
the queue say how many such edges are left, so counting one off never finds a count of zero, and
what is never taken has an edge from something else that is never taken.
-/

namespace Workflow

namespace Graph

variable {edges : List Edge} {ids taken queue targets : List String} {degrees : Degrees}
  {a b id : String}

/-! ### Edges -/

/-- An edge leads from the one node to the other. -/
def Leads (edges : List Edge) (a b : String) : Prop := ∃ e ∈ edges, e.source = a ∧ e.target = b

/-- How many edges lead to a node from nodes that are not taken. -/
def pending (edges : List Edge) (taken : List String) (id : String) : Nat :=
  edges.countP fun e => e.target = id ∧ e.source ∉ taken

@[simp] theorem pending_nil (edges : List Edge) (id : String) :
    pending edges [] id = inDegree edges id := by
  simp [pending, inDegree]

theorem pending_cons (e : Edge) (edges : List Edge) (taken : List String) (id : String) :
    pending (e :: edges) taken id =
      pending edges taken id + if e.target = id ∧ e.source ∉ taken then 1 else 0 := by
  simp [pending, List.countP_cons]

theorem count_successors_cons (e : Edge) (edges : List Edge) (id b : String) :
    (successors (e :: edges) id).count b =
      (successors edges id).count b + if e.source = id ∧ e.target = b then 1 else 0 := by
  by_cases h : e.source = id <;> simp [successors, h, List.count_cons]

theorem pending_eq_zero :
    pending edges taken id = 0 ↔ ∀ a, Leads edges a id → a ∈ taken := by
  simp only [pending, List.countP_eq_zero, decide_eq_true_eq, not_and, not_not]
  constructor
  · rintro h _ ⟨e, he, rfl, htarget⟩
    exact h e he htarget
  · intro h e he htarget
    exact h _ ⟨e, he, rfl, htarget⟩

/-- The edges to a node come from the node that is taken next or from one that is still not
taken. -/
theorem pending_eq_add (hid : id ∉ taken) (b : String) :
    pending edges taken b = pending edges (taken ++ [id]) b + (successors edges id).count b := by
  induction edges with
  | nil => rfl
  | cons e rest ih =>
      rw [pending_cons, pending_cons, count_successors_cons, ih]
      by_cases hsource : e.source = id
      · subst hsource
        simp [hid]
        omega
      · have hnext : e.source ∈ taken ++ [id] ↔ e.source ∈ taken := by simp [hsource]
        simp only [hnext, hsource, false_and, if_false]
        omega

/-! ### Counting off -/

/-- One edge to a node fewer, if there is one left. -/
def Degrees.lower? (id : String) : Degrees → Option Degrees
  | [] => none
  | (k, n) :: rest =>
      if k = id then
        match n with
        | 0 => none
        | n + 1 => some ((k, n) :: rest)
      else (lower? id rest).map ((k, n) :: ·)

/-- Counts off the edges to a list of nodes as `release` does, as long as there is one left
each time. -/
def release? : List String → Degrees → Option (List String × Degrees)
  | [], degrees => some ([], degrees)
  | id :: rest, degrees => do
      let degrees ← degrees.lower? id
      let (free, after) ← release? rest degrees
      return (if degrees.count id = 0 then id :: free else free, after)

namespace Degrees

theorem count_cons (k : String) (n : Nat) (rest : Degrees) (id : String) :
    count id ((k, n) :: rest) = if id = k then n else count id rest := by
  by_cases h : id = k
  · simp [count, h]
  · simp [count, List.lookup_cons, h, beq_false_of_ne h]

theorem count_lower (degrees : Degrees) (id b : String) :
    (degrees.lower id).count b = degrees.count b - if b = id then 1 else 0 := by
  induction degrees with
  | nil => simp [lower, count]
  | cons entry rest ih =>
      obtain ⟨k, n⟩ := entry
      by_cases hk : k = id <;> by_cases hb : b = k <;> simp [lower, count_cons, hk, hb, ih]
      simp_all

theorem lower?_eq (h : 0 < degrees.count id) : degrees.lower? id = some (degrees.lower id) := by
  induction degrees with
  | nil => simp [count] at h
  | cons entry rest ih =>
      obtain ⟨k, n⟩ := entry
      by_cases hk : k = id
      · rw [count_cons, if_pos hk.symm] at h
        obtain ⟨n, rfl⟩ := Nat.exists_eq_succ_of_ne_zero h.ne'
        simp [lower?, lower, hk]
      · rw [count_cons, if_neg (Ne.symm hk)] at h
        simp [lower?, lower, hk, ih h]

end Degrees

theorem count_release (targets : List String) (degrees : Degrees) (b : String) :
    (release targets degrees).2.count b = degrees.count b - targets.count b := by
  induction targets generalizing degrees with
  | nil => simp [release]
  | cons id rest ih =>
      simp only [release, ih, Degrees.count_lower, List.count_cons, beq_iff_eq, eq_comm (a := id)]
      omega

/-- If there is an edge to count off for each of the targets, none of them is counted off in vain,
and each target without edges left is given once, at its last edge. -/
theorem release_spec {targets : List String} {degrees : Degrees}
    (h : ∀ b, targets.count b ≤ degrees.count b) :
    release? targets degrees = some (release targets degrees) ∧
      (release targets degrees).1.Nodup ∧
      ∀ b, b ∈ (release targets degrees).1 ↔
        b ∈ targets ∧ (release targets degrees).2.count b = 0 := by
  induction targets generalizing degrees with
  | nil => simp [release, release?]
  | cons id rest ih =>
      have hid : 0 < degrees.count id := by
        have := h id
        rw [List.count_cons_self] at this
        omega
      have hrest : ∀ b, rest.count b ≤ (degrees.lower id).count b := by
        intro b
        have hb := h b
        rw [Degrees.count_lower]
        by_cases heq : b = id
        · rw [heq, List.count_cons_self] at hb
          rw [heq, if_pos rfl]
          omega
        · rw [List.count_cons_of_ne (Ne.symm heq)] at hb
          rw [if_neg heq]
          exact hb
      obtain ⟨hchecked, hnodup, hmem⟩ := ih hrest
      have hlast : (degrees.lower id).count id = 0 → id ∉ rest := by
        intro hzero
        have hcount := hrest id
        rw [hzero, Nat.le_zero] at hcount
        exact List.count_eq_zero.mp hcount
      refine ⟨by simp [release?, release, Degrees.lower?_eq hid, hchecked], ?_, fun b => ?_⟩
      · rw [release]
        split_ifs with hzero
        · exact List.nodup_cons.mpr ⟨fun hfree => hlast hzero ((hmem id).mp hfree).1, hnodup⟩
        · exact hnodup
      · have hb : b ∈ (release (id :: rest) degrees).1 ↔
            b = id ∧ (degrees.lower id).count id = 0 ∨ b ∈ (release rest (degrees.lower id)).1 := by
          rw [release]
          split_ifs with hzero <;> simp [hzero]
        have hcount := count_release rest (degrees.lower id) id
        have hafter : (release (id :: rest) degrees).2 = (release rest (degrees.lower id)).2 := rfl
        rw [hb, hmem, List.mem_cons, hafter]
        constructor
        · rintro (⟨rfl, hzero⟩ | ⟨hmem, hzero⟩)
          · exact ⟨.inl rfl, by omega⟩
          · exact ⟨.inr hmem, hzero⟩
        · rintro ⟨rfl | hmem, hzero⟩
          · by_cases hlower : (degrees.lower b).count b = 0
            · exact .inl ⟨rfl, hlower⟩
            · exact .inr ⟨List.count_pos_iff.mp (by omega), hzero⟩
          · exact .inr ⟨hmem, hzero⟩

/-! ### The queue -/

/-- Takes nodes as `sort` does, as long as there is an edge left for each that is counted off, and
until the queue is empty. -/
def sort? (edges : List Edge) : Nat → List String → Degrees → Option (List String)
  | _, [], _ => some []
  | 0, _ :: _, _ => none
  | fuel + 1, id :: queue, degrees => do
      let (free, degrees) ← release? (successors edges id) degrees
      let rest ← sort? edges fuel (queue ++ free) degrees
      return id :: rest

/-- Nodes of which each is behind all that lead to it. -/
def Forward (edges : List Edge) (order : List String) : Prop :=
  ∀ before b after, order = before ++ b :: after → ∀ a, Leads edges a b → a ∈ before

/-- What holds while nodes are taken. -/
structure Sorting (edges : List Edge) (ids taken queue : List String) (degrees : Degrees) :
    Prop where
  nodup : (taken ++ queue).Nodup
  mem : ∀ id, id ∈ taken ++ queue ↔ id ∈ ids ∧ degrees.count id = 0
  count : ∀ id, degrees.count id = pending edges taken id
  forward : Forward edges taken

namespace Sorting

variable {fuel : Nat}

theorem forward_append (h : Forward edges taken) (hid : ∀ a, Leads edges a id → a ∈ taken) :
    Forward edges (taken ++ [id]) := by
  intro before b after hsplit a hleads
  rcases List.eq_nil_or_concat after with rfl | ⟨after, last, rfl⟩
  · obtain ⟨rfl, hb⟩ := List.append_inj' hsplit rfl
    obtain rfl : id = b := by simpa using hb
    exact hid a hleads
  · rw [List.concat_eq_append, ← List.cons_append, ← List.append_assoc] at hsplit
    obtain ⟨htaken, -⟩ := List.append_inj' hsplit rfl
    exact h before b after htaken a hleads

theorem step (h : Sorting edges ids taken (id :: queue) degrees)
    (hknown : ∀ e ∈ edges, e.target ∈ ids) :
    release? (successors edges id) degrees = some (release (successors edges id) degrees) ∧
      Sorting edges ids (taken ++ [id]) (queue ++ (release (successors edges id) degrees).1)
        (release (successors edges id) degrees).2 := by
  have hid : id ∉ taken := by
    have hnodup := List.nodup_append.mp h.nodup
    exact fun htaken => hnodup.2.2 id htaken id List.mem_cons_self rfl
  have hzero : ∀ b ∈ taken ++ id :: queue, degrees.count b = 0 := fun b hb => ((h.mem b).mp hb).2
  have hpending : ∀ b, degrees.count b =
      pending edges (taken ++ [id]) b + (successors edges id).count b := fun b =>
    (h.count b).trans (pending_eq_add hid b)
  have henough : ∀ b, (successors edges id).count b ≤ degrees.count b := fun b => by
    rw [hpending b]
    exact Nat.le_add_left _ _
  obtain ⟨hchecked, hnodup, hmem⟩ := release_spec henough
  have hcount := count_release (successors edges id) degrees
  generalize release (successors edges id) degrees = released at *
  obtain ⟨free, after⟩ := released
  have hnew : ∀ b ∈ free, b ∉ taken ++ id :: queue := by
    intro b hb hold
    have hpos := List.count_pos_iff.mpr ((hmem b).mp hb).1
    have := hzero b hold
    have := hpending b
    omega
  have hlist : taken ++ [id] ++ (queue ++ free) = taken ++ id :: queue ++ free := by simp
  refine ⟨hchecked, ⟨?_, fun b => ?_, fun b => ?_, ?_⟩⟩
  · rw [hlist, List.nodup_append]
    exact ⟨h.nodup, hnodup, fun b hb c hc heq => hnew c hc (heq ▸ hb)⟩
  · rw [hlist, List.mem_append, h.mem, hmem, hcount]
    constructor
    · rintro (⟨hb, hzero⟩ | ⟨hb, hzero⟩)
      · exact ⟨hb, by omega⟩
      · obtain ⟨e, he, rfl⟩ := List.mem_map.mp hb
        exact ⟨hknown e (List.mem_of_mem_filter he), hzero⟩
    · rintro ⟨hb, hzero⟩
      by_cases hcounted : degrees.count b = 0
      · exact .inl ⟨hb, hcounted⟩
      · exact .inr ⟨List.count_pos_iff.mp (by omega), hzero⟩
  · rw [hcount, hpending]
    omega
  · have hnone := hzero id (by simp)
    rw [h.count, pending_eq_zero] at hnone
    exact forward_append h.forward hnone

theorem run (h : Sorting edges ids taken queue degrees) (hknown : ∀ e ∈ edges, e.target ∈ ids)
    (hfuel : ids.length ≤ taken.length + fuel) :
    sort? edges fuel queue degrees = some (sort edges fuel queue degrees) ∧
      ∃ after, Sorting edges ids (taken ++ sort edges fuel queue degrees) [] after := by
  induction fuel generalizing taken queue degrees with
  | zero =>
      -- All nodes are in the queue or taken already.
      have hlength : (taken ++ queue).length ≤ ids.length :=
        (h.nodup.subperm fun id hid => ((h.mem id).mp hid).1).length_le
      obtain rfl : queue = [] := by
        rw [List.length_append] at hlength
        exact List.eq_nil_of_length_eq_zero (by omega)
      exact ⟨by simp [sort?, sort], degrees, by simpa [sort] using h⟩
  | succ fuel ih =>
      cases queue with
      | nil => exact ⟨by simp [sort?, sort], degrees, by simpa [sort] using h⟩
      | cons id queue =>
          obtain ⟨hchecked, hstep⟩ := h.step hknown
          obtain ⟨hrest, after, hafter⟩ := ih hstep (by simp; omega)
          refine ⟨by simp [sort?, sort, hchecked, hrest], after, ?_⟩
          simpa [sort] using hafter

theorem nodup_taken (h : Sorting edges ids taken [] degrees) : taken.Nodup := by
  simpa using h.nodup

theorem mem_taken (h : Sorting edges ids taken [] degrees) :
    id ∈ taken ↔ id ∈ ids ∧ degrees.count id = 0 := by
  simpa using h.mem id

theorem perm (h : Sorting edges ids taken [] degrees) (hlength : taken.length = ids.length) :
    taken.Perm ids := by
  have hsubset : taken ⊆ ids := fun id hid => (h.mem_taken.mp hid).1
  exact (h.nodup_taken.subperm hsubset).perm_of_length_le hlength.ge

theorem exists_leads (h : Sorting edges ids taken [] degrees) (hid : id ∈ ids)
    (hleft : id ∉ taken) : ∃ a, Leads edges a id ∧ a ∉ taken := by
  have hcount : degrees.count id ≠ 0 := fun hzero => hleft (h.mem_taken.mpr ⟨hid, hzero⟩)
  rw [h.count, Ne, pending_eq_zero] at hcount
  push Not at hcount
  exact hcount

/-- If nodes are left, some path comes back to where it began. -/
theorem exists_cycle (h : Sorting edges ids taken [] degrees) (hids : ids.Nodup)
    (hknown : ∀ a b, Leads edges a b → a ∈ ids) (hlength : taken.length ≠ ids.length) :
    ∃ id ∈ ids, Relation.TransGen (Leads edges) id id := by
  by_contra hnone
  push Not at hnone
  -- Otherwise the paths between the nodes are well founded, and every node is taken in its turn.
  let Path : {id // id ∈ ids} → {id // id ∈ ids} → Prop := fun a b =>
    Relation.TransGen (Leads edges) a b
  have htrans : IsTrans _ Path := ⟨fun a b c hab hbc => hab.trans hbc⟩
  have hirrefl : Std.Irrefl Path := ⟨fun a hcycle => hnone a a.2 hcycle⟩
  have hwf : WellFounded Path := Finite.wellFounded_of_trans_of_irrefl Path
  have htaken : ∀ a : {id // id ∈ ids}, a.1 ∈ taken := by
    intro a
    induction a using hwf.induction with
    | _ a ih =>
        by_contra hleft
        obtain ⟨b, hleads, hb⟩ := h.exists_leads a.2 hleft
        exact hb (ih ⟨b, hknown b a hleads⟩ (.single hleads))
  have hperm : taken.Perm ids := (List.perm_ext_iff_of_nodup h.nodup_taken hids).mpr fun id =>
    ⟨fun hid => (h.mem_taken.mp hid).1, fun hid => htaken ⟨id, hid⟩⟩
  exact hlength hperm.length_eq

end Sorting

namespace Forward

variable {order : List String}

theorem idxOf_lt (h : Forward edges order) (hb : b ∈ order) (hleads : Leads edges a b) :
    order.idxOf a < order.idxOf b := by
  obtain ⟨before, after, hsplit, hnot⟩ := List.eq_append_cons_of_mem hb
  have ha := h before b after hsplit a hleads
  rw [hsplit, List.idxOf_append_of_mem ha, List.idxOf_append_of_notMem hnot,
    List.idxOf_cons_self, Nat.add_zero]
  exact List.idxOf_lt_length_of_mem ha

/-- In an order of all nodes in which edges point forward, no path comes back. -/
theorem acyclic (h : Forward edges order) (hknown : ∀ a b, Leads edges a b → b ∈ order)
    (id : String) : ¬ Relation.TransGen (Leads edges) id id := by
  have hpath : ∀ a b, Relation.TransGen (Leads edges) a b → order.idxOf a < order.idxOf b := by
    intro a b hab
    induction hab with
    | single hleads => exact h.idxOf_lt (hknown _ _ hleads) hleads
    | tail _ hleads ih => exact ih.trans (h.idxOf_lt (hknown _ _ hleads) hleads)
  exact fun hcycle => (hpath id id hcycle).false

end Forward

end Graph

end Workflow
