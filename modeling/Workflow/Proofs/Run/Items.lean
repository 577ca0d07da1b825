import Workflow.Proofs.Run.Clock
import Workflow.Proofs.Run.Steady
import Workflow.Proofs.Run.Trail

/-!
# Items by themselves

The items of a loop have nothing to do with each other: for each of them the body begins in the
context of the loop, with the item and its index bound, and comes to what it may come to by itself.
The first item for which the body fails ends the loop, before anything is done for those behind it.
-/

namespace Workflow

open Proc

variable {H : Type}

namespace Walk

variable {k : Setting} {w : Walk H} {visit : Visitor H} {c : Context} {node : Node}

/-- What is done for one item of a loop: the edges into the body are followed from the context of
the loop, with the item and its index bound. -/
def forItem (w : Walk H) (visit : Visitor H) (node : Node) (config : LoopConfig) (c : Context)
    (index : Nat) (item : Json) : Proc (Call H) Visited :=
  follow visit guardHolds (w.bodyEdges node)
    (c.withItem config.itemVariable item config.indexVariable index) []

/-- What is done after an item of a loop, by what came of its body. -/
def afterItem (w : Walk H) (visit : Visitor H) (node : Node) (config : LoopConfig) (c : Context)
    (index : Nat) (item : Json) (rest : List Json) (blocks : List (List NodeResult))
    (outputs : List Json) (visited : Visited) : Proc (Call H) Executed :=
  match visited.ending with
  | .error failure =>
    .done ⟨(visited.results :: blocks).reverse.flatten,
      .error (.loopIteration node.id index failure.error)⟩
  | .ok last =>
    iterate visit node.id config (w.bodyEdges node) c (index + 1) rest (visited.results :: blocks)
      ((last.lastOutputSince c.executed.length).getD item :: outputs)

theorem iterate_cons (w : Walk H) (visit : Visitor H) (node : Node) (config : LoopConfig)
    (c : Context) (index : Nat) (item : Json) (rest : List Json) (blocks : List (List NodeResult))
    (outputs : List Json) :
    iterate visit node.id config (w.bodyEdges node) c index (item :: rest) blocks outputs =
      (w.forItem visit node config c index item).bind
        (w.afterItem visit node config c index item rest blocks outputs) := rfl

theorem forItem_returns (hvisit : k.Leads visit) (hc : c.executionId = k.execution)
    (config : LoopConfig) (index : Nat) (item : Json) :
    k.Settles (w.forItem visit node config c index item) fun v => v.IsOf k.execution :=
  body_returns hvisit hc _ config index item

/-! ### What a loop may come to -/

/-- What a loop comes to from an index on, if it is known what may come of its body for each index
and item: a visit and an output for each item, up to the first one for which the body fails. -/
inductive Mapped (ends : Nat → Json → Visited → Prop) (nodeId : String) (baseline : Nat) :
    Nat → List Json → List Visited → Except RunError (List Json) → Prop where
  | done (index : Nat) : Mapped ends nodeId baseline index [] [] (.ok [])
  | went {index : Nat} {item : Json} {rest : List Json} {visited : Visited} {last : Context}
      {visits : List Visited} {outcome : Except RunError (List Json)} :
      ends index item visited → visited.ending = .ok last →
        Mapped ends nodeId baseline (index + 1) rest visits outcome →
          Mapped ends nodeId baseline index (item :: rest) (visited :: visits)
            (outcome.map ((last.lastOutputSince baseline).getD item :: ·))
  | failed {index : Nat} {item : Json} {rest : List Json} {visited : Visited}
      {failure : PathFailure} :
      ends index item visited → visited.ending = .error failure →
        Mapped ends nodeId baseline index (item :: rest) [visited]
          (.error (.loopIteration nodeId index failure.error))

theorem ends_iterate (hvisit : k.Leads visit) (hc : c.executionId = k.execution)
    (config : LoopConfig) (index : Nat) (items : List Json) (blocks : List (List NodeResult))
    (outputs : List Json) (x : Executed) :
    k.Ends (iterate visit node.id config (w.bodyEdges node) c index items blocks outputs) x ↔
      ∃ visits outcome,
        Mapped (fun index item v => k.Ends (w.forItem visit node config c index item) v) node.id
          c.executed.length index items visits outcome ∧
        x = ⟨blocks.reverse.flatten ++ visits.flatMap Visited.results,
          outcome.map fun rest => .arr (outputs.reverse ++ rest)⟩ := by
  induction items generalizing index blocks outputs with
  | nil =>
      rw [iterate, Setting.ends_done]
      constructor
      · rintro rfl
        exact ⟨[], _, .done index, by simp [Except.map]⟩
      · rintro ⟨visits, outcome, ⟨⟩, rfl⟩
        simp [Except.map]
  | cons item rest ih =>
      rw [iterate_cons, Setting.ends_bind (forItem_returns hvisit hc config index item)]
      constructor
      · rintro ⟨visited, hvisited, hx⟩
        rw [afterItem] at hx
        cases hending : visited.ending with
        | error failure =>
            simp only [hending, Setting.ends_done] at hx
            exact ⟨[visited], _, .failed hvisited hending, by rw [← hx]; simp [Except.map]⟩
        | ok last =>
            simp only [hending, ih] at hx
            obtain ⟨visits, outcome, hmapped, rfl⟩ := hx
            refine ⟨visited :: visits, _, .went hvisited hending hmapped, ?_⟩
            cases outcome <;> simp [Except.map]
      · rintro ⟨visits, outcome, hmapped, rfl⟩
        cases hmapped with
        | @failed _ _ _ visited failure hvisited hending =>
            refine ⟨visited, hvisited, ?_⟩
            simp only [afterItem, hending, Setting.ends_done]
            simp [Except.map]
        | @went _ _ _ visited last visits outcome hvisited hending hmapped =>
            refine ⟨visited, hvisited, ?_⟩
            simp only [afterItem, hending, ih]
            refine ⟨visits, outcome, hmapped, ?_⟩
            cases outcome <;> simp [Except.map]

section

variable {ends : Nat → Json → Visited → Prop} {nodeId : String} {baseline index : Nat}
  {items outputs : List Json} {visits : List Visited} {e : RunError}

/-- A loop that does not fail has a visit and an output for each of its items, in their order. -/
theorem mapped_ok_iff :
    Mapped ends nodeId baseline index items visits (.ok outputs) ↔
      visits.length = items.length ∧ outputs.length = items.length ∧
      ∀ (i : Nat) item v output, items[i]? = some item → visits[i]? = some v →
        outputs[i]? = some output → ends (index + i) item v ∧
          ∃ last, v.ending = .ok last ∧ output = (last.lastOutputSince baseline).getD item := by
  induction items generalizing index visits outputs with
  | nil =>
      constructor
      · rintro ⟨⟩
        simp
      · rintro ⟨hvisits, houtputs, -⟩
        rw [List.length_nil, List.length_eq_zero_iff] at hvisits houtputs
        rw [hvisits, houtputs]
        exact .done index
  | cons item rest ih =>
      have hshift (n : Nat) : index + (n + 1) = index + 1 + n := by omega
      constructor
      · generalize houtcome : (.ok outputs : Except RunError (List Json)) = outcome
        intro h
        cases h with
        | failed _ _ => cases houtcome
        | @went _ _ _ visited last visits outcome hvisited hending hmapped =>
            cases outcome with
            | error e => cases houtcome
            | ok more =>
                obtain rfl := Except.ok.inj houtcome
                obtain ⟨hvisits, houtputs, hall⟩ := ih.mp hmapped
                refine ⟨by simp [hvisits], by simp [houtputs], fun i item' v output => ?_⟩
                cases i with
                | zero =>
                    rintro ⟨⟩ ⟨⟩ ⟨⟩
                    exact ⟨hvisited, last, hending, rfl⟩
                | succ i =>
                    intro hi hv ho
                    rw [hshift]
                    exact hall i item' v output hi hv ho
      · rintro ⟨hvisits, houtputs, hall⟩
        obtain ⟨v, visits, rfl⟩ := List.exists_cons_of_length_eq_add_one hvisits
        obtain ⟨output, more, rfl⟩ := List.exists_cons_of_length_eq_add_one houtputs
        obtain ⟨hv, last, hending, rfl⟩ := hall 0 item v output rfl rfl rfl
        have hmore : Mapped ends nodeId baseline (index + 1) rest visits (.ok more) := by
          refine ih.mpr ⟨by simpa using hvisits, by simpa using houtputs, ?_⟩
          intro i item' v' output' hi hv' ho
          rw [← hshift]
          exact hall (i + 1) item' v' output' hi hv' ho
        exact .went hv hending hmore

/-- A loop that fails has a visit for each of its items before the first for which the body fails,
and one for that. -/
theorem Mapped.exists_failed (h : Mapped ends nodeId baseline index items visits (.error e)) :
    ∃ before item after done v failure, items = before ++ item :: after ∧
      visits = done ++ [v] ∧ done.length = before.length ∧
      (∀ (i : Nat) item v, before[i]? = some item → done[i]? = some v →
        ends (index + i) item v ∧ ∃ last, v.ending = .ok last) ∧
      ends (index + before.length) item v ∧ v.ending = .error failure ∧
      e = .loopIteration nodeId (index + before.length) failure.error := by
  generalize houtcome : (.error e : Except RunError (List Json)) = outcome at h
  induction h generalizing e with
  | done index => cases houtcome
  | @failed index first rest visited failure hvisited hending =>
      obtain rfl := Except.error.inj houtcome
      exact ⟨[], first, rest, [], visited, failure, rfl, rfl, rfl, by simp, hvisited, hending, rfl⟩
  | @went index first rest visited last visits outcome hvisited hending _ ih =>
      cases outcome with
      | ok more => cases houtcome
      | error e' =>
          obtain rfl : e = e' := Except.error.inj houtcome
          obtain ⟨before, item, after, done, v, failure, rfl, rfl, hlength, hbefore, hv, hfailed,
            rfl⟩ := ih rfl
          have hshift (n : Nat) : index + (n + 1) = index + 1 + n := by omega
          refine ⟨first :: before, item, after, visited :: done, v, failure, rfl, rfl,
            by simp [hlength], ?_, ?_, hfailed, ?_⟩
          · intro i item' v' hi hv'
            cases i with
            | zero =>
                obtain rfl := Option.some.inj hi
                obtain rfl := Option.some.inj hv'
                exact ⟨hvisited, last, hending⟩
            | succ i =>
                rw [hshift]
                exact hbefore i item' v' hi hv'
          · rwa [List.length_cons, hshift]
          · rw [List.length_cons, hshift before.length]

theorem Mapped.of_failed {before after : List Json} {item : Json} {done : List Visited}
    {v : Visited} {failure : PathFailure} (hlength : done.length = before.length)
    (hbefore : ∀ (i : Nat) item v, before[i]? = some item → done[i]? = some v →
      ends (index + i) item v ∧ ∃ last, v.ending = .ok last)
    (hv : ends (index + before.length) item v) (hfailed : v.ending = .error failure) :
    Mapped ends nodeId baseline index (before ++ item :: after) (done ++ [v])
      (.error (.loopIteration nodeId (index + before.length) failure.error)) := by
  induction before generalizing index done with
  | nil =>
      obtain rfl := List.length_eq_zero_iff.mp hlength
      exact .failed hv hfailed
  | cons first before ih =>
      have hshift (n : Nat) : index + (n + 1) = index + 1 + n := by omega
      obtain ⟨d, done, rfl⟩ := List.exists_cons_of_length_eq_add_one hlength
      obtain ⟨hd, last, hending⟩ := hbefore 0 first d rfl rfl
      rw [List.length_cons, hshift] at hv ⊢
      refine .went hd hending (ih (by simpa using hlength) (fun i item' v' hi hv' => ?_) hv)
      rw [← hshift]
      exact hbefore (i + 1) item' v' hi hv'

end

/-- What comes of a loop over items, if it is known what may come of its body for each index and
item. If the body fails for none there is an output for each item, in their order, and the results
are those for all items; otherwise the first for which it fails gives its failure, and the results
are those for the items up to it. -/
inductive Looped (ends : Nat → Json → Visited → Prop) (nodeId : String) (baseline : Nat) :
    List Json → Executed → Prop where
  | mapped {items outputs : List Json} {visits : List Visited} :
      visits.length = items.length → outputs.length = items.length →
      (∀ (i : Nat) item v output, items[i]? = some item → visits[i]? = some v →
        outputs[i]? = some output → ends i item v ∧
          ∃ last, v.ending = .ok last ∧ output = (last.lastOutputSince baseline).getD item) →
      Looped ends nodeId baseline items ⟨visits.flatMap Visited.results, .ok (.arr outputs)⟩
  | failed {before after : List Json} {item : Json} {visits : List Visited} {v : Visited}
      {failure : PathFailure} :
      visits.length = before.length →
      (∀ (i : Nat) item v, before[i]? = some item → visits[i]? = some v →
        ends i item v ∧ ∃ last, v.ending = .ok last) →
      ends before.length item v → v.ending = .error failure →
      Looped ends nodeId baseline (before ++ item :: after)
        ⟨(visits ++ [v]).flatMap Visited.results,
          .error (.loopIteration nodeId before.length failure.error)⟩

theorem looped_iff {ends : Nat → Json → Visited → Prop} {nodeId : String} {baseline : Nat}
    {items : List Json} {x : Executed} :
    Looped ends nodeId baseline items x ↔ ∃ visits outcome,
      Mapped ends nodeId baseline 0 items visits outcome ∧
      x = ⟨visits.flatMap Visited.results, outcome.map Json.arr⟩ := by
  constructor
  · rintro (⟨hvisits, houtputs, hall⟩ | ⟨hlength, hbefore, hv, hfailed⟩)
    · refine ⟨_, _, mapped_ok_iff.mpr ⟨hvisits, houtputs, ?_⟩, rfl⟩
      simpa only [Nat.zero_add] using hall
    · refine ⟨_, _, Mapped.of_failed hlength ?_ ?_ hfailed, ?_⟩
      · simpa only [Nat.zero_add] using hbefore
      · simpa only [Nat.zero_add] using hv
      · rw [Nat.zero_add]
        rfl
  · rintro ⟨visits, e | outputs, hmapped, rfl⟩
    · obtain ⟨before, item, after, done, v, failure, rfl, rfl, hlength, hbefore, hv, hfailed,
        rfl⟩ := hmapped.exists_failed
      simp only [Nat.zero_add] at hbefore hv ⊢
      exact .failed hlength hbefore hv hfailed
    · obtain ⟨hvisits, houtputs, hall⟩ := mapped_ok_iff.mp hmapped
      simp only [Nat.zero_add] at hall
      exact .mapped hvisits houtputs hall

/-! ### Where a loop stands -/

/-- A loop over items stands in the body for one of them: what is left of it is what is left of the
body for that item, and then what is done after it.  For each item before, the body has come to an
end without a failure. -/
def StandsInItem (k : Setting) (w : Walk H) (visit : Visitor H) (node : Node) (config : LoopConfig)
    (c : Context) (r : Role) (index : Nat) (items : List Json) (p : Proc (Call H) Executed)
    (t : Scene) : Prop :=
  ∃ before item after, items = before ++ item :: after ∧
    (∀ (i : Nat) item, before[i]? = some item → ∃ v last,
      k.Ends (w.forItem visit node config c (index + i) item) v ∧ v.ending = .ok last) ∧
    ∃ s q blocks outputs, k.Holds s ∧
      k.Goes r ((w.forItem visit node config c (index + before.length) item).patient, s) (q, t) ∧
      p = q.bind fun v => (w.afterItem visit node config c (index + before.length) item after blocks
        outputs v).patient

theorem goes_of_iterate (hvisit : k.Leads visit) (hc : c.executionId = k.execution)
    {config : LoopConfig} {index : Nat} {items : List Json} {blocks : List (List NodeResult)}
    {outputs : List Json} {r : Role} {s t : Scene} {p : Proc (Call H) Executed} (hs : k.Holds s)
    (hgoes : k.Goes r ((iterate visit node.id config (w.bodyEdges node) c index items blocks
      outputs).patient, s) (p, t)) :
    (∃ x, p = .done x) ∨ StandsInItem k w visit node config c r index items p t := by
  induction items generalizing index blocks outputs s with
  | nil => exact .inl ⟨_, eq_done_of_goes hgoes⟩
  | cons first rest ih =>
      have hshift (n : Nat) : index + (n + 1) = index + 1 + n := by omega
      rw [iterate_cons, patient_bind] at hgoes
      have hfirst : k.Settles (w.forItem visit node config c index first) fun v =>
          v.IsOf k.execution := forItem_returns hvisit hc config index first
      rcases goes_of_bind hgoes with ⟨q, hq, rfl⟩ | ⟨v, u, hv, hrest⟩
      · exact .inr ⟨[], first, rest, rfl, by simp, s, q, blocks, outputs, hs, hq, rfl⟩
      · have hu := (hfirst.goes hs hv).1
        rw [afterItem] at hrest
        cases hending : v.ending with
        | error failure =>
            simp only [hending] at hrest
            exact .inl ⟨_, eq_done_of_goes hrest⟩
        | ok last =>
            simp only [hending] at hrest
            rcases ih hu hrest with hdone | ⟨before, item, after, rfl, hbefore, hstands⟩
            · exact .inl hdone
            · refine .inr ⟨first :: before, item, after, rfl, fun i item' hi => ?_, ?_⟩
              · cases i with
                | zero =>
                    obtain rfl := Option.some.inj hi
                    exact ⟨v, last, ⟨r, s, u, hs, hv⟩, hending⟩
                | succ i =>
                    rw [hshift]
                    exact hbefore i item' hi
              · rwa [List.length_cons, hshift]

/-- A loop is a map that fails fast.  For each index and item its body begins in the context of the
loop with the two bound, and comes to what it may come to by itself; whatever the bodies may come to
by themselves, the loop comes to what is made up of that, and it does come to an end.  Until then it
stands in the body for an item before which none has failed, so that nothing is begun behind one for
which the body fails.  Unless the workflow asks for the time, all that the body may come to for an
index and item is one and the same but for the times that are noted, and so is what the loop comes
to. -/
theorem runLoop_maps (hk : k.Suits w) (room : Nat) (node : Node) (hc : c.executionId = k.execution)
    {config : LoopConfig} (hconfig : node.read LoopConfig.decoder = .ok config) {items : List Json}
    {now : Time.Instant} (hitems : w.items node.id config c now = .ok items) :
    (∀ x, k.Ends (w.runLoop (w.visit room) node c now) x ↔
      Looped (fun i item v => k.Ends (w.forItem (w.visit room) node config c i item) v) node.id
        c.executed.length items x) ∧
    (∀ r s p t, k.Holds s → k.Goes r ((w.runLoop (w.visit room) node c now).patient, s) (p, t) →
      (∃ x t', k.Goes r (p, t) (.done x, t')) ∧
      ((∃ x, p = .done x) ∨ StandsInItem k w (w.visit room) node config c r 0 items p t)) ∧
    (k.Timeless w.workflow →
      (∃ block : Nat → Json → Visited, ∀ i item v,
        k.Ends (w.forItem (w.visit room) node config c i item) v → v.untimed = block i item) ∧
      ∃ x₀ : Executed, ∀ x, k.Ends (w.runLoop (w.visit room) node c now) x → x.untimed = x₀) := by
  have hvisit := visit_leads hk room
  have hloop : w.runLoop (w.visit room) node c now =
      iterate (w.visit room) node.id config (w.bodyEdges node) c 0 items [] [] := by
    simp only [runLoop, hconfig, hitems]
    rfl
  refine ⟨fun x => ?_, fun r s p t hs hgoes => ⟨?_, ?_⟩, fun ht => ?_⟩
  · rw [hloop, ends_iterate hvisit hc, looped_iff]
    rfl
  · have hreturns : k.Settles (w.runLoop (w.visit room) node c now) fun _ => True :=
      runLoop_returns hvisit hc now
    obtain ⟨x, t', hx, -⟩ := hreturns.can_end (Setting.answered hk.clock) hs hgoes
    exact ⟨x, t', hx⟩
  · rw [hloop] at hgoes
    exact goes_of_iterate hvisit hc hs hgoes
  · obtain ⟨block, hblock⟩ := body_settles hk ht (visit_fixes hk ht room)
      (fun _ => mem_edges_of_bodyEdges node) hc config
    obtain ⟨x₀, hx₀⟩ := runLoop_settles hk ht (visit_fixes hk ht room) node hc
    exact ⟨⟨block, fun i item v hv => (hblock i item).ends hv⟩, x₀, fun x hx => (hx₀ now).ends hx⟩

/-- A loop with a primitive in its body comes to an end over two items, to two outputs or to the
failure for one of them, whatever the clock shows. -/
theorem looping_maps :
    let item : Json := .obj [("type", .str "reference"), ("path", .str "variables.item")]
    let each : Node := ⟨"each", .loop, none, .obj [("collection", .str "trigger")]⟩
    let step : Node := ⟨"step", .primitive, none,
      .obj [("primitive", .str "echo"), ("input_mapping", .obj [("item", item)])]⟩
    let d : Definition := .create ⟨0⟩ "repeating" .manual
      [⟨"start", .trigger, none, .null⟩, each, step]
      [⟨"start", "each", none, none⟩, ⟨"each", "step", some bodyHandle, none⟩]
    let w : Walk Empty := ⟨d, Setting.echoAdapter, 2⟩
    let k := Setting.echoing
    let p := w.runLoop (w.visit 3) each loopingStart ⟨0, 0⟩
    k.Suits w ∧ (∃ x, k.Ends p x) ∧
      (∀ x, k.Ends p x → (∃ outputs, outputs.length = 2 ∧ x.outcome = .ok (.arr outputs)) ∨
        ∃ i cause, i < 2 ∧ x.outcome = .error (.loopIteration "each" i cause)) ∧
      ∃ x₀ : Executed, ∀ x, k.Ends p x → x.untimed = x₀ := by
  intro item each step d w k p
  have hk : k.Suits w := Setting.echoing_suits d 2
  have ht : k.Timeless d := k.timeless_of_asksTime (by rfl)
  have hconfig : each.read LoopConfig.decoder = .ok ⟨"trigger", "item", none⟩ := by rfl
  have hread : w.items each.id ⟨"trigger", "item", none⟩ loopingStart ⟨0, 0⟩ =
      .ok [.null, .null] := by rfl
  obtain ⟨hends, hgoes, hunique⟩ := runLoop_maps hk 3 each rfl hconfig hread
  obtain ⟨s, hs⟩ := k.exists_holds
  obtain ⟨x, t, hx⟩ := (hgoes .owner s _ s hs .refl).1
  refine ⟨hk, ⟨x, .owner, s, t, hs, hx⟩, fun x hx => ?_, (hunique ht).2⟩
  have hlooped := (hends x).mp hx
  generalize hitems : ([.null, .null] : List Json) = items at hlooped
  cases hlooped with
  | mapped _ houtputs _ => exact .inl ⟨_, by rw [houtputs, ← hitems]; rfl, rfl⟩
  | @failed before after item visits v failure _ _ _ _ =>
      have hlength := congrArg List.length hitems
      simp only [List.length_append, List.length_cons, List.length_nil] at hlength
      exact .inr ⟨before.length, failure.error, by omega, rfl⟩

end Walk

end Workflow
