import Workflow.Proofs.Process.Yields
import Workflow.Run.Visit

/-!
# The course of a walk

What may come of each part of a walk is said once, by the cases that its text has: edges are passed
over, gone along until one fails, or all gone along; the items of a loop likewise; a node is
skipped, fails, or has an output and is left by its edges.  The visits of the targets of edges are
left open, so that each law of a walk is an induction on one list, and an induction on the room
around it.
-/

namespace Workflow

variable {H : Type}

namespace RunError

/-- A failure that a node may have of its own. -/
def IsOwn : RunError → Prop
  | .invalidConfig _ _ => True
  | .notList _ _ => True
  | .primitive _ _ => True
  | .cancelled => True
  | _ => False

/-- The failure that loops and parallel nodes have wrapped. -/
def root : RunError → RunError
  | .loopIteration _ _ cause => cause.root
  | .parallelBranch _ _ cause => cause.root
  | e => e

theorem IsOwn.root {e : RunError} (h : e.IsOwn) : e.root = e := by
  cases e <;> first | rfl | exact h.elim

end RunError

theorem Definition.id_of_node? {d : Definition} {id : String} {node : Node}
    (h : d.node? id = some node) : node.id = id := by
  simpa using List.find?_some h

theorem Definition.mem_of_node? {d : Definition} {id : String} {node : Node}
    (h : d.node? id = some node) : node ∈ d.nodes := List.mem_of_find?_eq_some h

namespace Walk

variable {w : Walk H} {visit : Visitor H} {choose : Edge → Context → Proc (Call H) Bool}
  {node : Node} {c : Context} {now : Time.Instant}

/-! ### Edges -/

/-- What may come of following edges. -/
inductive Followed (visit : Visitor H) (choose : Edge → Context → Proc (Call H) Bool) :
    List Edge → Context → Visited → Prop where
  | done (c : Context) : Followed visit choose [] c ⟨[], .ok c⟩
  | passed {e : Edge} {rest : List Edge} {c : Context} {v : Visited} :
      (choose e c).Yields false → Followed visit choose rest c v →
        Followed visit choose (e :: rest) c v
  | went {e : Edge} {rest : List Edge} {c c' : Context} {results : List NodeResult} {v : Visited} :
      (choose e c).Yields true → (visit e.target c).Yields ⟨results, .ok c'⟩ →
        Followed visit choose rest c' v →
          Followed visit choose (e :: rest) c ⟨results ++ v.results, v.ending⟩
  | failed {e : Edge} {rest : List Edge} {c : Context} {results : List NodeResult}
      {failure : PathFailure} :
      (choose e c).Yields true → (visit e.target c).Yields ⟨results, .error failure⟩ →
        Followed visit choose (e :: rest) c ⟨results, .error failure⟩

theorem follow_yields {edges : List Edge} {results : List NodeResult} {v : Visited}
    (h : (follow visit choose edges c results).Yields v) :
    ∃ v', Followed visit choose edges c v' ∧ v = ⟨results ++ v'.results, v'.ending⟩ := by
  induction edges generalizing c results with
  | nil =>
      obtain rfl := Proc.yields_done.mp h
      exact ⟨⟨[], .ok c⟩, .done c, by simp⟩
  | cons e rest ih =>
      rw [follow, Proc.yields_bind] at h
      obtain ⟨chosen, hchosen, h⟩ := h
      cases chosen with
      | false =>
          obtain ⟨v', hv', rfl⟩ := ih h
          exact ⟨v', .passed hchosen hv', rfl⟩
      | true =>
          simp only [if_true, Proc.yields_bind] at h
          obtain ⟨⟨inner, failure | c'⟩, hvisited, h⟩ := h
          · obtain rfl := Proc.yields_done.mp h
            exact ⟨⟨inner, .error failure⟩, .failed hchosen hvisited, rfl⟩
          · obtain ⟨v', hv', rfl⟩ := ih h
            exact ⟨_, .went hchosen hvisited hv', by simp⟩

namespace Followed

/-- A failure comes from one of the edges, after those before it did not fail. -/
theorem split_error {edges : List Edge} {results : List NodeResult} {failure : PathFailure}
    (h : Followed visit choose edges c ⟨results, .error failure⟩) :
    ∃ before e after c' first last, edges = before ++ e :: after ∧
      Followed visit choose before c ⟨first, .ok c'⟩ ∧ (choose e c').Yields true ∧
      (visit e.target c').Yields ⟨last, .error failure⟩ ∧ results = first ++ last := by
  generalize hv : (⟨results, .error failure⟩ : Visited) = v at h
  induction h generalizing results with
  | done c => simp at hv
  | @passed e rest c v hchosen _ ih =>
      obtain ⟨before, e', after, c', first, last, rfl, hbefore, hrest⟩ := ih hv
      exact ⟨e :: before, e', after, c', first, last, rfl, .passed hchosen hbefore, hrest⟩
  | @went e rest c c₁ inner v hchosen hvisited _ ih =>
      obtain ⟨rfl, hending⟩ := Visited.mk.inj hv
      have hv' : (⟨v.results, .error failure⟩ : Visited) = v := by rw [hending]
      obtain ⟨before, e', after, c', first, last, rfl, hbefore, hchosen', hfailed, hsplit⟩ := ih hv'
      refine ⟨e :: before, e', after, c', inner ++ first, last, rfl, ?_, hchosen', hfailed, ?_⟩
      · exact .went hchosen hvisited hbefore
      · rw [hsplit, List.append_assoc]
  | @failed e rest c inner failure' hchosen hvisited =>
      obtain ⟨rfl, hending⟩ := Visited.mk.inj hv
      obtain rfl := Except.error.inj hending
      exact ⟨[], e, rest, c, [], results, rfl, .done c, hchosen, hvisited, rfl⟩

end Followed

theorem guardHolds_yields {e : Edge} (hguard : e.guard = none) {holds : Bool}
    (h : (guardHolds e c : Proc (Call H) Bool).Yields holds) : holds = true := by
  rw [guardHolds, hguard] at h
  exact (Proc.yields_done.mp h).symm

theorem isOpen_of_follows {e : Edge} {output : Json}
    (h : (follows node output e c : Proc (Call H) Bool).Yields true) :
    e.isOpen node output = true := by
  rw [follows] at h
  split at h
  · assumption
  · cases Proc.yields_done.mp h

theorem follows_yields {e : Edge} {output : Json} (hopen : e.isOpen node output = true)
    (hguard : e.guard = none) {chosen : Bool}
    (h : (follows node output e c : Proc (Call H) Bool).Yields chosen) : chosen = true := by
  rw [follows, if_pos hopen] at h
  exact guardHolds_yields hguard h

/-! ### Items -/

/-- What may come of the items of a loop, each with its own block of results. -/
inductive Iterated (visit : Visitor H) (nodeId : String) (config : LoopConfig) (body : List Edge)
    (c : Context) :
    Nat → List Json → List (List NodeResult) → Except RunError (List Json) → Prop where
  | done (index : Nat) : Iterated visit nodeId config body c index [] [] (.ok [])
  | went {index : Nat} {item : Json} {rest : List Json} {block : List NodeResult} {last : Context}
      {blocks : List (List NodeResult)} {outcome : Except RunError (List Json)} :
      Followed visit guardHolds body
          (c.withItem config.itemVariable item config.indexVariable index) ⟨block, .ok last⟩ →
        Iterated visit nodeId config body c (index + 1) rest blocks outcome →
          Iterated visit nodeId config body c index (item :: rest) (block :: blocks)
            (outcome.map ((last.lastOutputSince c.executed.length).getD item :: ·))
  | failed {index : Nat} {item : Json} {rest : List Json} {block : List NodeResult}
      {failure : PathFailure} :
      Followed visit guardHolds body
          (c.withItem config.itemVariable item config.indexVariable index)
          ⟨block, .error failure⟩ →
        Iterated visit nodeId config body c index (item :: rest) [block]
          (.error (.loopIteration nodeId index failure.error))

theorem iterate_yields {nodeId : String} {config : LoopConfig} {body : List Edge} {index : Nat}
    {items outputs : List Json} {blocks : List (List NodeResult)} {x : Executed}
    (h : (iterate visit nodeId config body c index items blocks outputs).Yields x) :
    ∃ more outcome, Iterated visit nodeId config body c index items more outcome ∧
      x = ⟨blocks.reverse.flatten ++ more.flatten,
        outcome.map fun rest => .arr (outputs.reverse ++ rest)⟩ := by
  induction items generalizing index blocks outputs with
  | nil =>
      obtain rfl := Proc.yields_done.mp h
      exact ⟨[], .ok [], .done index, by simp [Except.map]⟩
  | cons item rest ih =>
      rw [iterate, Proc.yields_bind] at h
      obtain ⟨visited, hvisited, h⟩ := h
      obtain ⟨⟨block, failure | last⟩, hblock, rfl⟩ := follow_yields hvisited
      · obtain rfl := Proc.yields_done.mp h
        exact ⟨[block], _, .failed hblock, by simp [Except.map]⟩
      · obtain ⟨more, outcome, hrest, rfl⟩ := ih h
        refine ⟨block :: more, _, .went hblock hrest, ?_⟩
        cases outcome <;> simp [Except.map]

namespace Iterated

variable {nodeId : String} {config : LoopConfig} {body : List Edge} {index : Nat}
  {items : List Json} {blocks : List (List NodeResult)}

theorem followed_of_ok {outputs : List Json}
    (h : Iterated visit nodeId config body c index items blocks (.ok outputs)) :
    ∀ block ∈ blocks, ∃ start last, Followed visit guardHolds body start ⟨block, .ok last⟩ := by
  generalize houtcome : (.ok outputs : Except RunError (List Json)) = outcome at h
  induction h generalizing outputs with
  | done => simp
  | @went index item rest block last blocks outcome hblock _ ih =>
      cases outcome with
      | error e => cases houtcome
      | ok rest =>
          rintro b (_ | ⟨_, hb⟩)
          · exact ⟨_, last, hblock⟩
          · exact ih rfl b hb
  | failed => cases houtcome

/-- A loop fails with the failure of its last block. -/
theorem split_error {e : RunError}
    (h : Iterated visit nodeId config body c index items blocks (.error e)) :
    ∃ before block start i failure, blocks = before ++ [block] ∧
      (∀ b ∈ before, ∃ start last, Followed visit guardHolds body start ⟨b, .ok last⟩) ∧
      Followed visit guardHolds body start ⟨block, .error failure⟩ ∧
      e = .loopIteration nodeId i failure.error := by
  generalize houtcome : (.error e : Except RunError (List Json)) = outcome at h
  induction h with
  | done => cases houtcome
  | @went index item rest block last blocks outcome hblock _ ih =>
      cases outcome with
      | ok rest => cases houtcome
      | error e' =>
          obtain rfl : e = e' := Except.error.inj houtcome
          obtain ⟨before, block', start, i, failure, rfl, hbefore, hfailed, rfl⟩ := ih rfl
          refine ⟨block :: before, block', start, i, failure, rfl, ?_, hfailed, rfl⟩
          rintro b (_ | ⟨_, hb⟩)
          · exact ⟨_, last, hblock⟩
          · exact hbefore b hb
  | @failed index item rest block failure hblock =>
      obtain rfl := Except.error.inj houtcome
      exact ⟨[], block, _, index, failure, rfl, by simp, hblock, rfl⟩

end Iterated

/-! ### Branches -/

section

variable {nodeId : String} {baseline : Nat} {branches : List (Edge × Visited)}

theorem ok_of_gather {outputs : List Json} (h : gather nodeId baseline branches = .ok outputs) :
    ∀ b ∈ branches, ∃ c, b.2.ending = .ok c := by
  induction branches generalizing outputs with
  | nil => simp
  | cons b rest ih =>
      obtain ⟨e, results, failure | last⟩ := b
      · cases h
      · rw [gather] at h
        cases hrest : gather nodeId baseline rest with
        | error e => simp only [hrest] at h; cases h
        | ok outputs =>
            rintro b (_ | ⟨_, hb⟩)
            · exact ⟨last, rfl⟩
            · exact ih hrest b hb

theorem failed_of_gather {e : RunError} (h : gather nodeId baseline branches = .error e) :
    ∃ b ∈ branches, ∃ failure, b.2.ending = .error failure ∧
      e = .parallelBranch nodeId b.1.target failure.error := by
  induction branches with
  | nil => cases h
  | cons b rest ih =>
      obtain ⟨edge, results, failure | last⟩ := b
      · cases h
        exact ⟨_, List.mem_cons_self, failure, rfl, rfl⟩
      · rw [gather] at h
        cases hrest : gather nodeId baseline rest with
        | ok outputs => simp only [hrest] at h; cases h
        | error e' =>
            simp only [hrest] at h
            cases h
            obtain ⟨b, hb, hfailed⟩ := ih hrest
            exact ⟨b, List.mem_cons_of_mem _ hb, hfailed⟩

end

/-! ### Nodes -/

/-- An outcome that does not fail but for a failure of the node's own. -/
def IsOwn (outcome : Except RunError Json) : Prop := ∀ e, outcome = .error e → e.IsOwn

theorem isOwn_ok (output : Json) : IsOwn (.ok output) := by
  rintro e ⟨⟩

theorem isOwn_error {e : RunError} (h : e.IsOwn) : IsOwn (.error e) := by
  rintro e' ⟨⟩
  exact h

/-- What may come of a node: an outcome of its own, or what came of the nodes in the body of a loop
or on the branches of a parallel node. -/
inductive Ran (w : Walk H) (visit : Visitor H) (node : Node) (c : Context) : Executed → Prop where
  | alone {outcome : Except RunError Json} : IsOwn outcome → Ran w visit node c ⟨[], outcome⟩
  | loop {config : LoopConfig} {now : Time.Instant} {items : List Json}
      {blocks : List (List NodeResult)} {outcome : Except RunError (List Json)} :
      node.type = .loop → node.read LoopConfig.decoder = .ok config →
        w.items node.id config c now = .ok items →
        Iterated visit node.id config
            ((w.workflow.outgoing node.id).filter fun e => e.handle = some bodyHandle) c 0 items
            blocks outcome →
          Ran w visit node c ⟨blocks.flatten, outcome.map Json.arr⟩
  | parallel {branches : List Edge} {visits : List Visited} :
      node.type = .parallel →
        (chosen c ((w.workflow.outgoing node.id).filter fun e =>
          (w.workflow.node? e.target).isSome) : Proc (Call H) (List Edge)).Yields branches →
        List.Forall₂ (fun e v => (visit e.target c).Yields v) branches visits →
          Ran w visit node c ⟨visits.flatMap Visited.results,
            (gather node.id c.executed.length (branches.zip visits)).map Json.arr⟩

namespace Ran

variable {inner : List NodeResult}

/-- A node fails for a reason of its own, or since something inside it has failed. -/
theorem error_cases {e : RunError} (h : Ran w visit node c ⟨inner, .error e⟩) :
    (inner = [] ∧ e.IsOwn) ∨
    (∃ (body : List Edge) (before : List (List NodeResult)) (block : List NodeResult)
        (start : Context) (i : Nat) (failure : PathFailure), node.type = .loop ∧
      body = (w.workflow.outgoing node.id).filter (fun e => e.handle = some bodyHandle) ∧
      inner = before.flatten ++ block ∧
      (∀ b ∈ before, ∃ start last, Followed visit guardHolds body start ⟨b, .ok last⟩) ∧
      Followed visit guardHolds body start ⟨block, .error failure⟩ ∧
      e = .loopIteration node.id i failure.error) ∨
    ∃ (edge : Edge) (results : List NodeResult) (failure : PathFailure), node.type = .parallel ∧
      (visit edge.target c).Yields ⟨results, .error failure⟩ ∧
      e = .parallelBranch node.id edge.target failure.error := by
  generalize hx : (⟨inner, .error e⟩ : Executed) = x at h
  cases h with
  | alone hown =>
      obtain ⟨rfl, rfl⟩ := Executed.mk.inj hx
      exact .inl ⟨rfl, hown e rfl⟩
  | @loop config now items blocks outcome htype _ _ hiterated =>
      obtain ⟨rfl, houtcome⟩ := Executed.mk.inj hx
      cases outcome with
      | ok outputs => cases houtcome
      | error e' =>
          obtain rfl : e = e' := Except.error.inj houtcome
          obtain ⟨before, block, start, i, failure, rfl, hbefore, hblock, rfl⟩ :=
            hiterated.split_error
          exact .inr (.inl ⟨_, before, block, start, i, failure, htype, rfl, by simp, hbefore,
            hblock, rfl⟩)
  | @parallel branches visits htype _ hvisits =>
      obtain ⟨-, houtcome⟩ := Executed.mk.inj hx
      cases hgather : gather node.id c.executed.length (branches.zip visits) with
      | ok outputs => rw [hgather] at houtcome; cases houtcome
      | error e' =>
          rw [hgather] at houtcome
          obtain rfl : e = e' := Except.error.inj houtcome
          obtain ⟨⟨edge, visited⟩, hb, failure, hfailed, rfl⟩ := failed_of_gather hgather
          have hvisited := (List.forall₂_iff_zip.mp hvisits).2 hb
          obtain ⟨results, ending⟩ := visited
          obtain rfl : ending = .error failure := hfailed
          exact .inr (.inr ⟨edge, results, failure, htype, hvisited, rfl⟩)

/-- What is inside a node that does not fail did not fail either. -/
theorem ok_cases {output : Json} (h : Ran w visit node c ⟨inner, .ok output⟩) :
    inner = [] ∨
    (∃ body blocks, node.type = .loop ∧ inner = List.flatten blocks ∧
      ∀ b ∈ blocks, ∃ start last, Followed visit guardHolds body start ⟨b, .ok last⟩) ∨
    ∃ visits, node.type = .parallel ∧ inner = List.flatMap Visited.results visits ∧
      ∀ v ∈ visits, ∃ target last, (visit target c).Yields v ∧ v.ending = .ok last := by
  generalize hx : (⟨inner, .ok output⟩ : Executed) = x at h
  cases h with
  | alone _ =>
      obtain ⟨rfl, -⟩ := Executed.mk.inj hx
      exact .inl rfl
  | @loop config now items blocks outcome htype _ _ hiterated =>
      obtain ⟨rfl, houtcome⟩ := Executed.mk.inj hx
      cases outcome with
      | error e => cases houtcome
      | ok outputs => exact .inr (.inl ⟨_, blocks, htype, rfl, hiterated.followed_of_ok⟩)
  | @parallel branches visits htype _ hvisits =>
      obtain ⟨rfl, houtcome⟩ := Executed.mk.inj hx
      cases hgather : gather node.id c.executed.length (branches.zip visits) with
      | error e => rw [hgather] at houtcome; cases houtcome
      | ok outputs =>
          refine .inr (.inr ⟨visits, htype, rfl, fun v hv => ?_⟩)
          obtain ⟨i, hi, rfl⟩ := List.mem_iff_getElem.mp hv
          have hlength := hvisits.length_eq
          have hb : (branches[i], visits[i]) ∈ branches.zip visits := by
            rw [List.mem_iff_getElem]
            exact ⟨i, by simp [hlength, hi], by simp⟩
          obtain ⟨last, hlast⟩ := ok_of_gather hgather _ hb
          exact ⟨_, last, (List.forall₂_iff_zip.mp hvisits).2 hb, hlast⟩

end Ran

theorem alone_yields {p : Proc (Call H) (Except RunError Json)} {x : Executed}
    (hp : ∀ outcome, p.Yields outcome → IsOwn outcome) (h : (alone p).Yields x) :
    Ran w visit node c x := by
  rw [alone, Proc.yields_bind] at h
  obtain ⟨outcome, houtcome, h⟩ := h
  obtain rfl := Proc.yields_done.mp h
  exact .alone (hp outcome houtcome)

theorem runPrimitive_yields {outcome : Except RunError Json}
    (h : (w.runPrimitive node c now).Yields outcome) : IsOwn outcome := by
  rw [runPrimitive] at h
  cases hconfig : node.read PrimitiveConfig.decoder with
  | error message =>
      simp only [hconfig, Proc.yields_done] at h
      exact h ▸ isOwn_error trivial
  | ok config =>
      simp only [hconfig] at h
      cases href : primitiveRef node.id config with
      | error e =>
          simp only [href, Proc.yields_done] at h
          have he : e.IsOwn := by
            rw [primitiveRef] at href
            split at href <;> cases href
            trivial
          exact h ▸ isOwn_error he
      | ok reference =>
          simp only [href, Proc.yields_bind, Proc.yields_done] at h
          obtain ⟨result, -, rfl⟩ := h
          obtain e | output := result
          · cases e <;> exact isOwn_error trivial
          · exact isOwn_ok output

theorem runDelay_yields {outcome : Except RunError Json}
    (h : (runDelay node c : Proc (Call H) (Except RunError Json)).Yields outcome) :
    IsOwn outcome := by
  rw [runDelay] at h
  cases hconfig : node.read DelayConfig.decoder with
  | error message =>
      simp only [hconfig, Proc.yields_done] at h
      exact h ▸ isOwn_error trivial
  | ok config =>
      simp only [hconfig] at h
      cases hnanos : config.nanos? with
      | none =>
          simp only [hnanos, Proc.yields_done] at h
          exact h ▸ isOwn_error trivial
      | some nanos =>
          simp only [hnanos] at h
          obtain ⟨elapsed, -, h⟩ := h
          obtain rfl := Proc.yields_done.mp h
          cases elapsed with
          | true => exact isOwn_ok _
          | false => exact isOwn_error trivial

theorem isOwn_of_items {nodeId : String} {config : LoopConfig} {e : RunError}
    (h : w.items nodeId config c now = .error e) : e.IsOwn := by
  simp only [items] at h
  split at h
  · split at h <;> cases h
    trivial
  · cases h
    trivial
  · cases h
    trivial

theorem runLoop_yields (htype : node.type = .loop) {x : Executed}
    (h : (w.runLoop visit node c now).Yields x) : Ran w visit node c x := by
  rw [runLoop] at h
  cases hconfig : node.read LoopConfig.decoder with
  | error message =>
      simp only [hconfig, Proc.yields_done] at h
      exact h ▸ .alone (isOwn_error trivial)
  | ok config =>
      simp only [hconfig] at h
      cases hitems : w.items node.id config c now with
      | error e =>
          simp only [hitems, Proc.yields_done] at h
          exact h ▸ .alone (isOwn_error (isOwn_of_items hitems))
      | ok items =>
          simp only [hitems] at h
          obtain ⟨blocks, outcome, hiterated, rfl⟩ := iterate_yields h
          exact .loop htype hconfig hitems hiterated

theorem runParallel_yields (htype : node.type = .parallel) {x : Executed}
    (h : (w.runParallel visit node c).Yields x) : Ran w visit node c x := by
  simp only [runParallel, Proc.yields_bind, Proc.yields_sideBySide, Proc.yields_done] at h
  obtain ⟨branches, hbranches, visits, hvisits, rfl⟩ := h
  exact .parallel htype hbranches (List.forall₂_map_left_iff.mp hvisits)

theorem execute_yields {x : Executed} (h : (w.execute visit node c now).Yields x) :
    Ran w visit node c x := by
  rw [execute] at h
  cases htype : node.type with
  | trigger =>
      simp only [htype, Proc.yields_done] at h
      exact h ▸ .alone (isOwn_ok _)
  | primitive =>
      simp only [htype] at h
      exact alone_yields (fun _ => runPrimitive_yields) h
  | condition =>
      simp only [htype, Proc.yields_done] at h
      subst h
      cases node.read conditionConfig with
      | ok condition => exact .alone (isOwn_ok _)
      | error message => exact .alone (isOwn_error trivial)
  | loop =>
      simp only [htype] at h
      exact runLoop_yields htype h
  | delay =>
      simp only [htype] at h
      exact alone_yields (fun _ => runDelay_yields) h
  | parallel =>
      simp only [htype] at h
      exact runParallel_yields htype h
  | output =>
      simp only [htype, Proc.yields_done] at h
      subst h
      cases node.read outputConfig with
      | ok mapping => exact .alone (isOwn_ok _)
      | error message => exact .alone (isOwn_error trivial)

/-! ### Visits -/

/-- What a visit does at a node of the workflow. -/
def arrive (w : Walk H) (visit : Visitor H) (node : Node) (c : Context) :
    Proc (Call H) Visited :=
  if c.hasExecuted node.id then .done ⟨[], .ok c⟩
  else
    .askClock fun startedAt =>
      .askHere (.isStopped c.executionId) fun stopped =>
        if stopped then w.proceed visit node c startedAt startedAt ⟨[], .error .cancelled⟩
        else
          (w.execute visit node c startedAt).bind fun executed =>
            .askClock fun finishedAt => w.proceed visit node c startedAt finishedAt executed

/-- What may come of a visit at a node: it is skipped, fails, or has an output and is left. -/
inductive Arrived (w : Walk H) (visit : Visitor H) (node : Node) (c : Context) :
    Visited → Prop where
  | skipped : c.hasExecuted node.id = true → Arrived w visit node c ⟨[], .ok c⟩
  | failed {inner : List NodeResult} {e : RunError} {startedAt : Time.Instant} {millis : Nat} :
      c.hasExecuted node.id = false → Ran w visit node c ⟨inner, .error e⟩ →
        Arrived w visit node c
          ⟨inner ++ [⟨node.id, node.type, .error e.message, startedAt, millis⟩],
            .error (failPath node.id e c)⟩
  | went {inner : List NodeResult} {output : Json} {startedAt : Time.Instant} {millis : Nat}
      {v : Visited} :
      c.hasExecuted node.id = false → Ran w visit node c ⟨inner, .ok output⟩ →
        Followed visit (follows node output) (w.workflow.outgoing node.id)
            (c.withOutput node.id output) v →
          Arrived w visit node c
            ⟨inner ++ ⟨node.id, node.type, .ok output, startedAt, millis⟩ :: v.results, v.ending⟩

/-- A visit fails at its own node, or after that at a node to which an edge leads. -/
theorem Arrived.error_cases {results : List NodeResult} {failure : PathFailure}
    (h : Arrived w visit node c ⟨results, .error failure⟩) :
    (∃ inner e startedAt millis, c.hasExecuted node.id = false ∧
      Ran w visit node c ⟨inner, .error e⟩ ∧
      results = inner ++ [⟨node.id, node.type, .error e.message, startedAt, millis⟩] ∧
      failure = failPath node.id e c) ∨
    ∃ inner output startedAt millis more, c.hasExecuted node.id = false ∧
      Ran w visit node c ⟨inner, .ok output⟩ ∧
      Followed visit (follows node output) (w.workflow.outgoing node.id)
        (c.withOutput node.id output) ⟨more, .error failure⟩ ∧
      results = inner ++ ⟨node.id, node.type, .ok output, startedAt, millis⟩ :: more := by
  generalize hv : (⟨results, .error failure⟩ : Visited) = v at h
  cases h with
  | skipped _ => simp at hv
  | @failed inner e startedAt millis hnew hran =>
      obtain ⟨rfl, hending⟩ := Visited.mk.inj hv
      obtain rfl := Except.error.inj hending
      exact .inl ⟨inner, e, startedAt, millis, hnew, hran, rfl, rfl⟩
  | @went inner output startedAt millis v hnew hran hleft =>
      obtain ⟨rfl, hending⟩ := Visited.mk.inj hv
      obtain ⟨more, ending⟩ := v
      obtain rfl : Except.error failure = ending := hending
      exact .inr ⟨inner, output, startedAt, millis, more, hnew, hran, hleft, rfl⟩

theorem proceed_yields (hnew : c.hasExecuted node.id = false)
    {startedAt finishedAt : Time.Instant} {x : Executed} (hran : Ran w visit node c x) {v : Visited}
    (h : (w.proceed visit node c startedAt finishedAt x).Yields v) : Arrived w visit node c v := by
  obtain ⟨inner, e | output⟩ := x
  · obtain rfl := Proc.yields_done.mp h
    exact .failed hnew hran
  · obtain ⟨v', hv', rfl⟩ := follow_yields h
    simpa using Arrived.went hnew hran hv'

theorem arrive_yields {v : Visited} (h : (w.arrive visit node c).Yields v) :
    Arrived w visit node c v := by
  rw [arrive] at h
  cases hnew : c.hasExecuted node.id with
  | true =>
      simp only [hnew, if_true, Proc.yields_done] at h
      exact h ▸ .skipped hnew
  | false =>
      simp only [hnew, Bool.false_eq_true, if_false] at h
      obtain ⟨startedAt, stopped, h⟩ := h
      cases stopped with
      | true => exact proceed_yields hnew (.alone (isOwn_error (e := .cancelled) trivial)) h
      | false =>
          simp only [Bool.false_eq_true, if_false, Proc.yields_bind] at h
          obtain ⟨x, hx, finishedAt, h⟩ := h
          exact proceed_yields hnew (execute_yields hx) h

theorem visit_succ (w : Walk H) (room : Nat) (nodeId : String) (c : Context) :
    w.visit (room + 1) nodeId c = match w.workflow.node? nodeId with
      | none => .done ⟨[], .error (failPath nodeId (.nodeNotFound nodeId) c)⟩
      | some node => w.arrive (w.visit room) node c := by
  rw [visit]
  cases hnode : w.workflow.node? nodeId with
  | none => rfl
  | some node =>
      obtain rfl := Definition.id_of_node? hnode
      rfl

end Walk

end Workflow
