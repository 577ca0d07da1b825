import Workflow.Proofs.Primitive.Lookup
import Workflow.Proofs.Run.Ground

/-!
# What a walk ensures

On any ground a walk keeps the fact, stays with its execution, and fails by a cancellation only if
its run was told to stop.  The laws follow the functions of a walk one by one, from the primitives
outwards; a walk is made of visits, and the law of a visit is an induction on its room.
-/

namespace Workflow

open Proc

universe u

variable {H : Type} {S : Type u} {R : Rules (Call H) S} {registry : Registry H} {id wid : Uuid}
  {nodes : List Node} {F T : S → Prop} {r : Role} {s : S}

/-! ### Primitives -/

/-- What came of a primitive is that its caller was told to stop. -/
def IsGivenUp {β : Type} (outcome : Except PrimitiveError β) : Prop :=
  ∃ name, outcome = .error (.cancelled name)

theorem Call.Quiet.of_unrecorded {β : Type} {c : Call H β} (hnote : ∀ reply, c.note? reply = none)
    (hpolled : c.polled? = none) (hrecord : c.record? = none) : c.Quiet id wid nodes := by
  refine ⟨hnote, hpolled, fun record h => ?_⟩
  rw [hrecord] at h
  cases h

/-- A call for a primitive of a node, to be stopped with the run of an execution. -/
structure CallSite.IsOf (id wid : Uuid) (nodes : List Node) (site : CallSite) : Prop where
  stop : site.stop = some id
  execution : site.executionId = some id
  workflow : site.workflowId = some wid
  node : ∃ node ∈ nodes, node.type = .primitive ∧ site.nodeId = some node.id

namespace Adapter

variable {a : Adapter H}

theorem quiet_clock : (Call.clock : Call H _).Quiet id wid nodes :=
  .of_unrecorded (fun _ => rfl) rfl rfl

theorem remember_ensures (G : Ground R registry id wid nodes F T) (hr : r.Walks)
    (row : PrimitiveRow) (hs : F s) : Ensures R r (a.remember row)
      (fun outcome s => Known F T (IsGivenUp outcome) s) (fun _ s => F s) s := by
  rw [remember]
  cases hrow : Primitive.ofRow row a.defaultTimeout with
  | error e =>
      have he : ¬IsGivenUp (.error e : Except PrimitiveError Primitive) := by
        rintro ⟨name, hname⟩
        cases hname
        rw [Primitive.ofRow] at hrow
        split at hrow <;> cases hrow
      exact G.done hr (Known.of hs he) fun _ h => h
  | ok p =>
      have hp : ¬IsGivenUp (.ok p : Except PrimitiveError Primitive) := by
        rintro ⟨name, hname⟩
        cases hname
      apply G.ask hr (.of_unrecorded (fun _ => rfl) rfl rfl) (Known.of hs hp)
      intro _ s' hs'
      exact G.done hr hs' fun _ h => h

theorem found_ensures (G : Ground R registry id wid nodes F T) (hr : r.Walks)
    (reference : PrimitiveRef) (reply : Except StoreError (Option PrimitiveRow)) (hs : F s) :
    Ensures R r (a.found reference reply)
      (fun outcome s => Known F T (IsGivenUp outcome) s) (fun _ s => F s) s := by
  obtain e | _ | row := reply
  · exact G.done hr (Known.of hs (by rintro ⟨_, h⟩; cases h)) fun _ h => h
  · exact G.done hr (Known.of hs (by rintro ⟨_, h⟩; cases h)) fun _ h => h
  · exact remember_ensures G hr row hs

theorem resolve_ensures (G : Ground R registry id wid nodes F T) (hr : r.Walks)
    (reference : PrimitiveRef) (hs : F s) : Ensures R r (a.resolve reference)
      (fun outcome s => Known F T (IsGivenUp outcome) s) (fun _ s => F s) s := by
  have hcached : (Call.here reference.cached : Call H _).Quiet id wid nodes := by
    cases reference <;> exact .of_unrecorded (fun _ => rfl) rfl rfl
  have hfind : (Call.store reference.find : Call H _).Quiet id wid nodes := by
    cases reference <;> exact .of_unrecorded (fun _ => rfl) rfl rfl
  rw [resolve_eq]
  apply G.ask hr hcached (Known.of hs not_false)
  intro cached s' hs'
  cases cached with
  | some p => exact G.done hr (Known.of hs'.1 (by rintro ⟨_, h⟩; cases h)) fun _ h => h
  | none =>
      apply G.ask hr hfind hs'
      intro reply t ht
      exact found_ensures G hr _ reply ht.1

theorem not_isGivenUp_of_gate {p : Primitive} {input : Json} {e : PrimitiveError}
    (h : a.gate p input = .error e) : ¬IsGivenUp (.error e : Except PrimitiveError Json) := by
  rintro ⟨name, hname⟩
  cases hname
  rw [gate] at h
  split at h
  · cases h
  · split at h
    · cases h
    · split at h <;> cases h

theorem mem_registry_of_gate {p : Primitive} {input : Json} {handler : Handler H}
    (h : a.gate p input = .ok handler) : a.registry.find? p.name p.version = some handler := by
  rw [gate] at h
  split at h
  · cases h
  · split at h
    · cases h
    · split at h
      · cases h
      · cases h
        assumption

theorem eq_stopped_of_isGivenUp {p : Primitive} {ending : Ending (Except HandlerError Json)}
    (h : IsGivenUp (outcome p ending)) : ending = .stopped := by
  obtain ⟨name, hname⟩ := h
  obtain (_ | _) | _ | _ := ending
  · cases hname
  · cases hname
  · cases hname
  · rfl

theorem quiet_insertAudit {site : CallSite} (hsite : site.IsOf id wid nodes) {p : Primitive}
    {input : Json} {startedAt finishedAt : Time.Instant} {result : Except PrimitiveError Json} :
    (Call.store (.insertAudit (record p input site startedAt finishedAt result)) : Call H _).Quiet
      id wid nodes := by
  refine ⟨fun _ => rfl, rfl, fun record h => ?_⟩
  cases h
  exact ⟨hsite.execution, hsite.workflow, hsite.node⟩

/-- The invocation of a handler is given up only if the caller was told to stop. -/
theorem invoke_ensures (G : Ground R a.registry id wid nodes F T) (hr : r.Walks) {p : Primitive}
    {handler : Handler H} (hhandler : a.registry.find? p.name p.version = some handler)
    (input : Json) {site : CallSite} (hsite : site.IsOf id wid nodes) (hs : F s) :
    Ensures R r (a.invoke p handler input site)
      (fun outcome s => Known F T (IsGivenUp outcome) s) (fun _ s => F s) s := by
  apply G.ask hr quiet_clock (Known.of hs not_false)
  intro startedAt s₁ hs₁
  -- What follows is the same for all ways in which the handler may end.
  have hafter : ∀ ending t, Known F T (ending = .stopped) t →
      Ensures R r (Proc.askClock fun finishedAt =>
        Proc.askStore (.insertAudit (record p input site startedAt finishedAt (outcome p ending)))
          fun _ => .done (outcome p ending))
        (fun outcome s => Known F T (IsGivenUp outcome) s) (fun _ s => F s) t := by
    intro ending t ht
    apply G.ask hr quiet_clock ht
    intro finishedAt t₁ ht₁
    apply G.ask hr (quiet_insertAudit hsite) ht₁
    intro _ t₂ ht₂
    exact G.done hr ht₂ fun _ h => h.imp eq_stopped_of_isGivenUp
  refine ⟨fun _ _ => True, fun _ _ => True, G.handler _ _ _ hhandler _ _ _ hs₁.1, fun t ht => ?_⟩
  have hF : F t := (G.stable r hr).meanwhile ht hs₁.1
  refine ⟨fun result _ => hafter _ t (Known.of hF (by simp)), fun _ _ => hF,
    hafter _ t (Known.of hF (by simp)), fun c hc => ?_⟩
  simp only [hsite.stop, Option.map_some, Option.some.injEq] at hc
  subst hc
  obtain ⟨hperm, hanswer⟩ := G.poll r.part hr.part t hF
  refine ⟨hperm, fun t' ht' => hafter _ t' ?_⟩
  obtain ⟨hF', -, hT⟩ := hanswer true t' ht'
  exact ⟨hF', fun _ => hT rfl⟩

theorem execute_ensures (G : Ground R a.registry id wid nodes F T) (hr : r.Walks)
    (reference : PrimitiveRef) (input : Json) {site : CallSite}
    (hsite : site.IsOf id wid nodes) (hs : F s) : Ensures R r (a.execute reference input site)
      (fun outcome s => Known F T (IsGivenUp outcome) s) (fun _ s => F s) s := by
  apply Ensures.andThen (resolve_ensures G hr reference hs)
  intro resolved t ht
  cases resolved with
  | error e =>
      refine G.done hr ht fun _ h => h.imp ?_
      rintro ⟨name, hname⟩
      cases hname
      exact ⟨name, rfl⟩
  | ok p =>
      simp only
      cases hgate : a.gate p input with
      | error e => exact G.done hr (Known.of ht.1 (not_isGivenUp_of_gate hgate)) fun _ h => h
      | ok handler => exact invoke_ensures G hr (mem_registry_of_gate hgate) input hsite ht.1

end Adapter

/-! ### Nodes -/

namespace Walk

/-- A way to visit nodes that keeps to the ground. -/
def Visits (R : Rules (Call H) S) (id wid : Uuid) (F T : S → Prop) (visit : Visitor H) : Prop :=
  ∀ r, r.Walks → ∀ nodeId c s, c.IsOf id wid → F s →
    Ensures R r (visit nodeId c) (fun v s => Known F T v.IsCancelled s ∧ v.context.IsOf id wid)
      (fun _ s => F s) s

variable {c : Context} {visit : Visitor H}

theorem done_ok (G : Ground R registry id wid nodes F T) (hr : r.Walks) (results : List NodeResult)
    (hc : c.IsOf id wid) (hs : F s) :
    Ensures R r (.done ⟨results, .ok c⟩ : Proc (Call H) Visited)
      (fun v s => Known F T v.IsCancelled s ∧ v.context.IsOf id wid) (fun _ s => F s) s :=
  G.done hr (Known.of hs (by rintro ⟨_, h, _⟩; cases h)) fun _ h => ⟨h, hc⟩

theorem done_error (G : Ground R registry id wid nodes F T) (hr : r.Walks)
    (results : List NodeResult) {failure : PathFailure} (hc : failure.context.IsOf id wid)
    (hs : Known F T (failure.error.isCancellation = true) s) :
    Ensures R r (.done ⟨results, .error failure⟩ : Proc (Call H) Visited)
      (fun v s => Known F T v.IsCancelled s ∧ v.context.IsOf id wid) (fun _ s => F s) s :=
  G.done hr hs fun _ h => ⟨h.imp (by rintro ⟨_, h, hcancelled⟩; cases h; exact hcancelled), hc⟩

theorem guardHolds_ensures (G : Ground R registry id wid nodes F T) (hr : r.Walks) (e : Edge)
    (c : Context) (hs : F s) :
    Ensures R r (guardHolds e c) (fun _ s => F s) (fun _ s => F s) s := by
  rw [guardHolds]
  cases e.guard with
  | none => exact G.done hr (Known.of hs not_false) fun _ h => h.1
  | some guard =>
      apply G.ask hr Adapter.quiet_clock (Known.of hs not_false)
      intro now s' hs'
      exact G.done hr hs' fun _ h => h.1

theorem follows_ensures (G : Ground R registry id wid nodes F T) (hr : r.Walks) (node : Node)
    (output : Json) (e : Edge) (c : Context) (hs : F s) :
    Ensures R r (follows node output e c) (fun _ s => F s) (fun _ s => F s) s := by
  rw [follows]
  split
  · exact guardHolds_ensures G hr e c hs
  · exact G.done hr (Known.of hs not_false) fun _ h => h.1

theorem follow_ensures (G : Ground R registry id wid nodes F T) (hr : r.Walks)
    (hvisit : Visits R id wid F T visit) {choose : Edge → Context → Proc (Call H) Bool}
    (hchoose : ∀ e c s, F s → Ensures R r (choose e c) (fun _ s => F s) (fun _ s => F s) s)
    (edges : List Edge) (hc : c.IsOf id wid) (results : List NodeResult) (hs : F s) :
    Ensures R r (follow visit choose edges c results)
      (fun v s => Known F T v.IsCancelled s ∧ v.context.IsOf id wid) (fun _ s => F s) s := by
  induction edges generalizing c results s with
  | nil => exact done_ok G hr results hc hs
  | cons e rest ih =>
      apply Ensures.andThen (hchoose e c s hs)
      intro chosen t ht
      cases chosen with
      | false => exact ih hc results ht
      | true =>
          apply Ensures.andThen (hvisit r hr e.target c t hc ht)
          intro visited u hu
          obtain ⟨blocks, failure | last⟩ := visited
          · refine done_error G hr _ hu.2 (hu.1.imp fun hfail => ?_)
            exact ⟨failure, rfl, hfail⟩
          · exact ih hu.2 _ hu.1.1

theorem iterate_ensures (G : Ground R registry id wid nodes F T) (hr : r.Walks)
    (hvisit : Visits R id wid F T visit) (nodeId : String) (config : LoopConfig)
    (body : List Edge) (hc : c.IsOf id wid) (index : Nat) (items : List Json)
    (blocks : List (List NodeResult)) (outputs : List Json) (hs : F s) :
    Ensures R r (iterate visit nodeId config body c index items blocks outputs)
      (fun x s => Known F T (IsCancelled x.outcome) s) (fun _ s => F s) s := by
  induction items generalizing index blocks outputs s with
  | nil => exact G.done hr (Known.of hs (not_isCancelled_ok _)) fun _ h => h
  | cons item rest ih =>
      refine Ensures.andThen (follow_ensures G hr hvisit (fun e c s => guardHolds_ensures G hr e c)
        body (hc.withItem config.itemVariable item config.indexVariable index) [] hs)
        fun visited t ht => ?_
      obtain ⟨results, failure | last⟩ := visited
      · refine G.done hr ht.1 fun _ h => h.imp fun hfail => ⟨failure, rfl, ?_⟩
        simpa only [RunError.isCancellation] using isCancelled_error.mp hfail
      · exact ih _ _ _ ht.1.1

theorem runLoop_ensures (G : Ground R registry id wid nodes F T) (hr : r.Walks) (w : Walk H)
    (hvisit : Visits R id wid F T visit) (node : Node) (hc : c.IsOf id wid) (now : Time.Instant)
    (hs : F s) : Ensures R r (w.runLoop visit node c now)
      (fun x s => Known F T (IsCancelled x.outcome) s) (fun _ s => F s) s := by
  have hfail : ∀ e : RunError, e.isCancellation = false →
      Ensures R r (.done ⟨[], .error e⟩ : Proc (Call H) Executed)
        (fun x s => Known F T (IsCancelled x.outcome) s) (fun _ s => F s) s := by
    intro e he
    exact G.done hr (Known.of hs (by simp [isCancelled_error, he])) fun _ h => h
  rw [runLoop]
  cases node.read LoopConfig.decoder with
  | error message => exact hfail _ rfl
  | ok config =>
      simp only
      cases hitems : w.items node.id config c now with
      | error e =>
          refine hfail e ?_
          simp only [items] at hitems
          split at hitems
          · split at hitems <;> cases hitems
            rfl
          · cases hitems
            rfl
          · cases hitems
            rfl
      | ok items => exact iterate_ensures G hr hvisit _ _ _ hc _ _ _ _ hs

theorem runPrimitive_ensures (w : Walk H)
    (G : Ground R w.adapter.registry id wid w.workflow.nodes F T) (hr : r.Walks)
    {node : Node} (hnode : node ∈ w.workflow.nodes) (htype : node.type = .primitive)
    (hc : c.IsOf id wid) (now : Time.Instant) (hs : F s) : Ensures R r (w.runPrimitive node c now)
      (fun outcome s => Known F T (IsCancelled outcome) s) (fun _ s => F s) s := by
  have hfail : ∀ message, Ensures R r
      (.done (.error (.invalidConfig node.id message)) : Proc (Call H) (Except RunError Json))
      (fun outcome s => Known F T (IsCancelled outcome) s) (fun _ s => F s) s := by
    intro message
    refine G.done hr (Known.of hs ?_) fun _ h => h
    simp [isCancelled_error, RunError.isCancellation]
  rw [runPrimitive]
  cases node.read PrimitiveConfig.decoder with
  | error message => exact hfail message
  | ok config =>
      simp only
      cases href : primitiveRef node.id config with
      | error e =>
          rw [primitiveRef] at href
          split at href <;> cases href
          exact hfail _
      | ok reference =>
          have hsite : CallSite.IsOf id wid w.workflow.nodes
              ⟨some c.executionId, some c.workflowId, some node.id, some c.executionId⟩ :=
            ⟨congrArg some hc.1, congrArg some hc.1, congrArg some hc.2, node, hnode, htype, rfl⟩
          refine Ensures.andThen (Adapter.execute_ensures G hr reference _ hsite hs)
            fun outcome t ht => ?_
          refine G.done hr ht fun _ h => h.imp fun hcancelled => ?_
          obtain e | output := outcome
          · cases e with
            | cancelled name => exact ⟨name, rfl⟩
            | _ => simp [primitiveOutcome, isCancelled_error, RunError.isCancellation] at hcancelled
          · exact (not_isCancelled_ok _ hcancelled).elim

theorem runDelay_ensures (G : Ground R registry id wid nodes F T) (hr : r.Walks) (node : Node)
    (hc : c.IsOf id wid) (hs : F s) :
    Ensures R r (runDelay node c : Proc (Call H) (Except RunError Json))
      (fun outcome s => Known F T (IsCancelled outcome) s) (fun _ s => F s) s := by
  have hfail : ∀ message, Ensures R r
      (.done (.error (.invalidConfig node.id message)) : Proc (Call H) (Except RunError Json))
      (fun outcome s => Known F T (IsCancelled outcome) s) (fun _ s => F s) s := by
    intro message
    refine G.done hr (Known.of hs ?_) fun _ h => h
    simp [isCancelled_error, RunError.isCancellation]
  rw [runDelay]
  cases node.read DelayConfig.decoder with
  | error message => exact hfail message
  | ok config =>
      simp only
      cases config.nanos? with
      | none => exact hfail _
      | some nanos =>
          intro t ht
          have hF : F t := (G.stable r hr).meanwhile ht hs
          refine ⟨G.done hr (Known.of hF (not_isCancelled_ok _)) fun _ h => h, fun stop hstop => ?_⟩
          cases hstop
          obtain ⟨hperm, hanswer⟩ := G.poll r.part hr.part t hF
          rw [hc.1]
          refine ⟨hperm, fun t' ht' => ?_⟩
          obtain ⟨hF', -, hT⟩ := hanswer true t' ht'
          exact G.done hr (P := True) ⟨hF', fun _ => hT rfl⟩ fun _ h => h.imp fun _ => trivial

theorem chosen_ensures (G : Ground R registry id wid nodes F T) (hr : r.Walks) (c : Context)
    (edges : List Edge) (hs : F s) :
    Ensures R r (chosen c edges : Proc (Call H) (List Edge)) (fun _ s => F s) (fun _ s => F s)
      s := by
  induction edges generalizing s with
  | nil => exact G.done hr (Known.of hs not_false) fun _ h => h.1
  | cons e rest ih =>
      apply Ensures.andThen (guardHolds_ensures G hr e c hs)
      intro holds t ht
      apply Ensures.andThen (ih ht)
      intro more u hu
      exact G.done hr (Known.of hu not_false) fun _ h => h.1

theorem runParallel_ensures (G : Ground R registry id wid nodes F T) (hr : r.Walks) (w : Walk H)
    (hvisit : Visits R id wid F T visit) (node : Node) (hc : c.IsOf id wid) (hs : F s) :
    Ensures R r (w.runParallel visit node c)
      (fun x s => Known F T (IsCancelled x.outcome) s) (fun _ s => F s) s := by
  apply Ensures.andThen (chosen_ensures G hr c _ hs)
  intro branches t ht
  have hparts : Ensures R r (Proc.sideBySide (branches.map fun e => visit e.target c))
      (fun visits s => F s ∧ ∀ v ∈ visits, Known F T v.IsCancelled s) (fun _ s => F s) t := by
    refine Ensures.sideBySide (P := fun v s => Known F T v.IsCancelled s) (Y := fun _ s => F s)
      ?_ ?_ (fun _ _ _ h => h) ?_
    · intro p hp
      obtain ⟨e, -, rfl⟩ := List.mem_map.mp hp
      exact (hvisit r.part hr.part e.target c t hc ht).mono (fun _ _ h => h.1) fun _ _ h => h
    · intro visits u hu hv
      exact ⟨(G.stable r hr).meanwhile hu ht, hv⟩
    · intro v other hother s s' hmoves h
      exact ⟨G.stable r hr other hother s s' hmoves h.1,
        fun hv => G.told r hr other hother s s' hmoves (h.2 hv)⟩
  apply Ensures.andThen hparts
  intro visits u hu
  have hknown : Known F T (IsCancelled ((gather node.id c.executed.length
      (branches.zip visits)).map Json.arr)) u := by
    refine ⟨hu.1, fun hcancelled => ?_⟩
    obtain ⟨b, hb, hv⟩ := exists_isCancelled_of_gather (isCancelled_map.mp hcancelled)
    exact (hu.2 b.2 (List.of_mem_zip hb).2).2 hv
  exact G.done hr hknown fun _ h => h

theorem alone_ensures (G : Ground R registry id wid nodes F T) (hr : r.Walks)
    {p : Proc (Call H) (Except RunError Json)}
    (hp : Ensures R r p (fun outcome s => Known F T (IsCancelled outcome) s) (fun _ s => F s) s) :
    Ensures R r (alone p) (fun x s => Known F T (IsCancelled x.outcome) s) (fun _ s => F s) s :=
  Ensures.andThen hp fun _ _ ht => G.done hr ht fun _ h => h

theorem execute_ensures (w : Walk H)
    (G : Ground R w.adapter.registry id wid w.workflow.nodes F T) (hr : r.Walks)
    (hvisit : Visits R id wid F T visit) {node : Node} (hnode : node ∈ w.workflow.nodes)
    (hc : c.IsOf id wid) (now : Time.Instant) (hs : F s) :
    Ensures R r (w.execute visit node c now)
      (fun x s => Known F T (IsCancelled x.outcome) s) (fun _ s => F s) s := by
  have hconfig : ∀ message,
      ¬IsCancelled (.error (.invalidConfig node.id message) : Except RunError Json) := by
    simp [isCancelled_error, RunError.isCancellation]
  rw [execute]
  cases htype : node.type with
  | trigger => exact G.done hr (Known.of hs (not_isCancelled_ok _)) fun _ h => h
  | primitive => exact alone_ensures G hr (runPrimitive_ensures w G hr hnode htype hc now hs)
  | condition =>
      refine G.done hr (Known.of hs ?_) fun _ h => h
      cases node.read conditionConfig with
      | ok condition => exact not_isCancelled_ok _
      | error message => exact hconfig message
  | loop => exact runLoop_ensures G hr w hvisit node hc now hs
  | delay => exact alone_ensures G hr (runDelay_ensures G hr node hc hs)
  | parallel => exact runParallel_ensures G hr w hvisit node hc hs
  | output =>
      refine G.done hr (Known.of hs ?_) fun _ h => h
      cases node.read outputConfig with
      | ok mapping => exact not_isCancelled_ok _
      | error message => exact hconfig message

/-! ### Visits -/

theorem proceed_ensures (G : Ground R registry id wid nodes F T) (hr : r.Walks) (w : Walk H)
    (hvisit : Visits R id wid F T visit) (node : Node) (hc : c.IsOf id wid)
    (startedAt finishedAt : Time.Instant) (executed : Executed)
    (hs : Known F T (IsCancelled executed.outcome) s) :
    Ensures R r (w.proceed visit node c startedAt finishedAt executed)
      (fun v s => Known F T v.IsCancelled s ∧ v.context.IsOf id wid) (fun _ s => F s) s := by
  obtain ⟨results, e | output⟩ := executed
  · exact done_error G hr _ hc (hs.imp isCancelled_error.mpr)
  · have hc' : (c.withOutput node.id output).IsOf id wid := hc
    exact follow_ensures G hr hvisit (fun e c s => follows_ensures G hr node output e c) _ hc' _
      hs.1

/-- The law of a visit: on any ground, whatever room there is. -/
theorem visit_ensures (w : Walk H)
    (G : Ground R w.adapter.registry id wid w.workflow.nodes F T) (room : Nat) :
    Visits R id wid F T (w.visit room) := by
  induction room with
  | zero =>
      intro r hr nodeId c s hc hs
      exact done_error G hr _ hc (Known.of hs (by simp [failPath, RunError.isCancellation]))
  | succ room ih =>
      intro r hr nodeId c s hc hs
      rw [visit]
      cases hfound : w.workflow.node? nodeId with
      | none =>
          exact done_error G hr _ hc (Known.of hs (by simp [failPath, RunError.isCancellation]))
      | some node =>
          simp only
          split
          · exact done_ok G hr [] hc hs
          · apply G.ask hr Adapter.quiet_clock (Known.of hs not_false)
            intro startedAt t ht
            rw [Proc.askHere, hc.1]
            apply G.askStopped hr ht
            intro stopped u hu
            cases stopped with
            | true =>
                rw [if_pos rfl]
                exact proceed_ensures G hr w ih node hc _ _ _ (hu.imp fun _ => .inl rfl)
            | false =>
                rw [if_neg Bool.false_ne_true]
                have hnode : node ∈ w.workflow.nodes := List.mem_of_find?_eq_some hfound
                refine Ensures.andThen (execute_ensures w G hr ih hnode hc startedAt hu.1)
                  fun executed v hv => ?_
                apply G.ask hr Adapter.quiet_clock hv
                intro finishedAt v' hv'
                exact proceed_ensures G hr w ih node hc _ _ _ hv'

theorem start_ensures (w : Walk H)
    (G : Ground R w.adapter.registry id wid w.workflow.nodes F T) (hr : r.Walks)
    (hc : c.IsOf id wid) (hs : F s) :
    Ensures R r (w.start c) (fun v s => Known F T v.IsCancelled s ∧ v.context.IsOf id wid)
      (fun _ s => F s) s := by
  rw [start]
  cases w.workflow.order with
  | error e =>
      exact done_error G hr _ hc (Known.of hs (by simp [failPath, RunError.isCancellation]))
  | ok order =>
      simp only
      cases w.workflow.nodes.find? fun n => n.type = .trigger with
      | none => exact done_error G hr _ hc (Known.of hs (by simp [RunError.isCancellation]))
      | some trigger => exact visit_ensures w G _ r hr _ c s hc hs

end Walk

end Workflow
