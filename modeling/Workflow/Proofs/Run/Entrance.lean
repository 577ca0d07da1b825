import Workflow.Proofs.Run.Dispatch
import Workflow.Proofs.Run.Upkeep

/-!
# Entrances

Workflows are started by their identifier, by hand, by the slug of a webhook, by an event and by a
schedule.  Each of these begins with a look into the store, and what is found decides whether a run
is started.  So every execution that is created belongs to a workflow that is let in, and a call
that is turned away at the entrance has done nothing but look.
-/

namespace Workflow

open Proc

variable {H α β : Type} {engine : Engine H} {d : Definition} {r : Role} {s s' : Scene}
  {rows : List ExecutionRow} {flows : List WorkflowRow} {X : String → Scene → Prop}

/-! ### Calls that start workflows -/

/-- A call by which workflows are started. -/
inductive Entrance where
  | execute (id : Uuid) (request : RunRequest)
  | manual (id : Uuid) (userId : Option String) (bindings : Option (Keyed Json))
  | webhook (slug : String) (payload : Json)
  | event (name : String) (payload : Json)
  | schedules (now : Time.Instant)

namespace Entrance

/-- What is requested of the runs that a call starts. -/
def request : Entrance → RunRequest
  | execute _ request => request
  | manual _ userId bindings => ⟨.manual, userId, none, .obj [], bindings⟩
  | webhook _ payload => .plain .webhook payload
  | event _ payload => .plain .event payload
  | schedules now => .scheduled now

/-- What a call reports, as a list also if it starts one workflow only. -/
def single (p : Proc (Call H) (Except RunError Outcome)) :
    Proc (Call H) (Except RunError (List Outcome)) :=
  p.bind fun report => .done (report.map fun o => [o])

def start (engine : Engine H) : Entrance → Proc (Call H) (Except RunError (List Outcome))
  | execute id request => single (engine.execute id request)
  | manual id userId bindings => single (engine.executeManual id userId bindings)
  | webhook slug payload => single (engine.executeWebhook slug payload)
  | event name payload => engine.dispatchEvent name payload
  | schedules now => engine.runDueSchedules now

/-- Calls one after another, whatever those before have reported. -/
def inTurn (engine : Engine H) :
    List Entrance → Proc (Call H) (List (Except RunError (List Outcome)))
  | [] => .done []
  | entrance :: rest =>
    (entrance.start engine).bind fun report =>
      (inTurn engine rest).bind fun reports => .done (report :: reports)

/-- A call is for a workflow. -/
def Fits : Entrance → Definition → Prop
  | execute id _, d => d.id = id
  | manual id _ _, d => d.id = id
  | webhook slug _, d => d.slug = slug ∧ d.trigger = .webhook
  | event name _, d => d.trigger = .event name
  | schedules now, d => ∃ expression cron, d.trigger = .schedule expression ∧
      Cron.parse expression = .ok cron ∧ cron.matches? now.utc = true

/-- The workflow of a row is enabled, can be read, and is one that a call is for. -/
def Allows (entrance : Entrance) (row : WorkflowRow) : Prop :=
  ∃ d, row.enabled = true ∧ Definition.ofRow row = .ok d ∧ entrance.Fits d

/-- Which workflow a call asks for, if it asks for one. -/
def sought? : Entrance → Option (WorkflowRow → Bool)
  | execute id _ => some fun row => row.id = id
  | manual id _ _ => some fun row => row.id = id
  | webhook slug _ => some fun row => row.slug = slug
  | event _ _ => none
  | schedules _ => none

/-- A call is let in: if it asks for one workflow, then this is there, and is allowed. -/
def LetsIn (entrance : Entrance) (workflows : List WorkflowRow) : Prop :=
  ∀ sought, entrance.sought? = some sought →
    ∃ row, workflows.find? sought = some row ∧ entrance.Allows row

/-- An execution was created as a call requests it, for a workflow that is allowed in. -/
def Admits (entrance : Entrance) (workflows : List WorkflowRow) (created : ExecutionRow) : Prop :=
  ∃ row ∈ workflows, entrance.Allows row ∧ entrance.request.Creates row.id created

end Entrance

/-! ### Rows without stamps -/

/-- The row of a workflow without the instant of its last run. -/
def WorkflowRow.unstamped (row : WorkflowRow) : WorkflowRow := { row with lastRunAt := none }

namespace Entrance

variable {entrance : Entrance} {row : WorkflowRow} {workflows : List WorkflowRow}

theorem fits_unstamped :
    entrance.Fits { d with lastRunAt := none } ↔ entrance.Fits d := by
  cases entrance <;> exact Iff.rfl

theorem allows_unstamped : entrance.Allows row.unstamped ↔ entrance.Allows row := by
  simp only [Allows, WorkflowRow.unstamped, Definition.ofRow_stamped]
  constructor
  · rintro ⟨_, henabled, hread, hfits⟩
    cases hrow : Definition.ofRow row with
    | error message => simp [hrow, Except.map] at hread
    | ok d =>
        obtain rfl : { d with lastRunAt := none } = _ := by simpa [hrow, Except.map] using hread
        exact ⟨d, henabled, rfl, fits_unstamped.mp hfits⟩
  · rintro ⟨d, henabled, hread, hfits⟩
    exact ⟨_, henabled, by rw [hread]; rfl, fits_unstamped.mpr hfits⟩

/-- It does not matter for what is admitted when the workflows were last run. -/
theorem admits_of_unstamped {created : ExecutionRow}
    (hflows : flows.map WorkflowRow.unstamped = workflows.map WorkflowRow.unstamped)
    (hrow : row ∈ flows) (hallows : entrance.Allows row)
    (hcreated : entrance.request.Creates row.id created) : entrance.Admits workflows created := by
  have hmem := List.mem_map_of_mem (f := WorkflowRow.unstamped) hrow
  rw [hflows, List.mem_map] at hmem
  obtain ⟨row', hrow', heq⟩ := hmem
  have hid : row'.unstamped.id = row.unstamped.id := congrArg WorkflowRow.id heq
  refine ⟨row', hrow', ?_, hid ▸ hcreated⟩
  rwa [← allows_unstamped, heq, allows_unstamped]

end Entrance

/-- Whatever is called, the workflows stay as they are but for their stamps. -/
theorem Scene.Answers.unstamped {c : Call H β} {reply : β} (h : Scene.Answers r β c s reply s') :
    s'.memory.workflows.map WorkflowRow.unstamped =
      s.memory.workflows.map WorkflowRow.unstamped := by
  cases hn : c.note? reply with
  | none => rw [(h.alike hn).workflows]
  | some n =>
      rw [(h.noted hn).workflows]
      cases n with
      | touched id instant =>
          exact Memory.map_modifyFirst (f := fun w => { w with lastRunAt := some instant })
            (g := WorkflowRow.unstamped) (fun _ => rfl) s.memory.workflows
      | _ => rfl

/-! ### Who creates executions -/

/-- A call creates no execution. -/
def Call.CreatesNone (c : Call H β) : Prop := ∀ reply, (c.note? reply).bind Note.created? = none

/-- To create executions is left to the owner, and to foreign code. -/
def reserved (H : Type) : Rules (Call H) Scene :=
  ⟨Scene.Answers, fun r _ c _ => r = .owner ∨ r = .guest ∨ c.CreatesNone⟩

theorem reserved_answers : (reserved H).answers = Scene.Answers := rfl

theorem permits_of_createsNone {c : Call H β} (hc : c.CreatesNone) :
    (reserved H).permits r β c s := .inr (.inr hc)

/-- What the owner knows while it makes calls: which executions it has created, and the workflows
but for their stamps. -/
structure Overseen (rows : List ExecutionRow) (flows : List WorkflowRow) (s : Scene) : Prop where
  created : s.log.createdBy .owner = rows
  workflows : s.memory.workflows.map WorkflowRow.unstamped = flows

namespace Overseen

variable {Q : α → Scene → Prop} {c : Call H β} {reply : β}

theorem answered (h : Overseen rows flows s) (hanswer : Scene.Answers r β c s reply s')
    (hc : r = .owner → (c.note? reply).bind Note.created? = none) : Overseen rows flows s' :=
  ⟨(hanswer.createdBy_owner hc).trans h.created, hanswer.unstamped.trans h.workflows⟩

theorem stable (hr : r.Walks) : (reserved H).Stable r (Overseen rows flows) := by
  rintro other hother s s' ⟨β, c, reply, -, hanswer⟩ h
  exact h.answered hanswer fun howner => absurd howner (hr.meets hother)

theorem meanwhile (h : Overseen rows flows s) (hlater : (reserved H).Meanwhile .owner s s') :
    Overseen rows flows s' := (stable (.inl rfl)).meanwhile hlater h

theorem done {a : α} (h : Overseen rows flows s) (hQ : ∀ t, Overseen rows flows t → Q a t) :
    Ensures (reserved H) .owner (.done a) Q X s :=
  fun _ ht => hQ _ (h.meanwhile ht)

/-- The owner keeps what it knows by a walk, whatever the handlers are. -/
theorem ground (registry : Registry H) (id wid : Uuid) (nodes : List Node) :
    Ground (reserved H) registry id wid nodes (Overseen rows flows) fun _ => True where
  stable r hr := stable hr
  told r _ := Rules.stable_true r
  quiet r hr β c hc s hs := by
    have hnone : c.CreatesNone := fun reply => by rw [hc.unnoted reply]; rfl
    exact ⟨permits_of_createsNone hnone, fun reply s' hanswer =>
      ⟨hs.answered hanswer fun _ => hnone reply, fun _ => trivial⟩⟩
  poll r hr s hs := by
    refine ⟨permits_of_createsNone fun _ => rfl, fun reply s' hanswer => ?_⟩
    rw [reserved_answers] at hanswer
    exact ⟨hs.answered hanswer fun _ => rfl, fun _ => trivial, fun _ => trivial⟩
  handler name version handler _ context input s _ := by
    have hguest : ∀ (β : Type) (c : Call H β) s, (reserved H).permits .guest β c s :=
      fun _ _ _ => .inr (.inl rfl)
    exact Ensures.of_guest hguest (handler context input) s

/-- After it has created its execution, a run creates no other. -/
theorem upkeep (registry : Registry H) (id wid : Uuid) (nodes : List Node) :
    Upkeep (reserved H) registry id wid nodes (Overseen rows flows) where
  ground := ground registry id wid nodes
  call β c hc s hs := by
    have hnone : c.CreatesNone := by cases hc <;> exact fun _ => rfl
    refine ⟨permits_of_createsNone hnone, fun reply s' hanswer => ?_⟩
    rw [reserved_answers] at hanswer
    exact hs.answered hanswer fun _ => hnone reply

end Overseen

/-! ### Runs -/

namespace Engine

/-- A run creates one execution, for its workflow and as it is requested. -/
theorem run_enters (request : RunRequest) (h : Overseen rows flows s) :
    Ensures (reserved H) .owner (engine.run d request)
      (fun _ t => ∃ row, Overseen (rows ++ [row]) flows t ∧ request.Creates d.id row) X s := by
  rw [run_eq]
  intro t ht
  refine ⟨.inl rfl, fun reply t' hanswer => ?_⟩
  rw [reserved_answers] at hanswer
  obtain ⟨hcreated, hflows⟩ := h.meanwhile ht
  have hlog := hanswer.log_eq
  have hflows' := hanswer.unstamped.trans hflows
  obtain ⟨⟨fresh, now, -, hmemory⟩, -, -⟩ := hanswer
  simp only [Memory.answer, Prod.mk.injEq] at hmemory
  obtain ⟨rfl, -⟩ := hmemory
  let row := (request.toNew d.id).toRow fresh now
  have hrows : t'.log.createdBy .owner = rows ++ [row] := by
    rw [hlog, Log.createdBy_append, hcreated]
    exact congrArg (rows ++ ·) (Log.createdBy_single_self _ _)
  have hbegun : Maintains (reserved H) (Overseen (rows ++ [row]) flows) X
      (engine.begun d request row) := (Overseen.upkeep _ _ _ _).begun request
  exact (hbegun t' ⟨hrows, hflows'⟩).mono
    (fun _ u hu => ⟨row, hu, fresh, now, rfl⟩) fun _ _ hx => hx

theorem runEach_enters (request : RunRequest) (ds : List Definition) (outcomes : List Outcome)
    (h : Overseen rows flows s) :
    Ensures (reserved H) .owner (engine.runEach request ds outcomes)
      (fun _ t => ∃ more, Overseen (rows ++ more) flows t ∧
        ∀ row ∈ more, ∃ d ∈ ds, request.Creates d.id row) X s := by
  induction ds generalizing s rows outcomes with
  | nil => exact h.done fun t ht => ⟨[], by rwa [List.append_nil], by simp⟩
  | cons d rest ih =>
      refine Ensures.andThen (run_enters request h) fun report t ht => ?_
      obtain ⟨row, hrow, hcreates⟩ := ht
      have hfirst : ∀ more, (∀ row ∈ more, ∃ d ∈ rest, request.Creates d.id row) →
          ∀ row' ∈ row :: more, ∃ d' ∈ d :: rest, request.Creates d'.id row' := by
        rintro more hmore _ (_ | ⟨_, hmem⟩)
        · exact ⟨d, List.mem_cons_self, hcreates⟩
        · obtain ⟨d', hd', hrow'⟩ := hmore _ hmem
          exact ⟨d', List.mem_cons_of_mem _ hd', hrow'⟩
      cases report with
      | error e => exact hrow.done fun u hu => ⟨[row], hu, hfirst [] (by simp)⟩
      | ok o =>
          refine (ih (outcomes ++ [o]) hrow).mono ?_ fun _ _ hx => hx
          rintro _ u ⟨more, hu, hmore⟩
          exact ⟨row :: more, by simpa using hu, hfirst more hmore⟩

end Engine

/-! ### What is looked up -/

/-- A call that only looks for workflows. -/
def StoreCall.IsLookup : StoreCall β → Prop
  | .findWorkflow _ => True
  | .findWorkflowBySlug _ => True
  | .listEnabled _ => True
  | _ => False

/-- To look for workflows changes nothing at all. -/
theorem Scene.answers_lookup {c : StoreCall β} {reply : Except StoreError β} (hc : c.IsLookup)
    (h : Scene.Answers r _ (.store c : Call H _) s reply s') :
    s' = s ∧ ∃ fresh now, reply = (Memory.answer fresh now c s.memory).1 := by
  obtain ⟨⟨fresh, now, -, hmemory⟩, hhere, hlog⟩ := h
  refine ⟨?_, fresh, now, by rw [hmemory]⟩
  obtain ⟨memory, here, log⟩ := s
  obtain ⟨memory', here', log'⟩ := s'
  obtain rfl : here' = here := hhere
  cases c with
  | findWorkflow id =>
      cases hmemory
      rw [show log' = log from hlog.trans (List.append_nil _)]
  | findWorkflowBySlug slug =>
      cases hmemory
      rw [show log' = log from hlog.trans (List.append_nil _)]
  | listEnabled triggerType =>
      cases hmemory
      rw [show log' = log from hlog.trans (List.append_nil _)]
  | _ => exact hc.elim

theorem Overseen.askLookup {c : StoreCall β} {next : Except StoreError β → Proc (Call H) α}
    {Q : α → Scene → Prop} (hc : c.IsLookup) (h : Overseen rows flows s)
    (hnext : ∀ fresh now t, Overseen rows flows t →
      Ensures (reserved H) .owner (next (Memory.answer fresh now c t.memory).1) Q X t) :
    Ensures (reserved H) .owner (Proc.askStore c next) Q X s := by
  intro t ht
  refine ⟨.inl rfl, fun reply t' hanswer => ?_⟩
  rw [reserved_answers] at hanswer
  obtain ⟨rfl, fresh, now, rfl⟩ := Scene.answers_lookup hc hanswer
  exact hnext fresh now _ (h.meanwhile ht)

/-! ### What is let in -/

theorem Definition.exists_ofGraph {row : WorkflowRow} (h : ofRow row = .ok d) :
    ∃ g, d = ofGraph row g := by
  rw [ofRow] at h
  split at h
  · exact ⟨_, (Except.ok.inj h).symm⟩
  · cases h

theorem Engine.ofRow_of_readDefinition {row : WorkflowRow} (h : readDefinition row = .ok d) :
    Definition.ofRow row = .ok d := by
  rw [readDefinition] at h
  cases hrow : Definition.ofRow row with
  | error message => simp [hrow, Except.mapError] at h
  | ok d' => simpa [hrow, Except.mapError] using h

namespace Entrance

variable {entrance : Entrance} {workflows : List WorkflowRow} {row : WorkflowRow}

/-- By a call its owner has created executions that are admitted, and no others. -/
def Adds (entrance : Entrance) (workflows : List WorkflowRow) (rows : List ExecutionRow)
    (s : Scene) : Prop :=
  ∃ more, Overseen (rows ++ more) (workflows.map WorkflowRow.unstamped) s ∧
    ∀ row ∈ more, entrance.Admits workflows row

theorem adds_nothing {β : Type} {b : β}
    (h : Overseen rows (workflows.map WorkflowRow.unstamped) s) :
    Ensures (reserved H) .owner (.done b) (fun _ t => entrance.Adds workflows rows t) X s :=
  h.done fun t ht => ⟨[], by rwa [List.append_nil], by simp⟩

theorem runEnabled_adds (entrance : Entrance)
    (h : Overseen rows (workflows.map WorkflowRow.unstamped) s)
    (hrow : row ∈ s.memory.workflows) (hread : Engine.readDefinition row = .ok d)
    (hfits : entrance.Fits d) :
    Ensures (reserved H) .owner (engine.runEnabled d entrance.request)
      (fun _ t => entrance.Adds workflows rows t) X s := by
  rw [Engine.runEnabled]
  split
  case isFalse => exact adds_nothing h
  case isTrue henabled =>
    have hread := Engine.ofRow_of_readDefinition hread
    obtain ⟨g, rfl⟩ := Definition.exists_ofGraph hread
    refine (Engine.run_enters entrance.request h).mono ?_ fun _ _ hx => hx
    rintro _ t ⟨created, ht, hcreated⟩
    refine ⟨[created], ht, fun row' hrow' => ?_⟩
    obtain rfl := List.mem_singleton.mp hrow'
    exact admits_of_unstamped h.workflows hrow ⟨_, henabled, hread, hfits⟩ hcreated

theorem execute_adds (entrance : Entrance)
    (h : Overseen rows (workflows.map WorkflowRow.unstamped) s) (id : Uuid)
    (hfits : ∀ d : Definition, d.id = id → entrance.Fits d) :
    Ensures (reserved H) .owner (engine.execute id entrance.request)
      (fun _ t => entrance.Adds workflows rows t) X s := by
  refine h.askLookup (c := .findWorkflow id) trivial fun fresh now t ht => ?_
  simp only [Memory.answer]
  cases hfound : t.memory.workflow? id with
  | none => exact adds_nothing ht
  | some row =>
      simp only [Engine.loaded]
      cases hread : Engine.readDefinition row with
      | error e => exact adds_nothing ht
      | ok d =>
          have hid : row.id = id := by simpa using List.find?_some hfound
          refine runEnabled_adds entrance ht (List.mem_of_find?_eq_some hfound) hread (hfits d ?_)
          obtain ⟨g, rfl⟩ := Definition.exists_ofGraph (Engine.ofRow_of_readDefinition hread)
          exact hid

theorem executeWebhook_adds (h : Overseen rows (workflows.map WorkflowRow.unstamped) s)
    (slug : String) (payload : Json) :
    Ensures (reserved H) .owner (engine.executeWebhook slug payload)
      (fun _ t => (webhook slug payload).Adds workflows rows t) X s := by
  refine h.askLookup (c := .findWorkflowBySlug slug) trivial fun fresh now t ht => ?_
  simp only [Memory.answer]
  cases hfound : t.memory.workflowOfSlug? slug with
  | none => exact adds_nothing ht
  | some row =>
      simp only [Engine.loaded]
      cases hread : Engine.readDefinition row with
      | error e => exact adds_nothing ht
      | ok d =>
          simp only
          split
          case isFalse => exact adds_nothing ht
          case isTrue htrigger =>
            have hslug : row.slug = slug := by simpa using List.find?_some hfound
            have hmem := List.mem_of_find?_eq_some hfound
            refine runEnabled_adds (.webhook slug payload) ht hmem hread ⟨?_, htrigger⟩
            obtain ⟨g, rfl⟩ := Definition.exists_ofGraph (Engine.ofRow_of_readDefinition hread)
            exact hslug

theorem runChosen_adds (entrance : Entrance)
    (h : Overseen rows (workflows.map WorkflowRow.unstamped) s) (kind : TriggerKind)
    (chosen : Definition → Bool) (hfits : ∀ d, chosen d = true → entrance.Fits d) :
    Ensures (reserved H) .owner (engine.runChosen kind chosen entrance.request)
      (fun _ t => entrance.Adds workflows rows t) X s := by
  refine h.askLookup (c := .listEnabled kind.name) trivial fun fresh now t ht => ?_
  simp only [Memory.answer]
  refine (Engine.runEach_enters entrance.request _ [] ht).mono ?_ fun _ _ hx => hx
  rintro _ u ⟨more, hu, hmore⟩
  refine ⟨more, hu, fun created hcreated => ?_⟩
  obtain ⟨d, hd, hcreates⟩ := hmore created hcreated
  obtain ⟨hlisted, hchosen⟩ := List.mem_filter.mp hd
  obtain ⟨row, hrow, hread⟩ := List.mem_filterMap.mp hlisted
  obtain ⟨hmem, henabled⟩ := List.mem_filter.mp hrow
  have hread : Definition.ofRow row = .ok d := by
    cases hok : Engine.readDefinition row with
    | error e => simp [hok, Except.toOption] at hread
    | ok d' =>
        obtain rfl : d' = d := by simpa [hok, Except.toOption] using hread
        exact Engine.ofRow_of_readDefinition hok
  have henabled : row.enabled = true := (Bool.and_eq_true _ _ ▸ henabled).1
  obtain ⟨g, rfl⟩ := Definition.exists_ofGraph hread
  exact admits_of_unstamped ht.workflows hmem ⟨_, henabled, hread, hfits _ hchosen⟩ hcreates

theorem fits_of_isDue {now : Time.Instant} (h : d.isDue now.utc = true) :
    (schedules now).Fits d := by
  rw [Definition.isDue, Bool.and_eq_true] at h
  obtain ⟨-, h⟩ := h
  split at h
  · rename_i expression htrigger
    split at h
    · rename_i cron hcron
      exact ⟨expression, cron, htrigger, hcron, h⟩
    · cases h
  · cases h

theorem single_adds {p : Proc (Call H) (Except RunError Outcome)}
    (h : Ensures (reserved H) .owner p (fun _ t => entrance.Adds workflows rows t) X s) :
    Ensures (reserved H) .owner (single p) (fun _ t => entrance.Adds workflows rows t) X s := by
  refine Ensures.andThen h fun report t ht => ?_
  obtain ⟨more, hmore, hadmits⟩ := ht
  exact hmore.done fun u hu => ⟨more, hu, hadmits⟩

/-- The law of a call: the executions that are created by it are admitted. -/
theorem start_adds (entrance : Entrance)
    (h : Overseen rows (workflows.map WorkflowRow.unstamped) s) :
    Ensures (reserved H) .owner (entrance.start engine)
      (fun _ t => entrance.Adds workflows rows t) X s := by
  cases entrance with
  | execute id request =>
      exact single_adds (execute_adds (.execute id request) h id fun _ hd => hd)
  | manual id userId bindings =>
      exact single_adds (execute_adds (.manual id userId bindings) h id fun _ hd => hd)
  | webhook slug payload => exact single_adds (executeWebhook_adds h slug payload)
  | event name payload =>
      exact runChosen_adds (.event name payload) h .event (fun d => d.trigger = .event name)
        fun d hd => of_decide_eq_true (p := d.trigger = .event name) hd
  | schedules now =>
      exact runChosen_adds (.schedules now) h .schedule (fun d => d.isDue now.utc)
        fun _ hd => fits_of_isDue hd

/-! ### Calls in turn -/

/-- Executions that were created by calls, those of each call apart, are all admitted by it. -/
def Admitted (workflows : List WorkflowRow) (entrances : List Entrance)
    (parts : List (List ExecutionRow)) : Prop :=
  List.Forall₂ (fun entrance part => ∀ row ∈ part, entrance.Admits workflows row) entrances parts

theorem inTurn_adds (entrances : List Entrance)
    (h : Overseen rows (workflows.map WorkflowRow.unstamped) s) :
    Ensures (reserved H) .owner (inTurn engine entrances)
      (fun _ t => ∃ parts, Admitted workflows entrances parts ∧
        Overseen (rows ++ parts.flatten) (workflows.map WorkflowRow.unstamped) t) X s := by
  induction entrances generalizing s rows with
  | nil => exact h.done fun t ht => ⟨[], .nil, by simpa using ht⟩
  | cons entrance rest ih =>
      refine Ensures.andThen (start_adds entrance h) fun report t ht => ?_
      obtain ⟨part, ht, hpart⟩ := ht
      refine Ensures.andThen (ih ht) fun reports u hu => ?_
      obtain ⟨parts, hparts, hu⟩ := hu
      exact hu.done fun v hv => ⟨part :: parts, .cons hpart hparts, by simpa using hv⟩

/-- What has been created so far can be told apart by calls, if all that is created in the end can.
-/
theorem Admitted.of_prefix {entrances : List Entrance} {parts : List (List ExecutionRow)}
    (h : Admitted workflows entrances parts) (hrows : rows <+: parts.flatten) :
    ∃ parts', Admitted workflows entrances parts' ∧ rows = parts'.flatten := by
  induction h generalizing rows with
  | nil => exact ⟨[], .nil, List.prefix_nil.mp hrows⟩
  | @cons entrance part entrances parts hpart _ ih =>
      obtain ⟨rest, hrest⟩ := hrows
      rw [List.flatten_cons, List.append_eq_append_iff] at hrest
      rcases hrest with ⟨more, rfl, -⟩ | ⟨later, rfl, hlater⟩
      · obtain ⟨parts', hparts', hnone⟩ := ih (List.nil_prefix)
        refine ⟨rows :: parts', .cons (fun row hrow => hpart row ?_) hparts', ?_⟩
        · exact List.mem_append_left _ hrow
        · rw [List.flatten_cons, ← hnone, List.append_nil]
      · obtain ⟨parts', hparts', rfl⟩ := ih ⟨rest, hlater.symm⟩
        exact ⟨part :: parts', .cons hpart hparts', rfl⟩

end Entrance

/-! ### Moments -/

/-- What of the row of an execution its end does not touch: all that it has been created with. -/
def ExecutionRow.opened (row : ExecutionRow) : ExecutionRow :=
  { row with status := ExecutionStatus.running.name, result := none, error := none,
             finishedAt := none }

/-- Executions were created by the owner and by foreign code only. -/
def Scene.Fenced (s : Scene) : Prop :=
  ∀ r row, (r, Note.created (.ok row)) ∈ s.log → r = .owner ∨ r = .guest

theorem Scene.Fenced.moves (h : s.Fenced) (hmoves : (reserved H).Moves r s s') : s'.Fenced := by
  obtain ⟨β, c, reply, hpermits, hanswer⟩ := hmoves
  rw [reserved_answers] at hanswer
  intro t row hmem
  rw [hanswer.log_eq, List.mem_append, List.mem_map] at hmem
  rcases hmem with hbefore | ⟨n, hn, hnow⟩
  · exact h t row hbefore
  · obtain ⟨rfl, rfl⟩ := Prod.mk.inj hnow
    rcases hpermits with howner | hguest | hnone
    · exact .inl howner
    · exact .inr hguest
    · have hcreates := hnone reply
      rw [Option.mem_toList.mp hn] at hcreates
      cases hcreates

theorem cancels_reserved {q : Proc (Call H) (Except RunError Bool)} (hq : AsksToCancel s q) :
    q.Ensures (reserved H) .request (fun _ _ => True) (fun _ _ => True) s := by
  obtain ⟨id, rfl⟩ := hq
  exact cancel_ensures_nothing id (fun _ => permits_of_createsNone fun _ => rfl)
    (fun _ => permits_of_createsNone fun _ => rfl) s

/-- What the owner has created at a moment comes first in what it will have created in the end.  So
what will hold of that, and with it of each of its beginnings, holds at the moment. -/
theorem created_of_sound {ρ : Type} {P : List ExecutionRow → Prop}
    {a : Pool (Call H) Scene ρ (Except RunError Bool)}
    (h : Pool.Sound (reserved H) (fun _ t => P (t.log.createdBy .owner)) (fun _ _ => False)
      (fun _ _ => True) a)
    (hP : ∀ rows rows', rows <+: rows' → P rows' → P rows) :
    P (a.state.log.createdBy .owner) := by
  obtain ⟨left, q, s', hsteps, hover⟩ := can_end Starts.exists_answers a.main .owner a.state
  have hlater : Pool.Reaches Scene.Answers AsksToCancel a ⟨q, a.tasks ++ left, a.requests, s'⟩ :=
    Pool.reaches_main hsteps
  have hkeeps : ∀ r s s', (reserved H).Moves r s s' →
      a.state.log.createdBy .owner <+: s.log.createdBy .owner →
      a.state.log.createdBy .owner <+: s'.log.createdBy .owner := by
    rintro r s s' ⟨β, c, reply, -, hanswer⟩ hbefore
    rw [reserved_answers] at hanswer
    rw [hanswer.log_eq, Log.createdBy_append]
    exact hbefore.trans (List.prefix_append _ _)
  obtain ⟨hsound, hprefix⟩ := h.reaches (List.prefix_refl _) hlater hkeeps
    fun _ _ _ hq => cancels_reserved hq
  have hmain := hsound.main
  cases q with
  | done report => exact hP _ _ hprefix (hmain s' (.refl _))
  | panic message => exact (hmain s' (.refl _)).elim
  | _ => exact hover.elim

/-- Calls that start workflows, made one after another among requests to cancel any executions. -/
abbrev Calls (H : Type) :=
  Pool (Call H) Scene (List (Except RunError (List Outcome))) (Except RunError Bool)

namespace Calls

/-- One moment after another. -/
def Later (a b : Calls H) : Prop := Pool.Reaches Scene.Answers AsksToCancel a b

/-- Nothing has happened but that calls are to be made. -/
def initial (engine : Engine H) (entrances : List Entrance) (m : Memory) (here : Local) : Calls H :=
  ⟨Entrance.inTurn engine entrances, [], [], ⟨m, here, []⟩⟩

/-- What has been created by the calls. -/
def created (a : Calls H) : List ExecutionRow := a.state.log.createdBy .owner

/-- What holds at a moment when calls are made over a store: each of the executions that were
created by a call is admitted by it; nobody else has created any, unless handlers do so by
themselves; and the store has the executions that were in it before, and those that were created. -/
structure Gated (entrances : List Entrance) (m : Memory) (a : Calls H) : Prop where
  admitted : ∃ parts, Entrance.Admitted m.workflows entrances parts ∧ a.created = parts.flatten
  fenced : a.state.Fenced
  stores : a.state.memory.executions.map ExecutionRow.opened =
    m.executions.map ExecutionRow.opened ++ a.state.log.created.map ExecutionRow.opened

/-- What is expected of calls in turn. -/
abbrev Sound (entrances : List Entrance) (m : Memory) (a : Calls H) : Prop :=
  Pool.Sound (reserved H)
    (fun _ t => ∃ parts, Entrance.Admitted m.workflows entrances parts ∧
      t.log.createdBy .owner = parts.flatten)
    (fun _ _ => False) (fun _ _ => True) a

variable {entrances : List Entrance} {m : Memory} {here : Local} {a b : Calls H}

theorem Sound.later (h : Sound entrances m a) (hlater : a.Later b) {I : Scene → Prop}
    (hI : ∀ r s s', (reserved H).Moves r s s' → I s → I s') (ha : I a.state) :
    Sound entrances m b ∧ I b.state :=
  Pool.Sound.reaches h ha hlater hI fun _ _ _ hq => cancels_reserved hq

theorem Sound.admitted (h : Sound entrances m a) :
    ∃ parts, Entrance.Admitted m.workflows entrances parts ∧ a.created = parts.flatten := by
  refine created_of_sound (P := fun rows => ∃ parts, Entrance.Admitted m.workflows entrances parts ∧
    rows = parts.flatten) h ?_
  rintro rows _ hprefix ⟨parts, hparts, rfl⟩
  exact hparts.of_prefix hprefix

theorem gated (ha : (initial engine entrances m here).Later a) : a.Gated entrances m := by
  have hinitial : Sound entrances m (initial engine entrances m here) := by
    refine ⟨?_, by simp [initial], by simp [initial]⟩
    have hoverseen : Overseen [] (m.workflows.map WorkflowRow.unstamped) ⟨m, here, []⟩ := ⟨rfl, rfl⟩
    refine (Entrance.inTurn_adds entrances hoverseen).mono ?_ fun _ _ hx => hx
    rintro _ t ⟨parts, hparts, ht⟩
    exact ⟨parts, hparts, ht.created⟩
  let I (s : Scene) : Prop := s.Fenced ∧ s.memory.executions.map ExecutionRow.opened =
    m.executions.map ExecutionRow.opened ++ s.log.created.map ExecutionRow.opened
  have hkeeps : ∀ r s s', (reserved H).Moves r s s' → I s → I s' := by
    rintro r s s' hmoves ⟨hfenced, hstores⟩
    refine ⟨hfenced.moves hmoves, ?_⟩
    obtain ⟨β, c, reply, -, hanswer⟩ := hmoves
    exact Scene.Answers.map_executions (fun _ _ _ => rfl) hstores hanswer
  have hbegins : I (initial engine entrances m here).state := by
    simp [I, initial, Scene.Fenced, Log.created]
  obtain ⟨hsound, hfenced, hstores⟩ := hinitial.later ha hkeeps hbegins
  exact ⟨hsound.admitted, hfenced, hstores⟩

end Calls

/-! ### Calls that are turned away -/

/-- A call was turned away at the entrance. -/
def RunError.IsRejection : RunError → Prop
  | .workflowNotFound _ => True
  | .workflowDisabled _ => True
  | .triggerMismatch _ _ _ => True
  | .invalidDefinition _ => True
  | _ => False

/-- A call reports that it was turned away. -/
def IsTurnedAway (report : Except RunError α) : Prop :=
  ∃ e : RunError, report = .error e ∧ e.IsRejection

/-- A process is past the entrance: it is not turned away any more. -/
def IsPast (p : Proc (Call H) (Except RunError α)) : Prop :=
  ∀ e, p.Yields (.error e) → ¬e.IsRejection

theorem Proc.yields_of_closing {p : Proc (Call H) α} {c : Call H Unit} {a : α}
    (h : (p.closing c).Yields a) : p.Yields a := by
  obtain ⟨message | b, hended, _, hnext⟩ := h
  · exact hnext.elim
  · obtain rfl : b = a := hnext
    exact hended

namespace IsPast

theorem done_ok (a : α) : IsPast (.done (.ok a) : Proc (Call H) (Except RunError α)) := by
  intro e h
  cases h

theorem done_store (cause : StoreError) :
    IsPast (.done (.error (.store cause)) : Proc (Call H) (Except RunError α)) := by
  intro e h
  cases h
  exact id

theorem ask {c : Call H β} {next : β → Proc (Call H) (Except RunError α)}
    (hnext : ∀ reply, IsPast (next reply)) : IsPast (.ask c next) := by
  rintro e ⟨reply, h⟩
  exact hnext reply e h

theorem bind {p : Proc (Call H) β} {f : β → Proc (Call H) (Except RunError α)}
    (hf : ∀ b, p.Yields b → IsPast (f b)) : IsPast (p.bind f) := by
  intro e h
  obtain ⟨b, hb, hnext⟩ := yields_bind.mp h
  exact hf b hb e hnext

end IsPast

namespace Engine

theorem settled_isPast (id : Uuid) (applied : Bool) (status : ExecutionStatus) :
    IsPast (settled id applied status : Proc (Call H) _) := by
  rw [settled]
  split
  · exact .done_ok _
  · refine .ask fun found => ?_
    obtain e | _ | row := found
    · exact .done_store e
    · exact .done_ok status
    · simp only
      cases row.state with
      | error e => exact .done_store e
      | ok last => exact .done_ok last

theorem conclude_isPast (visited : Visited) (stopped : Bool) (startedAt : Time.Instant) :
    IsPast (conclude visited stopped startedAt : Proc (Call H) _) := by
  refine .ask fun finished => ?_
  cases finished with
  | error e => exact .done_store e
  | ok applied =>
      refine .bind fun state hstate => ?_
      cases state with
      | error e =>
          rintro _ ⟨⟩
          exact settled_isPast _ _ _ e hstate
      | ok status => exact .bind fun _ _ => .ask fun finishedAt => .done_ok _

theorem walk_isPast (c : Context) (startedAt : Time.Instant) :
    IsPast (engine.walk d c startedAt) := by
  refine .bind fun visited _ => ?_
  cases visited.ending with
  | ok last => exact conclude_isPast _ _ _
  | error failure => exact .ask fun stopped => conclude_isPast _ _ _

theorem perform_isPast (c : Context) : IsPast (engine.perform d c) := by
  refine .ask fun startedAt => .ask fun found => ?_
  obtain e | _ | row := found
  · exact .done_store e
  · exact walk_isPast c startedAt
  · simp only
    cases row.state with
    | error e => exact .done_store e
    | ok status =>
        simp only
        split
        · exact .ask fun finishedAt => .done_ok _
        · exact walk_isPast c startedAt

theorem abort_isPast (id : Uuid) (message : String) :
    IsPast (abort id message : Proc (Call H) _) := by
  refine .ask fun finished => ?_
  cases finished with
  | error e => exact .done_store e
  | ok applied =>
      rintro _ ⟨⟩
      exact not_false

/-- No run is turned away: it fails by the store, or is broken off. -/
theorem run_isPast (request : RunRequest) : IsPast (engine.run d request) := by
  rw [run_eq]
  refine .ask fun created => ?_
  cases created with
  | error e => exact .done_store e
  | ok row =>
      refine .ask fun _ => ?_
      rintro e ⟨message | report, hended, hnext⟩
      · exact abort_isPast row.id message e hnext
      · obtain rfl : report = .error e := hnext
        exact perform_isPast _ e (yields_of_closing hended)

theorem runEach_isPast (request : RunRequest) (ds : List Definition) (outcomes : List Outcome) :
    IsPast (engine.runEach request ds outcomes) := by
  induction ds generalizing outcomes with
  | nil => exact .done_ok outcomes
  | cons d rest ih =>
      refine .bind fun report hreport => ?_
      cases report with
      | error e =>
          rintro _ ⟨⟩
          exact run_isPast request e hreport
      | ok o => exact ih _

end Engine

namespace Entrance

variable {entrance : Entrance} {row : WorkflowRow} {workflows : List WorkflowRow} {lets : Prop}

theorem letsIn_iff {sought : WorkflowRow → Bool} (h : entrance.sought? = some sought) :
    entrance.LetsIn workflows ↔
      ∃ row, workflows.find? sought = some row ∧ entrance.Allows row := by
  rw [LetsIn, h]
  exact ⟨fun hlets => hlets _ rfl, fun hrow _ heq => Option.some.inj heq ▸ hrow⟩

/-- It does not matter for who is let in when the workflows were last run. -/
theorem letsIn_congr
    (hflows : flows.map WorkflowRow.unstamped = workflows.map WorkflowRow.unstamped) :
    entrance.LetsIn flows ↔ entrance.LetsIn workflows := by
  cases hsought : entrance.sought? with
  | none => simp [LetsIn, hsought]
  | some sought =>
      have hsame : sought ∘ WorkflowRow.unstamped = sought := by
        cases entrance <;> cases hsought <;> rfl
      have hfound : ∀ rows : List WorkflowRow,
          (∃ row, rows.find? sought = some row ∧ entrance.Allows row) ↔
            ∃ row, (rows.map WorkflowRow.unstamped).find? sought = some row ∧
              entrance.Allows row := by
        intro rows
        rw [List.find?_map, hsame]
        simp [allows_unstamped]
      rw [letsIn_iff hsought, letsIn_iff hsought, hfound flows, hfound workflows, hflows]

theorem allows_iff (hread : Definition.ofRow row = .ok d) :
    entrance.Allows row ↔ d.enabled = true ∧ entrance.Fits d := by
  obtain ⟨g, rfl⟩ := Definition.exists_ofGraph hread
  rw [Allows, hread]
  constructor
  · rintro ⟨_, henabled, hd, hfits⟩
    obtain rfl := Except.ok.inj hd
    exact ⟨henabled, hfits⟩
  · exact fun ⟨henabled, hfits⟩ => ⟨_, henabled, rfl, hfits⟩

/-- A call is past the entrance if it is let in, and otherwise it is over, turned away. -/
def Decides (lets : Prop) (p : Proc (Call H) (Except RunError α)) : Prop :=
  (lets ∧ IsPast p) ∨ (¬lets ∧ ∃ e : RunError, p = .done (.error e) ∧ e.IsRejection)

theorem single_decides {p : Proc (Call H) (Except RunError Outcome)} (h : Decides lets p) :
    Decides lets (single p) := by
  rcases h with ⟨hlets, hpast⟩ | ⟨hlets, e, rfl, he⟩
  · refine .inl ⟨hlets, .bind fun report hreport => ?_⟩
    cases report with
    | error e =>
        rintro _ ⟨⟩
        exact hpast e hreport
    | ok o => exact .done_ok [o]
  · exact .inr ⟨hlets, e, rfl, he⟩

theorem runEnabled_decides (request : RunRequest) (hread : Definition.ofRow row = .ok d)
    (hfits : entrance.Fits d) :
    Decides (entrance.Allows row) (engine.runEnabled d request) := by
  rw [allows_iff hread, Engine.runEnabled]
  split
  case isTrue henabled => exact .inl ⟨⟨henabled, hfits⟩, Engine.run_isPast request⟩
  case isFalse henabled => exact .inr ⟨fun h => henabled h.1, _, rfl, trivial⟩

/-- What is found decides, if what can be read does. -/
theorem loaded_decides (reference : String) {found : Option WorkflowRow}
    {next : Definition → Proc (Call H) (Except RunError Outcome)}
    (hnext : ∀ row d, found = some row → Definition.ofRow row = .ok d →
      Decides (entrance.Allows row) (next d)) :
    Decides (∃ row, found = some row ∧ entrance.Allows row)
      (match Engine.loaded reference (.ok found) with
        | .error e => .done (.error e)
        | .ok d => next d) := by
  cases found with
  | none => exact .inr ⟨by simp, _, rfl, trivial⟩
  | some row =>
      simp only [Option.some.injEq, exists_eq_left', Engine.loaded]
      cases hread : Engine.readDefinition row with
      | ok d => exact hnext row d rfl (Engine.ofRow_of_readDefinition hread)
      | error e =>
          rw [Engine.readDefinition] at hread
          cases hrow : Definition.ofRow row with
          | ok d => simp [hrow, Except.mapError] at hread
          | error message =>
              obtain rfl : .invalidDefinition message = e := by
                simpa [hrow, Except.mapError] using hread
              refine .inr ⟨?_, _, rfl, trivial⟩
              rintro ⟨d, -, hd, -⟩
              rw [hrow] at hd
              cases hd

theorem execute_decides (entrance : Entrance) (id : Uuid) (request : RunRequest) (m : Memory)
    (hfits : ∀ d : Definition, d.id = id → entrance.Fits d) :
    Decides (∃ row, m.workflow? id = some row ∧ entrance.Allows row)
      (match Engine.loaded id.text (.ok (m.workflow? id)) with
        | .error e => .done (.error e)
        | .ok d => engine.runEnabled d request) := by
  refine loaded_decides id.text fun row d hfound hread => ?_
  have hid : row.id = id := by simpa using List.find?_some hfound
  refine runEnabled_decides request hread (hfits d ?_)
  obtain ⟨g, rfl⟩ := Definition.exists_ofGraph hread
  exact hid

theorem executeWebhook_decides (slug : String) (payload : Json) (m : Memory) :
    Decides (∃ row, m.workflowOfSlug? slug = some row ∧ (webhook slug payload).Allows row)
      (match Engine.loaded slug (.ok (m.workflowOfSlug? slug)) with
        | .error e => .done (.error e)
        | .ok d =>
          if d.trigger = .webhook then engine.runEnabled d (.plain .webhook payload)
          else .done (.error (.triggerMismatch d.slug .webhook d.trigger.kind))) := by
  refine loaded_decides slug fun row d hfound hread => ?_
  split
  case isTrue htrigger =>
    have hslug : row.slug = slug := by simpa using List.find?_some hfound
    refine runEnabled_decides _ hread ⟨?_, htrigger⟩
    obtain ⟨g, rfl⟩ := Definition.exists_ofGraph hread
    exact hslug
  case isFalse htrigger =>
    exact .inr ⟨fun hallows => htrigger ((allows_iff hread).mp hallows).2.2, _, rfl, trivial⟩

/-- A call begins with a look for workflows, and what it finds decides whether it is let in. -/
theorem start_asks (engine : Engine H) (entrance : Entrance) :
    ∃ (β : Type) (c : StoreCall β) (next : _), c.IsLookup ∧
      entrance.start engine = .askStore c next ∧ ∀ fresh now (m : Memory),
        Decides (entrance.LetsIn m.workflows) (next (Memory.answer fresh now c m).1) := by
  cases entrance with
  | execute id request =>
      refine ⟨_, .findWorkflow id, _, trivial, rfl, fun fresh now m => ?_⟩
      rw [letsIn_iff rfl]
      exact single_decides (execute_decides (.execute id request) id request m fun _ hd => hd)
  | manual id userId bindings =>
      refine ⟨_, .findWorkflow id, _, trivial, rfl, fun fresh now m => ?_⟩
      rw [letsIn_iff rfl]
      exact single_decides (execute_decides (.manual id userId bindings) id _ m fun _ hd => hd)
  | webhook slug payload =>
      refine ⟨_, .findWorkflowBySlug slug, _, trivial, rfl, fun fresh now m => ?_⟩
      rw [letsIn_iff rfl]
      exact single_decides (executeWebhook_decides slug payload m)
  | event name payload =>
      refine ⟨_, .listEnabled TriggerKind.event.name, _, trivial, rfl, fun fresh now m => ?_⟩
      exact .inl ⟨fun _ hnone => (by cases hnone), Engine.runEach_isPast _ _ _⟩
  | schedules now =>
      refine ⟨_, .listEnabled TriggerKind.schedule.name, _, trivial, rfl, fun fresh now m => ?_⟩
      exact .inl ⟨fun _ hnone => (by cases hnone), Engine.runEach_isPast _ _ _⟩

end Entrance

/-- Whatever a store has, whatever the handlers do and whoever asks to cancel executions: when calls
are made one after another, then each execution that is created by one of them belongs to a workflow
that is enabled, can be read and is one that the call is for, and was created as the call requests
it.  And from whatever moment on a call is made: it is turned away exactly if the workflow that it
asks for is not there or not allowed in, and then everything is as it could be if the call had been
over at once.  So if nothing goes on beside it, then nothing has changed. -/
theorem entrances_gated (engine : Engine H) :
    (∀ entrances m here a, (Calls.initial engine entrances m here).Later a → a.Gated entrances m) ∧
    ∀ (opens : Scene → Proc (Call H) (Except RunError Bool) → Prop) (entrance : Entrance)
      (tasks : List (Proc (Call H) Unit)) (requests : List (Proc (Call H) (Except RunError Bool)))
      (s : Scene) (b : Starts H) (report : Except RunError (List Outcome)),
      Pool.Reaches Scene.Answers opens ⟨entrance.start engine, tasks, requests, s⟩ b →
      b.main = .done report →
        (IsTurnedAway report ↔ ¬entrance.LetsIn s.memory.workflows) ∧
        (IsTurnedAway report →
          Pool.Reaches Scene.Answers opens ⟨.done report, tasks, requests, s⟩ b ∧
            (tasks = [] → requests = [] → (∀ t q, ¬opens t q) → b.state = s)) := by
  refine ⟨fun _ _ _ _ ha => Calls.gated ha, ?_⟩
  intro opens entrance tasks requests s b report hb hdone
  obtain ⟨β, c, next, hc, hstart, hdecides⟩ := Entrance.start_asks engine entrance
  rw [hstart] at hb
  constructor
  · have hkeep : ∀ r (t t' : Scene), (Rules.lax (Scene.Answers (H := H))).Moves r t t' →
        t.memory.workflows.map WorkflowRow.unstamped =
          s.memory.workflows.map WorkflowRow.unstamped →
        t'.memory.workflows.map WorkflowRow.unstamped =
          s.memory.workflows.map WorkflowRow.unstamped := by
      rintro r t t' ⟨β, c, reply, -, hanswer⟩ ht
      exact (Scene.Answers.unstamped hanswer).trans ht
    obtain ⟨reply, t, t', hflows, hanswer, hyields⟩ := Pool.exists_reply hkeep rfl hb hdone
    obtain ⟨-, fresh, now, rfl⟩ := Scene.answers_lookup hc hanswer
    rw [← Entrance.letsIn_congr hflows]
    rcases hdecides fresh now t.memory with ⟨hlets, hpast⟩ | ⟨hlets, e, hover, he⟩
    · refine iff_of_false ?_ (not_not_intro hlets)
      rintro ⟨e, rfl, he⟩
      exact hpast e hyields he
    · rw [hover] at hyields
      exact iff_of_true ⟨e, hyields.symm, he⟩ hlets
  · rintro ⟨e, rfl, he⟩
    have hover : Pool.Reaches Scene.Answers opens ⟨.done (.error e), tasks, requests, s⟩ b := by
      refine Pool.reaches_over_of_ask (fun reply t t' hanswer => ?_) hb hdone
      obtain ⟨hsame, fresh, now, rfl⟩ := Scene.answers_lookup hc hanswer
      refine ⟨hsame, ?_⟩
      rcases hdecides fresh now t.memory with ⟨-, hpast⟩ | ⟨-, e', hdone', -⟩
      · exact .inr fun hyields => hpast e hyields he
      · exact .inl ⟨_, hdone'⟩
    refine ⟨hover, ?_⟩
    rintro rfl rfl hopens
    rw [Pool.eq_of_reaches_over hover hopens]

/-- A workflow that is started by hand is not started as a webhook, and nothing is left of the
attempt; then it is started by hand. -/
theorem turned_away_then_admitted :
    let engine : Engine Empty := .create [] [] .standard
    let flow := (Definition.create ⟨1⟩ "nightly" .manual
      [⟨"start", .trigger, none, .null⟩] []).toRow ⟨0, 0⟩
    let s : Scene := ⟨⟨[flow], [], [], [], 0⟩, .empty, []⟩
    (∃ b : Starts Empty, Pool.Reaches Scene.Answers (fun _ _ => False)
        ⟨(Entrance.webhook "nightly" .null).start engine, [], [], s⟩ b ∧
      b.main = .done (.error (.triggerMismatch "nightly" .webhook .manual)) ∧ b.state = s) ∧
    ∃ (a : Calls Empty) (row : ExecutionRow),
      (Calls.initial engine [.webhook "nightly" .null, .manual ⟨1⟩ none none] s.memory
        .empty).Later a ∧
      a.created = [row] ∧ (Entrance.manual ⟨1⟩ none none).Admits [flow] row := by
  intro engine flow s
  obtain ⟨hgated, hrejected⟩ := entrances_gated engine
  have hlook : Scene.Answers .owner _ (.store (.findWorkflowBySlug "nightly") : Call Empty _) s
      (.ok (some flow)) s := by
    refine ⟨⟨⟨0⟩, ⟨0, 0⟩, ⟨rfl, ?_, ?_⟩, rfl⟩, rfl, rfl⟩ <;> simp [s, Local.empty]
  constructor
  · have hb : Pool.Reaches Scene.Answers (fun _ _ => False)
        (⟨(Entrance.webhook "nightly" .null).start engine, [], [], s⟩ : Starts Empty)
        ⟨.done (.error (.triggerMismatch "nightly" .webhook .manual)), [], [], s⟩ :=
      .single (.main (.ask hlook))
    obtain ⟨-, hover⟩ := hrejected _ _ _ _ _ _ _ hb rfl
    obtain ⟨-, hsame⟩ := hover ⟨_, rfl, trivial⟩
    exact ⟨_, hb, rfl, hsame rfl rfl fun _ _ h => h⟩
  · let request : RunRequest := (Entrance.manual ⟨1⟩ none none).request
    let row := (request.toNew ⟨1⟩).toRow ⟨0⟩ ⟨0, 0⟩
    let s₁ : Scene := ⟨s.memory.addExecution row, .empty, [(.owner, .created (.ok row))]⟩
    have hfind : Scene.Answers .owner _ (.store (.findWorkflow ⟨1⟩) : Call Empty _) s
        (.ok (some flow)) s := by
      refine ⟨⟨⟨0⟩, ⟨0, 0⟩, ⟨rfl, ?_, ?_⟩, rfl⟩, rfl, rfl⟩ <;> simp [s, Local.empty]
    have hcreate : Scene.Answers .owner _
        (.store (.createExecution (request.toNew ⟨1⟩)) : Call Empty _) s (.ok row) s₁ := by
      refine ⟨⟨⟨0⟩, ⟨0, 0⟩, ⟨rfl, ?_, ?_⟩, rfl⟩, rfl, rfl⟩ <;> simp [s, Local.empty]
    have hlooked : (Calls.initial engine [.webhook "nightly" .null, .manual ⟨1⟩ none none] s.memory
        .empty).Later ⟨Entrance.inTurn engine [.manual ⟨1⟩ none none] |>.bind fun reports =>
          .done (.error (.triggerMismatch "nightly" .webhook .manual) :: reports), [], [], s⟩ :=
      .single (.main (.ask hlook))
    have ha := (hlooked.tail (.main (.ask hfind))).tail (.main (.ask hcreate))
    refine ⟨_, row, ha, rfl, ?_⟩
    obtain ⟨⟨parts, hparts, hcreated⟩, -, -⟩ := hgated _ _ _ _ ha
    obtain ⟨hooked, rest, hwebhook, hrest, rfl⟩ := List.forall₂_cons_left_iff.mp hparts
    obtain ⟨started, last, hmanual, hnone, rfl⟩ := List.forall₂_cons_left_iff.mp hrest
    obtain rfl := List.forall₂_nil_left_iff.mp hnone
    have hrows : [row] = hooked ++ (started ++ []) := hcreated
    -- The workflow does not fit a webhook, so the row is of the second call.
    have hempty : hooked = [] := by
      rw [List.eq_nil_iff_forall_not_mem]
      intro other hother
      obtain ⟨found, hmem, ⟨d, -, hread, -, htrigger⟩, -⟩ := hwebhook other hother
      obtain rfl := List.mem_singleton.mp hmem
      have hflow : (Definition.ofRow flow).map Definition.trigger = .ok .manual := by rfl
      rw [hread] at hflow
      cases htrigger.symm.trans (Except.ok.inj hflow)
    subst hempty
    have hlast : row ∈ started := by
      rw [List.nil_append, List.append_nil] at hrows
      exact hrows ▸ List.mem_singleton_self row
    exact hmanual row hlast

end Workflow
