import Workflow.Proofs.Except
import Workflow.Proofs.Run.Entrance
import Workflow.Web.Service

/-!
# What becomes of the body of a request

The body of a request that starts workflows is meant to say with what they are run; an empty body
says nothing, and then they are run with an empty object.  Each execution that is created has what
the body says.  But a body that cannot be read is taken for an empty one: the request is served, and
workflows are run without what was sent.
-/

namespace Workflow.Web

open Proc Json

variable {H α : Type} {engine : Engine H} {r : Request} {call : Entrance}

/-! ### Calls that are asked for -/

/-- Where a request goes, if its method may be used there: its route, and the part of the path that
names the thing. -/
def Request.target? (r : Request) : Option (Route × String) :=
  if r.method = "OPTIONS" then none
  else
    (Route.ofPath? r.path).bind fun route =>
      if route.allows r.method then route.decoded?.map (route, ·) else none

/-- The call that starts workflows by a route, given what the body says to the route. -/
def Route.call? (part : String) (said? : Option ExecuteRequest) (payload? : Option Json) :
    Route → Option Entrance
  | .execute _ =>
    (Uuid.parse part).toOption.bind fun id => said?.map fun said =>
      .execute id
        { triggeredBy := .manual
          userId := said.userId
          agentId := said.agentId
          payload := if said.input.isNull then .obj [] else said.input
          bindings := said.bindings }
  | .webhook _ => payload?.map fun payload => .webhook part payload
  | .event _ => payload?.map fun payload => .event part payload
  | .execution _ => none
  | .cancel _ => none

/-- What a body is meant to say: what it decodes to, or something that goes without saying if it is
empty. -/
def Request.said? (r : Request) (decode : Decoder α) (silent : α) : Option α :=
  if r.body = "" then some silent else r.data? decode

/-- The call that a request means, if it can be told. -/
def Request.meant? (r : Request) : Option Entrance :=
  r.target?.bind fun (route, part) =>
    route.call? part (r.said? ExecuteRequest.decoder .empty) (r.said? Decoder.json (.obj []))

/-- The call that is made for a request, if there is one. -/
def Request.made? (r : Request) : Option Entrance :=
  r.target?.bind fun (route, part) =>
    route.call? part (some ((r.data? ExecuteRequest.decoder).getD .empty)) (some (payload r))

theorem Request.data?_of_empty (hbody : r.body = "") :
    r.data? ExecuteRequest.decoder = none ∧ r.data? Decoder.json = none := by
  obtain ⟨fault, hread⟩ : ∃ fault, (readDocument "").1 = .bad fault := ⟨_, rfl⟩
  constructor <;>
  · rw [Request.data?, hbody]
    split
    · rw [Decoder.ofStart, hread]
      rfl
    · rfl

theorem Request.getD_of_said? {decode : Decoder α} {silent a : α}
    (hempty : r.body = "" → r.data? decode = none) (h : r.said? decode silent = some a) :
    (r.data? decode).getD silent = a := by
  rw [Request.said?] at h
  split at h
  case isTrue hbody =>
    rw [hempty hbody]
    exact Option.some.inj h
  case isFalse => rw [h, Option.getD_some]

theorem Request.data?_of_said? {decode : Decoder α} {silent : α}
    (h : r.said? decode silent = none) : r.data? decode = none := by
  rw [Request.said?] at h
  split at h
  case isTrue => cases h
  case isFalse => exact h

theorem Request.made?_of_meant? (h : r.meant? = some call) : r.made? = some call := by
  obtain ⟨⟨route, part⟩, htarget, hcall⟩ := Option.bind_eq_some_iff.mp h
  rw [Request.made?, htarget, Option.bind_some]
  cases route with
  | execution id | cancel id => cases hcall
  | webhook name | event name =>
      obtain ⟨said, hsaid, rfl⟩ := Option.map_eq_some_iff.mp hcall
      rw [payload, Request.getD_of_said? (fun hbody => (Request.data?_of_empty hbody).2) hsaid]
      rfl
  | execute text =>
      obtain ⟨id, hid, hsome⟩ := Option.bind_eq_some_iff.mp hcall
      obtain ⟨said, hsaid, rfl⟩ := Option.map_eq_some_iff.mp hsome
      rw [Request.getD_of_said? (fun hbody => (Request.data?_of_empty hbody).1) hsaid]
      simp only [Route.call?, hid, Option.bind_some, Option.map_some]

/-! ### What is done for a request -/

/-- What a route answers when the call that it makes has ended. -/
def answer (call : Entrance) (ended : Except RunError (List Outcome)) : Response :=
  match call with
  | .event _ _ => answered outcomes ended
  | _ => answered (fun os => (os.head?.map Outcome.toJson).getD .null) ended

theorem single_bind (p : Proc (Call H) (Except RunError Outcome)) :
    ((Entrance.single p).bind fun ended =>
        .done (answered (fun os => (os.head?.map Outcome.toJson).getD .null) ended)) =
      p.bind fun ended => .done (answered Outcome.toJson ended) := by
  rw [Entrance.single, bind_assoc]
  refine congrArg p.bind (funext fun ended => ?_)
  cases ended <;> rfl

/-- A request without a target is refused, and its body is not looked at. -/
theorem handle_of_target?_eq_none (engine : Engine H) (h : r.target? = none) :
    ∃ response, ∀ body, handle engine { r with body } = .done response := by
  rw [Request.target?] at h
  by_cases hmethod : r.method = "OPTIONS"
  · exact ⟨_, fun body => if_pos hmethod⟩
  rw [if_neg hmethod] at h
  simp only [handle, if_neg hmethod]
  cases hroute : Route.ofPath? r.path with
  | none => exact ⟨_, fun body => rfl⟩
  | some route =>
      rw [hroute, Option.bind_some] at h
      cases hallowed : route.allows r.method with
      | false =>
          simp only [hallowed]
          exact ⟨_, fun body => rfl⟩
      | true =>
          rw [if_pos hallowed, Option.map_eq_none_iff] at h
          simp only [hallowed, h]
          exact ⟨_, fun body => rfl⟩

theorem handle_of_target? (engine : Engine H) {route : Route} {part : String}
    (h : r.target? = some (route, part)) :
    route.allows r.method = true ∧
      handle engine r = (serve engine r route part).bind fun response =>
        .done (if r.method = "HEAD" then { response with body := .empty } else response) := by
  rw [Request.target?] at h
  split at h
  case isTrue => cases h
  case isFalse hmethod =>
    obtain ⟨route', hroute, h⟩ := Option.bind_eq_some_iff.mp h
    split at h
    case isFalse => cases h
    case isTrue hallowed =>
      obtain ⟨part', hpart, heq⟩ := Option.map_eq_some_iff.mp h
      obtain ⟨rfl, rfl⟩ := Prod.mk.inj heq
      refine ⟨hallowed, ?_⟩
      simp only [handle, if_neg hmethod, hroute, hallowed, hpart]
      rfl

/-- A request that makes a call is answered when the call has ended. -/
theorem handle_of_made? (engine : Engine H) (h : r.made? = some call) :
    handle engine r = (call.start engine).bind fun ended => .done (answer call ended) := by
  obtain ⟨⟨route, part⟩, htarget, hcall⟩ := Option.bind_eq_some_iff.mp h
  obtain ⟨hallowed, hhandle⟩ := handle_of_target? engine htarget
  -- The routes that start workflows are for `POST` only, so the answer keeps its body.
  have hhead : r.method ≠ "HEAD" := by
    intro hmethod
    cases route with
    | execution id => cases hcall
    | _ => simp [Route.allows, hmethod] at hallowed
  simp only [hhandle, if_neg hhead, bind_done]
  cases route with
  | execution id | cancel id => cases hcall
  | webhook slug =>
      obtain rfl := Option.some.inj hcall
      exact (single_bind _).symm
  | event name =>
      obtain rfl := Option.some.inj hcall
      rfl
  | execute text =>
      obtain ⟨id, hid, hsome⟩ := Option.bind_eq_some_iff.mp hcall
      obtain rfl := Option.some.inj hsome
      rw [serve, withId, toOption_eq_some hid]
      exact (single_bind _).symm

/-- A body that cannot be read is taken for an empty one. -/
theorem handle_of_meant?_eq_none (engine : Engine H) (h : r.meant? = none) :
    handle engine r = handle engine { r with body := "" } := by
  cases htarget : r.target? with
  | none =>
      obtain ⟨response, hresponse⟩ := handle_of_target?_eq_none engine htarget
      exact (hresponse r.body).trans (hresponse "").symm
  | some target =>
      obtain ⟨route, part⟩ := target
      let silent : Request := { r with body := "" }
      have hsilent : silent.target? = some (route, part) := htarget
      obtain ⟨hnone, hpayload⟩ := Request.data?_of_empty (r := silent) rfl
      rw [(handle_of_target? engine htarget).2, (handle_of_target? engine hsilent).2]
      refine congrArg (Proc.bind · _) ?_
      rw [Request.meant?, htarget, Option.bind_some] at h
      cases route with
      | execution id | cancel id => rfl
      | webhook name | event name =>
          have hdata := Request.data?_of_said? (Option.map_eq_none_iff.mp h)
          rw [serve, serve, payload, payload, hdata, hpayload]
      | execute text =>
          rw [serve, serve, withId, withId]
          cases hid : Uuid.parse part with
          | error message => rfl
          | ok id =>
              simp only [Route.call?, hid] at h
              have hdata := Request.data?_of_said? (Option.map_eq_none_iff.mp h)
              simp only [hdata, hnone]

/-! ### What is created for a request -/

section

variable {rows : List ExecutionRow} {flows : List WorkflowRow} {X : String → Scene → Prop}

theorem maintains_done {a : α} :
    Maintains (reserved H) (Overseen rows flows) X (.done a : Proc (Call H) α) :=
  fun _ hs => hs.done fun _ ht => ht

theorem maintains_ask {β : Type} {c : Call H β} {next : β → Proc (Call H) α} (hc : c.CreatesNone)
    (hnext : ∀ reply, Maintains (reserved H) (Overseen rows flows) X (next reply)) :
    Maintains (reserved H) (Overseen rows flows) X (.ask c next) := by
  refine fun s hs t ht => ⟨permits_of_createsNone hc, fun reply t' hanswer => ?_⟩
  rw [reserved_answers] at hanswer
  exact hnext reply t' ((hs.meanwhile ht).answered hanswer fun _ => hc reply)

theorem getExecution_maintains (id : Uuid) :
    Maintains (reserved H) (Overseen rows flows) X (Engine.getExecution id) :=
  maintains_ask (fun _ => rfl) fun _ => maintains_done

theorem cancel_maintains (id : Uuid) :
    Maintains (reserved H) (Overseen rows flows) X (Engine.cancel id) := by
  refine maintains_ask (fun _ => rfl) fun finished => ?_
  cases finished with
  | error e => exact maintains_done
  | ok applied => exact maintains_ask (fun _ => rfl) fun _ => maintains_done

theorem withId_maintains {text : String} {f : Uuid → Proc (Call H) Response}
    (hf : ∀ id, Maintains (reserved H) (Overseen rows flows) X (f id)) :
    Maintains (reserved H) (Overseen rows flows) X (withId text f) := by
  rw [withId]
  split
  · exact hf _
  · exact maintains_done

/-- A request that makes no call that starts workflows creates nothing. -/
theorem handle_maintains (h : r.made? = none) :
    Maintains (reserved H) (Overseen rows flows) X (handle engine r) := by
  cases htarget : r.target? with
  | none =>
      obtain ⟨response, hresponse⟩ := handle_of_target?_eq_none engine htarget
      rw [hresponse r.body]
      exact maintains_done
  | some target =>
      obtain ⟨route, part⟩ := target
      rw [(handle_of_target? engine htarget).2]
      refine Maintains.bind ?_ fun _ => maintains_done
      rw [Request.made?, htarget, Option.bind_some] at h
      cases route with
      | webhook name | event name => cases h
      | execute text =>
          rw [serve, withId]
          cases hid : Uuid.parse part with
          | error message => exact maintains_done
          | ok id =>
              simp only [Route.call?, hid] at h
              cases h
      | execution text =>
          refine withId_maintains fun id => (getExecution_maintains id).bind fun _ => ?_
          exact maintains_done
      | cancel text =>
          refine withId_maintains fun id => (getExecution_maintains id).bind fun found => ?_
          obtain e | _ | row := found
          · exact maintains_done
          · exact maintains_done
          · exact (cancel_maintains id).bind fun _ => maintains_done

end

/-- A call by which a request is served, among requests to cancel any executions. -/
abbrev Service (H : Type) := Pool (Call H) Scene Response (Except RunError Bool)

namespace Service

/-- Nothing has happened but that a request is to be served. -/
def initial (engine : Engine H) (r : Request) (m : Memory) (here : Local) : Service H :=
  ⟨handle engine r, [], [], ⟨m, here, []⟩⟩

/-- One moment after another. -/
def Later (a b : Service H) : Prop := Pool.Reaches Scene.Answers AsksToCancel a b

/-- What has been created for the request. -/
def created (a : Service H) : List ExecutionRow := a.state.log.createdBy .owner

/-- Each execution that is created for a request is admitted by the call that is made. -/
theorem created_by_made {m : Memory} {here : Local} {a : Service H}
    (ha : (initial engine r m here).Later a) :
    ∀ row ∈ a.created, ∃ call, r.made? = some call ∧ call.Admits m.workflows row := by
  let P (rows : List ExecutionRow) : Prop :=
    ∀ row ∈ rows, ∃ call, r.made? = some call ∧ call.Admits m.workflows row
  have hoverseen : Overseen [] (m.workflows.map WorkflowRow.unstamped) ⟨m, here, []⟩ := ⟨rfl, rfl⟩
  have hmain : Ensures (reserved H) .owner (handle engine r)
      (fun _ t => P (t.log.createdBy .owner)) (fun _ _ => False) ⟨m, here, []⟩ := by
    cases hmade : r.made? with
    | none =>
        refine (handle_maintains hmade _ hoverseen).mono ?_ fun _ _ hx => hx
        intro _ t ht
        rw [ht.created]
        exact List.forall_mem_nil _
    | some call =>
        rw [handle_of_made? engine hmade]
        refine Ensures.andThen (Entrance.start_adds call hoverseen) fun _ t ht => ?_
        obtain ⟨more, ht, hadmits⟩ := ht
        refine ht.done fun u hu row hrow => ⟨call, hmade, hadmits row ?_⟩
        rwa [hu.created] at hrow
  have hinitial : Pool.Sound (reserved H) (fun _ t => P (t.log.createdBy .owner))
      (fun _ _ => False) (fun _ _ => True) (initial engine r m here) :=
    ⟨hmain, by simp [initial], by simp [initial]⟩
  obtain ⟨hsound, -⟩ := hinitial.reaches (I := fun _ => True) trivial ha
    (fun _ _ _ _ _ => trivial) fun _ _ _ hq => cancels_reserved hq
  exact created_of_sound (P := P) hsound fun rows rows' hfirst hrows row hrow =>
    hrows row (hfirst.subset hrow)

end Service

/-- Whatever a store has, whatever the handlers do and whoever asks to cancel executions: if it can
be told what a request means, then it is answered with what the call that it means has come to, and
every execution that is created for it is let in by that call, with what the body says.  If it
cannot be told, then the request is served as if its body were empty.  So executions are created as
the request means it exactly if it can be told what it means, or none is created. -/
theorem created_as_meant_iff (engine : Engine H) (r : Request) (m : Memory) (here : Local)
    (a : Service H) (ha : (Service.initial engine r m here).Later a) :
    (∀ call, r.meant? = some call →
      (handle engine r = (call.start engine).bind fun ended => .done (answer call ended)) ∧
      ∀ row ∈ a.created, call.Admits m.workflows row ∧
        row.triggerData = call.request.payload ∧ row.userId = call.request.userId ∧
        row.agentId = call.request.agentId) ∧
    (r.meant? = none → handle engine r = handle engine { r with body := "" }) ∧
    ((∀ row ∈ a.created, ∃ call, r.meant? = some call ∧ call.Admits m.workflows row) ↔
      r.meant?.isSome ∨ a.created = []) := by
  have hmade := Service.created_by_made ha
  have hmeant : ∀ call, r.meant? = some call → ∀ row ∈ a.created, call.Admits m.workflows row := by
    intro call hcall row hrow
    obtain ⟨call', hcall', hadmits⟩ := hmade row hrow
    obtain rfl := Option.some.inj (hcall'.symm.trans (Request.made?_of_meant? hcall))
    exact hadmits
  refine ⟨fun call hcall => ⟨handle_of_made? engine (Request.made?_of_meant? hcall),
    fun row hrow => ?_⟩, handle_of_meant?_eq_none engine, fun hlaw => ?_, fun hread row hrow => ?_⟩
  · have hadmits := hmeant call hcall row hrow
    obtain ⟨_, _, -, fresh, now, hnew⟩ := hmeant call hcall row hrow
    refine ⟨hadmits, ?_, ?_, ?_⟩ <;> rw [hnew] <;> rfl
  · cases hnone : a.created with
    | nil => exact .inr rfl
    | cons row rest =>
        obtain ⟨call, hcall, -⟩ := hlaw row (hnone ▸ List.mem_cons_self)
        exact .inl (hcall ▸ rfl)
  · rcases hread with hsome | hnone
    · obtain ⟨call, hcall⟩ := Option.isSome_iff_exists.mp hsome
      exact ⟨call, hcall, hmeant call hcall row hrow⟩
    · rw [hnone] at hrow
      cases hrow

/-- The body that is sent to a webhook breaks off.  It cannot be told what is meant, and yet the
workflow is run, with an empty object in place of what was sent. -/
theorem created_from_broken_body :
    let engine : Engine Empty := .create [] [] .standard
    let flow := (Definition.create ⟨1⟩ "nightly" .webhook
      [⟨"start", .trigger, none, .null⟩] []).toRow ⟨0, 0⟩
    let m : Memory := ⟨[flow], [], [], [], 0⟩
    let r : Request :=
      ⟨"POST", "/api/v1/webhook/nightly", some "application/json", "\x7b\"email\": "⟩
    ∃ (a : Service Empty) (row : ExecutionRow),
      (Service.initial engine r m .empty).Later a ∧ r.body ≠ "" ∧ r.meant? = none ∧
        handle engine r = handle engine { r with body := "" } ∧
        a.created = [row] ∧ row.triggerData = .obj [] ∧
        ¬∀ row ∈ a.created, ∃ call, r.meant? = some call ∧ call.Admits m.workflows row := by
  intro engine flow m r
  let s : Scene := ⟨m, .empty, []⟩
  let call : Entrance := .webhook "nightly" (.obj [])
  let row := (call.request.toNew ⟨1⟩).toRow ⟨0⟩ ⟨0, 0⟩
  let s₁ : Scene := ⟨m.addExecution row, .empty, [(.owner, .created (.ok row))]⟩
  have hfind : Scene.Answers .owner _ (.store (.findWorkflowBySlug "nightly") : Call Empty _) s
      (.ok (some flow)) s := by
    refine ⟨⟨⟨0⟩, ⟨0, 0⟩, ⟨rfl, ?_, ?_⟩, rfl⟩, rfl, rfl⟩ <;> simp [s, Local.empty]
  have hcreate : Scene.Answers .owner _
      (.store (.createExecution (call.request.toNew ⟨1⟩)) : Call Empty _) s (.ok row) s₁ := by
    refine ⟨⟨⟨0⟩, ⟨0, 0⟩, ⟨rfl, ?_, ?_⟩, rfl⟩, rfl, rfl⟩ <;> simp [s, Local.empty]
  have htarget : r.target? = some (.webhook "nightly", "nightly") := by
    change Request.target? ⟨"POST", "/api/v1/webhook/nightly", some "application/json",
      "\x7b\"email\": "⟩ = _
    decide +kernel
  have hdata : r.data? Decoder.json = none := by
    change Request.data? ⟨"POST", "/api/v1/webhook/nightly", some "application/json",
      "\x7b\"email\": "⟩ _ = _
    rw [← Option.isNone_iff_eq_none]
    decide +kernel
  have hbody : r.body ≠ "" := by decide
  have hmade : r.made? = some call := by
    rw [Request.made?, htarget, Option.bind_some, payload, hdata]
    rfl
  have hmeant : r.meant? = none := by
    rw [Request.meant?, htarget, Option.bind_some]
    refine Option.map_eq_none_iff.mpr ?_
    rw [Request.said?, if_neg hbody, hdata]
  have hinitial : Service.initial engine r m .empty =
      ⟨(call.start engine).bind fun ended => .done (answer call ended), [], [], s⟩ := by
    rw [Service.initial, handle_of_made? engine hmade]
  have ha : (Service.initial engine r m .empty).Later
      ⟨(call.start engine).bind fun ended => .done (answer call ended), [], [], s⟩ := by
    rw [hinitial]
    exact .refl
  have ha := (ha.tail (.main (.ask hfind))).tail (.main (.ask hcreate))
  obtain ⟨-, hsilent, hlaw⟩ := created_as_meant_iff engine r m .empty _ ha
  refine ⟨_, row, ha, hbody, hmeant, hsilent hmeant, rfl, rfl, fun h => ?_⟩
  rcases hlaw.mp h with hsome | hnone
  · rw [hmeant] at hsome
    cases hsome
  · cases hnone

end Workflow.Web
