import Workflow.Proofs.Primitive.Lookup
import Workflow.Proofs.Run.History
import Workflow.Proofs.Run.Scene
import Workflow.Proofs.Run.Walk

/-!
# Invocations of handlers

A call for a primitive is refused, or a handler is invoked for it.  It is refused without a trace
unless the primitive is found, is enabled, accepts the input and has a handler; then the handler is
invoked once, and one record of the invocation is inserted in the store.  The record says what the
call was for and how it ended, and what becomes of the record makes no difference to the call.
-/

namespace Workflow

open Proc

universe u

variable {H : Type} {β : Type}

/-! ### Events that count -/

/-- An event is that something was run under a limit. -/
def Event.isRun {E : Type → Type 1} : Event E → Bool
  | .called _ _ => false
  | .ran _ _ => true

/-- A call inserts the record of an invocation. -/
def StoreCall.isAudit : StoreCall β → Bool
  | .insertAudit _ => true
  | _ => false

/-- An event is that the store was asked to insert the record of an invocation. -/
def Event.isAudit : Event (Call H) → Bool
  | .called (.store c) _ => c.isAudit
  | _ => false

/-- The question that ends the invocation of a handler early, if its caller can be told to stop. -/
def CallSite.question (site : CallSite) (H : Type) : Option (Call H Bool) :=
  site.stop.map fun id => .here (.isStopped id)

namespace History

/-- What was run under a limit. -/
def runs (h : History (Call H)) : History (Call H) := h.filter fun e => e.isRun

/-- What was asked of the store to insert records of invocations. -/
def audits (h : History (Call H)) : History (Call H) := h.filter fun e => e.isAudit

section

variable (h h' : History (Call H)) (c : Call H β) (reply : β)

@[simp] theorem runs_add : runs (h + h') = runs h + runs h' := Multiset.filter_add ..

@[simp] theorem audits_add : audits (h + h') = audits h + audits h' := Multiset.filter_add ..

@[simp] theorem runs_called : runs ({.called c reply} : History (Call H)) = 0 := rfl

@[simp] theorem runs_ran (body : Proc (Call H) β) (ending : Ending β) :
    runs {.ran body ending} = {.ran body ending} := rfl

end

/-- To ask whether a run was told to stop is neither. -/
theorem Asks.counts {site : CallSite} {asked : History (Call H)}
    (h : Asks (site.question H) asked) :
    runs asked = 0 ∧ audits asked = 0 := by
  have hcalled : ∀ e ∈ asked,
      ∃ id reply, e = .called (.here (.isStopped id) : Call H Bool) reply := by
    intro e he
    obtain ⟨c, reply, hc, rfl⟩ := h e he
    obtain ⟨id, -, rfl⟩ := Option.map_eq_some_iff.mp hc
    exact ⟨id, reply, rfl⟩
  constructor
  · refine Multiset.filter_eq_nil.mpr fun e he => ?_
    obtain ⟨id, reply, rfl⟩ := hcalled e he
    exact Bool.false_ne_true
  · refine Multiset.filter_eq_nil.mpr fun e he => ?_
    obtain ⟨id, reply, rfl⟩ := hcalled e he
    exact Bool.false_ne_true

end History

/-! ### Finding a primitive -/

namespace Adapter

variable {a : Adapter H} {reference : PrimitiveRef} {h : History (Call H)}

/-- How a primitive is looked up, and what it comes to: it was read before, or its row is in the
store and can be decoded. -/
inductive Finds (a : Adapter H) (reference : PrimitiveRef) :
    History (Call H) → Except PrimitiveError Primitive → Prop where
  | cached (p : Primitive) : Finds a reference {.called (.here reference.cached) (some p)} (.ok p)
  | stored {row : PrimitiveRow} {p : Primitive} : Primitive.ofRow row a.defaultTimeout = .ok p →
      Finds a reference ({.called (.here reference.cached) none} +
        ({.called (.store reference.find) (.ok (some row))} + {.called (.here (.remember p)) ()}))
        (.ok p)
  | undecodable {row : PrimitiveRow} {e : PrimitiveError} :
      Primitive.ofRow row a.defaultTimeout = .error e →
        Finds a reference ({.called (.here reference.cached) none} +
          {.called (.store reference.find) (.ok (some row))}) (.error e)
  | missing : Finds a reference ({.called (.here reference.cached) none} +
      {.called (.store reference.find) (.ok none)}) (.error (.notFound reference.text))
  | failed (e : StoreError) : Finds a reference ({.called (.here reference.cached) none} +
      {.called (.store reference.find) (.error e)}) (.error (.store e))

theorem finds_of_resolve {resolved : Except PrimitiveError Primitive}
    (hdoes : (a.resolve reference).Does resolved h) : a.Finds reference h resolved := by
  rw [resolve_eq] at hdoes
  obtain ⟨cached, _, hnext, rfl⟩ := does_ask.mp hdoes
  cases cached with
  | some p =>
      obtain ⟨rfl, rfl⟩ := does_done.mp hnext
      exact .cached p
  | none =>
      obtain ⟨reply, _, hfound, rfl⟩ := does_ask.mp hnext
      obtain e | _ | row := reply
      · obtain ⟨rfl, rfl⟩ := does_done.mp hfound
        exact .failed e
      · obtain ⟨rfl, rfl⟩ := does_done.mp hfound
        exact .missing
      · rw [found, remember] at hfound
        cases hrow : Primitive.ofRow row a.defaultTimeout with
        | error e =>
            rw [hrow] at hfound
            obtain ⟨rfl, rfl⟩ := does_done.mp hfound
            exact .undecodable hrow
        | ok p =>
            rw [hrow] at hfound
            obtain ⟨_, _, hkept, rfl⟩ := does_ask.mp hfound
            obtain ⟨rfl, rfl⟩ := does_done.mp hkept
            exact .stored hrow

theorem Finds.counts {resolved : Except PrimitiveError Primitive}
    (hfinds : a.Finds reference h resolved) :
    h.runs = 0 ∧ h.audits = 0 := by
  cases reference <;> cases hfinds <;> exact ⟨rfl, rfl⟩

/-! ### The gate -/

/-- A primitive is enabled, accepts an input, and has a handler: under its name, for its version or
else for all versions. -/
structure Admits (a : Adapter H) (p : Primitive) (input : Json) (handler : Handler H) : Prop where
  enabled : p.enabled = true
  valid : p.schema.fault? input = none
  registered : ∃ versions, Keyed.get? p.name a.registry = some versions ∧
    (Keyed.get? p.version versions = some handler ∨
      (Keyed.get? p.version versions = none ∧ Keyed.get? anyVersion versions = some handler))

variable {p : Primitive} {input : Json} {handler : Handler H} {site : CallSite}

theorem find?_eq_some {registry : Registry H} {name version : String} :
    registry.find? name version = some handler ↔
      ∃ versions, Keyed.get? name registry = some versions ∧
        (Keyed.get? version versions = some handler ∨
          (Keyed.get? version versions = none ∧
            Keyed.get? anyVersion versions = some handler)) := by
  rw [Registry.find?]
  cases Keyed.get? name registry with
  | none => simp
  | some versions =>
      cases hversion : Keyed.get? version versions with
      | none => simp [hversion]
      | some own => simp [hversion]

theorem gate_eq_ok : a.gate p input = .ok handler ↔ a.Admits p input handler := by
  constructor
  · intro h
    have hfound := find?_eq_some.mp (mem_registry_of_gate h)
    rw [gate] at h
    split at h
    · cases h
    · next henabled =>
        split at h
        · cases h
        · next hvalid => exact ⟨by simpa using henabled, hvalid, hfound⟩
  · rintro ⟨henabled, hvalid, hfound⟩
    simp [gate, henabled, hvalid, find?_eq_some.mpr hfound]

/-! ### The record -/

/-- The record of a call for a primitive says who called, with which input, and what came of it. -/
structure Describes (p : Primitive) (input : Json) (site : CallSite)
    (outcome : Except PrimitiveError Json) (record : NewAudit) : Prop where
  primitiveId : record.primitiveId = p.id
  executionId : record.executionId = site.executionId
  workflowId : record.workflowId = site.workflowId
  nodeId : record.nodeId = site.nodeId
  input : record.input = input
  success : record.success = outcome.isOk
  output : ∀ value, record.output = some value ↔ outcome = .ok value
  error : ∀ text, record.error = some text ↔ ∃ e, outcome = .error e ∧ e.message = text

theorem describes_record (p : Primitive) (input : Json) (site : CallSite)
    (startedAt finishedAt : Time.Instant) (outcome : Except PrimitiveError Json) :
    Describes p input site outcome (record p input site startedAt finishedAt outcome) where
  primitiveId := rfl
  executionId := rfl
  workflowId := rfl
  nodeId := rfl
  input := rfl
  success := rfl
  output value := by cases outcome <;> simp [record, Except.toOption]
  error text := by cases outcome <;> simp [record]

/-! ### Calls -/

/-- What is done in an invocation but for its record: the clock is read, the handler runs, and the
clock is read again. -/
def handled (a : Adapter H) (p : Primitive) (handler : Handler H) (input : Json)
    (ending : Ending (Except HandlerError Json)) (startedAt finishedAt : Time.Instant)
    (asked : History (Call H)) : History (Call H) :=
  {.called .clock startedAt} +
    (({.ran (handler ⟨p.info, a.environment⟩ input) ending} + asked) + {.called .clock finishedAt})

/-- The outcome of an invocation is that of the handler, whatever becomes of the record. -/
theorem invoke_does {outcome : Except PrimitiveError Json} :
    (a.invoke p handler input site).Does outcome h ↔
      ∃ ending startedAt finishedAt asked reply,
        Ending.May (handler ⟨p.info, a.environment⟩ input).Yields (some (.after (millis p.timeout)))
          (site.question H) ending ∧
        History.Asks (site.question H) asked ∧
        outcome = Adapter.outcome p ending ∧
        h = handled a p handler input ending startedAt finishedAt asked +
          {.called (.store (.insertAudit
            (record p input site startedAt finishedAt (Adapter.outcome p ending)))) reply} := by
  constructor
  · intro hdoes
    obtain ⟨startedAt, _, hlimited, rfl⟩ := does_ask.mp hdoes
    obtain ⟨ending, _, _, ⟨hmay, asked, hasked, rfl⟩, hclock, rfl⟩ := hlimited
    obtain ⟨finishedAt, _, hinsert, rfl⟩ := does_ask.mp hclock
    obtain ⟨reply, _, hdone, rfl⟩ := does_ask.mp hinsert
    obtain ⟨rfl, rfl⟩ := does_done.mp hdone
    refine ⟨ending, startedAt, finishedAt, asked, reply, hmay, hasked, rfl, ?_⟩
    simp only [handled, add_assoc, add_zero]
  · rintro ⟨ending, startedAt, finishedAt, asked, reply, hmay, hasked, rfl, rfl⟩
    simp only [handled, add_assoc]
    rw [← add_assoc {Event.ran _ _}]
    refine does_ask.mpr ⟨startedAt, _, ⟨ending, _, _, ⟨hmay, asked, hasked, rfl⟩, ?_, rfl⟩, rfl⟩
    refine does_ask.mpr ⟨finishedAt, _, does_ask.mpr ⟨reply, 0, ⟨rfl, rfl⟩, ?_⟩, rfl⟩
    exact (add_zero _).symm

/-- A handler was invoked once, with the input, and ended in some way; one record of this was
inserted, and whatever the store answered to that, the call would have had the same outcome. -/
structure Invokes (a : Adapter H) (reference : PrimitiveRef) (p : Primitive) (handler : Handler H)
    (input : Json) (site : CallSite) (ending : Ending (Except HandlerError Json))
    (record : NewAudit)
    (others : History (Call H)) (outcome : Except PrimitiveError Json) : Prop where
  runs : others.runs = {.ran (handler ⟨p.info, a.environment⟩ input) ending}
  audits : others.audits = 0
  ended : Ending.May (handler ⟨p.info, a.environment⟩ input).Yields
    (some (.after (millis p.timeout)))
    (site.question H) ending
  result : outcome = Adapter.outcome p ending
  described : Describes p input site outcome record
  independent : ∀ reply : Except StoreError Unit, (a.execute reference input site).Does outcome
    (others + {.called (.store (.insertAudit record)) reply})

/-- What is done in a call for a primitive: the primitive is looked up, and then it is refused
without a trace, or a handler is invoked. -/
theorem execute_does {outcome : Except PrimitiveError Json}
    (hdoes : (a.execute reference input site).Does outcome h) :
    ∃ resolved looked rest, a.Finds reference looked resolved ∧ h = looked + rest ∧
      ((∃ p handler ending record reply others, resolved = .ok p ∧ a.Admits p input handler ∧
          a.Invokes reference p handler input site ending record others outcome ∧
          h = others + {.called (.store (.insertAudit record)) reply}) ∨
        ((∀ p handler, resolved = .ok p → ¬a.Admits p input handler) ∧ rest = 0 ∧
          ∃ e, outcome = .error e)) := by
  obtain ⟨resolved, looked, rest, hresolved, hrest, rfl⟩ := does_bind.mp hdoes
  have hfinds := finds_of_resolve hresolved
  refine ⟨resolved, looked, rest, hfinds, rfl, ?_⟩
  cases resolved with
  | error e =>
      obtain ⟨rfl, rfl⟩ := does_done.mp hrest
      exact .inr ⟨fun p handler hp => (by cases hp), rfl, e, rfl⟩
  | ok p =>
      cases hgate : a.gate p input with
      | error e =>
          simp only [hgate] at hrest
          obtain ⟨rfl, rfl⟩ := does_done.mp hrest
          refine .inr ⟨fun p' handler hp hadmits => ?_, rfl, e, rfl⟩
          obtain rfl := Except.ok.inj hp
          rw [gate_eq_ok.mpr hadmits] at hgate
          cases hgate
      | ok handler =>
          simp only [hgate] at hrest
          obtain ⟨ending, startedAt, finishedAt, asked, reply, hmay, hasked, rfl, rfl⟩ :=
            invoke_does.mp hrest
          obtain ⟨hlookedRuns, hlookedAudits⟩ := hfinds.counts
          obtain ⟨haskedRuns, haskedAudits⟩ := hasked.counts
          refine .inl ⟨p, handler, ending, _, reply,
            looked + handled a p handler input ending startedAt finishedAt asked, rfl,
            gate_eq_ok.mp hgate,
            ⟨?_, ?_, hmay, rfl, describes_record _ _ _ _ _ _, fun answer => ?_⟩,
            (add_assoc ..).symm⟩
          · simp only [handled, History.runs_add, History.runs_called, History.runs_ran,
              hlookedRuns, haskedRuns, zero_add, add_zero]
          · simp only [handled, History.audits_add, hlookedAudits, haskedAudits]
            rfl
          · rw [add_assoc]
            refine does_bind.mpr ⟨.ok p, looked, _, hresolved, ?_, rfl⟩
            simp only [hgate]
            exact invoke_does.mpr
              ⟨ending, startedAt, finishedAt, asked, answer, hmay, hasked, rfl, rfl⟩

end Adapter

/-- A call for a primitive is gated, and audited if it passes.  Whatever the adapter has read
before, the store has, the registry holds and the surroundings answer, a call that has come to an
outcome has done the following, and nothing else: this is a history of the call itself, and all that
anybody could have kept of the call.  The primitive was looked up; if it was found, can be decoded,
is enabled, accepts the input and has a handler, then exactly this handler was invoked, once and
with the input, and one record of that was inserted, which describes the call and its outcome, while
the answer to this makes no difference; otherwise no handler was invoked, no record was inserted,
and the call failed. -/
theorem execute_gated {σ : Type u} {ρ : Type} {A : Role → (β : Type) → Call H β → σ → β → σ → Prop}
    {opens : σ → Proc (Call H) ρ → Prop} (a : Adapter H) (reference : PrimitiveRef) (input : Json)
    (site : CallSite) {tasks : List (Proc (Call H) Unit)} {requests : List (Proc (Call H) ρ)}
    {s : σ} {b : Pool (Call H) σ (Except PrimitiveError Json) ρ}
    (hreach : Pool.Reaches A opens ⟨a.execute reference input site, tasks, requests, s⟩ b)
    {outcome : Except PrimitiveError Json} (hdone : b.main = .done outcome) :
    ∃ history : History (Call H), (a.execute reference input site).Does outcome history ∧
      (∀ (X : Type) (keep : (β : Type) → Call H β → β → Multiset X) (tally : σ → Multiset X),
        Tallies A keep tally → tally b.state = tally s + history.kept keep) ∧
      ∃ resolved looked rest, a.Finds reference looked resolved ∧ history = looked + rest ∧
        ((∃ p handler ending record reply others, resolved = .ok p ∧ a.Admits p input handler ∧
            a.Invokes reference p handler input site ending record others outcome ∧
            history = others + {.called (.store (.insertAudit record)) reply}) ∨
          ((∀ p handler, resolved = .ok p → ¬a.Admits p input handler) ∧ history.runs = 0 ∧
            history.audits = 0 ∧ ∃ e, outcome = .error e)) := by
  obtain ⟨history, hdoes, hkept⟩ := Pool.exists_history hreach hdone
  refine ⟨history, hdoes, hkept, ?_⟩
  obtain ⟨resolved, looked, rest, hfinds, rfl, hinvokes | ⟨hrefused, rfl, herror⟩⟩ :=
    Adapter.execute_does hdoes
  · exact ⟨resolved, looked, rest, hfinds, rfl, .inl hinvokes⟩
  · obtain ⟨hruns, haudits⟩ := hfinds.counts
    rw [add_zero]
    exact ⟨resolved, looked, 0, hfinds, (add_zero looked).symm,
      .inr ⟨hrefused, hruns, haudits, herror⟩⟩

/-- An adapter with a handler that answers with its input. -/
def echoing : Adapter Empty :=
  ⟨[("echo", [(anyVersion, fun _ input => .done (.ok input))])], [], 1000⟩

/-- The scene of a process that has read the primitive of this handler before. -/
def echoingScene : Scene := ⟨.empty, ⟨[⟨⟨0⟩, "echo", "test", [], 1000, true, "1"⟩], [], []⟩, []⟩

/-- A call that passes: its handler is invoked once, and its record has the output. -/
theorem echoing_gated :
    let site : CallSite := ⟨none, none, some "step", none⟩
    ∃ (b : Pool (Call Empty) Scene (Except PrimitiveError Json) Unit)
      (history : History (Call Empty))
      (record : NewAudit) (reply : Except StoreError Unit),
      Pool.Reaches Scene.Answers (fun _ _ => False)
        ⟨echoing.execute (.name "echo") (.obj []) site, [], [], echoingScene⟩ b ∧
      b.main = .done (.ok (.obj [])) ∧
      (echoing.execute (.name "echo") (.obj []) site).Does (.ok (.obj [])) history ∧
      history.runs.card = 1 ∧
      history.audits = {.called (.store (.insertAudit record)) reply} ∧
      record.nodeId = some "step" ∧ record.success = true ∧ record.output = some (.obj []) := by
  intro site
  let now : Time.Instant := ⟨0, 0⟩
  let p : Primitive := ⟨⟨0⟩, "echo", "test", [], 1000, true, "1"⟩
  let new := Adapter.record p (.obj []) site now now (.ok (.obj []))
  let s : Scene := { echoingScene with memory := { Memory.empty with audits := [⟨new, ⟨0⟩⟩] } }
  have hcached : Scene.Answers .owner _ (.here (.cachedByName "echo") : Call Empty _) echoingScene
      (some p) echoingScene := ⟨rfl, rfl, rfl⟩
  have hinsert : Scene.Answers .owner _ (.store (.insertAudit new) : Call Empty _) echoingScene
      (.ok ()) s := by
    refine ⟨⟨⟨0⟩, now, ⟨rfl, ?_, ?_⟩, rfl⟩, rfl, rfl⟩ <;> simp [echoingScene]
  have hstart : Pool.Reaches Scene.Answers (fun _ _ => False)
      (⟨echoing.execute (.name "echo") (.obj []) site, [], [], echoingScene⟩ :
        Pool (Call Empty) Scene (Except PrimitiveError Json) Unit)
      ⟨echoing.invoke p (fun _ input => .done (.ok input)) (.obj []) site, [], [], echoingScene⟩ :=
    .single (.main (.ask hcached))
  have hran := (hstart.tail (.main (.ask (b := now) rfl))).tail (.main .limitDone)
  have hover : Pool.Reaches Scene.Answers (fun _ _ => False) _
      (⟨.done (.ok (.obj [])), [], [], s⟩ :
        Pool (Call Empty) Scene (Except PrimitiveError Json) Unit) :=
    (hran.tail (.main (.ask (b := now) rfl))).tail (.main (.ask hinsert))
  obtain ⟨history, hdoes, -, resolved, looked, rest, -, -, hcase⟩ :=
    execute_gated echoing (.name "echo") (.obj []) site hover rfl
  rcases hcase with ⟨p, handler, ending, record, reply, others, -, -, hinvokes, rfl⟩ |
    ⟨-, -, -, e, he⟩
  · refine ⟨_, others + {.called (.store (.insertAudit record)) reply}, record, reply, hover, rfl,
      hdoes, ?_, ?_, hinvokes.described.nodeId, hinvokes.described.success,
      (hinvokes.described.output _).mpr rfl⟩
    · rw [History.runs_add, hinvokes.runs, History.runs_called, add_zero, Multiset.card_singleton]
    · rw [History.audits_add, hinvokes.audits, zero_add]
      rfl
  · cases he

end Workflow
