import Workflow.Proofs.Process.Panic
import Workflow.Proofs.Run.Walk

/-!
# Panics of handlers

A walk has no panics of its own: it breaks off only with the message of a panic of a handler, and so
does the run that it is made in.
-/

namespace Workflow

open Proc

variable {H α : Type} {m : String}

/-- A handler in a registry may break off with a message. -/
def Registry.MayPanic (registry : Registry H) (m : String) : Prop :=
  ∃ name version handler, registry.find? name version = some handler ∧
    ∃ context input, (handler context input).MayPanic m

namespace Adapter

variable {a : Adapter H}

theorem not_mayPanic_found (reference : PrimitiveRef)
    (reply : Except StoreError (Option PrimitiveRow)) : ¬(a.found reference reply).MayPanic m := by
  obtain e | _ | row := reply
  · exact not_mayPanic_done
  · exact not_mayPanic_done
  · rw [found, remember]
    cases Primitive.ofRow row a.defaultTimeout with
    | error e => exact not_mayPanic_done
    | ok p =>
        rintro ⟨_, h⟩
        exact h

theorem not_mayPanic_resolve (reference : PrimitiveRef) : ¬(a.resolve reference).MayPanic m := by
  rw [resolve_eq]
  rintro ⟨_ | p, h⟩
  · obtain ⟨reply, hfound⟩ := h
    exact not_mayPanic_found _ reply hfound
  · exact h

theorem mayPanic_of_execute {reference : PrimitiveRef} {input : Json} {site : CallSite}
    (h : (a.execute reference input site).MayPanic m) : a.registry.MayPanic m := by
  rcases mayPanic_of_bind h with hresolve | ⟨resolved, hrest⟩
  · exact absurd hresolve (not_mayPanic_resolve reference)
  · cases resolved with
    | error e => exact hrest.elim
    | ok p =>
        simp only at hrest
        cases hgate : a.gate p input with
        | error e => simp [hgate] at hrest
        | ok handler =>
            simp only [hgate] at hrest
            rcases hrest with ⟨_, hhandler | ⟨_, _, _, hdone⟩⟩
            · exact ⟨_, _, handler, mem_registry_of_gate hgate, _, input, hhandler⟩
            · exact hdone.elim

end Adapter

namespace Walk

variable {w : Walk H} {visit : Visitor H} {node : Node} {c : Context}

theorem not_mayPanic_guardHolds (e : Edge) (c : Context) :
    ¬(guardHolds e c : Proc (Call H) Bool).MayPanic m := by
  rw [guardHolds]
  cases e.guard with
  | none => exact not_mayPanic_done
  | some guard =>
      rintro ⟨now, h⟩
      exact h

theorem not_mayPanic_follows (output : Json) (e : Edge) (c : Context) :
    ¬(follows node output e c : Proc (Call H) Bool).MayPanic m := by
  rw [follows]
  split
  · exact not_mayPanic_guardHolds e c
  · exact not_mayPanic_done

/-- A visit may break off with a message. -/
def VisitMayPanic (visit : Visitor H) (m : String) : Prop :=
  ∃ nodeId c, (visit nodeId c).MayPanic m

theorem mayPanic_of_follow {choose : Edge → Context → Proc (Call H) Bool}
    (hchoose : ∀ e c, ¬(choose e c).MayPanic m) {edges : List Edge} {results : List NodeResult}
    (h : (follow visit choose edges c results).MayPanic m) : VisitMayPanic visit m := by
  induction edges generalizing c results with
  | nil => exact h.elim
  | cons e rest ih =>
      rcases mayPanic_of_bind h with hguard | ⟨chosen, hrest⟩
      · exact absurd hguard (hchoose e c)
      · cases chosen with
        | false => exact ih hrest
        | true =>
            rcases mayPanic_of_bind hrest with hvisit | ⟨⟨inner, failure | last⟩, hrest⟩
            · exact ⟨_, _, hvisit⟩
            · exact hrest.elim
            · exact ih hrest

theorem mayPanic_of_iterate {nodeId : String} {config : LoopConfig} {body : List Edge}
    {index : Nat} {items : List Json} {blocks : List (List NodeResult)} {outputs : List Json}
    (h : (iterate visit nodeId config body c index items blocks outputs).MayPanic m) :
    VisitMayPanic visit m := by
  induction items generalizing index blocks outputs with
  | nil => exact h.elim
  | cons item rest ih =>
      rcases mayPanic_of_bind h with hbody | ⟨⟨inner, failure | last⟩, hrest⟩
      · exact mayPanic_of_follow not_mayPanic_guardHolds hbody
      · exact hrest.elim
      · exact ih hrest

theorem mayPanic_of_runLoop {now : Time.Instant} (h : (w.runLoop visit node c now).MayPanic m) :
    VisitMayPanic visit m := by
  rw [runLoop] at h
  split at h
  · exact h.elim
  · split at h
    · exact h.elim
    · exact mayPanic_of_iterate h

theorem not_mayPanic_chosen (c : Context) (edges : List Edge) :
    ¬(chosen c edges : Proc (Call H) (List Edge)).MayPanic m := by
  induction edges with
  | nil => exact not_mayPanic_done
  | cons e rest ih =>
      intro h
      rcases mayPanic_of_bind h with hguard | ⟨holds, hrest⟩
      · exact not_mayPanic_guardHolds e c hguard
      · rcases mayPanic_of_bind hrest with hmore | ⟨more, hdone⟩
        · exact ih hmore
        · exact hdone

theorem mayPanic_of_runParallel (h : (w.runParallel visit node c).MayPanic m) :
    VisitMayPanic visit m := by
  rcases mayPanic_of_bind h with hchosen | ⟨branches, hrest⟩
  · exact absurd hchosen (not_mayPanic_chosen c _)
  · rcases mayPanic_of_bind hrest with hbranches | ⟨visits, hdone⟩
    · obtain ⟨p, hp, hpanic⟩ := mayPanic_of_sideBySide hbranches
      obtain ⟨e, -, rfl⟩ := List.mem_map.mp hp
      exact ⟨_, _, hpanic⟩
    · exact hdone.elim

theorem mayPanic_of_runPrimitive {now : Time.Instant} (h : (w.runPrimitive node c now).MayPanic m) :
    w.adapter.registry.MayPanic m := by
  rw [runPrimitive] at h
  split at h
  · exact h.elim
  · split at h
    · exact h.elim
    · rcases mayPanic_of_bind h with hexecute | ⟨outcome, hdone⟩
      · exact Adapter.mayPanic_of_execute hexecute
      · exact hdone.elim

theorem not_mayPanic_runDelay (node : Node) (c : Context) :
    ¬(runDelay node c : Proc (Call H) (Except RunError Json)).MayPanic m := by
  rw [runDelay]
  split
  · exact not_mayPanic_done
  · split
    · exact not_mayPanic_done
    · rintro ⟨elapsed, h⟩
      exact h

theorem mayPanic_of_alone {p : Proc (Call H) (Except RunError Json)} (h : (alone p).MayPanic m) :
    p.MayPanic m :=
  (mayPanic_of_bind h).resolve_right fun ⟨_, hdone⟩ => hdone

theorem mayPanic_of_execute {now : Time.Instant} (h : (w.execute visit node c now).MayPanic m) :
    VisitMayPanic visit m ∨ w.adapter.registry.MayPanic m := by
  rw [execute] at h
  cases htype : node.type with
  | trigger => simp [htype] at h
  | primitive =>
      simp only [htype] at h
      exact .inr (mayPanic_of_runPrimitive (mayPanic_of_alone h))
  | condition => simp [htype] at h
  | loop =>
      simp only [htype] at h
      exact .inl (mayPanic_of_runLoop h)
  | delay =>
      simp only [htype] at h
      exact absurd (mayPanic_of_alone h) (not_mayPanic_runDelay node c)
  | parallel =>
      simp only [htype] at h
      exact .inl (mayPanic_of_runParallel h)
  | output => simp [htype] at h

theorem mayPanic_of_proceed {startedAt finishedAt : Time.Instant} {executed : Executed}
    (h : (w.proceed visit node c startedAt finishedAt executed).MayPanic m) :
    VisitMayPanic visit m := by
  obtain ⟨inner, e | output⟩ := executed
  · exact h.elim
  · exact mayPanic_of_follow (not_mayPanic_follows output) h

theorem mayPanic_of_visit {room : Nat} (h : VisitMayPanic (w.visit room) m) :
    w.adapter.registry.MayPanic m := by
  induction room with
  | zero =>
      obtain ⟨nodeId, c, hdone⟩ := h
      exact hdone.elim
  | succ room ih =>
      obtain ⟨nodeId, c, h⟩ := h
      rw [visit] at h
      split at h
      · exact h.elim
      · split at h
        · exact h.elim
        · obtain ⟨startedAt, stopped, hrest⟩ := h
          cases stopped with
          | true =>
              simp only [reduceIte] at hrest
              exact ih (mayPanic_of_proceed hrest)
          | false =>
              rcases mayPanic_of_bind hrest with hexecute | ⟨executed, finishedAt, hproceed⟩
              · exact (mayPanic_of_execute hexecute).elim ih id
              · exact ih (mayPanic_of_proceed hproceed)

theorem mayPanic_of_start (h : (w.start c).MayPanic m) : w.adapter.registry.MayPanic m := by
  rw [start] at h
  split at h
  · exact h.elim
  · split at h
    · exact h.elim
    · exact mayPanic_of_visit ⟨_, _, h⟩

end Walk

namespace Engine

variable {engine : Engine H} {d : Definition} {c : Context}

theorem not_mayPanic_conclude (visited : Visited) (stopped : Bool) (startedAt : Time.Instant) :
    ¬(conclude visited stopped startedAt : Proc (Call H) (Except RunError Outcome)).MayPanic m := by
  rintro ⟨e | applied, h⟩
  · exact h
  · rcases mayPanic_of_bind h with hsettled | ⟨e | status, hrest⟩
    · rw [settled] at hsettled
      split at hsettled
      · exact hsettled
      · obtain ⟨found, hdone⟩ := hsettled
        exact hdone
    · exact hrest
    · rcases mayPanic_of_bind hrest with hstamp | ⟨_, finishedAt, hdone⟩
      · rw [stamp] at hstamp
        split at hstamp
        · obtain ⟨now, _, hdone⟩ := hstamp
          exact hdone
        · exact hstamp
      · exact hdone

theorem mayPanic_of_walk {startedAt : Time.Instant} (h : (engine.walk d c startedAt).MayPanic m) :
    engine.adapter.registry.MayPanic m := by
  rcases mayPanic_of_bind h with hstart | ⟨⟨results, failure | last⟩, hrest⟩
  · exact Walk.mayPanic_of_start hstart
  · obtain ⟨stopped, hconclude⟩ := hrest
    exact absurd hconclude (not_mayPanic_conclude _ stopped startedAt)
  · exact absurd hrest (not_mayPanic_conclude _ false startedAt)

theorem mayPanic_of_perform (h : (engine.perform d c).MayPanic m) :
    engine.adapter.registry.MayPanic m := by
  obtain ⟨startedAt, e | _ | row, hrest⟩ := h
  · exact hrest.elim
  · exact mayPanic_of_walk hrest
  · simp only at hrest
    cases hstate : row.state with
    | error e => simp [hstate] at hrest
    | ok status =>
        simp only [hstate] at hrest
        split at hrest
        · obtain ⟨finishedAt, hdone⟩ := hrest
          exact hdone.elim
        · exact mayPanic_of_walk hrest

end Engine

end Workflow
