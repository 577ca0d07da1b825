import Workflow.Primitive.Registry

/-!
# Scripted handlers

Handlers whose behaviour is laid down beforehand, with which workflows can be tried out.
Each of them makes a call with its input first, so that its invocations can be counted.
-/

namespace Workflow

inductive Script where
  | returns (value : Json)
  | echoes
  | fails (message : String)
  | sleeps (milliseconds : Nat) (value : Json)

def Script.perform {H : Type} (input : Json) : Script → Proc (Call H) (Except HandlerError Json)
  | .returns value => .done (.ok value)
  | .echoes => .done (.ok input)
  | .fails message => .done (.error (.failed message))
  | .sleeps milliseconds value =>
    .wait (.after (milliseconds * 1000000)) none fun _ => .done (.ok value)

def Script.handler {H : Type} (note : Json → H) (script : Script) : Handler H := fun _ input =>
  .ask (.custom (note input)) fun _ => script.perform input

end Workflow
