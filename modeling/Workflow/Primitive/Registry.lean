import Workflow.Call
import Workflow.Text.Quoted

/-!
# Registries of handlers

A registry has handlers under the names of primitives and their versions.  A handler
under the version `*` is for all versions that have none of their own.
-/

namespace Workflow

def anyVersion : String := "*"

abbrev Registry (H : Type) := Keyed (Keyed (Handler H))

namespace Registry

variable {H : Type}

def register (name version : String) (handler : Handler H) (r : Registry H) : Registry H :=
  Keyed.insert name (Keyed.insert version handler ((Keyed.get? name r).getD [])) r

def find? (name version : String) (r : Registry H) : Option (Handler H) := do
  let versions ← Keyed.get? name r
  Keyed.get? version versions <|> Keyed.get? anyVersion versions

def names (r : Registry H) : List String := Keyed.keys r

def debugText (r : Registry H) : String :=
  "HandlerRegistry \x7b names: [" ++ ", ".intercalate ((names r).map Text.quoted) ++ "] \x7d"

end Registry

end Workflow
