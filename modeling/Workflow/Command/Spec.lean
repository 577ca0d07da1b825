import Workflow.Primitive.Basic

/-!
# Commands and their options

The commands that the program knows, with the arguments that each of them takes, and the
lines that say how they are used.
-/

namespace Workflow

/-- An option with a value: what is said about it, the variable of the environment that stands
for it, its value when there is none, and whether it must be given and may be repeated. -/
structure OptionSpec where
  name : String
  value : String
  about : String
  variableName : Option String
  standard : Option String
  isNeeded : Bool
  isList : Bool
  deriving Repr, DecidableEq

/-- A command with its arguments: what is said about its path, if it has one, and its
options. -/
structure CommandSpec where
  name : String
  about : String
  pathAbout : Option String
  options : List OptionSpec
  deriving Repr, DecidableEq

namespace Command

def program : String := "flowgraph"

def version : String := "0.1.0"

def about : String := "Node-graph workflow automation engine"

def addressOption : OptionSpec where
  name := "database-url"
  value := "DATABASE_URL"
  about := ""
  variableName := some "DATABASE_URL"
  standard := none
  isNeeded := true
  isList := false

def allowOption : OptionSpec where
  name := "env-allow"
  value := "ENV_ALLOW"
  about := ""
  variableName := some "PRIMITIVE_ENV_ALLOW"
  standard := none
  isNeeded := false
  isList := true

def bindOption : OptionSpec where
  name := "bind"
  value := "BIND"
  about := ""
  variableName := some "BIND_ADDR"
  standard := some "0.0.0.0:8080"
  isNeeded := false
  isList := false

def payloadOption : OptionSpec where
  name := "payload"
  value := "PAYLOAD"
  about := "Trigger payload as a JSON document"
  variableName := none
  standard := none
  isNeeded := false
  isList := false

def specs : List CommandSpec :=
  [⟨"serve", "Start the REST API server", none,
      [bindOption, addressOption,
        { allowOption with
          about := "Environment variables primitives may read, comma separated" }]⟩,
    ⟨"migrate", "Run pending database migrations", none, [addressOption]⟩,
    ⟨"validate", "Validate a workflow definition JSON file",
      some "Path to the workflow JSON file", []⟩,
    ⟨"import", "Validate a workflow definition file and insert it into the database", some "",
      [addressOption]⟩,
    ⟨"run", "Execute a workflow definition file against an in-memory store", some "",
      [payloadOption, allowOption]⟩,
    ⟨"tick", "Run scheduled workflows whose cron pattern matches the current minute", none,
      [addressOption]⟩]

/-- The name of the command that tells about the others, and what is said about it. -/
def helpCommand : String × String :=
  ("help", "Print this message or the help of the given subcommand(s)")

def names : List String := specs.map CommandSpec.name ++ [helpCommand.1]

def spec? (name : String) : Option CommandSpec := specs.find? fun spec => spec.name = name

def variableNames : List String :=
  specs.flatMap fun spec => spec.options.filterMap OptionSpec.variableName

def pathSpelling : String := "<PATH>"

/-- How the program is used as a whole, after the options that were given. -/
def usage (used : List String) : String := " ".intercalate (program :: used ++ ["<COMMAND>"])

end Command

def OptionSpec.spelling (o : OptionSpec) : String := "--" ++ o.name ++ " <" ++ o.value ++ ">"

namespace CommandSpec

def hasPath (spec : CommandSpec) : Bool := spec.pathAbout.isSome

def needed (spec : CommandSpec) : List String :=
  (spec.options.filter OptionSpec.isNeeded).map OptionSpec.spelling

/-- How a command is used, with the arguments that were given so far and those that must be
given. -/
def usageWith (spec : CommandSpec) (used : List String) : String :=
  " ".intercalate <|
    [Command.program, spec.name] ++ spec.needed ++ used.filter (!spec.needed.contains ·) ++
      if spec.hasPath then [Command.pathSpelling] else []

def usage (spec : CommandSpec) : String :=
  if spec.options.all OptionSpec.isNeeded then spec.usageWith []
  else { spec with name := spec.name ++ " [OPTIONS]" }.usageWith []

end CommandSpec

end Workflow
