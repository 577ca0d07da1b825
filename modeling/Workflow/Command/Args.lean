import Workflow.Command.Spec
import Workflow.Text.Similar

/-!
# Arguments of the command line

The command line names a command, and gives it a path and options.  An option that is not
given may be in the environment.
-/

namespace Workflow

/-- What the command line asks for. -/
inductive Command where
  | serve (bind address : String) (allowed : List String)
  | migrate (address : String)
  | validate (path : String)
  | store (path address : String)
  | run (path : String) (payload : Option String) (allowed : List String)
  | tick (address : String)
  deriving Repr, DecidableEq

inductive HelpTopic where
  | program
  | command (spec : CommandSpec)
  | help
  deriving Repr, DecidableEq

/-- What may have been meant by an argument that is not known. -/
inductive ArgsHint where
  | asValue (argument : String)
  | similar (option : String)
  | inCommand (command option : String)
  | withoutDashes (command : String)
  deriving Repr, DecidableEq

/-- Why the command line is not followed: it asks for help or for the version, or something is
wrong with it. -/
inductive ArgsError where
  | help (topic : HelpTopic)
  | version
  | noCommand
  | unknownCommand (name : String) (similar : List String) (usage : String)
  | unexpected (argument : String) (hint : Option ArgsHint) (usage : String)
  | excess (value argument usage : String)
  | noValue (argument : String)
  | repeated (argument usage : String)
  | missing (arguments : List String) (usage : String)
  deriving Repr, DecidableEq

/-- What an argument is by its form: the mark after which there are no options, the name of an
option and perhaps its value, a letter with a dash, or a plain text. -/
inductive ArgForm where
  | mark
  | option (name : String) (value : Option String)
  | letter (c : Char)
  | plain
  deriving Repr, DecidableEq

def ArgForm.ofText (argument : String) : ArgForm :=
  match argument.toList with
  | ['-', '-'] => .mark
  | '-' :: '-' :: rest =>
    let (name, value) := rest.span (· != '=')
    .option (String.ofList name) <|
      match value with
      | [] => none
      | _ :: value => some (String.ofList value)
  | '-' :: c :: _ => .letter c
  | _ => .plain

namespace Command

def path? : Command → Option String
  | .validate path => some path
  | .store path _ => some path
  | .run path _ _ => some path
  | _ => none

def allowed : Command → List String
  | .serve _ _ names => names
  | .run _ _ names => names
  | _ => []

/-- What was given to a command: a path, and options with their values.  The last of them may
be wrong, which matters only if what follows is known. -/
structure Given where
  path : Option String
  options : List (OptionSpec × String)
  pending : Option ArgsError

namespace Given

def nothing : Given := ⟨none, [], none⟩

/-- The arguments that were given, if the last of them is not wrong. -/
def settle (given : Given) : Except ArgsError Given :=
  match given.pending with
  | some e => .error e
  | none => .ok given

def used (given : Given) : List String :=
  (given.options.map fun o => o.1.spelling).eraseDups

def usage (given : Given) (spec : CommandSpec) : String :=
  if given.options.isEmpty && given.path.isNone then spec.usage else spec.usageWith given.used

/-- An option and its value are put in, unless the option is there and may not be repeated. -/
def put (given : Given) (spec : CommandSpec) (o : OptionSpec) (value : String) :
    Except ArgsError Given :=
  if !o.isList && given.options.any (·.1.name = o.name) then
    .error (.repeated o.spelling spec.usage)
  else .ok { given with options := given.options ++ [(o, value)], pending := none }

/-- As `put`, where a failure is left pending. -/
def putLater (given : Given) (spec : CommandSpec) (o : OptionSpec) (value : String) : Given :=
  match given.put spec o value with
  | .ok given => given
  | .error e => { given with pending := some e }

/-- A path is put in, which may not be empty. -/
def putPath (given : Given) (path : String) : Except ArgsError Given := do
  let given ← given.settle
  return { given with
    path := some path
    pending := if path.isEmpty then some (.noValue pathSpelling) else none }

/-- The failure of an option that the command does not have. -/
def unknownOption (given : Given) (spec : CommandSpec) (name : String) : ArgsError :=
  let known := spec.options.map OptionSpec.name ++ ["help"]
  match (Text.similarTo name known).getLast? with
  | some other =>
    let spelling := match spec.options.find? fun o => o.name = other with
      | some o => o.spelling
      | none => "--" ++ other
    .unexpected ("--" ++ name) (some (.similar ("--" ++ other)))
      (spec.usageWith (given.used ++ [spelling]).eraseDups)
  | none =>
    let argument := "--" ++ name
    .unexpected argument (if spec.hasPath then some (.asValue argument) else none)
      (given.usage spec)

end Given

def readPaths (spec : CommandSpec) : List String → Given → Except ArgsError Given
  | [], given => given.settle
  | path :: rest, given => do
    if spec.hasPath && given.path.isNone then readPaths spec rest (← given.putPath path)
    else .error (.unexpected path none spec.usage)

/-- Reads the arguments of a command, where the one before may be an option that waits for its
value. -/
def read (spec : CommandSpec) : Option OptionSpec → List String → Given → Except ArgsError Given
  | _, [], given => given.settle
  | waiting, argument :: rest, given =>
    match ArgForm.ofText argument with
    | .mark => readPaths spec rest given
    | .letter c => do
      if c = 'h' then
        let _ ← given.settle
        .error (.help (.command spec))
      else
        let argument := "-" ++ c.toString
        .error (.unexpected argument (if spec.hasPath then some (.asValue argument) else none)
          spec.usage)
    | .option "help" none => do
      let _ ← given.settle
      .error (.help (.command spec))
    | .option "help" (some value) => .error (.excess value "--help" spec.usage)
    | .option name value =>
      match spec.options.find? (fun o => o.name = name), value with
      | none, _ => .error (given.unknownOption spec name)
      | some o, some value => do
        let given ← given.settle
        read spec none rest (← given.put spec o value)
      | some o, none => do
        let given ← given.settle
        read spec (some o) rest { given with pending := some (.noValue o.spelling) }
    | .plain =>
      match waiting with
      | some o => read spec none rest (given.putLater spec o argument)
      | none => do
        if spec.hasPath && given.path.isNone then read spec none rest (← given.putPath argument)
        else .error (.unexpected argument none spec.usage)

def Given.value? (given : Given) (environment : Environment) (o : OptionSpec) : Option String :=
  (given.options.find? fun p => p.1.name = o.name).map Prod.snd <|>
    o.variableName.bind fun name => Keyed.get? name environment

def Given.allowed (given : Given) (environment : Environment) : List String :=
  let texts := (given.options.filter fun o => o.1.name = allowOption.name).map Prod.snd
  let texts := if texts.isEmpty then
      (allowOption.variableName.bind fun name => Keyed.get? name environment).toList
    else texts
  texts.flatMap (Text.splitAt ',')

/-- The options that are not given but stand in the environment. -/
def Given.inEnvironment (given : Given) (spec : CommandSpec) (environment : Environment) :
    List String :=
  (spec.options.filter fun o =>
    !given.used.contains o.spelling && (given.value? environment o).isSome).map OptionSpec.spelling

def build (spec : CommandSpec) (environment : Environment) (given : Given) :
    Except ArgsError Command :=
  let missing :=
    (spec.options.filter fun o => o.isNeeded && (given.value? environment o).isNone).map
        OptionSpec.spelling ++
      if spec.hasPath && given.path.isNone then [pathSpelling] else []
  if !missing.isEmpty then
    .error (.missing missing (spec.usageWith (given.used ++ given.inEnvironment spec environment)))
  else
    let path := given.path.getD ""
    let address := (given.value? environment addressOption).getD ""
    match spec.name with
    | "serve" =>
      let bind := given.value? environment bindOption <|> bindOption.standard
      .ok (.serve (bind.getD "") address (given.allowed environment))
    | "migrate" => .ok (.migrate address)
    | "validate" => .ok (.validate path)
    | "import" => .ok (.store path address)
    | "run" => .ok (.run path (given.value? environment payloadOption) (given.allowed environment))
    | _ => .ok (.tick address)

def helpTopic : List String → ArgsError
  | [] => .help .program
  | name :: rest =>
    match spec? name, rest with
    | some spec, [] => .help (.command spec)
    | some spec, other :: _ => .unknownCommand other [] spec.usage
    | none, _ =>
      if name = helpCommand.1 then .help .help else .unknownCommand name [] (usage [])

/-- The failure of an option before the command: there is a similar one, or it belongs to one of
the commands that follow. -/
def unknownOption (name : String) (rest : List String) : ArgsError :=
  let argument := "--" ++ name
  match (Text.similarTo name ["help", "version"]).getLast? with
  | some other => .unexpected argument (some (.similar ("--" ++ other))) (usage ["--" ++ other])
  | none =>
    let owner? := rest.findSome? fun command => do
      let spec ← spec? command
      let other ← (Text.similarTo name (spec.options.map OptionSpec.name)).getLast?
      return ArgsHint.inCommand spec.name ("--" ++ other)
    .unexpected argument owner? (usage [])

def unknownCommand (name : String) : ArgsError :=
  .unknownCommand name (Text.similarTo name names) (usage [])

/-- The failure of what follows the mark after which there are no options, where a command would
have to stand before it. -/
def afterMark : List String → ArgsError
  | [] => .noCommand
  | name :: _ =>
    if names.contains name then .unexpected name (some (.withoutDashes name)) (usage [])
    else unknownCommand name

def parse (environment : Environment) : List String → Except ArgsError Command
  | [] => .error .noCommand
  | name :: rest =>
    match spec? name, ArgForm.ofText name with
    | some spec, _ => do build spec environment (← read spec none rest .nothing)
    | none, .mark => .error (afterMark rest)
    | none, .letter 'h' => .error (.help .program)
    | none, .letter 'V' => .error .version
    | none, .letter c => .error (.unexpected ("-" ++ c.toString) none (usage []))
    | none, .option "help" none => .error (.help .program)
    | none, .option "version" none => .error .version
    | none, .option "help" (some value) => .error (.excess value "--help" (usage []))
    | none, .option "version" (some value) => .error (.excess value "--version" (usage []))
    | none, .option name _ => .error (unknownOption name rest)
    | none, .plain =>
      .error (if name = helpCommand.1 then helpTopic rest else unknownCommand name)

end Command

end Workflow
