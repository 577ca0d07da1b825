import Workflow.Command.Help

/-!
# Reports

What a command prints, and the code it ends with.  A failure is printed with the list of
its causes.
-/

namespace Workflow

/-- What a command prints, and the code it ends with. -/
structure Report where
  code : Nat
  output : String
  errors : String
  deriving Repr, DecidableEq

namespace Report

def success (output : String) : Report := ⟨0, output, ""⟩

/-- The lines for the causes of a failure, numbered if there are several. -/
def causeLines (causes : List String) : List String :=
  match causes with
  | [cause] => ["    " ++ cause]
  | causes => causes.zipIdx.map fun (cause, i) => "    " ++ Decimal.intText i ++ ": " ++ cause

def failure (chain : List String) : Report :=
  let message := "Error: " ++ chain.headD "" ++ "\n"
  let causes := chain.drop 1
  ⟨1, "",
    if causes.isEmpty then message
    else message ++ "\nCaused by:\n" ++ String.join ((causeLines causes).map (· ++ "\n"))⟩

/-- What may have been meant by an argument that is not known. -/
def hintText : ArgsHint → String
  | .asValue argument => "to pass '" ++ argument ++ "' as a value, use '-- " ++ argument ++ "'"
  | .similar option => "a similar argument exists: '" ++ option ++ "'"
  | .inCommand command option => "'" ++ command ++ " " ++ option ++ "' exists"
  | .withoutDashes command =>
    "subcommand '" ++ command ++ "' exists; to use it, remove the '--' before it"

def similarText : List String → Option String
  | [] => none
  | [name] => some ("a similar subcommand exists: '" ++ name ++ "'")
  | names =>
    some ("some similar subcommands exist: " ++ ", ".intercalate (names.map ("'" ++ · ++ "'")))

/-- A message about arguments, with a hint and the way the program is used. -/
def usageError (message : String) (hint usage : Option String) : Report :=
  let parts := ["error: " ++ message] ++ (hint.map ("  tip: " ++ ·)).toList ++
    (usage.map ("Usage: " ++ ·)).toList ++ ["For more information, try '--help'."]
  ⟨2, "", "\n\n".intercalate parts ++ "\n"⟩

/-- The report of arguments that are not followed. -/
def ofArgsError (environment : Environment) : ArgsError → Report
  | .help topic => success (Help.text environment topic)
  | .version => success (Command.program ++ " " ++ Command.version ++ "\n")
  | .noCommand => ⟨2, "", Help.text environment .program⟩
  | .unknownCommand name similar usage =>
    usageError ("unrecognized subcommand '" ++ name ++ "'") (similarText similar) (some usage)
  | .unexpected argument hint usage =>
    usageError ("unexpected argument '" ++ argument ++ "' found") (hint.map hintText) (some usage)
  | .excess value argument usage =>
    usageError
      ("unexpected value '" ++ value ++ "' for '" ++ argument ++
        "' found; no more were expected") none (some usage)
  | .noValue argument =>
    usageError ("a value is required for '" ++ argument ++ "' but none was supplied") none none
  | .repeated argument usage =>
    usageError ("the argument '" ++ argument ++ "' cannot be used multiple times") none
      (some usage)
  | .missing arguments usage =>
    usageError ("the following required arguments were not provided:" ++
      String.join (arguments.map ("\n  " ++ ·))) none (some usage)

end Report

end Workflow
