import Workflow.Command.Args

/-!
# Pages of help

A page says what a command is for and how it is used, and lists its arguments with what is
said about each.  The texts stand in a column beside the arguments, or below them where a text
would be too long beside them.
-/

namespace Workflow.Help

/-- An argument as it is written, and what is said about it. -/
structure Row where
  label : String
  text : String

def width (rows : List Row) : Nat := (rows.map fun r => r.label.length).foldl max 0

def lineLength : Nat := 100

/-- Whether a text would be too long beside labels that take more than two fifths of the
line. -/
def isStacked (rows : List Row) : Bool :=
  let taken := width rows + 6
  5 * taken > 2 * lineLength && rows.any fun r => lineLength < taken + r.text.length

/-- A label followed by blanks, so that texts stand in a column. -/
def padded (size : Nat) (label : String) : String :=
  label ++ String.ofList (List.replicate (size - label.length) ' ')

def listing (title : String) (rows : List Row) : List String :=
  let size := width rows
  (title ++ ":") ::
    if isStacked rows then rows.flatMap fun r => [r.label, "          " ++ r.text]
    else rows.map fun r => padded size r.label ++ "  " ++ r.text

def page (about usage : String) (sections : List (List String)) : String :=
  "\n\n".intercalate
    (about :: ("Usage: " ++ usage) :: sections.map ("\n".intercalate ·)) ++ "\n"

def flagRow (letter : Char) (name text : String) : Row :=
  ⟨"  -" ++ letter.toString ++ ", --" ++ name, text⟩

def helpRow : Row := flagRow 'h' "help" "Print help"

/-- What is said about an option, its variable with the value that it has, and its standard
value. -/
def optionText (environment : Environment) (o : OptionSpec) : String :=
  let inEnvironment := o.variableName.map fun name =>
    "[env: " ++ name ++ "=" ++ (Keyed.get? name environment).getD "" ++ "]"
  let standard := o.standard.map fun value => "[default: " ++ value ++ "]"
  " ".intercalate
    ((if o.about.isEmpty then [] else [o.about]) ++ inEnvironment.toList ++ standard.toList)

def commandPage (environment : Environment) (spec : CommandSpec) : String :=
  let options := spec.options.map fun o => ⟨"      " ++ o.spelling, optionText environment o⟩
  let paths := spec.pathAbout.toList.map fun text =>
    listing "Arguments" [⟨"  " ++ Command.pathSpelling, text⟩]
  page spec.about spec.usage (paths ++ [listing "Options" (options ++ [helpRow])])

def programPage : String :=
  let commands := Command.specs.map fun spec => (spec.name, spec.about)
  let rows := (commands ++ [Command.helpCommand]).map fun c => ⟨"  " ++ c.1, c.2⟩
  page Command.about (Command.usage [])
    [listing "Commands" rows,
      listing "Options" [helpRow, flagRow 'V' "version" "Print version"]]

def helpPage : String :=
  page Command.helpCommand.2
    (Command.program ++ " " ++ Command.helpCommand.1 ++ " [COMMAND]...")
    [listing "Arguments" [⟨"  [COMMAND]...", "Print help for the subcommand(s)"⟩]]

def text (environment : Environment) : HelpTopic → String
  | .program => programPage
  | .command spec => commandPage environment spec
  | .help => helpPage

end Workflow.Help
