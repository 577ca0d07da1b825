import Workflow.Text.Class

/-!
# Types of content

A type of content is a type and a subtype, which may be followed by parameters.  A text that
breaks the rules anywhere, in a parameter too, is none.
-/

namespace Workflow.Web

/-- A type of content: a type, a subtype, and what the subtype says about the notation behind
its last plus sign. -/
structure MediaType where
  type : String
  subtype : String
  suffix : Option String
  deriving Repr, DecidableEq

namespace MediaType

def isNameChar (c : Char) : Bool := c.isAlphanum || "!#$%&'*+-.^_`|~".toList.contains c

def isQuotedChar (c : Char) : Bool := 32 ≤ c.toNat && c.toNat != 127

/-- Where a reader of parameters is: before a name, in a name, in a value, in a value in quotes,
or behind one.  It remembers whether a value has begun. -/
inductive Place where
  | start
  | name
  | value (begun : Bool)
  | quoted (begun : Bool)
  | behind
  deriving Repr, DecidableEq

/-- Where a reader is behind a character, unless the character may not stand there. -/
def Place.step : Place → Char → Option Place
  | .start, c => if c = ' ' then some .start else if isNameChar c then some .name else none
  | .name, c => if c = '=' then some (.value false) else if isNameChar c then some .name else none
  | .value begun, c =>
    if c = '"' && !begun then some (.quoted false)
    else if c = ';' && begun then some .start
    else if isNameChar c then some (.value true)
    else none
  | .quoted begun, c =>
    if c = '"' && begun then some .behind
    else if isQuotedChar c then some (.quoted true)
    else none
  | .behind, c => if c = ';' then some .start else if c = ' ' then some .behind else none

def Place.canEnd : Place → Bool
  | .name => false
  | .quoted _ => false
  | _ => true

def areParameters (cs : List Char) : Bool := (cs.foldlM Place.step .start).any Place.canEnd

def splitSuffix (subtype : List Char) : List Char × Option (List Char) :=
  let behind := subtype.reverse.takeWhile (· != '+')
  let before := (subtype.reverse.drop (behind.length + 1)).reverse
  if before.isEmpty then (subtype, none) else (before, some behind.reverse)

def parse? (s : String) : Option MediaType :=
  let cs := s.toList.map Char.toLower
  let (type, rest) := cs.span isNameChar
  let (subtype, parameters) := (rest.drop 1).span isNameChar
  let isFollowed := match parameters with
    | [] => true
    | ';' :: parameters => areParameters parameters
    | _ => false
  if type.isEmpty || rest.head? != some '/' || subtype.isEmpty || !isFollowed then none
  else
    let (before, suffix) := splitSuffix subtype
    some ⟨String.ofList type, String.ofList before, suffix.map String.ofList⟩

/-- Whether a type of content is that of data, or one that is written as data. -/
def isData (t : MediaType) : Bool :=
  t.type = "application" && (t.subtype = "json" || t.suffix = some "json")

example : (parse? "Application/vnd.api+json; charset=\"utf-8\"").any isData = true := by
  decide +kernel

example : parse? "application/json; charset" = none := by decide +kernel

end MediaType

end Workflow.Web
