import Workflow.Json.Basic

/-!
# Writing values

The compact text of a value, without any spaces, and a text over several lines in
which nested parts are indented by two spaces.
-/

namespace Workflow.Json

def escapedChar (c : Char) : List Char :=
  if c = '"' then ['\\', '"']
  else if c = '\\' then ['\\', '\\']
  else if c = '\n' then ['\\', 'n']
  else if c = '\r' then ['\\', 'r']
  else if c = '\t' then ['\\', 't']
  else if c.toNat = 0x8 then ['\\', 'b']
  else if c.toNat = 0xc then ['\\', 'f']
  else if c.toNat < 0x20 then
    ['\\', 'u', '0', '0', Nat.digitChar (c.toNat / 16), Nat.digitChar (c.toNat % 16)]
  else [c]

def quote (s : String) : String :=
  String.ofList ('"' :: s.toList.flatMap escapedChar ++ ['"'])

mutual

def text : Json → String
  | .null => "null"
  | .bool true => "true"
  | .bool false => "false"
  | .num n => n.text
  | .str s => quote s
  | .arr items => "[" ++ ",".intercalate (itemTexts items) ++ "]"
  | .obj fields => "\x7b" ++ ",".intercalate (fieldTexts fields) ++ "\x7d"

def itemTexts : List Json → List String
  | [] => []
  | v :: rest => text v :: itemTexts rest

def fieldTexts : List (String × Json) → List String
  | [] => []
  | (k, v) :: rest => (quote k ++ ":" ++ text v) :: fieldTexts rest

end

/-- Lines of an array or object between its brackets, one part on each line. -/
def block (indent opening closing : String) (parts : List String) : String :=
  if parts.isEmpty then opening ++ closing
  else
    opening ++ "\n" ++ indent ++ "  " ++ (",\n" ++ indent ++ "  ").intercalate parts ++
      "\n" ++ indent ++ closing

mutual

def indentedText (indent : String) : Json → String
  | .arr items => block indent "[" "]" (indentedItems (indent ++ "  ") items)
  | .obj fields => block indent "\x7b" "\x7d" (indentedFields (indent ++ "  ") fields)
  | .null => "null"
  | .bool b => if b then "true" else "false"
  | .num n => n.text
  | .str s => quote s

def indentedItems (indent : String) : List Json → List String
  | [] => []
  | v :: rest => indentedText indent v :: indentedItems indent rest

def indentedFields (indent : String) : List (String × Json) → List String
  | [] => []
  | (k, v) :: rest => (quote k ++ ": " ++ indentedText indent v) :: indentedFields indent rest

end

def prettyText (v : Json) : String := indentedText "" v

/-- The text of a value inside other text: a text stands for itself, null for nothing,
and anything else for its compact text. -/
def display : Json → String
  | .str s => s
  | .null => ""
  | v => text v

end Workflow.Json
