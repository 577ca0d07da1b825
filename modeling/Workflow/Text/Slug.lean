import Workflow.Text.Class

/-!
# Slugs

The form of a name that can stand in a path: its ASCII letters and digits in small
letters, with a hyphen for each gap between them.
-/

namespace Workflow.Text

def isSlugChar (c : Char) : Bool := c.isAlphanum

/-- What is written of a name, the last character first, with the next character of the name:
anything but a letter or digit stands as a hyphen, unless one was written just before. -/
def slugStep (written : List Char) (c : Char) : List Char :=
  if isSlugChar c then c.toLower :: written
  else if written.head? = some '-' then written
  else '-' :: written

/-- A text without the hyphens at its two ends. -/
def trimHyphens (cs : List Char) : List Char :=
  ((cs.dropWhile (· == '-')).reverse.dropWhile (· == '-')).reverse

def slugChars (cs : List Char) : List Char := trimHyphens (cs.foldl slugStep []).reverse

def slug (name : String) : String := String.ofList (slugChars name.toList)

end Workflow.Text
