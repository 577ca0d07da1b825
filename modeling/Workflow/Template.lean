import Workflow.Path

/-!
# Templates

Text with placeholders `\x7b\x7b path \x7d\x7d`.  A template is gone through once from left to
right: text is copied, the value at a path takes the place of its placeholder, and the rest of the
template comes next.  What is filled in is never looked at again.
-/

namespace Workflow.Template

/-- The text before the first place where a character stands twice in a row, and the text
behind it. -/
def cut (c : Char) : List Char → Option (List Char × List Char)
  | a :: b :: rest =>
    if a = c ∧ b = c then some ([], rest)
    else (cut c (b :: rest)).map fun (before, after) => (a :: before, after)
  | _ => none

theorem length_lt_of_cut {c : Char} {cs before after : List Char}
    (h : cut c cs = some (before, after)) : after.length < cs.length := by
  fun_induction cut c cs generalizing before after with
  | case1 a b rest =>
    obtain ⟨-, rfl⟩ : [] = before ∧ rest = after := by simpa using h
    simp only [List.length_cons]
    omega
  | case2 a b rest _ ih =>
    obtain ⟨t, ht, -⟩ : ∃ t, cut c (b :: rest) = some (t, after) ∧ a :: t = before := by
      simpa using h
    have := ih ht
    simp only [List.length_cons] at this ⊢
    omega
  | case3 => simp at h

/-- A template with what is shown for each path in place of its placeholder.  Opening brackets
that are never closed are text, with all that follows. -/
def substitute (shown : List Char → List Char) (cs : List Char) : List Char :=
  match _hopen : cut '\x7b' cs with
  | none => cs
  | some (before, opened) =>
    match _hclose : cut '\x7d' opened with
    | none => cs
    | some (path, rest) => before ++ shown path ++ substitute shown rest
termination_by cs.length
decreasing_by
  have := length_lt_of_cut (by assumption : cut '\x7b' cs = _)
  have := length_lt_of_cut (by assumption : cut '\x7d' opened = _)
  omega

/-- What is shown for a path: the text of the value it leads to, nothing if there is none. -/
def shown (scope : Scope) (path : List Char) : List Char :=
  match scope.resolve (String.ofList path) with
  | some v => v.display.toList
  | none => []

def fill (scope : Scope) (template : String) : String :=
  String.ofList (substitute (shown scope) template.toList)

end Workflow.Template
