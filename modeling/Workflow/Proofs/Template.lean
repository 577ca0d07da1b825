import Mathlib.Data.List.Basic
import Workflow.Template

/-!
# The pieces of a template

A template falls into literal text and placeholders by its own text alone: each placeholder reaches
from the first two opening brackets to the first two closing brackets behind them, and brackets that
are never closed are literal text.  Filling in a template shows one piece after the other, so no
value has a say in what the pieces are, whatever brackets it contains.
-/

namespace Workflow.Template

/-! ### First occurrences -/

/-- A text is cut where a mark first occurs in it. -/
structure Cut (mark text before after : List Char) : Prop where
  joined : text = before ++ mark ++ after
  first : ∀ before' after', text = before' ++ mark ++ after' → before.length ≤ before'.length

section

variable {c : Char} {mark text before after before' after' : List Char}

/-- There is only one first place. -/
theorem Cut.unique (h : Cut mark text before after) (h' : Cut mark text before' after') :
    before = before' ∧ after = after' := by
  have hlength : before.length = before'.length :=
    Nat.le_antisymm (h.first _ _ h'.joined) (h'.first _ _ h.joined)
  have hjoined := h.joined.symm.trans h'.joined
  rw [List.append_assoc, List.append_assoc] at hjoined
  obtain ⟨rfl, hrest⟩ := List.append_inj hjoined hlength
  exact ⟨rfl, List.append_cancel_left hrest⟩

theorem Cut.infix (h : Cut mark text before after) : mark <:+: text :=
  ⟨before, after, h.joined.symm⟩

theorem cut_of_cut (h : cut c text = some (before, after)) : Cut [c, c] text before after := by
  fun_induction cut c text generalizing before after with
  | case1 a b rest hc =>
    obtain ⟨rfl, rfl⟩ : [] = before ∧ rest = after := by simpa using h
    obtain ⟨rfl, rfl⟩ := hc
    exact ⟨rfl, fun _ _ _ => Nat.zero_le _⟩
  | case2 a b rest hc ih =>
    obtain ⟨t, ht, rfl⟩ : ∃ t, cut c (b :: rest) = some (t, after) ∧ a :: t = before := by
      simpa using h
    obtain ⟨hjoined, hfirst⟩ := ih ht
    refine ⟨by rw [hjoined]; rfl, fun before' after' htext => ?_⟩
    cases before' with
    | nil =>
      obtain ⟨rfl, hrest⟩ := List.cons.inj htext
      exact absurd ⟨rfl, (List.cons.inj hrest).1⟩ hc
    | cons a' before' => exact Nat.succ_le_succ (hfirst _ _ (List.cons.inj htext).2)
  | case3 => simp at h

theorem not_infix_of_cut (h : cut c text = none) : ¬ [c, c] <:+: text := by
  fun_induction cut c text with
  | case1 => simp at h
  | case2 a b rest hc ih =>
    rw [List.infix_cons_iff, not_or]
    refine ⟨fun hprefix => hc ?_, ih (by simpa using h)⟩
    obtain ⟨rfl, hrest⟩ := List.cons_prefix_cons.mp hprefix
    exact ⟨rfl, (List.cons_prefix_cons.mp hrest).1.symm⟩
  | case3 text hshort =>
    intro hinfix
    have hlength : 2 ≤ text.length := hinfix.length_le
    rcases text with _ | ⟨a, _ | ⟨b, rest⟩⟩
    · simp at hlength
    · simp at hlength
    · exact hshort a b rest rfl

end

/-! ### Pieces -/

/-- A piece of a template: text that stands for itself, or a placeholder for the value at a path. -/
inductive Piece where
  | literal (text : List Char)
  | placeholder (path : List Char)

def opening : List Char := ['\x7b', '\x7b']

def closing : List Char := ['\x7d', '\x7d']

/-- The text of a piece in a template. -/
def Piece.written : Piece → List Char
  | .literal text => text
  | .placeholder path => opening ++ path ++ closing

/-- What a piece comes to: the value that its path leads to as text, nothing if that is missing or
null. -/
def Piece.filled (scope : Scope) : Piece → List Char
  | .literal text => text
  | .placeholder path =>
    match scope.resolve (String.ofList path) with
    | none => []
    | some .null => []
    | some v => v.display.toList

/-- A text falls into pieces: its placeholders are cut out from left to right, and brackets that are
not closed are literal with all that follows. -/
inductive Falls : List Char → List Piece → Prop where
  | plain {text : List Char} : ¬ opening <:+: text → Falls text [.literal text]
  | unclosed {text before opened : List Char} :
      Cut opening text before opened → ¬ closing <:+: opened → Falls text [.literal text]
  | placeholder {text before opened path rest : List Char} {more : List Piece} :
      Cut opening text before opened → Cut closing opened path rest → Falls rest more →
        Falls text (.literal before :: .placeholder path :: more)

def piecesOf (cs : List Char) : List Piece :=
  match _hopen : cut '\x7b' cs with
  | none => [.literal cs]
  | some (before, opened) =>
    match _hclose : cut '\x7d' opened with
    | none => [.literal cs]
    | some (path, rest) => .literal before :: .placeholder path :: piecesOf rest
termination_by cs.length
decreasing_by
  have := length_lt_of_cut (by assumption : cut '\x7b' cs = _)
  have := length_lt_of_cut (by assumption : cut '\x7d' opened = _)
  omega

/-- The pieces of a template. -/
def pieces (template : String) : List Piece := piecesOf template.toList

theorem falls_piecesOf (text : List Char) : Falls text (piecesOf text) := by
  fun_induction piecesOf text with
  | case1 text hopen => exact .plain (not_infix_of_cut hopen)
  | case2 text before opened hopen hclose =>
    exact .unclosed (cut_of_cut hopen) (not_infix_of_cut hclose)
  | case3 text before opened hopen path rest hclose ih =>
    exact .placeholder (cut_of_cut hopen) (cut_of_cut hclose) ih

/-- A text falls into pieces in one way only. -/
theorem Falls.unique {text : List Char} {ps qs : List Piece} (hps : Falls text ps)
    (hqs : Falls text qs) : ps = qs := by
  induction hps generalizing qs with
  | plain hplain =>
    cases hqs with
    | plain _ => rfl
    | unclosed _ _ => rfl
    | placeholder hopen _ _ => exact absurd hopen.infix hplain
  | unclosed hopen hunclosed =>
    cases hqs with
    | plain _ => rfl
    | unclosed _ _ => rfl
    | placeholder hopen' hclose _ =>
      obtain ⟨-, rfl⟩ := hopen.unique hopen'
      exact absurd hclose.infix hunclosed
  | placeholder hopen hclose _ ih =>
    cases hqs with
    | plain hplain => exact absurd hopen.infix hplain
    | unclosed hopen' hunclosed =>
      obtain ⟨-, rfl⟩ := hopen.unique hopen'
      exact absurd hclose.infix hunclosed
    | placeholder hopen' hclose' hrest =>
      obtain ⟨rfl, rfl⟩ := hopen.unique hopen'
      obtain ⟨rfl, rfl⟩ := hclose.unique hclose'
      rw [ih hrest]

/-- Nothing of a text is lost or added when it falls into pieces. -/
theorem Falls.written {text : List Char} {ps : List Piece} (h : Falls text ps) :
    ps.flatMap Piece.written = text := by
  induction h with
  | plain _ => exact List.append_nil _
  | unclosed _ _ => exact List.append_nil _
  | @placeholder text before opened path rest more hopen hclose _ ih =>
    calc before ++ (opening ++ path ++ closing ++ more.flatMap Piece.written)
        = before ++ opening ++ (path ++ closing ++ rest) := by simp [ih]
      _ = text := by rw [← hclose.joined, ← hopen.joined]

/-! ### Filling in -/

theorem filled_placeholder (scope : Scope) (path : List Char) :
    Piece.filled scope (.placeholder path) = shown scope path := by
  rw [Piece.filled, shown]
  cases scope.resolve (String.ofList path) with
  | none => rfl
  | some v => cases v <;> rfl

section

variable (shown : List Char → List Char) {cs before opened path rest : List Char}

theorem substitute_plain (hopen : cut '\x7b' cs = none) : substitute shown cs = cs := by
  rw [substitute]
  split
  · rfl
  · simp_all

theorem substitute_unclosed (hopen : cut '\x7b' cs = some (before, opened))
    (hclose : cut '\x7d' opened = none) : substitute shown cs = cs := by
  rw [substitute]
  split
  · rfl
  · split
    · rfl
    · simp_all

theorem substitute_placeholder (hopen : cut '\x7b' cs = some (before, opened))
    (hclose : cut '\x7d' opened = some (path, rest)) :
    substitute shown cs = before ++ shown path ++ substitute shown rest := by
  rw [substitute]
  split
  · simp_all
  · split
    · simp_all
    · simp_all

end

/-- A pass over a text shows its pieces one after the other. -/
theorem substitute_eq_flatMap (scope : Scope) (text : List Char) :
    substitute (shown scope) text = (piecesOf text).flatMap (Piece.filled scope) := by
  fun_induction piecesOf text with
  | case1 text hopen =>
    rw [substitute_plain _ hopen]
    exact (List.append_nil _).symm
  | case2 text before opened hopen hclose =>
    rw [substitute_unclosed _ hopen hclose]
    exact (List.append_nil _).symm
  | case3 text before opened hopen path rest hclose ih =>
    rw [substitute_placeholder _ hopen hclose, ih, List.flatMap_cons, List.flatMap_cons,
      filled_placeholder, List.append_assoc]
    rfl

/-- The text of a template alone falls into literal pieces and placeholders, in one way only, and
written one behind the other these give the template back.  In every scope the result is the
literals with the text of a value for each placeholder; since the pieces are those of the template,
no text that is filled in is searched for brackets. -/
theorem fill_in_one_pass (template : String) :
    (∀ ps, Falls template.toList ps ↔ ps = pieces template) ∧
      (pieces template).flatMap Piece.written = template.toList ∧
      ∀ scope, fill scope template =
        String.ofList ((pieces template).flatMap (Piece.filled scope)) := by
  have hfalls := falls_piecesOf template.toList
  refine ⟨fun ps => ⟨fun h => h.unique hfalls, ?_⟩, hfalls.written, fun scope => ?_⟩
  · rintro rfl
    exact hfalls
  · rw [fill, substitute_eq_flatMap, pieces]

/-- Brackets in a value are not looked into. -/
example (now : Time.Instant) :
    fill ⟨.str "\x7b\x7bevent\x7d\x7d", [], [], now⟩ "a \x7b\x7btrigger\x7d\x7d b \x7b\x7b" =
      "a \x7b\x7bevent\x7d\x7d b \x7b\x7b" := by
  cbv

end Workflow.Template
