import Mathlib.Data.List.TakeWhile
import Workflow.Expr.Token

/-!
# Reading tokens

Words, marks and quoted texts are read back as the tokens that they spell, whatever comes behind
them.
-/

namespace Workflow.Expr

/-! ### Quoted texts -/

/-- A text with a backslash before each quote of a kind and each backslash. -/
def escapedBy (mark : Char) : List Char → List Char
  | [] => []
  | c :: cs =>
    if c = mark ∨ c = '\\' then '\\' :: c :: escapedBy mark cs else c :: escapedBy mark cs

/-- A text between quotes of a kind. -/
def quotedBy (mark : Char) (s : String) : List Char := mark :: escapedBy mark s.toList ++ [mark]

section

variable {mark c : Char}

/-- What quotes of both kinds have in common. -/
theorem quote_spec (hmark : mark ∈ ['"', '\'']) :
    mark ≠ '\\' ∧ unescape mark = mark ∧ Text.isBlank mark = false ∧
      (mark = '"' || mark = '\'') = true := by
  rw [List.mem_cons, List.mem_singleton] at hmark
  obtain rfl | rfl := hmark
  · decide
  · decide

theorem readQuoted_close (hmark : mark ≠ '\\') (cs : List Char) :
    readQuoted mark (mark :: cs) = some ([], cs) := by
  rw [readQuoted.eq_3 _ _ _ (fun _ _ h => absurd h hmark), if_pos rfl]

theorem readQuoted_plain (hc : c ≠ '\\') (hquote : c ≠ mark) (cs : List Char) :
    readQuoted mark (c :: cs) =
      (readQuoted mark cs).map fun (text, rest) => (c :: text, rest) := by
  rw [readQuoted.eq_3 _ _ _ (fun _ _ h => absurd h hc), if_neg hquote]

/-- Nothing in a text ends it early, and each of its characters is read as itself. -/
theorem readQuoted_escapedBy (hmark : mark ∈ ['"', '\'']) (cs rest : List Char) :
    readQuoted mark (escapedBy mark cs ++ mark :: rest) = some (cs, rest) := by
  obtain ⟨hslash, hmarkEscape, -, -⟩ := quote_spec hmark
  induction cs with
  | nil => exact readQuoted_close hslash rest
  | cons c cs ih =>
      rw [escapedBy]
      split
      · next hc =>
        have hunescape : unescape c = c := by
          rcases hc with rfl | rfl
          · exact hmarkEscape
          · decide
        rw [List.cons_append, List.cons_append, readQuoted, ih, Option.map_some, hunescape]
      · next hc =>
        obtain ⟨hquote, hplain⟩ := not_or.mp hc
        rw [List.cons_append, readQuoted_plain hplain hquote, ih, Option.map_some]

end

/-! ### One token -/

section

variable {c : Char} {cs rest : List Char} {t : Token} {ts : List Token}

theorem tokens_cons (hblank : Text.isBlank c = false) (hread : Token.read c cs = .ok (t, rest))
    (hrest : tokens rest = .ok ts) : tokens (c :: cs) = .ok (t :: ts) := by
  rw [tokens, if_neg (by simp [hblank])]
  split
  · next e he =>
    rw [hread] at he
    cases he
  · next t' rest' hread' =>
    rw [hread] at hread'
    cases hread'
    rw [hrest]

theorem tokens_blank (hblank : Text.isBlank c = true) (cs : List Char) :
    tokens (c :: cs) = tokens cs := by
  rw [tokens, if_pos hblank]

theorem tokens_quotedBy {mark : Char} (hmark : mark ∈ ['"', '\'']) (s : String)
    (hrest : tokens rest = .ok ts) : tokens (quotedBy mark s ++ rest) = .ok (.quoted s :: ts) := by
  obtain ⟨-, -, hblank, hquote⟩ := quote_spec hmark
  have hread :
      Token.read mark (escapedBy mark s.toList ++ mark :: rest) = .ok (.quoted s, rest) := by
    rw [Token.read, if_pos hquote, readQuoted_escapedBy hmark]
    simp only [String.ofList_toList]
  have htokens := tokens_cons hblank hread hrest
  simpa [quotedBy] using htokens

/-- The marks of one character of which no other mark begins with the same. -/
def lone : List (Char × Mark) :=
  [('(', .openParen), (')', .closeParen), ('[', .openBracket), (']', .closeBracket),
    (',', .comma), ('.', .dot)]

theorem tokens_mark {m : Mark} (hm : (c, m) ∈ lone) (hrest : tokens rest = .ok ts) :
    tokens (c :: rest) = .ok (.mark m :: ts) := by
  have hread : Token.read c rest = .ok (.mark m, rest) ∧ Text.isBlank c = false := by
    simp only [lone, List.mem_cons, Prod.mk.injEq, List.not_mem_nil, or_false] at hm
    rcases hm with ⟨rfl, rfl⟩ | ⟨rfl, rfl⟩ | ⟨rfl, rfl⟩ | ⟨rfl, rfl⟩ | ⟨rfl, rfl⟩ | ⟨rfl, rfl⟩ <;>
      exact ⟨rfl, by decide⟩
  exact tokens_cons hread.2 hread.1 hrest

/-- Nothing that a word may go on with comes first. -/
def EndsWord (cs : List Char) : Prop := ∀ c more, cs = c :: more → isWordChar c = false

theorem endsWord_nil : EndsWord [] := nofun

theorem endsWord_cons (h : isWordChar c = false) : EndsWord (c :: cs) := by
  rintro _ _ ⟨⟩
  exact h

/-- The code points of the characters with which a word may begin. -/
theorem range_of_isWordStart (h : isWordStart c = true) :
    65 ≤ c.toNat ∧ c.toNat ≤ 90 ∨ 97 ≤ c.toNat ∧ c.toNat ≤ 122 ∨ c.toNat = 95 ∨ c.toNat = 36 := by
  change (decide (c.val ≥ 65 ∧ c.val ≤ 90) || (c.val ≥ 97 && c.val ≤ 122) || c = '_' || c = '$') =
    true at h
  simp only [Bool.or_eq_true, Bool.and_eq_true, decide_eq_true_eq, ge_iff_le,
    UInt32.le_iff_toNat_le] at h
  rcases h with ((⟨hl, hu⟩ | ⟨hl, hu⟩) | rfl) | rfl
  · exact .inl ⟨hl, hu⟩
  · exact .inr (.inl ⟨hl, hu⟩)
  · exact .inr (.inr (.inl rfl))
  · exact .inr (.inr (.inr rfl))

theorem isBlank_of_isWordStart (h : isWordStart c = true) : Text.isBlank c = false := by
  have hrange := range_of_isWordStart h
  simp only [Text.isBlank, Text.inRanges, Text.blankRanges, List.any_cons, List.any_nil,
    Bool.or_false, Bool.or_eq_false_iff, Bool.and_eq_false_iff, decide_eq_false_iff_not]
  omega

theorem isDigit_of_isWordStart (h : isWordStart c = true) : c.isDigit = false := by
  have hrange := range_of_isWordStart h
  rw [Char.isDigit, Bool.and_eq_false_iff, decide_eq_false_iff_not, decide_eq_false_iff_not,
    ge_iff_le, UInt32.le_iff_toNat_le, UInt32.le_iff_toNat_le]
  change ¬ 48 ≤ c.toNat ∨ ¬ c.toNat ≤ 57
  omega

theorem ne_quote_of_isWordStart (h : isWordStart c = true) :
    (c = '"' || c = '\'') = false := by
  have hrange := range_of_isWordStart h
  rw [Bool.or_eq_false_iff, decide_eq_false_iff_not, decide_eq_false_iff_not]
  constructor <;> rintro rfl <;> revert hrange <;> decide

/-- The token of a name: a word, or the name of a helper. -/
def nameToken (c : Char) (s : String) : Token := if c = '$' then .helper s else .word s

theorem read_name (hstart : isWordStart c = true) (hword : ∀ d ∈ cs, isWordChar d = true)
    (hend : EndsWord rest) :
    Token.read c (cs ++ rest) = .ok (nameToken c (String.ofList (c :: cs)), rest) := by
  have htake : rest.takeWhile isWordChar = [] := by
    cases rest with
    | nil => rfl
    | cons d more => rw [List.takeWhile_cons, hend d more rfl, if_neg (by decide)]
  have hdrop : rest.dropWhile isWordChar = rest := by
    cases rest with
    | nil => rfl
    | cons d more => rw [List.dropWhile_cons, hend d more rfl, if_neg (by decide)]
  rw [Token.read, ne_quote_of_isWordStart hstart, isDigit_of_isWordStart hstart, hstart,
    List.takeWhile_append_of_pos hword, List.dropWhile_append_of_pos hword, htake, hdrop,
    List.append_nil]
  rfl

/-- A name, with what comes behind it, is read as its token. -/
theorem tokens_name {s : String} (hs : s.toList = c :: cs) (hstart : isWordStart c = true)
    (hword : ∀ d ∈ cs, isWordChar d = true) (hend : EndsWord rest)
    (hrest : tokens rest = .ok ts) : tokens (s.toList ++ rest) = .ok (nameToken c s :: ts) := by
  have hread := read_name hstart hword hend
  rw [← hs, String.ofList_toList] at hread
  rw [hs]
  exact tokens_cons (isBlank_of_isWordStart hstart) hread hrest

end

end Workflow.Expr
