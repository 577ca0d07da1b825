import Workflow.Proofs.Expr.Lexer

/-!
# Tokens of joined texts

A token ends where a character comes that it cannot go on with.  No number, word or mark goes on
with white space or with a quote, so the tokens of texts that meet there are those of each.  A text
in quotes is such a place at both ends, and whatever is in it belongs to one token.
-/

namespace Workflow.Expr

/-! ### Where texts may meet -/

/-- No number, word or mark goes on with a character. -/
structure Separates (c : Char) : Prop where
  number : isNumberChar c = false
  word : isWordChar c = false
  mark : ∀ m : Mark, c ∉ m.text.toList

theorem separates_of_mem {c : Char} (hc : c ∈ [' ', '"', '\'']) : Separates c := by
  rw [List.mem_cons, List.mem_cons, List.mem_singleton] at hc
  obtain rfl | rfl | rfl := hc
  · exact ⟨rfl, rfl, fun m => by cases m <;> decide⟩
  · exact ⟨rfl, rfl, fun m => by cases m <;> decide⟩
  · exact ⟨rfl, rfl, fun m => by cases m <;> decide⟩

/-- Nothing that a token may go on with comes first. -/
def EndsToken (cs : List Char) : Prop := ∀ c more, cs = c :: more → Separates c

section

variable {c : Char} {cs rest more : List Char} {t : Token} {ts us : List Token}

theorem endsToken_cons (h : c ∈ [' ', '"', '\'']) : EndsToken (c :: cs) := by
  rintro _ _ ⟨⟩
  exact separates_of_mem h

/-! ### One token with more behind it -/

theorem readQuoted_append {mark : Char} (hmark : mark ≠ '\\') {text : List Char}
    (h : readQuoted mark cs = some (text, rest)) (more : List Char) :
    readQuoted mark (cs ++ more) = some (text, rest ++ more) := by
  fun_induction readQuoted mark cs generalizing text rest with
  | case1 => cases h
  | case2 c cs ih =>
    obtain ⟨t, ht, rfl⟩ : ∃ t, readQuoted mark cs = some (t, rest) ∧ unescape c :: t = text := by
      simpa using h
    rw [List.cons_append, List.cons_append, readQuoted, ih ht, Option.map_some]
  | case3 cs _ =>
    obtain ⟨rfl, rfl⟩ : [] = text ∧ cs = rest := by simpa using h
    exact readQuoted_close hmark _
  | case4 c cs hpair hquote ih =>
    obtain ⟨t, ht, rfl⟩ : ∃ t, readQuoted mark cs = some (t, rest) ∧ c :: t = text := by
      simpa using h
    -- A backslash at the end of a text escapes nothing, and closes nothing either.
    have hslash : c ≠ '\\' := by
      rintro rfl
      cases cs with
      | nil => cases ht
      | cons d ds => exact hpair d ds rfl rfl
    rw [List.cons_append, readQuoted_plain hslash hquote, ih ht, Option.map_some]

/-- A run of characters ends where it ended before. -/
theorem span_append {p : Char → Bool} (h : ∀ c more', more = c :: more' → p c = false)
    (cs : List Char) :
    (cs ++ more).takeWhile p = cs.takeWhile p ∧
      (cs ++ more).dropWhile p = cs.dropWhile p ++ more := by
  induction cs with
  | nil =>
      cases more with
      | nil => exact ⟨rfl, rfl⟩
      | cons c more' => simp [h c more' rfl]
  | cons c cs ih =>
      rw [List.cons_append]
      cases hc : p c with
      | true => simp [hc, ih]
      | false => simp [hc]

theorem isPrefixOf_append {p : List Char} (h : ∀ c more', more = c :: more' → c ∉ p)
    (cs : List Char) : p.isPrefixOf (cs ++ more) = p.isPrefixOf cs := by
  induction p generalizing cs with
  | nil => rw [List.isPrefixOf_nil_left, List.isPrefixOf_nil_left]
  | cons x p ih =>
      cases cs with
      | cons y cs =>
          have hrest := ih (fun c more' hmore hc => h c more' hmore (List.mem_cons_of_mem _ hc)) cs
          rw [List.cons_append, List.isPrefixOf_cons_cons, List.isPrefixOf_cons_cons, hrest]
      | nil =>
          cases more with
          | nil => rfl
          | cons c more' =>
              have hne : x ≠ c := fun hx => h c more' rfl (hx ▸ List.mem_cons_self)
              rw [List.nil_append, List.isPrefixOf_cons_cons, beq_eq_false_iff_ne.mpr hne]
              rfl

theorem ofStart?_append (h : EndsToken more) (cs : List Char) :
    Mark.ofStart? (cs ++ more) = Mark.ofStart? cs := by
  rw [Mark.ofStart?, Mark.ofStart?]
  congr 1
  funext m
  exact isPrefixOf_append (fun c more' hmore => (h c more' hmore).mark m) cs

theorem drop_mark {m : Mark} (h : Mark.ofStart? (c :: cs) = some m) (more : List Char) :
    (cs ++ more).drop (m.text.length - 1) = cs.drop (m.text.length - 1) ++ more := by
  have hprefix : m.text.toList <+: c :: cs := by
    simpa using List.find?_some h
  have hlength := hprefix.length_le
  rw [String.length_toList, List.length_cons] at hlength
  exact List.drop_append_of_le_length (by omega)

/-- A token is read as it was when more comes behind it that it cannot go on with. -/
theorem read_append (hend : EndsToken more) (h : Token.read c cs = .ok (t, rest)) :
    Token.read c (cs ++ more) = .ok (t, rest ++ more) := by
  have hnumber := span_append (fun c more' hmore => (hend c more' hmore).number) cs
  have hword := span_append (fun c more' hmore => (hend c more' hmore).word) cs
  rw [Token.read] at h ⊢
  split at h
  · next hquote =>
    rw [if_pos hquote]
    have hslash : c ≠ '\\' := by
      rintro rfl
      revert hquote
      decide
    split at h
    · next text rest' hread =>
      cases h
      rw [readQuoted_append hslash hread]
    · cases h
  · next hquote =>
    rw [if_neg hquote]
    split at h
    · next hdigit =>
      rw [if_pos hdigit, hnumber.1, hnumber.2]
      simp only at h ⊢
      split at h
      · cases h
        rfl
      · cases h
    · next hdigit =>
      rw [if_neg hdigit]
      split at h
      · next hstart =>
        cases h
        rw [if_pos hstart, hword.1, hword.2]
      · next hstart =>
        rw [if_neg hstart, ← List.cons_append, ofStart?_append hend]
        split at h
        · next m hmark =>
          cases h
          rw [drop_mark hmark]
        · cases h

/-! ### All tokens -/

/-- The tokens of two texts that meet where no token goes on are those of the one and then those of
the other. -/
theorem tokens_append (hend : EndsToken more) (hcs : tokens cs = .ok ts)
    (hmore : tokens more = .ok us) : tokens (cs ++ more) = .ok (ts ++ us) := by
  fun_induction tokens cs generalizing ts with
  | case1 =>
    cases hcs
    exact hmore
  | case2 c cs hblank ih =>
    rw [List.cons_append, tokens_blank hblank]
    exact ih hcs
  | case3 => cases hcs
  | case4 => cases hcs
  | case5 c cs hblank t rest hread more' hrest ih =>
    cases hcs
    exact tokens_cons (by simpa using hblank) (read_append hend hread) (ih hrest)

end

/-- The tokens of two texts with a space between them are those of both, one after the other.  A
text in quotes of either kind, with a backslash before each of these quotes and each backslash in
it, is one token that stands for exactly this text, and what is before and behind it is read as if
it were not there. -/
theorem tokens_compose :
    (∀ a b ts us, tokens a = .ok ts → tokens b = .ok us →
        tokens (a ++ ' ' :: b) = .ok (ts ++ us)) ∧
      ∀ mark ∈ ['"', '\''], ∀ s,
        tokens (quotedBy mark s) = .ok [.quoted s] ∧
          ∀ a b ts us, tokens a = .ok ts → tokens b = .ok us →
            tokens (a ++ (quotedBy mark s ++ b)) = .ok (ts ++ .quoted s :: us) := by
  refine ⟨fun a b ts us ha hb => ?_, fun mark hmark s => ⟨?_, fun a b ts us ha hb => ?_⟩⟩
  · have hspace : tokens (' ' :: b) = .ok us := by rw [tokens_blank (by decide), hb]
    exact tokens_append (endsToken_cons (by decide)) ha hspace
  · have hnil : tokens [] = .ok [] := by rw [tokens]
    have hquoted := tokens_quotedBy hmark s hnil
    rwa [List.append_nil] at hquoted
  · have hends : EndsToken (quotedBy mark s ++ b) :=
      endsToken_cons (List.mem_cons_of_mem _ hmark)
    exact tokens_append hends ha (tokens_quotedBy hmark s hb)

/-- A text that would end its quotes and go on with an operator of its own. -/
theorem tokens_compose_hostile :
    let hostile := "' || \"y\\"
    tokens "x <".toList = .ok [.word "x", .mark .less] ∧
      tokens "=== y".toList = .ok [.mark .same, .word "y"] ∧
      tokens ("x <".toList ++ ' ' :: "=== y".toList) =
        .ok [.word "x", .mark .less, .mark .same, .word "y"] ∧
      String.ofList (quotedBy '\'' hostile) = "'\\' || \"y\\\\'" ∧
      tokens ("x <".toList ++ (quotedBy '\'' hostile ++ "=== y".toList)) =
        .ok [.word "x", .mark .less, .quoted hostile, .mark .same, .word "y"] := by
  intro hostile
  have hbefore : tokens "x <".toList = .ok [.word "x", .mark .less] := by
    with_unfolding_all rfl
  have hbehind : tokens "=== y".toList = .ok [.mark .same, .word "y"] := by
    with_unfolding_all rfl
  obtain ⟨hspaced, hquoted⟩ := tokens_compose
  exact ⟨hbefore, hbehind, hspaced _ _ _ _ hbefore hbehind, by decide,
    (hquoted '\'' (by decide) hostile).2 _ _ _ _ hbefore hbehind⟩

end Workflow.Expr
