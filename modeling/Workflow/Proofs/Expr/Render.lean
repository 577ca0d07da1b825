import Mathlib.Data.List.Forall2
import Workflow.Proofs.Expr.Complete

/-!
# Renderings

All ways to write a tree differ from the one that is printed in nothing but further parentheses,
other words and marks for the same thing, and numbers that are too large.  So what parsers accept
are the renderings of trees, and each is read as the tree that it renders.
-/

namespace Workflow.Expr

/-- Tokens that are read alike. -/
inductive Token.Same : Token → Token → Prop where
  | refl (t : Token) : Same t t
  | undefined : Same (.word "undefined") (.word "null")
  | equal : Same (.mark .equal) (.mark .same)
  | notEqual : Same (.mark .notEqual) (.mark .notSame)
  | number {x y : Float} : numberOf? x = numberOf? y → Same (.number x) (.number y)
  | overflow {x : Float} : numberOf? x = none → Same (.number x) (.word "null")

/-- Tokens that are read like others and have further parentheses among them. -/
inductive Renders : List Token → List Token → Prop where
  | nil : Renders [] []
  | cons {t u : Token} {ts us : List Token} :
      t.Same u → Renders ts us → Renders (t :: ts) (u :: us)
  | extra {m : Mark} {ts us : List Token} :
      m ∈ [Mark.openParen, .closeParen] → Renders ts us → Renders (.mark m :: ts) us

@[simp] theorem enclose_zero (e : Expr) (ts : List Token) : enclose 0 e ts = ts :=
  if_neg (Nat.not_lt_zero _)

namespace Renders

variable {t u : Token} {ts ts' us us' : List Token}

theorem one (h : t.Same u) : Renders [t] [u] := .cons h .nil

theorem self (t : Token) : Renders [t] [t] := one (.refl t)

theorem append (h : Renders ts us) (h' : Renders ts' us') :
    Renders (ts ++ ts') (us ++ us') := by
  induction h with
  | nil => exact h'
  | cons hsame _ ih => exact .cons hsame ih
  | extra hm _ ih => exact .extra hm ih

/-- Parentheses that are not asked for are further ones. -/
theorem drop {m : Mark} (hm : m ∈ [Mark.openParen, .closeParen])
    (h : Renders ts (us ++ .mark m :: us')) : Renders ts (us ++ us') := by
  generalize hvs : us ++ .mark m :: us' = vs at h
  induction h generalizing us with
  | nil => simp at hvs
  | extra hm' _ ih => exact .extra hm' (ih hvs)
  | @cons t v ts vs hsame hrest ih =>
      cases us with
      | nil =>
          obtain ⟨rfl, rfl⟩ := List.cons.inj hvs
          rcases List.mem_pair.mp hm with rfl | rfl <;> cases hsame <;>
            exact .extra (by decide) hrest
      | cons u us =>
          obtain ⟨rfl, htail⟩ := List.cons.inj hvs
          exact .cons hsame (ih htail)

theorem enclosed (h : Renders ts us) :
    Renders (.mark .openParen :: ts ++ [.mark .closeParen])
      (.mark .openParen :: us ++ [.mark .closeParen]) :=
  .cons (.refl _) (h.append (self _))

theorem unclosed (h : Renders ts (.mark .openParen :: us ++ [.mark .closeParen])) :
    Renders ts us := by
  have hopen : Renders ts ([] ++ (us ++ [.mark .closeParen])) := drop (by decide) h
  have hclose : Renders ts (us ++ []) := drop (by decide) hopen
  simpa using hclose

/-- Fewer parentheses are demanded of what may bind looser. -/
theorem looser {e : Expr} {k k' : Nat} (hk : k' ≤ k) (h : Renders ts (enclose k e us)) :
    Renders ts (enclose k' e us) := by
  rw [enclose] at h ⊢
  split at h
  · split
    · exact h
    · exact h.unclosed
  · next hrank => rwa [if_neg (by omega)]

end Renders

/-- How tight something at a level binds. -/
def Level.rank : Level → Nat
  | .whole => 0
  | .operators tables => 7 - tables.length
  | .access => 8
  | .primary => 8

theorem rank_of_table {ops : List (Mark × BinaryOp)} {tables : List (List (Mark × BinaryOp))}
    (hsuffix : ops :: tables <:+ levels) {m : Mark} {op : BinaryOp} (hm : (m, op) ∈ ops) :
    Level.rank (.operators (ops :: tables)) = op.rank ∧
      Level.rank (.operators tables) = op.rank + 1 ∧ Token.Same (.mark m) (.mark op.mark) := by
  have hall : ∀ suffix ∈ levels.tails, ∀ p ∈ suffix.headD [],
      7 - suffix.length = p.2.rank ∧ 7 - suffix.tail.length = p.2.rank + 1 ∧
        (p.1 = p.2.mark ∨ p.1 = .equal ∧ p.2.mark = .same ∨
          p.1 = .notEqual ∧ p.2.mark = .notSame) := by
    decide
  obtain ⟨hrank, htighter, hmark⟩ := hall _ ((List.mem_tails _ _).mpr hsuffix) _ hm
  refine ⟨hrank, htighter, ?_⟩
  rcases hmark with hmark | ⟨hm, hmark⟩ | ⟨hm, hmark⟩
  · exact hmark ▸ .refl _
  · simp only at hm hmark
    rw [hm, hmark]
    exact .equal
  · simp only at hm hmark
    rw [hm, hmark]
    exact .notEqual

section

variable {spell : Number → Float}

theorem renders_separated {parts : List Part}
    (h : ∀ part ∈ parts, Renders part.tokens (part.tree.printed spell)) :
    Renders (separated (parts.map Part.tokens))
      (separated (printedAll spell (parts.map Part.tree))) := by
  induction parts with
  | nil => exact .nil
  | cons part more ih =>
      have hpart := h part List.mem_cons_self
      have hmore := ih fun other hother => h other (List.mem_cons_of_mem part hother)
      cases more with
      | nil => exact hpart
      | cons next more => exact hpart.append (.cons (.refl _) hmore)

/-- What is written renders what is printed. -/
theorem written_renders (hspell : Spells spell) {l : Level} {d : Nat} {e : Expr}
    {ts : List Token} (h : Written l d e ts) :
    Renders ts (enclose l.rank e (e.printed spell)) := by
  induction h with
  | null => exact .self _
  | undefined => exact .one .undefined
  | true => exact .self _
  | false => exact .self _
  | quoted => exact .self _
  | number h =>
      obtain ⟨n, rfl⟩ := exists_num h
      exact .one (.number (h.trans (hspell _ _ h).symm))
  | overflow h => exact .one (.overflow h)
  | root => exact .self _
  | array parts _ ih =>
      exact .cons (.refl _) ((renders_separated ih).append (.self _))
  | call helper parts _ _ ih =>
      exact .cons (.refl _) (.cons (.refl _) ((renders_separated ih).append (.self _)))
  | @enclosed d e ts _ ih =>
      rw [Level.rank, enclose_zero] at ih
      change Renders _ (enclose 8 e _)
      rw [enclose]
      split
      · exact ih.enclosed
      · exact ih.enclosed.unclosed
  | primary _ ih => exact ih
  | member key _ ih => exact ih.append (.cons (.refl _) (.self _))
  | index _ _ ih ih' => exact (ih.append (.cons (.refl _) ih')).append (.self _)
  | access _ ih => exact ih.looser (by decide)
  | unary op _ ih => exact .cons (.refl _) ih
  | tighter _ ih => exact ih.looser (by simp [Level.rank]; omega)
  | @binary d d' left right ts us m op ops tables hsuffix hm _ _ ih ih' =>
      obtain ⟨hrank, htighter, hsame⟩ := rank_of_table hsuffix hm
      rw [hrank] at ih ⊢
      rw [htighter] at ih'
      have hself : enclose op.rank (.binary op left right) =
          id := by
        funext ts
        rw [enclose, if_neg (by simp [rank])]
        rfl
      rw [hself]
      exact ih.append (.cons hsame ih')
  | plain _ ih => exact ih.looser (Nat.zero_le _)
  | conditional _ _ _ ih ih' ih'' =>
      exact (ih.append (.cons (.refl _) ih')).append (.cons (.refl _) ih'')

/-- What is written is read as its tree if not too many levels have to be opened. -/
theorem ofTokens_of_written {d : Nat} {e : Expr} {ts : List Token} (h : Written .whole d e ts) :
    ofTokens ts = if d ≤ maxDepth then .ok e else .error .tooDeep := by
  have hnil : Level.Ready .whole [] := nofun
  have hread := written_is_read h maxDepth [] hnil
  rw [List.append_nil] at hread
  change (parsers maxDepth).expr ts = _ at hread
  rw [ofTokens, hread, within]
  by_cases hd : d ≤ maxDepth
  · rw [if_pos hd, if_pos hd]
    rfl
  · rw [if_neg hd, if_neg hd]

/-- A tree that is printed with parentheses only where the order of precedence demands them is read
as itself, or refused if it is nested too deeply.  What else is read as a tree are the other ways in
which the grammar lets one write it, and these render what is printed. -/
theorem parses_exactly_renderings {spell : Number → Float} (hspell : Spells spell) :
    (∀ e : Expr, e.Made →
        ofTokens (e.printed spell) =
          if e.nesting + 1 ≤ maxDepth then .ok e else .error .tooDeep) ∧
      (∀ ts e, ofTokens ts = .ok e ↔ ∃ d ≤ maxDepth, Written .whole d e ts) ∧
        ∀ ts e, ofTokens ts = .ok e → e.Made ∧ Renders ts (e.printed spell) := by
  refine ⟨fun e he => ofTokens_of_written (he.printed hspell).whole, fun ts e => ?_,
    fun ts e h => ?_⟩
  · constructor
    · exact written_of_ofTokens
    · rintro ⟨d, hd, hwritten⟩
      rw [ofTokens_of_written hwritten, if_pos hd]
  · obtain ⟨d, -, hwritten⟩ := written_of_ofTokens h
    have hrenders := written_renders hspell hwritten
    rw [Level.rank, enclose_zero] at hrenders
    exact ⟨hwritten.made, hrenders⟩

/-- A tree in which some parentheses are demanded and others are not. -/
def mixed : Expr :=
  .conditional
    (.binary .sub (.root .trigger) (.binary .sub (.root .event) (.literal .null)))
    (.unary .neg (.member (.unary .not (.root .nodes)) "k"))
    (.call .now [])

theorem mixed_made : mixed.Made :=
  .conditional (.binary .sub (.root .trigger) (.binary .sub (.root .event) .null))
    (.unary .neg (.member "k" (.unary .not (.root .nodes))))
    (.call ⟨Nat.le_refl 0, Nat.le_refl 0⟩ nofun)

theorem parses_mixed_rendering :
    ofTokens
        [.word "trigger", .mark .minus, .mark .openParen, .word "event", .mark .minus,
          .word "null", .mark .closeParen, .mark .question, .mark .minus, .mark .openParen,
          .mark .bang, .word "nodes", .mark .closeParen, .mark .dot, .word "k", .mark .colon,
          .helper "$now", .mark .openParen, .mark .closeParen] = .ok mixed := by
  obtain ⟨spell, hspell⟩ := exists_spells
  have hread := (parses_exactly_renderings hspell).1 mixed mixed_made
  rwa [if_pos (by decide)] at hread

end

end Workflow.Expr
