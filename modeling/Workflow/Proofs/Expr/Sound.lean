import Workflow.Proofs.Except
import Workflow.Proofs.Expr.Grammar

/-!
# Parsers read what is written

What a parser takes from the front of its tokens is written in the grammar, at the level of the
parser and within the number of levels that it may open.
-/

namespace Workflow.Expr

/-- A parser reads what is written at a level, with less than so many levels to be opened. -/
def Reads (bound : Nat) (l : Level) (p : Parser Expr) : Prop :=
  ∀ ts e rest, p ts = .ok (e, rest) →
    ∃ d front, d < bound ∧ ts = front ++ rest ∧ Written l d e front

section

variable {bound : Nat} {m : Mark} {ts rest : List Token}

theorem reads_refuse (l : Level) : Reads bound l refuse := by
  intro ts e rest h
  cases h

theorem Reads.length_le {l : Level} {p : Parser Expr} {e : Expr} (hp : Reads bound l p)
    (h : p ts = .ok (e, rest)) : rest.length ≤ ts.length := by
  obtain ⟨_, front, -, rfl, -⟩ := hp _ _ _ h
  simp

theorem eq_of_eat? (h : eat? m ts = some rest) : ts = .mark m :: rest := by
  rw [eat?.eq_def] at h
  split at h
  · split at h
    · next hm =>
        cases h
        rw [hm]
    · cases h
  · cases h

theorem eq_of_expect (h : expect m ts = .ok rest) : ts = .mark m :: rest := by
  rw [expect] at h
  split at h
  · next heat =>
      cases h
      exact eq_of_eat? heat
  · cases h

/-! ### Lists -/

/-- Items that were read from the front of a list of tokens, up to a closing mark. -/
def ReadsParts (bound : Nat) (close : Mark) (ts : List Token) (items : List Expr)
    (rest : List Token) : Prop :=
  ∃ parts : List Part,
    (∀ part ∈ parts, Written .whole part.depth part.tree part.tokens) ∧ deepest parts < bound + 1 ∧
      items = parts.map Part.tree ∧
        ts = separated (parts.map Part.tokens) ++ .mark close :: rest

theorem listItems_reads {expr : Parser Expr} (hexpr : Reads (bound + 1) .whole expr)
    {close : Mark} {fuel : Nat} {items : List Expr}
    (h : listItems expr close fuel ts = .ok (items, rest)) :
    ReadsParts bound close ts items rest ∧ items ≠ [] := by
  induction fuel generalizing ts items with
  | zero => cases h
  | succ fuel ih =>
      rw [listItems] at h
      split at h
      · cases h
      · next item ts' hitem =>
        obtain ⟨d, front, hd, rfl, hwritten⟩ := hexpr _ _ _ hitem
        split at h
        · next ts'' heat =>
          cases h
          rw [eq_of_eat? heat]
          refine ⟨⟨[⟨d, item, front⟩], by simpa using hwritten, ?_, rfl, rfl⟩, by simp⟩
          simpa [deepest] using hd
        · split at h
          · cases h
          · next ts'' hcomma =>
            split at h
            · cases h
            · next items' ts''' hitems =>
              cases h
              obtain ⟨⟨parts, hparts, hdeepest, rfl, rfl⟩, hne⟩ := ih hitems
              rw [eq_of_expect hcomma]
              refine ⟨⟨⟨d, item, front⟩ :: parts, ?_, ?_, rfl, ?_⟩, by simp⟩
              · simpa using ⟨hwritten, hparts⟩
              · exact max_lt hd hdeepest
              · cases parts with
                | nil => exact absurd rfl hne
                | cons part more => simp [separated]

theorem listExpr_reads {expr : Parser Expr} (hexpr : Reads (bound + 1) .whole expr)
    {close : Mark} {items : List Expr} (h : listExpr expr close ts = .ok (items, rest)) :
    ReadsParts bound close ts items rest := by
  rw [listExpr] at h
  split at h
  · next ts' heat =>
    cases h
    rw [eq_of_eat? heat]
    exact ⟨[], by simp, Nat.succ_pos bound, rfl, rfl⟩
  · exact (listItems_reads hexpr h).1

/-! ### Level by level -/

theorem written_of_wordExpr {name : String} {e : Expr} (h : wordExpr name = .ok e) :
    Written .primary 0 e [.word name] := by
  rw [wordExpr] at h
  split at h
  · next hname =>
    cases h
    rw [hname]
    exact .true
  · split at h
    · next hname =>
      cases h
      rw [hname]
      exact .false
    · split at h
      · next hname =>
        cases h
        rcases (by simpa using hname : name = "null" ∨ name = "undefined") with rfl | rfl
        · exact .null
        · exact .undefined
      · split at h
        · next r hr =>
          cases h
          have hname : r.name = name := by simpa using List.find?_some hr
          rw [← hname]
          exact .root r
        · cases h

theorem primaryExpr_reads {expr : Parser Expr} (hexpr : Reads (bound + 1) .whole expr) :
    Reads (bound + 1) .primary (primaryExpr expr) := by
  intro ts e rest h
  rw [primaryExpr.eq_def] at h
  split at h
  · cases h
  · next x ts =>
    cases h
    refine ⟨0, [.number x], Nat.succ_pos bound, rfl, ?_⟩
    cases hx : numberOf? x with
    | none => exact .overflow hx
    | some v => exact .number hx
  · next s ts =>
    cases h
    exact ⟨0, [.quoted s], Nat.succ_pos bound, rfl, .quoted s⟩
  · next name ts =>
    split at h
    · next e' hword =>
      cases h
      exact ⟨0, [.word name], Nat.succ_pos bound, rfl, written_of_wordExpr hword⟩
    · cases h
  · next name ts =>
    split at h
    · cases h
    · next helper hhelper =>
      have hname : helper.name = name := by simpa using List.find?_some hhelper
      obtain ⟨ts', hopen, hcall⟩ := bind_eq_ok h
      obtain ⟨⟨args, ts''⟩, hargs, hresult⟩ := bind_eq_ok hcall
      obtain ⟨parts, hparts, hdeepest, rfl, rfl⟩ := listExpr_reads hexpr hargs
      simp only at hresult
      split at hresult
      · next hcount =>
        cases hresult
        rw [List.length_map, Bool.and_eq_true, decide_eq_true_eq, decide_eq_true_eq] at hcount
        refine ⟨_, _, hdeepest, ?_, .call helper parts hcount hparts⟩
        rw [eq_of_expect hopen, hname]
        simp
      · cases hresult
  · next ts =>
    obtain ⟨⟨inner, ts'⟩, hinner, henclosed⟩ := bind_eq_ok h
    obtain ⟨ts'', hclose, hresult⟩ := bind_eq_ok henclosed
    cases hresult
    obtain ⟨d, front, hd, rfl, hwritten⟩ := hexpr _ _ _ hinner
    refine ⟨d, _, hd, ?_, .enclosed hwritten⟩
    rw [eq_of_expect hclose]
    simp
  · next ts =>
    obtain ⟨⟨items, ts'⟩, hitems, hresult⟩ := bind_eq_ok h
    cases hresult
    obtain ⟨parts, hparts, hdeepest, rfl, rfl⟩ := listExpr_reads hexpr hitems
    exact ⟨_, _, hdeepest, by simp, .array parts hparts⟩
  · cases h

/-- Names and positions are taken one after another behind what was read so far. -/
theorem accessExpr_reads {expr : Parser Expr} (hexpr : Reads (bound + 1) .whole expr)
    {fuel : Nat} {object e : Expr} (h : accessExpr expr fuel object ts = .ok (e, rest))
    {d : Nat} (hd : d < bound + 1) {front : List Token} (hobject : Written .access d object front) :
    ∃ d' front', d' < bound + 1 ∧ front ++ ts = front' ++ rest ∧ Written .access d' e front' := by
  induction fuel generalizing object ts d front with
  | zero =>
      cases h
      exact ⟨d, front, hd, rfl, hobject⟩
  | succ fuel ih =>
      rw [accessExpr.eq_def] at h
      simp only at h
      split at h
      · next name ts =>
        obtain ⟨d', front', hd', heq, hwritten⟩ := ih h hd (.member name hobject)
        exact ⟨d', front', hd', by simpa using heq, hwritten⟩
      · cases h
      · next ts =>
        obtain ⟨⟨position, ts'⟩, hposition, hindex⟩ := bind_eq_ok h
        obtain ⟨ts'', hclose, hmore⟩ := bind_eq_ok hindex
        obtain ⟨d₂, front₂, hd₂, rfl, hwritten₂⟩ := hexpr _ _ _ hposition
        obtain ⟨d', front', hd', heq, hwritten⟩ :=
          ih hmore (max_lt hd hd₂) (.index hobject hwritten₂)
        have hrest : ts' = .mark .closeBracket :: ts'' := eq_of_expect hclose
        rw [hrest]
        exact ⟨d', front', hd', by simpa using heq, hwritten⟩
      · cases h
        exact ⟨d, front, hd, rfl, hobject⟩

theorem postfixExpr_reads {expr : Parser Expr} (hexpr : Reads (bound + 1) .whole expr) :
    Reads (bound + 1) .access (postfixExpr expr) := by
  intro ts e rest h
  rw [postfixExpr] at h
  split at h
  · cases h
  · next object ts' hobject =>
    obtain ⟨d, front, hd, rfl, hwritten⟩ := primaryExpr_reads hexpr _ _ _ hobject
    exact accessExpr_reads hexpr h hd (.primary hwritten)

theorem unaryExpr_reads {deeper expr : Parser Expr} (hdeeper : Reads bound (.operators []) deeper)
    (hexpr : Reads (bound + 1) .whole expr) :
    Reads (bound + 1) (.operators []) (unaryExpr deeper expr) := by
  intro ts e rest h
  rw [unaryExpr.eq_def] at h
  split at h
  · next ts =>
    obtain ⟨⟨operand, ts'⟩, hoperand, hresult⟩ := bind_eq_ok h
    cases hresult
    obtain ⟨d, front, hd, rfl, hwritten⟩ := hdeeper _ _ _ hoperand
    exact ⟨d + 1, _, Nat.succ_lt_succ hd, rfl, .unary .not hwritten⟩
  · next ts =>
    obtain ⟨⟨operand, ts'⟩, hoperand, hresult⟩ := bind_eq_ok h
    cases hresult
    obtain ⟨d, front, hd, rfl, hwritten⟩ := hdeeper _ _ _ hoperand
    exact ⟨d + 1, _, Nat.succ_lt_succ hd, rfl, .unary .neg hwritten⟩
  · obtain ⟨d, front, hd, rfl, hwritten⟩ := postfixExpr_reads hexpr _ _ _ h
    exact ⟨d, front, hd, rfl, .access hwritten⟩

theorem mem_of_operator? {ops : List (Mark × BinaryOp)} {op : BinaryOp}
    (h : operator? ops ts = some (op, rest)) : ∃ m, (m, op) ∈ ops ∧ ts = .mark m :: rest := by
  rw [operator?.eq_def] at h
  split at h
  · next m ts =>
    obtain ⟨op', hlookup, hpair⟩ := Option.map_eq_some_iff.mp h
    cases hpair
    obtain ⟨l, r, rfl, -⟩ := List.lookup_eq_some_iff.mp hlookup
    exact ⟨m, by simp, rfl⟩
  · cases h

/-- Operators of a level and their right operands are taken one after another behind what was read
so far. -/
theorem climb_reads {ops : List (Mark × BinaryOp)} {tables : List (List (Mark × BinaryOp))}
    (hsuffix : ops :: tables <:+ levels) {operand : Parser Expr}
    (hoperand : Reads bound (.operators tables) operand) {fuel : Nat} {left e : Expr}
    (h : climb ops operand fuel left ts = .ok (e, rest)) {d : Nat} (hd : d < bound)
    {front : List Token} (hleft : Written (.operators (ops :: tables)) d left front) :
    ∃ d' front', d' < bound ∧ front ++ ts = front' ++ rest ∧
      Written (.operators (ops :: tables)) d' e front' := by
  induction fuel generalizing left ts d front with
  | zero =>
      cases h
      exact ⟨d, front, hd, rfl, hleft⟩
  | succ fuel ih =>
      rw [climb] at h
      split at h
      · cases h
        exact ⟨d, front, hd, rfl, hleft⟩
      · next op ts' hop =>
        obtain ⟨m, hm, rfl⟩ := mem_of_operator? hop
        split at h
        · cases h
        · next right ts'' hright =>
          obtain ⟨d₂, front₂, hd₂, rfl, hwritten₂⟩ := hoperand _ _ _ hright
          obtain ⟨d', front', hd', heq, hwritten⟩ :=
            ih h (max_lt hd hd₂) (.binary hsuffix hm hleft hwritten₂)
          exact ⟨d', front', hd', by simpa using heq, hwritten⟩

theorem binaryExpr_reads {operand : Parser Expr} (hoperand : Reads bound (.operators []) operand)
    {tables : List (List (Mark × BinaryOp))} (hsuffix : tables <:+ levels) :
    Reads bound (.operators tables) (binaryExpr operand tables) := by
  induction tables with
  | nil => exact hoperand
  | cons ops tables ih =>
      have htighter := ih ((List.suffix_cons ops tables).trans hsuffix)
      intro ts e rest h
      rw [binaryExpr] at h
      split at h
      · cases h
      · next left ts' hleft =>
        obtain ⟨d, front, hd, rfl, hwritten⟩ := htighter _ _ _ hleft
        exact climb_reads hsuffix htighter h hd (.tighter hwritten)

theorem conditionalExpr_reads {operand expr : Parser Expr}
    (hoperand : Reads bound (.operators []) operand) (hexpr : Reads bound .whole expr) :
    Reads (bound + 1) .whole (conditionalExpr operand expr) := by
  intro ts e rest h
  obtain ⟨⟨condition, ts'⟩, hcondition, hmore⟩ := bind_eq_ok h
  obtain ⟨d, front, hd, rfl, hwritten⟩ :=
    binaryExpr_reads hoperand List.suffix_rfl _ _ _ hcondition
  simp only at hmore
  split at hmore
  · cases hmore
    exact ⟨d + 1, front, Nat.succ_lt_succ hd, rfl, .plain hwritten⟩
  · next ts'' heat =>
    obtain ⟨⟨thenExpr, ts₂⟩, hthen, helses⟩ := bind_eq_ok hmore
    obtain ⟨ts₃, hcolon, hlast⟩ := bind_eq_ok helses
    obtain ⟨⟨elseExpr, ts₄⟩, helse, hresult⟩ := bind_eq_ok hlast
    cases hresult
    obtain ⟨d₁, front₁, hd₁, hthens, hwritten₁⟩ := hexpr _ _ _ hthen
    obtain ⟨d₂, front₂, hd₂, helses', hwritten₂⟩ := hexpr _ _ _ helse
    refine ⟨_, _, Nat.succ_lt_succ (max_lt hd (max_lt hd₁ hd₂)), ?_,
      .conditional hwritten hwritten₁ hwritten₂⟩
    have hrest : ts₂ = .mark .colon :: ts₃ := eq_of_expect hcolon
    rw [eq_of_eat? heat, hthens, hrest, helses']
    simp

/-- Both parsers read what is written, whatever the number of levels that they may open. -/
theorem parsers_read (room : Nat) :
    Reads (room + 1) .whole (parsers room).expr ∧
      Reads (room + 1) (.operators []) (parsers room).operand := by
  induction room with
  | zero => exact ⟨reads_refuse _, unaryExpr_reads (reads_refuse _) (reads_refuse _)⟩
  | succ room ih =>
      have hexpr := conditionalExpr_reads ih.2 ih.1
      exact ⟨hexpr, unaryExpr_reads ih.2 hexpr⟩

end

/-- All of the tokens of an expression are written for its tree. -/
theorem written_of_ofTokens {ts : List Token} {e : Expr} (h : ofTokens ts = .ok e) :
    ∃ d ≤ maxDepth, Written .whole d e ts := by
  rw [ofTokens] at h
  split at h
  · cases h
  · next e' hread =>
    cases h
    obtain ⟨d, front, hd, rfl, hwritten⟩ := (parsers_read maxDepth).1 _ _ _ hread
    exact ⟨d, Nat.le_of_lt_succ hd, by simpa using hwritten⟩
  · cases h

end Workflow.Expr
