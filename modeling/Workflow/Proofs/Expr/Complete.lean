import Workflow.Proofs.Expr.Sound

/-!
# What is written is read

A parser that is given what is written at its level, and behind it something with which the level
cannot go on, takes exactly what is written and gives back its tree, unless too many levels have to
be opened.
-/

namespace Workflow.Expr

/-! ### Where a level ends -/

/-- Whether operators of tables, or an access to an operand, begin with a mark. -/
def continuesWith : List (List (Mark × BinaryOp)) → Mark → Bool
  | [], m => m = .dot || m = .openBracket
  | ops :: tables, m => (ops.lookup m).isSome || continuesWith tables m

/-- Whether something at a level may go on with a mark. -/
def Level.continues : Level → Mark → Bool
  | .whole, m => m = .question || continuesWith levels m
  | .operators tables, m => continuesWith tables m
  | .access, m => continuesWith [] m
  | .primary, _ => false

/-- Nothing at a level goes on with these tokens. -/
def Level.Stops (l : Level) (ts : List Token) : Prop :=
  ∀ m more, ts = .mark m :: more → l.continues m = false

/-- Nothing tighter than a level goes on with these tokens. -/
def Level.Ready : Level → List Token → Prop
  | .whole, ts => Stops .whole ts
  | .operators [], ts => Stops .access ts
  | .operators (_ :: tables), ts => Stops (.operators tables) ts
  | .access, _ => True
  | .primary, _ => True

section

variable {l : Level} {m : Mark} {ts rest : List Token}

theorem stops_mark (h : l.continues m = false) : l.Stops (.mark m :: rest) := by
  rintro _ _ ⟨⟩
  exact h

theorem Level.Stops.operators (h : Stops .whole ts) : Stops (.operators levels) ts :=
  fun m more hts => (Bool.or_eq_false_iff.mp (h m more hts)).2

theorem Level.Stops.tighter {ops : List (Mark × BinaryOp)}
    {tables : List (List (Mark × BinaryOp))} (h : Stops (.operators (ops :: tables)) ts) :
    Stops (.operators tables) ts :=
  fun m more hts => (Bool.or_eq_false_iff.mp (h m more hts)).2

theorem Level.Stops.ready (h : l.Stops ts) : l.Ready ts := by
  cases l with
  | whole => exact h
  | operators tables =>
      cases tables with
      | nil => exact h
      | cons ops tables => exact h.tighter
  | access => trivial
  | primary => trivial

theorem operator?_eq_none {ops : List (Mark × BinaryOp)}
    {tables : List (List (Mark × BinaryOp))} (h : Level.Stops (.operators (ops :: tables)) ts) :
    operator? ops ts = none := by
  rw [operator?.eq_def]
  split
  · next m more =>
    have hm : (ops.lookup m).isSome = false := (Bool.or_eq_false_iff.mp (h m more rfl)).1
    simpa using hm
  · rfl

theorem eat?_eq_none (h : ∀ more, ts ≠ .mark m :: more) : eat? m ts = none := by
  rw [eat?.eq_def]
  split
  · next m' more =>
    have hm : m' ≠ m := fun hm => h more (by rw [hm])
    rw [if_neg hm]
  · rfl

@[simp] theorem eat?_mark : eat? m (.mark m :: ts) = some ts := by simp [eat?]

@[simp] theorem expect_mark : expect m (.mark m :: ts) = .ok ts := by simp [expect]

/-- Every mark is in one table only, and there but once. -/
theorem table_spec {ops : List (Mark × BinaryOp)} {tables : List (List (Mark × BinaryOp))}
    (hsuffix : ops :: tables <:+ levels) {op : BinaryOp} (hm : (m, op) ∈ ops) :
    ops.lookup m = some op ∧ continuesWith tables m = false := by
  have hall : ∀ suffix ∈ levels.tails, ∀ p ∈ suffix.headD [],
      (suffix.headD []).lookup p.1 = some p.2 ∧ continuesWith suffix.tail p.1 = false := by
    decide
  exact hall _ ((List.mem_tails _ _).mpr hsuffix) _ hm

/-! ### How what is written begins -/

/-- The marks with which something at a level may begin. -/
def Level.first : Level → List Mark
  | .whole => [.openParen, .openBracket, .bang, .minus]
  | .operators _ => [.openParen, .openBracket, .bang, .minus]
  | .access => [.openParen, .openBracket]
  | .primary => [.openParen, .openBracket]

/-- Something at a level may begin with a token. -/
def Token.Begins (l : Level) : Token → Prop
  | .mark m => m ∈ l.first
  | _ => True

theorem begins_of_access {t : Token} {tables : List (List (Mark × BinaryOp))}
    (h : t.Begins .access) : t.Begins (.operators tables) := by
  cases t with
  | mark m =>
      have hsub : Level.access.first ⊆ (Level.operators tables).first := by simp [Level.first]
      exact hsub h
  | _ => trivial

theorem written_begins {d : Nat} {e : Expr} (h : Written l d e ts) :
    ∃ t more, ts = t :: more ∧ t.Begins l := by
  induction h with
  | null => exact ⟨_, _, rfl, trivial⟩
  | undefined => exact ⟨_, _, rfl, trivial⟩
  | true => exact ⟨_, _, rfl, trivial⟩
  | false => exact ⟨_, _, rfl, trivial⟩
  | quoted => exact ⟨_, _, rfl, trivial⟩
  | number => exact ⟨_, _, rfl, trivial⟩
  | overflow => exact ⟨_, _, rfl, trivial⟩
  | root => exact ⟨_, _, rfl, trivial⟩
  | array => exact ⟨_, _, rfl, by simp [Token.Begins, Level.first]⟩
  | call => exact ⟨_, _, rfl, trivial⟩
  | enclosed => exact ⟨_, _, rfl, by simp [Token.Begins, Level.first]⟩
  | primary _ ih => exact ih
  | member _ _ ih =>
      obtain ⟨t, more, rfl, ht⟩ := ih
      exact ⟨t, _, rfl, ht⟩
  | index _ _ ih =>
      obtain ⟨t, more, rfl, ht⟩ := ih
      exact ⟨t, _, rfl, ht⟩
  | access _ ih =>
      obtain ⟨t, more, rfl, ht⟩ := ih
      exact ⟨t, more, rfl, begins_of_access ht⟩
  | unary op => exact ⟨_, _, rfl, by cases op <;> simp [UnaryOp.mark, Token.Begins, Level.first]⟩
  | tighter _ ih => exact ih
  | binary _ _ _ _ ih =>
      obtain ⟨t, more, rfl, ht⟩ := ih
      exact ⟨t, _, rfl, ht⟩
  | plain _ ih => exact ih
  | conditional _ _ _ ih =>
      obtain ⟨t, more, rfl, ht⟩ := ih
      exact ⟨t, _, rfl, ht⟩

end

/-! ### Enough fuel -/

section

variable {bound : Nat} {rest : List Token}

/-- Fuel for all tokens that are left is as good as any more. -/
theorem accessExpr_fuel {expr : Parser Expr} (hexpr : Reads bound .whole expr) {n k : Nat}
    {object : Expr} {ts : List Token} (hn : ts.length ≤ n) (hk : ts.length ≤ k) :
    accessExpr expr n object ts = accessExpr expr k object ts := by
  induction n generalizing k object ts with
  | zero =>
      obtain rfl : ts = [] := List.length_eq_zero_iff.mp (Nat.le_zero.mp hn)
      cases k <;> rfl
  | succ n ih =>
      cases k with
      | zero =>
          obtain rfl : ts = [] := List.length_eq_zero_iff.mp (Nat.le_zero.mp hk)
          rfl
      | succ k =>
          rw [accessExpr.eq_def, accessExpr.eq_def expr (k + 1)]
          simp only
          split
          · simp only [List.length_cons] at hn hk
            exact ih (by omega) (by omega)
          · rfl
          · next ts =>
            cases hposition : expr ts with
            | error e => rfl
            | ok p =>
                have hle := hexpr.length_le hposition
                simp only [bind, Except.bind]
                cases hclose : expect .closeBracket p.2 with
                | error e => rfl
                | ok ts' =>
                    have hlength : p.2.length = ts'.length + 1 := by
                      rw [eq_of_expect hclose, List.length_cons]
                    simp only [List.length_cons] at hn hk
                    exact ih (by omega) (by omega)
          · rfl

theorem climb_fuel {ops : List (Mark × BinaryOp)} {l : Level} {operand : Parser Expr}
    (hoperand : Reads bound l operand) {n k : Nat} {left : Expr} {ts : List Token}
    (hn : ts.length ≤ n) (hk : ts.length ≤ k) :
    climb ops operand n left ts = climb ops operand k left ts := by
  induction n generalizing k left ts with
  | zero =>
      obtain rfl : ts = [] := List.length_eq_zero_iff.mp (Nat.le_zero.mp hn)
      cases k <;> rfl
  | succ n ih =>
      cases k with
      | zero =>
          obtain rfl : ts = [] := List.length_eq_zero_iff.mp (Nat.le_zero.mp hk)
          rfl
      | succ k =>
          rw [climb, climb]
          cases hop : operator? ops ts with
          | none => rfl
          | some p =>
              obtain ⟨op, ts'⟩ := p
              obtain ⟨m, -, rfl⟩ := mem_of_operator? hop
              simp only
              cases hright : operand ts' with
              | error e => rfl
              | ok p =>
                  have hle := hoperand.length_le hright
                  simp only [List.length_cons] at hn hk
                  exact ih (by omega) (by omega)

end

/-! ### Reading -/

/-- The parser of a level that may open so many levels. -/
def Level.parser (room : Nat) : Level → Parser Expr
  | .whole => (parsers room).expr
  | .operators tables => binaryExpr (parsers room).operand tables
  | .access => postfixExpr (parsers room).expr
  | .primary => primaryExpr (parsers room).expr

/-- How the parser of a level goes on behind something at the level. -/
def Level.resume (room : Nat) : Level → Expr → Parser Expr
  | .whole, e, ts => .ok (e, ts)
  | .operators [], e, ts => .ok (e, ts)
  | .operators (ops :: tables), e, ts =>
    climb ops (binaryExpr (parsers room).operand tables) ts.length e ts
  | .access, e, ts => accessExpr (parsers room).expr ts.length e ts
  | .primary, e, ts => .ok (e, ts)

/-- A result that there is only if enough levels may be opened. -/
def within {α : Type} (room d : Nat) (result : Except ParseError α) : Except ParseError α :=
  if d ≤ room then result else .error .tooDeep

section

variable {α β : Type} {room d d' : Nat} {result : Except ParseError α}

@[simp] theorem within_zero : within room 0 result = result := if_pos (Nat.zero_le room)

@[simp] theorem within_succ : within (room + 1) (d + 1) result = within room d result := by
  simp [within]

@[simp] theorem within_none : within 0 (d + 1) result = .error .tooDeep := by simp [within]

theorem within_max : within room (max d d') result = within room d (within room d' result) := by
  rw [within, within, within]
  by_cases hd : d ≤ room <;> by_cases hd' : d' ≤ room <;> simp [hd, hd']

theorem within_bind (a : α) (f : α → Except ParseError β) :
    within room d (.ok a) >>= f = within room d (f a) := by
  rw [within, within]
  split <;> rfl

end

section

variable {room : Nat} {ts : List Token}

theorem accessExpr_stops {expr : Parser Expr} {n : Nat} {object : Expr}
    (h : Level.Stops .access ts) : accessExpr expr n object ts = .ok (object, ts) := by
  cases n with
  | zero => rfl
  | succ n =>
      rw [accessExpr.eq_def]
      simp only
      split
      · exact absurd (h _ _ rfl) (by decide)
      · exact absurd (h _ _ rfl) (by decide)
      · exact absurd (h _ _ rfl) (by decide)
      · rfl

theorem climb_stops {ops : List (Mark × BinaryOp)} {operand : Parser Expr} {n : Nat}
    {left : Expr} (h : operator? ops ts = none) :
    climb ops operand n left ts = .ok (left, ts) := by
  cases n with
  | zero => rfl
  | succ n => rw [climb, h]

theorem Level.Stops.resume {l : Level} {e : Expr} (h : l.Stops ts) :
    l.resume room e ts = .ok (e, ts) := by
  cases l with
  | whole => rfl
  | operators tables =>
      cases tables with
      | nil => rfl
      | cons ops tables => exact climb_stops (operator?_eq_none h)
  | access => exact accessExpr_stops h
  | primary => rfl

/-- A parser reads what is written at a level, and nothing of what comes behind it. -/
def Takes (room : Nat) (l : Level) (p : Parser Expr) (d : Nat) (e : Expr) (ts : List Token) :
    Prop :=
  ∀ rest, l.Stops rest → p (ts ++ rest) = within room d (.ok (e, rest))

/-! ### Parsers as sequences -/

theorem listItems_succ (expr : Parser Expr) (close : Mark) (n : Nat) (ts : List Token) :
    listItems expr close (n + 1) ts =
      expr ts >>= fun (item, ts) =>
        match eat? close ts with
        | some ts => .ok ([item], ts)
        | none =>
          expect .comma ts >>= fun ts =>
            listItems expr close n ts >>= fun (items, ts) => .ok (item :: items, ts) := by
  rw [listItems]
  cases expr ts with
  | error e => rfl
  | ok p =>
      simp only [bind, Except.bind]
      cases eat? close p.2 with
      | some ts => rfl
      | none =>
          simp only
          cases expect .comma p.2 with
          | error e => rfl
          | ok ts =>
              simp only
              cases listItems expr close n ts <;> rfl

theorem postfixExpr_eq (expr : Parser Expr) (ts : List Token) :
    postfixExpr expr ts =
      primaryExpr expr ts >>= fun (object, ts) => accessExpr expr ts.length object ts := by
  rw [postfixExpr]
  cases primaryExpr expr ts <;> rfl

theorem climb_succ {ops : List (Mark × BinaryOp)} {operand : Parser Expr} {n : Nat} {left : Expr}
    {op : BinaryOp} {rest : List Token} (h : operator? ops ts = some (op, rest)) :
    climb ops operand (n + 1) left ts =
      operand rest >>= fun (right, ts) => climb ops operand n (.binary op left right) ts := by
  rw [climb, h]
  simp only
  cases operand rest <;> rfl

theorem binaryExpr_cons (operand : Parser Expr) (ops : List (Mark × BinaryOp))
    (tables : List (List (Mark × BinaryOp))) (ts : List Token) :
    binaryExpr operand (ops :: tables) ts =
      binaryExpr operand tables ts >>= fun (left, ts) =>
        climb ops (binaryExpr operand tables) ts.length left ts := by
  rw [binaryExpr]
  cases binaryExpr operand tables ts <;> rfl

/-! ### Lists -/

variable {expr : Parser Expr} {close : Mark}

theorem listItems_takes (hclose : close ∈ [Mark.closeParen, .closeBracket]) {part : Part}
    {more : List Part}
    (hparts : ∀ other ∈ part :: more, Takes room .whole expr other.depth other.tree other.tokens)
    {fuel : Nat} (hfuel : more.length ≤ fuel) (rest : List Token) :
    listItems expr close (fuel + 1)
        (separated ((part :: more).map Part.tokens) ++ .mark close :: rest) =
      within room (deepest (part :: more)) (.ok ((part :: more).map Part.tree, rest)) := by
  have hstops : Level.whole.continues close = false ∧ .comma ≠ close := by
    rcases List.mem_pair.mp hclose with rfl | rfl <;> decide
  induction more generalizing part fuel with
  | nil =>
      have hread := hparts part List.mem_cons_self (.mark close :: rest) (stops_mark hstops.1)
      simp only [List.map_cons, List.map_nil, separated, deepest, List.foldr_cons,
        List.foldr_nil, Nat.max_zero]
      rw [listItems_succ, hread, within_bind]
      simp only [eat?_mark]
  | cons next more ih =>
      have hread := hparts part List.mem_cons_self
        (.mark .comma :: (separated ((next :: more).map Part.tokens) ++ .mark close :: rest))
        (stops_mark (by decide))
      obtain ⟨fuel, rfl⟩ : ∃ n, fuel = n + 1 :=
        Nat.exists_eq_add_one.mpr (by rw [List.length_cons] at hfuel; omega)
      have hmore := ih (fun other h => hparts other (List.mem_cons_of_mem part h))
        (Nat.le_of_succ_le_succ hfuel)
      have hcomma : eat? close (.mark .comma ::
          (separated ((next :: more).map Part.tokens) ++ .mark close :: rest)) = none :=
        eat?_eq_none fun _ h => hstops.2 (Token.mark.inj (List.cons.inj h).1)
      calc listItems expr close (fuel + 1 + 1)
            (separated ((part :: next :: more).map Part.tokens) ++ .mark close :: rest)
        _ = within room part.depth
              (within room (deepest (next :: more))
                (.ok ((next :: more).map Part.tree, rest)) >>= fun (items, ts) =>
                  .ok (part.tree :: items, ts)) := by
            rw [listItems_succ, List.map_cons, List.map_cons, separated, List.append_assoc,
              List.cons_append, ← List.map_cons, hread, within_bind]
            simp only [hcomma]
            rw [expect_mark]
            change within room part.depth (listItems expr close (fuel + 1) _ >>= _) = _
            rw [hmore]
        _ = within room (deepest (part :: next :: more))
              (.ok ((part :: next :: more).map Part.tree, rest)) := by
            rw [within_bind, ← within_max]
            rfl

theorem length_le_separated (part : Part) (more : List Part) :
    more.length ≤ (separated ((part :: more).map Part.tokens)).length := by
  induction more generalizing part with
  | nil => exact Nat.zero_le _
  | cons next more ih =>
      have hnext := ih next
      simp only [List.map_cons, separated, List.length_append, List.length_cons] at hnext ⊢
      omega

theorem listExpr_takes (close : Mark) (hclose : close ∈ [Mark.closeParen, .closeBracket])
    {parts : List Part}
    (hwritten : ∀ part ∈ parts, Written .whole part.depth part.tree part.tokens)
    (hparts : ∀ part ∈ parts, Takes room .whole expr part.depth part.tree part.tokens)
    (rest : List Token) :
    listExpr expr close (separated (parts.map Part.tokens) ++ .mark close :: rest) =
      within room (deepest parts) (.ok (parts.map Part.tree, rest)) := by
  rw [listExpr]
  cases parts with
  | nil => simp [separated, deepest]
  | cons part more =>
      obtain ⟨t, front, hfront, hbegins⟩ := written_begins (hwritten part List.mem_cons_self)
      obtain ⟨back, hback⟩ : ∃ back,
          separated ((part :: more).map Part.tokens) ++ .mark close :: rest = t :: back := by
        rw [List.map_cons, hfront]
        cases more with
        | nil => exact ⟨_, rfl⟩
        | cons next more => exact ⟨_, rfl⟩
      have hopen : eat? close (t :: back) = none := by
        refine eat?_eq_none fun _ h => ?_
        obtain rfl := (List.cons.inj h).1
        rcases List.mem_pair.mp hclose with rfl | rfl <;>
          exact absurd hbegins (by simp [Token.Begins, Level.first])
      have hfuel : more.length ≤
          (separated ((part :: more).map Part.tokens) ++ .mark close :: rest).length := by
        have hle := length_le_separated part more
        rw [List.length_append]
        omega
      rw [← hback] at hopen
      rw [hopen]
      exact listItems_takes hclose hparts hfuel rest

/-! ### Level by level -/

theorem wordExpr_root (r : Root) : wordExpr r.name = .ok (.root r) := by cases r <;> rfl

theorem ofName?_name (helper : Helper) : Helper.ofName? helper.name = some helper := by
  cases helper <;> rfl

theorem primaryExpr_call {helper : Helper} {parts : List Part}
    (hcount : helper.Takes parts.length)
    (hwritten : ∀ part ∈ parts, Written .whole part.depth part.tree part.tokens)
    (hparts : ∀ part ∈ parts, Takes room .whole expr part.depth part.tree part.tokens)
    (rest : List Token) :
    primaryExpr expr (.helper helper.name :: .mark .openParen ::
        (separated (parts.map Part.tokens) ++ .mark .closeParen :: rest)) =
      within room (deepest parts) (.ok (.call helper (parts.map Part.tree), rest)) := by
  have hread := listExpr_takes .closeParen (by decide) hwritten hparts rest
  have harity : (decide (helper.arity.1 ≤ (parts.map Part.tree).length) &&
      decide ((parts.map Part.tree).length ≤ helper.arity.2)) = true := by
    rw [List.length_map, Bool.and_eq_true, decide_eq_true_eq, decide_eq_true_eq]
    exact hcount
  rw [primaryExpr, ofName?_name]
  simp only [expect_mark]
  change listExpr expr .closeParen _ >>= _ = _
  rw [hread, within_bind]
  simp only [harity, if_true]

theorem primaryExpr_array {parts : List Part}
    (hwritten : ∀ part ∈ parts, Written .whole part.depth part.tree part.tokens)
    (hparts : ∀ part ∈ parts, Takes room .whole expr part.depth part.tree part.tokens)
    (rest : List Token) :
    primaryExpr expr (.mark .openBracket ::
        (separated (parts.map Part.tokens) ++ .mark .closeBracket :: rest)) =
      within room (deepest parts) (.ok (.array (parts.map Part.tree), rest)) := by
  have hread := listExpr_takes .closeBracket (by decide) hwritten hparts rest
  rw [primaryExpr, hread, within_bind]

theorem primaryExpr_enclosed {d : Nat} {e : Expr} (h : Takes room .whole expr d e ts)
    (rest : List Token) :
    primaryExpr expr (.mark .openParen :: (ts ++ .mark .closeParen :: rest)) =
      within room d (.ok (e, rest)) := by
  have hread := h (.mark .closeParen :: rest) (stops_mark (by decide))
  rw [primaryExpr, hread, within_bind]
  simp only [expect_mark]
  rfl

theorem unaryExpr_of_access {deeper : Parser Expr} {d : Nat} {e : Expr}
    (h : Written .access d e ts) (rest : List Token) :
    unaryExpr deeper expr (ts ++ rest) = postfixExpr expr (ts ++ rest) := by
  obtain ⟨t, more, rfl, hbegins⟩ := written_begins h
  rw [List.cons_append, unaryExpr.eq_def]
  split
  · next hts =>
    obtain rfl := (List.cons.inj hts).1
    exact absurd hbegins (by simp [Token.Begins, Level.first])
  · next hts =>
    obtain rfl := (List.cons.inj hts).1
    exact absurd hbegins (by simp [Token.Begins, Level.first])
  · rfl

theorem unaryExpr_mark {deeper : Parser Expr} (op : UnaryOp) (ts : List Token) :
    unaryExpr deeper expr (.mark op.mark :: ts) =
      deeper ts >>= fun (operand, ts) => .ok (.unary op operand, ts) := by
  cases op <;> rfl

/-- A reader of a level that goes on with nothing has taken what is written there. -/
theorem Takes.of_resumed {l : Level} {d : Nat} {e : Expr}
    (h : ∀ rest, l.Ready rest → l.parser room (ts ++ rest) = within room d (l.resume room e rest)) :
    Takes room l (l.parser room) d e ts := by
  intro rest hstops
  rw [h rest hstops.ready, hstops.resume]

theorem resume_member (object : Expr) (key : String) (rest : List Token) :
    Level.access.resume room object (.mark .dot :: .word key :: rest) =
      Level.access.resume room (.member object key) rest := by
  rw [Level.resume, Level.resume, List.length_cons, accessExpr]
  exact accessExpr_fuel (parsers_read room).1 (by simp) le_rfl

theorem resume_index {d : Nat} {position : Expr}
    (hposition : Takes room .whole (parsers room).expr d position ts) (object : Expr)
    (rest : List Token) :
    Level.access.resume room object (.mark .openBracket :: (ts ++ .mark .closeBracket :: rest)) =
      within room d (Level.access.resume room (.index object position) rest) := by
  have hread := hposition (.mark .closeBracket :: rest) (stops_mark (by decide))
  rw [Level.resume, Level.resume, List.length_cons, accessExpr, hread, within_bind]
  simp only [expect_mark]
  refine congrArg (within room d) ?_
  exact accessExpr_fuel (parsers_read room).1 (by simp; omega) le_rfl

theorem resume_binary {m : Mark} {op : BinaryOp} {ops : List (Mark × BinaryOp)}
    {tables : List (List (Mark × BinaryOp))} (hsuffix : ops :: tables <:+ levels)
    (hm : (m, op) ∈ ops) {d : Nat} {right : Expr}
    (hright : Takes room (.operators tables) (Level.parser room (.operators tables)) d right ts)
    (left : Expr) {rest : List Token} (hrest : Level.Stops (.operators tables) rest) :
    (Level.operators (ops :: tables)).resume room left (.mark m :: (ts ++ rest)) =
      within room d
        ((Level.operators (ops :: tables)).resume room (.binary op left right) rest) := by
  have hop : operator? ops (.mark m :: (ts ++ rest)) = some (op, ts ++ rest) := by
    simp [operator?, (table_spec hsuffix hm).1]
  have hoperand := binaryExpr_reads (parsers_read room).2
    ((List.suffix_cons ops tables).trans hsuffix)
  have hread := hright rest hrest
  rw [Level.parser] at hread
  rw [Level.resume, Level.resume, List.length_cons, climb_succ hop, hread, within_bind]
  refine congrArg (within room d) ?_
  exact climb_fuel hoperand (by simp) le_rfl

theorem conditionalExpr_plain {operand : Parser Expr} {d : Nat} {e : Expr}
    (h : Takes room (.operators levels) (binaryExpr operand levels) d e ts) {rest : List Token}
    (hrest : Level.Stops .whole rest) :
    conditionalExpr operand expr (ts ++ rest) = within room d (.ok (e, rest)) := by
  have hnone : eat? .question rest = none :=
    eat?_eq_none fun more hmore => absurd (hrest _ _ hmore) (by decide)
  rw [conditionalExpr, h rest hrest.operators, within_bind]
  simp only [hnone]

theorem conditionalExpr_question {operand : Parser Expr} {d d' d'' : Nat} {us vs : List Token}
    {condition thenExpr elseExpr : Expr}
    (hcondition : Takes room (.operators levels) (binaryExpr operand levels) d condition ts)
    (hthen : Takes room .whole expr d' thenExpr us) (helse : Takes room .whole expr d'' elseExpr vs)
    {rest : List Token} (hrest : Level.Stops .whole rest) :
    conditionalExpr operand expr
        (ts ++ .mark .question :: (us ++ .mark .colon :: (vs ++ rest))) =
      within room d (within room d' (within room d''
        (.ok (.conditional condition thenExpr elseExpr, rest)))) := by
  rw [conditionalExpr, hcondition _ (stops_mark (by decide)), within_bind]
  simp only [eat?_mark]
  rw [hthen _ (stops_mark (by decide)), within_bind]
  simp only [expect_mark]
  change within room d (within room d' (expr (vs ++ rest) >>= _)) = _
  rw [helse rest hrest, within_bind]

/-- What is written at a level is read, whatever comes behind it with which it does not go on at
a tighter level. -/
theorem written_is_read {l : Level} {d : Nat} {e : Expr} (h : Written l d e ts) (room : Nat)
    (rest : List Token) (hrest : l.Ready rest) :
    l.parser room (ts ++ rest) = within room d (l.resume room e rest) := by
  induction h generalizing room rest with
  | null => exact within_zero.symm
  | undefined => exact within_zero.symm
  | true => exact within_zero.symm
  | false => exact within_zero.symm
  | quoted s => exact within_zero.symm
  | number hx => simp [Level.parser, primaryExpr, hx, Level.resume]
  | overflow hx => simp [Level.parser, primaryExpr, hx, Level.resume]
  | root r =>
      rw [within_zero]
      simp [Level.parser, primaryExpr, wordExpr_root, Level.resume]
  | array parts hwritten ih =>
      have hread := primaryExpr_array hwritten
        (fun part hpart rest hstops => ih part hpart room rest hstops) rest
      simpa [Level.parser, Level.resume] using hread
  | call helper parts hcount hwritten ih =>
      have hread := primaryExpr_call hcount hwritten
        (fun part hpart rest hstops => ih part hpart room rest hstops) rest
      simpa [Level.parser, Level.resume] using hread
  | enclosed _ ih =>
      have hread := primaryExpr_enclosed (ih room) rest
      simpa [Level.parser, Level.resume] using hread
  | primary _ ih =>
      have hread := ih room rest trivial
      simp only [Level.parser, Level.resume] at hread ⊢
      rw [postfixExpr_eq, hread, within_bind]
  | @member d object ts key _ ih =>
      have hread := ih room (.mark .dot :: .word key :: rest) trivial
      rw [List.append_assoc]
      exact hread.trans (congrArg (within room d) (resume_member object key rest))
  | @index d d' object position ts us _ _ ih ih' =>
      have hread := ih room (.mark .openBracket :: (us ++ .mark .closeBracket :: rest)) trivial
      have htokens : ts ++ .mark .openBracket :: us ++ [.mark .closeBracket] ++ rest =
          ts ++ .mark .openBracket :: (us ++ .mark .closeBracket :: rest) := by simp
      rw [within_max, htokens]
      exact hread.trans (congrArg (within room d) (resume_index (ih' room) object rest))
  | access haccess ih =>
      have hread := ih room rest trivial
      rw [Level.Stops.resume hrest] at hread
      cases room with
      | zero => exact (unaryExpr_of_access haccess rest).trans hread
      | succ room => exact (unaryExpr_of_access haccess rest).trans hread
  | unary op _ ih =>
      cases room with
      | zero => cases op <;> exact within_none.symm
      | succ room =>
          have hread := ih room rest hrest
          change (parsers room).operand _ = _ at hread
          change unaryExpr (parsers room).operand _ (.mark op.mark :: (_ ++ rest)) = _
          rw [unaryExpr_mark, hread, Level.resume, within_bind, within_succ]
          rfl
  | tighter _ ih =>
      have hread := ih room rest (Level.Stops.ready hrest)
      rw [Level.Stops.resume hrest] at hread
      change binaryExpr _ (_ :: _) _ = _
      rw [binaryExpr_cons]
      change binaryExpr _ _ _ = _ at hread
      rw [hread, within_bind]
      rfl
  | @binary d d' left right ts us m op ops tables hsuffix hm _ _ ih ih' =>
      have hread := ih room (.mark m :: (us ++ rest)) (stops_mark (table_spec hsuffix hm).2)
      have hright := resume_binary hsuffix hm (.of_resumed (ih' room)) left hrest
      rw [within_max, List.append_assoc]
      exact hread.trans (congrArg (within room d) hright)
  | plain _ ih =>
      cases room with
      | zero => exact within_none.symm
      | succ room =>
          rw [within_succ]
          exact conditionalExpr_plain (.of_resumed (ih room)) hrest
  | @conditional d d' d'' condition thenExpr elseExpr ts us vs _ _ _ ih ih' ih'' =>
      cases room with
      | zero => exact within_none.symm
      | succ room =>
          have htokens : ts ++ .mark .question :: us ++ .mark .colon :: vs ++ rest =
              ts ++ .mark .question :: (us ++ .mark .colon :: (vs ++ rest)) := by simp
          rw [within_succ, within_max, within_max, htokens]
          exact conditionalExpr_question (.of_resumed (ih room)) (ih' room) (ih'' room) hrest

end

end Workflow.Expr
