import Workflow.Proofs.Store.Query
import Workflow.Proofs.Text.Parts

/-!
# Statements are read as they are written

The text of a statement, with its parameters, says what the statement is made of: each parameter
stands where its column does.
-/

namespace Workflow.Sql

/-! ### Tokens -/

/-- Whether a character ends a word. -/
def isSeparator (c : Char) : Bool := Text.isBlank c || isMark c

/-- Whether no word goes on from a text to what follows it. -/
def endsApart (s : String) : Bool := s.toList.getLast?.any isSeparator

def startsApart (s : String) : Bool := s.toList.head?.any isSeparator

/-- A text in which no word ends. -/
def IsWhole (s : String) : Prop := ∀ c ∈ s.toList, isSeparator c = false

/-- A text that is one word. -/
def IsWord (s : String) : Prop := s.toList ≠ [] ∧ IsWhole s

-- Characters are finite in number, but are not to be gone through one by one.
instance (s : String) : Decidable (IsWhole s) := List.decidableBAll _ s.toList

instance (s : String) : Decidable (IsWord s) := inferInstanceAs (Decidable (_ ∧ _))

section

variable {c : Char} {run cs cs' : List Char} {s t sep : String}

theorem tokensFrom_append (hc : isSeparator c = true) :
    tokensFrom run (cs ++ c :: cs') = tokensFrom run cs ++ tokensFrom [] (c :: cs') := by
  induction cs generalizing run with
  | nil =>
      cases hblank : Text.isBlank c with
      | true => cases run <;> simp [tokensFrom, hblank]
      | false =>
          have hmark : isMark c = true := by simpa [isSeparator, hblank] using hc
          cases run <;> simp [tokensFrom, hblank, hmark]
  | cons d cs ih =>
      rw [List.cons_append, tokensFrom, tokensFrom]
      simp only [ih]
      split <;> split <;> try split
      all_goals rfl

theorem tokensFrom_cons (hc : isSeparator c = true) :
    tokensFrom [] (c :: cs) = tokensFrom [] [c] ++ tokensFrom [] cs := by
  cases hblank : Text.isBlank c with
  | true => simp [tokensFrom, hblank]
  | false =>
      have hmark : isMark c = true := by simpa [isSeparator, hblank] using hc
      simp [tokensFrom, hblank, hmark]

theorem tokens_append (h : startsApart t = true) : tokens (s ++ t) = tokens s ++ tokens t := by
  rw [startsApart] at h
  cases ht : t.toList with
  | nil => simp [ht] at h
  | cons c cs =>
      have hc : isSeparator c = true := by simpa [ht] using h
      rw [tokens, tokens, tokens, String.toList_append, ht, tokensFrom_append hc, List.map_append]

theorem tokens_append_of_endsApart (h : endsApart s = true) :
    tokens (s ++ t) = tokens s ++ tokens t := by
  rw [endsApart] at h
  obtain hnil | ⟨cs, c, hs⟩ := List.eq_nil_or_concat s.toList
  · simp [hnil] at h
  · have hc : isSeparator c = true := by simpa [hs] using h
    rw [tokens, tokens, tokens, String.toList_append, hs, List.concat_eq_append, List.append_assoc,
      List.singleton_append, tokensFrom_append hc, tokensFrom_append hc, tokensFrom_cons hc,
      List.map_append, List.map_append, List.map_append, List.append_assoc]

theorem startsApart_append (h : startsApart s = true) : startsApart (s ++ t) = true := by
  rw [startsApart, Option.any_eq_true] at h ⊢
  obtain ⟨c, hc, hsep⟩ := h
  exact ⟨c, by rw [String.toList_append, List.head?_append, hc]; rfl, hsep⟩

theorem endsApart_append (h : endsApart t = true) : endsApart (s ++ t) = true := by
  rw [endsApart, Option.any_eq_true] at h ⊢
  obtain ⟨c, hc, hsep⟩ := h
  exact ⟨c, by rw [String.toList_append, List.getLast?_append, hc]; rfl, hsep⟩

theorem tokens_between (hs : startsApart sep = true) (he : endsApart sep = true) :
    tokens (s ++ sep ++ t) = tokens s ++ tokens sep ++ tokens t := by
  rw [tokens_append_of_endsApart (endsApart_append he), tokens_append hs]

theorem tokensFrom_word (h : ∀ c ∈ cs, isSeparator c = false) (hne : run ≠ [] ∨ cs ≠ []) :
    tokensFrom run cs = [run.reverse ++ cs] := by
  induction cs generalizing run with
  | nil => simp_all [tokensFrom]
  | cons c cs ih =>
      have hc := h c List.mem_cons_self
      simp only [isSeparator, Bool.or_eq_false_iff] at hc
      rw [tokensFrom, hc.1, hc.2, if_neg Bool.false_ne_true, if_neg Bool.false_ne_true,
        ih (fun d hd => h d (List.mem_cons_of_mem c hd)) (.inl (List.cons_ne_nil c run))]
      simp

theorem tokens_word (h : IsWord s) : tokens s = [s] := by
  rw [tokens, tokensFrom_word h.2 (.inr h.1)]
  simp

theorem tokens_intercalate (hs : startsApart sep = true) (he : endsApart sep = true)
    (texts : List String) :
    tokens (sep.intercalate texts) = (tokens sep).intercalate (texts.map tokens) := by
  induction texts with
  | nil => rfl
  | cons s texts ih =>
      cases texts with
      | nil => simp
      | cons t texts =>
          rw [String.intercalate_cons_cons, tokens_between hs he, ih, List.map_cons, List.map_cons,
            List.map_cons, List.intercalate_cons_cons]

end

/-! ### Operands -/

/-- How an operand is written. -/
def Operand.token : Operand → String
  | .param n => Statement.paramText n
  | .truth => "TRUE"
  | .word s => "'" ++ s ++ "'"

theorem toList_paramText (n : Nat) : (Statement.paramText n).toList = '$' :: Nat.toDigits 10 n := by
  have hsign : ¬ ((n : Int) < 0) := by omega
  rw [Statement.paramText, Decimal.intText, if_neg hsign, String.toList_append,
    String.toList_ofList, String.toList_ofList, Int.natAbs_natCast]
  rfl

theorem Operand.read_token (o : Operand) : Operand.read o.token = some o := by
  cases o with
  | param n =>
      have hdigits : (Nat.toDigits 10 n).all Char.isDigit = true :=
        List.all_eq_true.mpr fun _ => Nat.isDigit_of_mem_toDigits (b := 10) (by decide) (by decide)
      rw [Operand.read, token, toList_paramText]
      simp [hdigits, Nat.ofDigitChars_ten_toDigits]
  | truth => decide
  | word s =>
      have hchars : ("'" ++ s ++ "'").toList = '\'' :: (s.toList ++ ['\'']) := by simp
      rw [Operand.read, token, hchars]
      simp

theorem isWord_paramText (n : Nat) : IsWord (Statement.paramText n) := by
  have hdigits : ∀ d ∈ Text.digits, isSeparator d = false := Text.forall_of_all (by decide)
  rw [IsWord, IsWhole, toList_paramText]
  refine ⟨List.cons_ne_nil _ _, fun c hc => ?_⟩
  rcases List.mem_cons.mp hc with rfl | hc
  · decide
  · exact hdigits c
      (Text.mem_digits (Nat.isDigit_of_mem_toDigits (b := 10) (by decide) (by decide) hc))

theorem isWord_quoted {s : String} (h : IsWhole s) : IsWord ("'" ++ s ++ "'") := by
  have hchars : ("'" ++ s ++ "'").toList = '\'' :: (s.toList ++ ['\'']) := by simp
  rw [IsWord, IsWhole, hchars]
  refine ⟨List.cons_ne_nil _ _, fun c hc => ?_⟩
  simp only [List.mem_cons, List.mem_append, List.not_mem_nil, or_false] at hc
  rcases hc with rfl | hc | rfl
  · decide
  · exact h c hc
  · decide

/-- A column that is made equal to an operand. -/
def equation (pair : String × Operand) : List String := [pair.1, "=", pair.2.token]

section

variable {names rest : List String} {pairs : List (String × Operand)} {joint : String}

theorem readNames_intercalate (hne : names ≠ []) (hrest : rest.head? ≠ some ",") :
    readNames ([","].intercalate (names.map fun name => [name]) ++ rest) = (names, rest) := by
  induction names with
  | nil => exact absurd rfl hne
  | cons name names ih =>
      cases names with
      | nil =>
          cases rest with
          | nil => rfl
          | cons next rest =>
              have hnext : next ≠ "," := fun h => hrest (congrArg some h)
              simp [readNames, hnext]
      | cons other names =>
          have hmore := ih (List.cons_ne_nil other names)
          rw [List.map_cons] at hmore
          rw [List.map_cons, List.map_cons, List.intercalate_cons_cons, List.append_assoc,
            List.append_assoc]
          simp only [List.cons_append, List.nil_append, readNames, hmore]

theorem readPairs_intercalate (hne : pairs ≠ []) (hrest : rest.head? ≠ some joint) :
    readPairs joint ([joint].intercalate (pairs.map equation) ++ rest) = some (pairs, rest) := by
  induction pairs with
  | nil => exact absurd rfl hne
  | cons pair pairs ih =>
      cases pairs with
      | nil =>
          cases rest with
          | nil => simp [equation, readPairs, Operand.read_token]
          | cons next rest =>
              have hnext : next ≠ joint := fun h => hrest (congrArg some h)
              simp [equation, readPairs, Operand.read_token, hnext]
      | cons other pairs =>
          have hmore := ih (List.cons_ne_nil other pairs)
          rw [List.map_cons] at hmore
          rw [List.map_cons, List.map_cons, List.intercalate_cons_cons, List.append_assoc,
            List.append_assoc, equation]
          simp only [List.cons_append, List.nil_append, readPairs, Operand.read_token, hmore,
            if_true]
          rfl

end

/-! ### Statements -/

def testOperands : Nat → List Test → List (String × Operand)
  | _, [] => []
  | n, .equals column _ :: rest => (column, .param n) :: testOperands (n + 1) rest
  | n, .isTrue column :: rest => (column, .truth) :: testOperands n rest
  | n, .isWord column word :: rest => (column, .word word) :: testOperands n rest

def changeOperands : Nat → List (String × Cell) → List (String × Operand)
  | _, [] => []
  | n, (column, _) :: rest => (column, .param n) :: changeOperands (n + 1) rest

/-- Whether the names in a test are words. -/
def Test.Plain : Test → Prop
  | .equals column _ => IsWord column
  | .isTrue column => IsWord column
  | .isWord column word => IsWord column ∧ IsWhole word

instance : DecidablePred Test.Plain
  | .equals column _ => inferInstanceAs (Decidable (IsWord column))
  | .isTrue column => inferInstanceAs (Decidable (IsWord column))
  | .isWord _ _ => inferInstanceAs (Decidable (_ ∧ _))

def Table.Plain (t : Table) : Prop :=
  IsWord t.name ∧ t.columnNames ≠ [] ∧ ∀ column ∈ t.columnNames, IsWord column

instance : DecidablePred Table.Plain := fun _ => inferInstanceAs (Decidable (_ ∧ _))

namespace Statement

/-- Whether the names in a statement are words, and no list in it is empty. -/
def Plain : Statement → Prop
  | .select table tests order =>
    table.Plain ∧ (tests ≠ [] ∧ ∀ t ∈ tests, t.Plain) ∧ ∀ column ∈ order, IsWord column
  | .insert table values => table.Plain ∧ values ≠ [] ∧ ∀ v ∈ values, IsWord v.1
  | .update table changes tests =>
    IsWord table.name ∧ (changes ≠ [] ∧ ∀ v ∈ changes, IsWord v.1) ∧
      tests ≠ [] ∧ ∀ t ∈ tests, t.Plain
  | .script _ => False

instance : DecidablePred Plain
  | .select _ _ _ => inferInstanceAs (Decidable (_ ∧ (_ ∧ _) ∧ _))
  | .insert _ _ => inferInstanceAs (Decidable (_ ∧ _ ∧ _))
  | .update _ _ _ => inferInstanceAs (Decidable (_ ∧ (_ ∧ _) ∧ _ ∧ _))
  | .script _ => .isFalse id

/-- What a statement says, with its parameters by their numbers. -/
def query? : Statement → Option Query
  | .select table tests order =>
    some (.select table.columnNames table.name (testOperands 1 tests) order)
  | .insert table values =>
    some (.insert table.name (changeOperands 1 values) table.columnNames)
  | .update table changes tests =>
    some (.update table.name (changeOperands 1 changes) (testOperands (changes.length + 1) tests))
  | .script _ => none

end Statement

section

variable {tests : List Test} {changes : List (String × Cell)} {names : List String}
  {pairs : List (String × Operand)}

theorem tokens_testTexts (n : Nat) (h : ∀ t ∈ tests, t.Plain) :
    (Statement.testTexts n tests).map tokens = (testOperands n tests).map equation := by
  induction tests generalizing n with
  | nil => rfl
  | cons t tests ih =>
      have ht := h t List.mem_cons_self
      have hmore := fun n => ih n fun u hu => h u (List.mem_cons_of_mem t hu)
      cases t with
      | equals column value =>
          rw [Statement.testTexts, testOperands, List.map_cons, List.map_cons, hmore,
            tokens_between (by decide) (by decide), tokens_word ht,
            tokens_word (isWord_paramText n)]
          rfl
      | isTrue column =>
          have htoken : tokens " = TRUE" = ["=", "TRUE"] := by decide
          rw [Statement.testTexts, testOperands, List.map_cons, List.map_cons, hmore,
            tokens_append (by decide), tokens_word ht, htoken]
          rfl
      | isWord column word =>
          have htext : column ++ " = '" ++ word ++ "'" =
              column ++ " = " ++ ("'" ++ word ++ "'") := by
            rw [← String.toList_inj]
            simp
          rw [Statement.testTexts, testOperands, List.map_cons, List.map_cons, hmore, htext,
            tokens_between (by decide) (by decide), tokens_word ht.1,
            tokens_word (isWord_quoted ht.2)]
          rfl

theorem tokens_changeTexts (n : Nat) (h : ∀ v ∈ changes, IsWord v.1) :
    (Statement.changeTexts n changes).map tokens = (changeOperands n changes).map equation := by
  induction changes generalizing n with
  | nil => rfl
  | cons v changes ih =>
      obtain ⟨column, value⟩ := v
      rw [Statement.changeTexts, changeOperands, List.map_cons, List.map_cons,
        ih (n + 1) fun w hw => h w (List.mem_cons_of_mem _ hw),
        tokens_between (by decide) (by decide), tokens_word (h _ List.mem_cons_self),
        tokens_word (isWord_paramText n)]
      rfl

theorem tokens_names (h : ∀ name ∈ names, IsWord name) :
    tokens (", ".intercalate names) = [","].intercalate (names.map fun name => [name]) := by
  have hmark : tokens ", " = [","] := by decide
  rw [tokens_intercalate (by decide) (by decide), hmark]
  exact congrArg _ (List.map_congr_left fun name hname => tokens_word (h name hname))

theorem testOperands_ne_nil {n : Nat} (h : tests ≠ []) : testOperands n tests ≠ [] := by
  cases tests with
  | nil => exact absurd rfl h
  | cons t tests => cases t <;> exact List.cons_ne_nil _ _

theorem changeOperands_ne_nil {n : Nat} (h : changes ≠ []) : changeOperands n changes ≠ [] := by
  cases changes with
  | nil => exact absurd rfl h
  | cons v changes => exact List.cons_ne_nil _ _

/-- The tokens of a question up to its order. -/
theorem tokens_select {table : Table} (ht : table.Plain) (hplain : ∀ t ∈ tests, t.Plain) :
    tokens ("SELECT " ++ ", ".intercalate table.columnNames ++ " FROM " ++ table.name ++
        " WHERE " ++ " AND ".intercalate (Statement.testTexts 1 tests)) =
      "SELECT" :: ([","].intercalate (table.columnNames.map fun name => [name]) ++
        "FROM" :: table.name :: "WHERE" ::
          ["AND"].intercalate ((testOperands 1 tests).map equation)) := by
  have hselect : tokens "SELECT " = ["SELECT"] := by decide
  have hfrom : tokens " FROM " = ["FROM"] := by decide
  have hwhere : tokens " WHERE " = ["WHERE"] := by decide
  have hand : tokens " AND " = ["AND"] := by decide
  rw [tokens_between (by decide) (by decide), tokens_between (by decide) (by decide),
    tokens_append_of_endsApart (by decide), hselect, hfrom, hwhere, tokens_names ht.2.2,
    tokens_word ht.1, tokens_intercalate (by decide) (by decide), hand, tokens_testTexts 1 hplain]
  simp

theorem ofTokens_select (table : String) {more : List String} {order : Option String}
    (hnames : names ≠ []) (htests : pairs ≠ [])
    (hmore : order = none ∧ more = [] ∨ ∃ c, order = some c ∧ more = ["ORDER", "BY", c, "ASC"]) :
    Query.ofTokens ("SELECT" :: ([","].intercalate (names.map fun name => [name]) ++
        "FROM" :: table :: "WHERE" :: (["AND"].intercalate (pairs.map equation) ++ more))) =
      some (.select names table pairs order) := by
  have hhead : more.head? ≠ some "AND" := by
    rcases hmore with ⟨-, rfl⟩ | ⟨c, -, rfl⟩ <;> simp
  have hread : readNames ([","].intercalate (names.map fun name => [name]) ++
        "FROM" :: table :: "WHERE" :: (["AND"].intercalate (pairs.map equation) ++ more)) =
      (names, "FROM" :: table :: "WHERE" :: (["AND"].intercalate (pairs.map equation) ++ more)) :=
    readNames_intercalate hnames (by simp)
  simp only [Query.ofTokens, hread, readPairs_intercalate htests hhead]
  rcases hmore with ⟨rfl, rfl⟩ | ⟨c, rfl, rfl⟩ <;> rfl

theorem read_select {table : Table} {order : Option String} (ht : table.Plain) (htests : tests ≠ [])
    (hplain : ∀ t ∈ tests, t.Plain) (horder : ∀ column ∈ order, IsWord column) :
    Query.read (Statement.select table tests order).text =
      some (.select table.columnNames table.name (testOperands 1 tests) order) := by
  rw [Query.read]
  cases order with
  | none =>
      have htext : (Statement.select table tests none).text =
          "SELECT " ++ ", ".intercalate table.columnNames ++ " FROM " ++ table.name ++
            " WHERE " ++ " AND ".intercalate (Statement.testTexts 1 tests) ++ "" := rfl
      have hread := ofTokens_select table.name ht.2.1
        (testOperands_ne_nil (n := 1) htests) (.inl ⟨rfl, rfl⟩)
      rw [List.append_nil] at hread
      rw [htext, String.append_empty, tokens_select ht hplain, hread]
  | some column =>
      have htext : (Statement.select table tests (some column)).text =
          "SELECT " ++ ", ".intercalate table.columnNames ++ " FROM " ++ table.name ++
            " WHERE " ++ " AND ".intercalate (Statement.testTexts 1 tests) ++
            (" ORDER BY " ++ column ++ " ASC") := rfl
      have hlast : tokens (" ORDER BY " ++ column ++ " ASC") = ["ORDER", "BY", column, "ASC"] := by
        have hby : tokens " ORDER BY " = ["ORDER", "BY"] := by decide
        have hasc : tokens " ASC" = ["ASC"] := by decide
        rw [tokens_append (by decide), tokens_append_of_endsApart (by decide), hby, hasc,
          tokens_word (horder column rfl)]
        rfl
      have hstart : startsApart (" ORDER BY " ++ column ++ " ASC") = true :=
        startsApart_append (startsApart_append (by decide))
      have hread := ofTokens_select table.name ht.2.1
        (testOperands_ne_nil (n := 1) htests) (.inr ⟨column, rfl, rfl⟩)
      rw [htext, tokens_append hstart, tokens_select ht hplain, hlast, ← hread]
      simp

theorem mapM_read_token (operands : List Operand) :
    (operands.map Operand.token).mapM Operand.read = some operands := by
  induction operands with
  | nil => rfl
  | cons o operands ih => simp [List.mapM_cons, Operand.read_token, ih]

/-- The columns of an order with the parameters that stand for their values. -/
theorem zip_params (n : Nat) :
    (changes.map Prod.fst).zip ((List.range' n changes.length).map Operand.param) =
      changeOperands n changes := by
  induction changes generalizing n with
  | nil => rfl
  | cons v changes ih =>
      obtain ⟨column, value⟩ := v
      rw [List.length_cons, List.range'_succ, List.map_cons, List.map_cons, List.zip_cons_cons, ih,
        changeOperands]

theorem ofTokens_insert (table : String) (names returned : List String) (params : List Operand)
    (hnames : names ≠ []) (hparams : params.length = names.length) (hreturned : returned ≠ []) :
    Query.ofTokens ("INSERT" :: "INTO" :: table :: "(" ::
        ([","].intercalate (names.map fun name => [name]) ++ ")" :: "VALUES" :: "(" ::
          ([","].intercalate ((params.map Operand.token).map fun name => [name]) ++
            ")" :: "RETURNING" ::
              ([","].intercalate (returned.map fun name => [name]) ++ [])))) =
      some (.insert table (names.zip params) returned) := by
  have hne : params.map Operand.token ≠ [] := by
    rw [ne_eq, List.map_eq_nil_iff, ← List.length_eq_zero_iff, hparams, List.length_eq_zero_iff]
    exact hnames
  have hread {names : List String} (hnames : names ≠ []) (mark : String) (hmark : mark ≠ ",")
      (more : List String) :
      readNames ([","].intercalate (names.map fun name => [name]) ++ mark :: more) =
        (names, mark :: more) :=
    readNames_intercalate hnames (by simpa using hmark)
  have hlast : readNames ([","].intercalate (returned.map fun name => [name]) ++ []) =
      (returned, []) := readNames_intercalate hreturned (by simp)
  simp only [Query.ofTokens, hread hnames ")" (by decide), hread hne ")" (by decide), hlast,
    mapM_read_token, hparams, if_true]

theorem read_insert {table : Table} (ht : table.Plain) (hvalues : changes ≠ [])
    (hplain : ∀ v ∈ changes, IsWord v.1) :
    Query.read (Statement.insert table changes).text =
      some (.insert table.name (changeOperands 1 changes) table.columnNames) := by
  have htext : (Statement.insert table changes).text =
      "INSERT INTO " ++ table.name ++ " (" ++ ", ".intercalate (changes.map Prod.fst) ++
        ") VALUES (" ++
        ", ".intercalate ((List.range changes.length).map fun i => Statement.paramText (i + 1)) ++
        ") RETURNING " ++ ", ".intercalate table.columnNames := rfl
  have hparams : (List.range changes.length).map (fun i => Statement.paramText (i + 1)) =
      ((List.range' 1 changes.length).map Operand.param).map Operand.token := by
    rw [List.range'_eq_map_range, List.map_map, List.map_map]
    exact List.map_congr_left fun i _ => congrArg Statement.paramText (Nat.add_comm i 1)
  have hinsert : tokens "INSERT INTO " = ["INSERT", "INTO"] := by decide
  have hopen : tokens " (" = ["("] := by decide
  have hvaluesMark : tokens ") VALUES (" = [")", "VALUES", "("] := by decide
  have hreturning : tokens ") RETURNING " = [")", "RETURNING"] := by decide
  have hcolumns : ∀ name ∈ changes.map Prod.fst, IsWord name := by
    intro name hname
    obtain ⟨v, hv, rfl⟩ := List.mem_map.mp hname
    exact hplain v hv
  have htokens : ∀ name ∈ ((List.range' 1 changes.length).map Operand.param).map Operand.token,
      IsWord name := by
    intro name hname
    rw [List.map_map] at hname
    obtain ⟨n, -, rfl⟩ := List.mem_map.mp hname
    exact isWord_paramText n
  have hread := ofTokens_insert table.name (changes.map Prod.fst) table.columnNames
    ((List.range' 1 changes.length).map Operand.param) (by simpa using hvalues) (by simp) ht.2.1
  rw [zip_params] at hread
  rw [Query.read, htext, hparams, tokens_between (by decide) (by decide),
    tokens_between (by decide) (by decide), tokens_between (by decide) (by decide),
    tokens_append_of_endsApart (by decide), hinsert, hopen, hvaluesMark, hreturning,
    tokens_word ht.1, tokens_names hcolumns, tokens_names htokens, tokens_names ht.2.2, ← hread]
  simp

theorem ofTokens_update (table : String) {tested : List (String × Operand)} (hpairs : pairs ≠ [])
    (htested : tested ≠ []) :
    Query.ofTokens ("UPDATE" :: table :: "SET" ::
        ([","].intercalate (pairs.map equation) ++ "WHERE" ::
          (["AND"].intercalate (tested.map equation) ++ []))) =
      some (.update table pairs tested) := by
  have hread : readPairs "," ([","].intercalate (pairs.map equation) ++ "WHERE" ::
        (["AND"].intercalate (tested.map equation) ++ [])) =
      some (pairs, "WHERE" :: (["AND"].intercalate (tested.map equation) ++ [])) :=
    readPairs_intercalate hpairs (by simp)
  have hlast : readPairs "AND" (["AND"].intercalate (tested.map equation) ++ []) =
      some (tested, []) := readPairs_intercalate htested (by simp)
  simp only [Query.ofTokens, hread, hlast]

theorem read_update {table : Table} (ht : IsWord table.name) (hchanges : changes ≠ [])
    (hplain : ∀ v ∈ changes, IsWord v.1) (htests : tests ≠ []) (hwords : ∀ t ∈ tests, t.Plain) :
    Query.read (Statement.update table changes tests).text =
      some (.update table.name (changeOperands 1 changes)
        (testOperands (changes.length + 1) tests)) := by
  have htext : (Statement.update table changes tests).text =
      "UPDATE " ++ table.name ++ " SET " ++ ", ".intercalate (Statement.changeTexts 1 changes) ++
        " WHERE " ++ " AND ".intercalate (Statement.testTexts (changes.length + 1) tests) := rfl
  have hupdate : tokens "UPDATE " = ["UPDATE"] := by decide
  have hset : tokens " SET " = ["SET"] := by decide
  have hwhere : tokens " WHERE " = ["WHERE"] := by decide
  have hcomma : tokens ", " = [","] := by decide
  have hand : tokens " AND " = ["AND"] := by decide
  have hread := ofTokens_update table.name (changeOperands_ne_nil (n := 1) hchanges)
    (testOperands_ne_nil (n := changes.length + 1) htests)
  rw [Query.read, htext, tokens_between (by decide) (by decide),
    tokens_between (by decide) (by decide), tokens_append_of_endsApart (by decide), hupdate, hset,
    hwhere, tokens_word ht, tokens_intercalate (by decide) (by decide), hcomma,
    tokens_changeTexts 1 hplain, tokens_intercalate (by decide) (by decide), hand,
    tokens_testTexts _ hwords, ← hread]
  simp

/-- A statement in plain words is read as it is written. -/
theorem read_text {s : Statement} (h : s.Plain) : Query.read s.text = s.query? := by
  cases s with
  | select table tests order => exact read_select h.1 h.2.1.1 h.2.1.2 h.2.2
  | insert table values => exact read_insert h.1 h.2.1 h.2.2
  | update table changes tests => exact read_update h.1 h.2.1.1 h.2.1.2 h.2.2.1 h.2.2.2
  | script text => cases h

end

/-- What is sent is in plain words. -/
theorem Sent.plain {s : Statement} (h : Sent s) : s.Plain := by
  have hworkflows : workflows.Plain := by decide
  have hexecutions : executions.Plain := by decide
  have haudits : audits.Plain := by decide
  have hnames (names : List String) (changes : List (String × Cell))
      (hwords : ∀ name ∈ names, IsWord name) (h : changes.map Prod.fst = names) :
      ∀ v ∈ changes, IsWord v.1 := by
    rw [← h] at hwords
    exact List.forall_mem_map.mp hwords
  obtain ⟨β, fresh, now, call, rfl⟩ | ⟨row, rfl⟩ := h
  · cases call with
    | touchLastRun id instant =>
        exact ⟨hworkflows.1, ⟨List.cons_ne_nil _ _, hnames ["last_run_at"] _ (by decide) rfl⟩,
          of_decide_eq_true rfl⟩
    | createExecution new =>
        exact ⟨hexecutions, List.cons_ne_nil _ _, hnames ["id", "workflow_id", "status",
          "triggered_by", "user_id", "agent_id", "trigger_data", "started_at"] _ (by decide) rfl⟩
    | finishExecution id f =>
        exact ⟨hexecutions.1, ⟨List.cons_ne_nil _ _,
          hnames ["status", "result", "error", "finished_at"] _ (by decide) rfl⟩,
          of_decide_eq_true rfl⟩
    | insertAudit record =>
        exact ⟨haudits, List.cons_ne_nil _ _, hnames audits.columnNames _ haudits.2.2 rfl⟩
    | _ => exact of_decide_eq_true rfl
  · exact ⟨hworkflows, List.cons_ne_nil _ _, hnames workflows.columnNames _ hworkflows.2.2 rfl⟩

/-! ### Parameters -/

/-- What the column of a test must be. -/
def Test.cell : Test → String × Cell
  | .equals column value => (column, value)
  | .isTrue column => (column, .bool true)
  | .isWord column word => (column, .text word)

section

variable {before after : List Cell}

theorem bound_cons_param (value : Cell) (column : String) (pairs : List (String × Operand)) :
    bound (before ++ value :: after) ((column, .param (before.length + 1)) :: pairs) =
      (column, value) :: bound (before ++ value :: after) pairs := by
  simp [bound, Operand.cell]

/-- The parameters of changes stand where their columns do. -/
theorem bound_changeOperands (before after : List Cell) (changes : List (String × Cell)) :
    bound (before ++ (changes.map Prod.snd ++ after)) (changeOperands (before.length + 1) changes) =
      changes := by
  induction changes generalizing before with
  | nil => rfl
  | cons v changes ih =>
      obtain ⟨column, value⟩ := v
      have hmore := ih (before ++ [value])
      rw [List.length_append, List.length_singleton, List.append_assoc, List.singleton_append]
        at hmore
      rw [changeOperands, List.map_cons, List.cons_append, bound_cons_param, hmore]

/-- The parameters of tests stand where their columns do. -/
theorem bound_testOperands (before : List Cell) (tests : List Test) :
    bound (before ++ tests.filterMap Test.param?) (testOperands (before.length + 1) tests) =
      tests.map Test.cell := by
  induction tests generalizing before with
  | nil => rfl
  | cons t tests ih =>
      cases t with
      | equals column value =>
          have hmore := ih (before ++ [value])
          rw [List.length_append, List.length_singleton, List.append_assoc, List.singleton_append]
            at hmore
          have hparams : (Test.equals column value :: tests).filterMap Test.param? =
              value :: tests.filterMap Test.param? := rfl
          rw [testOperands, hparams, bound_cons_param, hmore]
          rfl
      | isTrue column => exact congrArg (_ :: ·) (ih before)
      | isWord column word => exact congrArg (_ :: ·) (ih before)

theorem bound_select (table : Table) (tests : List Test) (order : Option String) :
    bound (Statement.select table tests order).params (testOperands 1 tests) =
      tests.map Test.cell := bound_testOperands [] tests

theorem bound_insert (table : Table) (values : List (String × Cell)) :
    bound (Statement.insert table values).params (changeOperands 1 values) = values := by
  have hparams := bound_changeOperands [] [] values
  rwa [List.append_nil] at hparams

theorem bound_update (table : Table) (changes : List (String × Cell)) (tests : List Test) :
    bound (Statement.update table changes tests).params (changeOperands 1 changes) = changes ∧
      bound (Statement.update table changes tests).params
        (testOperands (changes.length + 1) tests) = tests.map Test.cell := by
  have htests := bound_testOperands (changes.map Prod.snd) tests
  rw [List.length_map] at htests
  exact ⟨bound_changeOperands [] _ changes, htests⟩

end

/-! ### Obedience -/

section

variable {D : Type} {database : Statement → D → Except String Reply × D} {tables : D → Tables}
  {d : D} {table : Table} {tests : List Test} {changes : List (String × Cell)} {s : Schema}

/-- A question changes nothing, and is answered by the rows that pass its tests. -/
theorem Obeys.select {order : Option String} (h : Obeys database tables)
    (hsent : Sent (.select table tests order)) :
    tables (database (.select table tests order) d).2 = tables d ∧
      ∃ rows : List ResultRow,
        rows.Perm ((tables d table.name).filter (·.passes (tests.map Test.cell))) ∧
        (∀ column ∈ order, rows.Pairwise fun a b => (a.cell column).atMost (b.cell column) = true) ∧
        (database (.select table tests order) d).1 =
          .ok ⟨rows.map (·.project table.columnNames), rows.length⟩ := by
  have hcarried := h _ _ d hsent (read_text hsent.plain)
  generalize (database (.select table tests order) d).1 = reply at hcarried ⊢
  generalize tables (database (.select table tests order) d).2 = tables' at hcarried ⊢
  cases hcarried with
  | select hrows horder =>
      rw [bound_select] at hrows
      exact ⟨rfl, _, hrows, horder, rfl⟩

/-- An order for a new row is answered by that row, if the table can hold it. -/
theorem Obeys.insert {row : ResultRow} (h : Obeys database tables)
    (hsent : Sent (.insert table changes)) (hs : Schema.ofName? table.name = some s)
    (hrow : s.newRow? changes = some row) :
    Written s (tables d) (tables d table.name ++ [row]) ⟨[row.project table.columnNames], 1⟩
      (database (.insert table changes) d).1 (tables (database (.insert table changes) d).2) := by
  have hcarried := h _ _ d hsent (read_text hsent.plain)
  generalize (database (.insert table changes) d).1 = reply at hcarried ⊢
  generalize tables (database (.insert table changes) d).2 = tables' at hcarried ⊢
  cases hcarried with
  | insert hs' hrow' hwritten =>
      cases hs.symm.trans hs'
      rw [bound_insert, hrow] at hrow'
      cases hrow'
      exact hwritten

/-- An order for changes is answered by the number of rows that pass its tests, if the table can
hold what becomes of them. -/
theorem Obeys.update (h : Obeys database tables) (hsent : Sent (.update table changes tests))
    (hs : Schema.ofName? table.name = some s) :
    Written s (tables d)
      ((tables d table.name).map fun row =>
        if row.passes (tests.map Test.cell) then row.change changes else row)
      ⟨[], (tables d table.name).countP (·.passes (tests.map Test.cell))⟩
      (database (.update table changes tests) d).1
      (tables (database (.update table changes tests) d).2) := by
  obtain ⟨hchanges, htests⟩ := bound_update table changes tests
  have hcarried := h _ _ d hsent (read_text hsent.plain)
  generalize (database (.update table changes tests) d).1 = reply at hcarried ⊢
  generalize tables (database (.update table changes tests) d).2 = tables' at hcarried ⊢
  cases hcarried with
  | update hs' hwritten =>
      cases hs.symm.trans hs'
      rw [hchanges, htests] at hwritten
      exact hwritten

end

end Workflow.Sql
