import Workflow.Decimal.Read
import Workflow.Text.Quoted

/-!
# Tokens of expressions

Words, helper names, quoted texts, numbers and marks.  A text in quotes may hold the
quote itself and the backslash behind a backslash, so that every text has a quoted
form.
-/

namespace Workflow.Expr

inductive Mark where
  | same | notSame | equal | notEqual | atMost | atLeast | both | either
  | less | greater | bang | plus | minus | star | slash | percent
  | question | colon | openParen | closeParen | openBracket | closeBracket | comma | dot
  deriving Repr, DecidableEq

namespace Mark

def text : Mark → String
  | .same => "==="
  | .notSame => "!=="
  | .equal => "=="
  | .notEqual => "!="
  | .atMost => "<="
  | .atLeast => ">="
  | .both => "&&"
  | .either => "||"
  | .less => "<"
  | .greater => ">"
  | .bang => "!"
  | .plus => "+"
  | .minus => "-"
  | .star => "*"
  | .slash => "/"
  | .percent => "%"
  | .question => "?"
  | .colon => ":"
  | .openParen => "("
  | .closeParen => ")"
  | .openBracket => "["
  | .closeBracket => "]"
  | .comma => ","
  | .dot => "."

def all : List Mark :=
  [.same, .notSame, .equal, .notEqual, .atMost, .atLeast, .both, .either, .less, .greater, .bang,
    .plus, .minus, .star, .slash, .percent, .question, .colon, .openParen, .closeParen,
    .openBracket, .closeBracket, .comma, .dot]

def ofStart? (cs : List Char) : Option Mark := all.find? fun m => m.text.toList.isPrefixOf cs

end Mark

inductive Token where
  | word (name : String)
  | helper (name : String)
  | quoted (text : String)
  | number (x : Float)
  | mark (m : Mark)

def Token.text : Token → String
  | .word name => "Ident(" ++ Text.quoted name ++ ")"
  | .helper name => "Helper(" ++ Text.quoted name ++ ")"
  | .quoted text => "Str(" ++ Text.quoted text ++ ")"
  | .number x => "Num(" ++ Decimal.Layout.token.text x ++ ")"
  | .mark m => "Punct(" ++ Text.quoted m.text ++ ")"

def Token.text? : Option Token → String
  | some t => "Some(" ++ t.text ++ ")"
  | none => "None"

/-- Why a text has no tokens. -/
inductive LexError where
  | unterminated
  | invalidNumber (text : String)
  | unexpected (c : Char)
  deriving Repr, DecidableEq

def LexError.message : LexError → String
  | .unterminated => "unterminated string literal"
  | .invalidNumber text => "invalid number: " ++ text
  | .unexpected c => "unexpected character: " ++ String.singleton c

def unescape (c : Char) : Char :=
  if c = 'n' then '\n' else if c = 't' then '\t' else c

def readQuoted (quote : Char) : List Char → Option (List Char × List Char)
  | [] => none
  | '\\' :: c :: rest => (readQuoted quote rest).map fun (text, rest) => (unescape c :: text, rest)
  | c :: rest =>
    if c = quote then some ([], rest)
    else (readQuoted quote rest).map fun (text, rest) => (c :: text, rest)

def isNumberChar (c : Char) : Bool := c.isDigit || c = '.'

def isWordStart (c : Char) : Bool := c.isAlpha || c = '_' || c = '$'

def isWordChar (c : Char) : Bool := c.isAlphanum || c = '_'

/-- The token that begins with a character that is not blank, and the characters behind
it. -/
def Token.read (c : Char) (cs : List Char) : Except LexError (Token × List Char) :=
  if c = '"' || c = '\'' then
    match readQuoted c cs with
    | some (text, rest) => .ok (.quoted (String.ofList text), rest)
    | none => .error .unterminated
  else if c.isDigit then
    let text := String.ofList (c :: cs.takeWhile isNumberChar)
    match Decimal.parse? text with
    | some x => .ok (.number x, cs.dropWhile isNumberChar)
    | none => .error (.invalidNumber text)
  else if isWordStart c then
    let text := String.ofList (c :: cs.takeWhile isWordChar)
    .ok (if c = '$' then .helper text else .word text, cs.dropWhile isWordChar)
  else
    match Mark.ofStart? (c :: cs) with
    | some m => .ok (.mark m, cs.drop (m.text.length - 1))
    | none => .error (.unexpected c)

theorem length_le_of_readQuoted {quote : Char} {cs text rest : List Char}
    (h : readQuoted quote cs = some (text, rest)) : rest.length ≤ cs.length := by
  fun_induction readQuoted quote cs generalizing text rest with
  | case1 => simp at h
  | case2 c cs ih =>
    obtain ⟨t, ht, -⟩ : ∃ t, readQuoted quote cs = some (t, rest) ∧ unescape c :: t = text := by
      simpa using h
    have := ih ht
    simp only [List.length_cons]
    omega
  | case3 cs =>
    obtain ⟨-, rfl⟩ : [] = text ∧ cs = rest := by simpa using h
    simp only [List.length_cons]
    omega
  | case4 c cs _ _ ih =>
    obtain ⟨t, ht, -⟩ : ∃ t, readQuoted quote cs = some (t, rest) ∧ c :: t = text := by
      simpa using h
    have := ih ht
    simp only [List.length_cons]
    omega

theorem length_dropWhile_le (p : Char → Bool) (cs : List Char) :
    (cs.dropWhile p).length ≤ cs.length :=
  (List.dropWhile_suffix p).length_le

theorem length_le_of_read {c : Char} {cs rest : List Char} {t : Token}
    (h : Token.read c cs = .ok (t, rest)) : rest.length ≤ cs.length := by
  unfold Token.read at h
  split at h
  · split at h
    · next text' rest' hread =>
      simp only [Except.ok.injEq, Prod.mk.injEq] at h
      exact h.2 ▸ length_le_of_readQuoted hread
    · simp at h
  · split at h
    · simp only at h
      split at h
      · simp only [Except.ok.injEq, Prod.mk.injEq] at h
        exact h.2 ▸ length_dropWhile_le _ _
      · simp at h
    · split at h
      · simp only [Except.ok.injEq, Prod.mk.injEq] at h
        exact h.2 ▸ length_dropWhile_le _ _
      · split at h
        · simp only [Except.ok.injEq, Prod.mk.injEq] at h
          rw [← h.2, List.length_drop]
          omega
        · simp at h

def tokens : List Char → Except LexError (List Token)
  | [] => .ok []
  | c :: cs =>
    if Text.isBlank c then tokens cs
    else
      match _h : Token.read c cs with
      | .error e => .error e
      | .ok (t, rest) =>
        match tokens rest with
        | .error e => .error e
        | .ok ts => .ok (t :: ts)
termination_by cs => cs.length
decreasing_by
  · simp
  · have := length_le_of_read (by assumption)
    simp only [List.length_cons]
    omega

end Workflow.Expr
