import Workflow.Expr.Eval
import Workflow.Proofs.Expr.Lexer
import Workflow.Proofs.Expr.Render
import Workflow.Proofs.Text.Parts

/-!
# Paths as expressions

A path can be followed by the resolver, which splits it at its dots, by an expression that takes
its steps one after another, and by the helper that is given a path as a text.  All of them end at
the same value.
-/

namespace Workflow

/-! ### Segments -/

/-- A segment of a path that all ways to follow a path can name: it has no dot, nothing is trimmed
off, and it does not ask for a length. -/
structure Plain (s : String) : Prop where
  nonempty : s ≠ ""
  undotted : '.' ∉ s.toList
  trimmed : Text.trim s = s
  notLength : s ≠ "length"

/-- A path from a root. -/
def Root.path (r : Root) (segments : List String) : String := ".".intercalate (r.name :: segments)

theorem Root.name_spec (r : Root) :
    '.' ∉ r.name.toList ∧ ∃ c cs, r.name.toList = c :: cs ∧ Text.isBlank c = false := by
  cases r <;> exact ⟨by decide, _, _, rfl, by decide⟩

theorem Root.ofName?_name (r : Root) : Root.ofName? r.name = some r := by cases r <;> rfl

theorem Root.toList_path (r : Root) (segments : List String) :
    (r.path segments).toList = r.name.toList ++ segments.flatMap fun s => '.' :: s.toList := by
  rw [path, String.toList_intercalate, List.map_cons]
  change ['.'].intercalate _ = _
  rw [Text.intercalate_cons, List.flatMap_map]

section

variable {r : Root} {segments : List String}

theorem Plain.getLast? {s : String} (hs : Plain s) :
    ∀ c ∈ s.toList.getLast?, Text.isBlank c = false := by
  have htrim : Text.trimChars s.toList = s.toList := by
    have h := congrArg String.toList hs.trimmed
    rwa [Text.trim, String.toList_ofList] at h
  exact (Text.trimChars_eq_self.mp htrim).2

theorem trim_path (hne : segments ≠ []) (hplain : ∀ s ∈ segments, Plain s) :
    Text.trim (r.path segments) = r.path segments := by
  obtain ⟨-, c, cs, hname, hc⟩ := r.name_spec
  obtain ⟨front, last, rfl⟩ := (List.eq_nil_or_concat segments).resolve_left hne
  have hlast := hplain last (by simp)
  have hnonempty : last.toList ≠ [] := mt String.toList_eq_nil_iff.mp hlast.nonempty
  have hends : (r.path (front.concat last)).toList.getLast? = last.toList.getLast? := by
    rw [Root.toList_path, List.concat_eq_append, List.flatMap_append, List.flatMap_singleton,
      ← List.append_assoc, List.getLast?_append_of_ne_nil _ (List.cons_ne_nil _ _),
      List.getLast?_cons_of_ne_nil hnonempty]
  have htrim : Text.trimChars (r.path (front.concat last)).toList =
      (r.path (front.concat last)).toList := by
    refine Text.trimChars_eq_self.mpr ⟨?_, hends ▸ hlast.getLast?⟩
    rw [Root.toList_path, hname]
    rintro _ ⟨⟩
    exact hc
  rw [Text.trim, htrim, String.ofList_toList]

/-- The resolver takes the steps of a path. -/
theorem Scope.resolve_path (scope : Scope) (hne : segments ≠ [])
    (hplain : ∀ s ∈ segments, Plain s) :
    scope.resolve (r.path segments) = (scope.root r).walk segments := by
  have hpieces : ∀ p ∈ r.name :: segments, '.' ∉ p.toList := by
    intro p hp
    rcases List.mem_cons.mp hp with rfl | hp
    · exact r.name_spec.1
    · exact (hplain p hp).undotted
  rw [Scope.resolve, trim_path hne hplain, Root.path,
    Text.splitAt_intercalate rfl (List.cons_ne_nil _ _) hpieces]
  simp only [Root.ofName?_name, Option.bind_some]

end

namespace Expr

/-! ### Steps of an expression -/

/-- A place that shows the value at the end of a path, or null if there is none. -/
inductive Place.Shows : Place → Option Json → Prop where
  | nothing : Shows (.computed .null) none
  | part (v : Json) : Shows (.part v) (some v)
  | members (fields : Keyed Json) : Shows (.members fields) (some (.obj fields))

/-- The value of an expression is the one at the end of a path. -/
def Leads (scope : Scope) (e : Expr) (v? : Option Json) : Prop :=
  ∃ p, place scope e = .ok p ∧ p.Shows v?

section

variable {scope : Scope} {p : Place} {v? : Option Json} {e : Expr} {key : String}

theorem Place.Shows.toJson (h : p.Shows v?) : p.toJson = .ofOption v? := by
  cases h <;> rfl

theorem shows_ofPart? (v? : Option Json) : (Place.ofPart? v?).Shows v? := by
  cases v? with
  | none => exact .nothing
  | some v => exact .part v

/-- Each step of an expression is one of the path, whatever it starts from. -/
theorem Place.Shows.member (h : p.Shows v?) (hkey : key ≠ "length") :
    (p.member key).Shows (v?.bind (Json.step key)) := by
  cases h with
  | nothing => exact .nothing
  | members fields => exact shows_ofPart? _
  | part v =>
      have hnot : decide (key = "length") = false := decide_eq_false hkey
      have hmember : (Place.part v).member key = .ofPart? (v.step key) := by
        cases v <;> simp [Place.member, hnot]
      rw [hmember]
      exact shows_ofPart? _

theorem leads_root (scope : Scope) (r : Root) : Leads scope (.root r) (some (scope.root r)) := by
  refine ⟨.ofRoot scope r, rfl, ?_⟩
  cases r
  · exact .part _
  · exact .part _
  · exact .members _
  · exact .members _

theorem Leads.member (h : Leads scope e v?) (hkey : key ≠ "length") :
    Leads scope (.member e key) (v?.bind (Json.step key)) := by
  obtain ⟨p, hp, hshows⟩ := h
  exact ⟨p.member key, by rw [place, hp]; rfl, hshows.member hkey⟩

theorem Leads.index (h : Leads scope e v?) (hkey : key ≠ "length") :
    Leads scope (.index e (.literal (.str key))) (v?.bind (Json.step key)) := by
  obtain ⟨p, hp, hshows⟩ := h
  exact ⟨p.member key, by rw [place, hp]; rfl, hshows.member hkey⟩

end

/-! ### Ways to write a path -/

theorem Written.toWhole {d : Nat} {e : Expr} {ts : List Token} (h : Written .access d e ts) :
    Written .whole (d + 1) e ts :=
  .plain (Written.looser (k := 1) (n := 7) Nat.one_pos h (by decide))

/-- A text with such tokens has the value of the tree that they are written for. -/
theorem evaluate_of_written {scope : Scope} {source : String} {d : Nat} {e : Expr}
    {ts : List Token} {p : Place} (hlength : source.utf8ByteSize ≤ maxLength)
    (htokens : tokens source.toList = .ok ts) (hwritten : Written .access d e ts)
    (hd : d < maxDepth) (hp : place scope e = .ok p) : evaluate scope source = .ok p.toJson := by
  obtain ⟨t, more, rfl, -⟩ := written_begins hwritten
  have hparse : parse source = .ok e := by
    rw [parse, if_neg (by omega), htokens]
    simp only
    rw [ofTokens_of_written hwritten.toWhole, if_pos (Nat.succ_le_of_lt hd)]
  rw [evaluate, hparse]
  simp only [eval, hp]
  rfl

/-- A way to write a step of a path: as text, as tokens, and as a tree. -/
structure Style where
  text : String → List Char
  tokens : String → List Token
  tree : Expr → String → Expr

/-- Steps in brackets and quotes. -/
def Style.bracketed : Style where
  text s := '[' :: quotedBy '\'' s ++ [']']
  tokens s := [.mark .openBracket, .quoted s, .mark .closeBracket]
  tree e s := .index e (.literal (.str s))

/-- Steps behind dots. -/
def Style.dotted : Style where
  text s := '.' :: s.toList
  tokens s := [.mark .dot, .word s]
  tree e s := .member e s

/-- What makes a way to write steps one to follow paths by, as far as it can name them. -/
structure Style.Follows (style : Style) (names : String → Prop) : Prop where
  ends : ∀ s rest, EndsWord (style.text s ++ rest)
  lexed : ∀ s rest ts, names s → EndsWord rest → Expr.tokens rest = .ok ts →
    Expr.tokens (style.text s ++ rest) = .ok (style.tokens s ++ ts)
  written : ∀ d e ts s, d ≤ 1 → Written .access d e ts →
    ∃ d' ≤ 1, Written .access d' (style.tree e s) (ts ++ style.tokens s)
  leads : ∀ scope e v? s, s ≠ "length" → Leads scope e v? →
    Leads scope (style.tree e s) (v?.bind (Json.step s))

/-- A word that may stand behind a dot. -/
def IsIdentifier (s : String) : Prop :=
  ∃ c cs, s.toList = c :: cs ∧ isWordStart c = true ∧ c ≠ '$' ∧ ∀ d ∈ cs, isWordChar d = true

theorem bracketed_follows : Style.bracketed.Follows fun _ => True where
  ends s rest := endsWord_cons (by decide)
  lexed s rest ts _ _ hrest := by
    have hclose := tokens_mark (c := ']') (m := .closeBracket) (by decide) hrest
    have hquote : '\'' ∈ ['"', '\''] := by decide
    have hopen := tokens_mark (c := '[') (m := .openBracket) (by decide)
      (tokens_quotedBy hquote s hclose)
    simpa [Style.bracketed] using hopen
  written d e ts s hd h := by
    have hposition := Written.toWhole (.primary (.quoted s))
    exact ⟨max d 1, max_le hd le_rfl, by simpa [Style.bracketed] using Written.index h hposition⟩
  leads scope e v? s hs h := h.index hs

theorem dotted_follows : Style.dotted.Follows IsIdentifier where
  ends s rest := endsWord_cons (by decide)
  lexed s rest ts hs hend hrest := by
    obtain ⟨c, cs, htoList, hstart, hdollar, hword⟩ := hs
    have hname := tokens_name htoList hstart hword hend hrest
    rw [nameToken, if_neg hdollar] at hname
    exact tokens_mark (by decide) hname
  written d e ts s hd h := ⟨d, hd, .member s h⟩
  leads scope e v? s hs h := h.member hs

/-- A path from a root in some style. -/
def Style.source (style : Style) (r : Root) (segments : List String) : String :=
  String.ofList (r.name.toList ++ segments.flatMap style.text)

/-- The tree of such a path. -/
def Style.expr (style : Style) (r : Root) (segments : List String) : Expr :=
  segments.foldl style.tree (.root r)

section

variable {style : Style} {names : String → Prop} {segments : List String}

theorem Style.Follows.lexed_all (h : style.Follows names) (hnames : ∀ s ∈ segments, names s) :
    EndsWord (segments.flatMap style.text) ∧
      Expr.tokens (segments.flatMap style.text) = .ok (segments.flatMap style.tokens) := by
  induction segments with
  | nil => exact ⟨endsWord_nil, by rw [List.flatMap_nil, Expr.tokens]; rfl⟩
  | cons s segments ih =>
      obtain ⟨hend, htokens⟩ := ih fun s hs => hnames s (List.mem_cons_of_mem _ hs)
      exact ⟨h.ends s _, h.lexed s _ _ (hnames s List.mem_cons_self) hend htokens⟩

theorem Style.Follows.written_all (h : style.Follows names) {d : Nat} {e : Expr}
    {ts : List Token} (hd : d ≤ 1) (hwritten : Written .access d e ts) :
    ∃ d' ≤ 1, Written .access d' (segments.foldl style.tree e)
      (ts ++ segments.flatMap style.tokens) := by
  induction segments generalizing d e ts with
  | nil => exact ⟨d, hd, by simpa using hwritten⟩
  | cons s segments ih =>
      obtain ⟨d', hd', hstep⟩ := h.written d e ts s hd hwritten
      obtain ⟨d'', hd'', hall⟩ := ih hd' hstep
      exact ⟨d'', hd'', by simpa using hall⟩

theorem Style.Follows.leads_all (h : style.Follows names) {scope : Scope} {e : Expr}
    {v? : Option Json} (hlength : ∀ s ∈ segments, s ≠ "length") (hleads : Leads scope e v?) :
    Leads scope (segments.foldl style.tree e) (v?.bind (Json.walk segments)) := by
  induction segments generalizing e v? with
  | nil =>
      cases v? <;> exact hleads
  | cons s segments ih =>
      have hstep := h.leads scope e v? s (hlength s List.mem_cons_self) hleads
      have hrest := ih (fun s hs => hlength s (List.mem_cons_of_mem _ hs)) hstep
      rw [Option.bind_assoc] at hrest
      exact hrest

theorem tokens_root (r : Root) {rest : List Char} {ts : List Token} (hend : EndsWord rest)
    (hrest : Expr.tokens rest = .ok ts) :
    Expr.tokens (r.name.toList ++ rest) = .ok (.word r.name :: ts) := by
  have hname : ∃ c cs, r.name.toList = c :: cs ∧ isWordStart c = true ∧ c ≠ '$' ∧
      ∀ d ∈ cs, isWordChar d = true := by
    cases r <;> exact ⟨_, _, rfl, by decide, by decide, List.all_eq_true.mp (by decide)⟩
  obtain ⟨c, cs, htoList, hstart, hdollar, hword⟩ := hname
  have hread := tokens_name htoList hstart hword hend hrest
  rwa [nameToken, if_neg hdollar] at hread

/-- An expression in such a style has the value to which the path leads. -/
theorem Style.Follows.evaluate (h : style.Follows names) (scope : Scope) (r : Root)
    (hplain : ∀ s ∈ segments, Plain s) (hnames : ∀ s ∈ segments, names s)
    (hlength : (style.source r segments).utf8ByteSize ≤ maxLength) :
    Expr.evaluate scope (style.source r segments) =
      .ok (.ofOption ((scope.root r).walk segments)) := by
  obtain ⟨hend, hlexed⟩ := h.lexed_all hnames
  have htokens : Expr.tokens (style.source r segments).toList =
      .ok (.word r.name :: segments.flatMap style.tokens) := by
    rw [source, String.toList_ofList]
    exact tokens_root r hend hlexed
  obtain ⟨d, hd, hwritten⟩ := h.written_all (Nat.zero_le 1) (.primary (.root r))
  obtain ⟨p, hp, hshows⟩ :=
    h.leads_all (fun s hs => (hplain s hs).notLength) (leads_root scope r)
  have hvalue := evaluate_of_written hlength htokens hwritten (by unfold maxDepth; omega) hp
  rw [hvalue, hshows.toJson]
  rfl

end

/-! ### A path as an argument -/

/-- The call of the helper that follows a path. -/
def callSource (r : Root) (segments : List String) : String :=
  String.ofList (Helper.get.name.toList ++ '(' ::
    (r.name.toList ++ ',' :: ' ' :: (quotedBy '\'' (".".intercalate segments) ++ [')'])))

def callExpr (r : Root) (segments : List String) : Expr :=
  .call .get [.root r, .literal (.str (".".intercalate segments))]

section

variable {scope : Scope} {r : Root} {segments : List String}

theorem tokens_callSource (r : Root) (segments : List String) :
    Expr.tokens (callSource r segments).toList =
      .ok [.helper "$get", .mark .openParen, .word r.name, .mark .comma,
        .quoted (".".intercalate segments), .mark .closeParen] := by
  have hnil : Expr.tokens [] = .ok [] := by rw [Expr.tokens]
  have hclose := tokens_mark (c := ')') (m := .closeParen) (by decide) hnil
  have hquote : '\'' ∈ ['"', '\''] := by decide
  have hpath := tokens_quotedBy hquote (".".intercalate segments) hclose
  rw [← tokens_blank (c := ' ') (by decide)] at hpath
  have hcomma := tokens_mark (c := ',') (m := .comma) (by decide) hpath
  have hroot := tokens_root r (endsWord_cons (by decide)) hcomma
  have hopen := tokens_mark (c := '(') (m := .openParen) (by decide) hroot
  have hget : Helper.get.name.toList = ['$', 'g', 'e', 't'] := rfl
  have hword : ∀ d ∈ ['g', 'e', 't'], isWordChar d = true := List.all_eq_true.mp (by decide)
  have hhelper := tokens_name hget (by decide) hword (endsWord_cons (by decide)) hopen
  rw [callSource, String.toList_ofList]
  exact hhelper

theorem written_callExpr (r : Root) (segments : List String) :
    Written .access 1 (callExpr r segments)
      [.helper "$get", .mark .openParen, .word r.name, .mark .comma,
        .quoted (".".intercalate segments), .mark .closeParen] := by
  let parts : List Part :=
    [⟨1, .root r, [.word r.name]⟩,
      ⟨1, .literal (.str (".".intercalate segments)), [.quoted (".".intercalate segments)]⟩]
  have hparts : ∀ part ∈ parts, Written .whole part.depth part.tree part.tokens := by
    have hroot := Written.toWhole (.primary (.root r))
    have hpath := Written.toWhole (.primary (.quoted (".".intercalate segments)))
    simpa [parts] using ⟨hroot, hpath⟩
  exact .primary (.call .get parts ⟨le_rfl, Nat.le_succ 2⟩ hparts)

theorem place_callExpr (scope : Scope) (r : Root) (hne : segments ≠ [])
    (hplain : ∀ s ∈ segments, Plain s) :
    place scope (callExpr r segments) =
      .ok (.computed (.ofOption ((scope.root r).walk segments))) := by
  have hsplit : (Text.splitAt '.' (".".intercalate segments)).filter (fun s => !s.isEmpty) =
      segments := by
    rw [Text.splitAt_intercalate rfl hne fun s hs => (hplain s hs).undotted, List.filter_eq_self]
    intro s hs
    simpa using (hplain s hs).nonempty
  -- A value that is null gives way to the default, which is null as well.
  have hget : getOr (scope.root r) (.str (".".intercalate segments)) .null =
      .ofOption ((scope.root r).walk segments) := by
    rw [getOr]
    simp only [Json.display, hsplit]
    split
    · next h => rw [h]; rfl
    · next h => rw [h]; rfl
    · next h => rw [h]; rfl
  have hroot : (Place.ofRoot scope r).toJson = scope.root r := by cases r <;> rfl
  rw [← hget, ← hroot]
  rfl

/-- The resolver, the expression that takes the steps of a path in brackets, the one that takes them
behind dots, and the helper that is given the path come to the same value; where there is none, the
expressions have null. -/
theorem path_walkers_agree (scope : Scope) (r : Root) (hne : segments ≠ [])
    (hplain : ∀ s ∈ segments, Plain s) :
    ((Style.bracketed.source r segments).utf8ByteSize ≤ maxLength →
        evaluate scope (Style.bracketed.source r segments) =
          .ok (.ofOption (scope.resolve (r.path segments)))) ∧
      ((∀ s ∈ segments, IsIdentifier s) → (r.path segments).utf8ByteSize ≤ maxLength →
        evaluate scope (r.path segments) = .ok (.ofOption (scope.resolve (r.path segments)))) ∧
      ((callSource r segments).utf8ByteSize ≤ maxLength →
        evaluate scope (callSource r segments) =
          .ok (.ofOption (scope.resolve (r.path segments)))) := by
  rw [scope.resolve_path hne hplain]
  refine ⟨fun hlength => ?_, fun hnames hlength => ?_, fun hlength => ?_⟩
  · exact bracketed_follows.evaluate scope r hplain (fun _ _ => trivial) hlength
  · have hdotted : r.path segments = Style.dotted.source r segments := by
      rw [Style.source, ← String.ofList_toList (s := r.path segments), r.toList_path]
      rfl
    rw [hdotted] at hlength ⊢
    exact dotted_follows.evaluate scope r hplain hnames hlength
  · exact evaluate_of_written hlength (tokens_callSource r segments)
      (written_callExpr r segments) (by decide) (place_callExpr scope r hne hplain)

/-- A trigger with an item that has a number. -/
def purchase : Scope :=
  ⟨.obj [("item", .obj [("sku", .str "A")])], [], [], ⟨0, 0⟩⟩

theorem path_walkers_agree_on_sku :
    evaluate purchase "trigger['item']['sku']" = .ok (.str "A") ∧
      evaluate purchase "trigger.item.sku" = .ok (.str "A") ∧
      evaluate purchase "$get(trigger, 'item.sku')" = .ok (.str "A") := by
  have hplain : ∀ s ∈ ["item", "sku"], Plain s := by
    intro s hs
    rcases List.mem_pair.mp hs with rfl | rfl <;>
      exact ⟨by decide, by decide, by decide, by decide⟩
  have hnames : ∀ s ∈ ["item", "sku"], IsIdentifier s := by
    intro s hs
    rcases List.mem_pair.mp hs with rfl | rfl <;>
      exact ⟨_, _, rfl, by decide, by decide, List.all_eq_true.mp (by decide)⟩
  obtain ⟨hbracketed, hdotted, hcall⟩ :=
    path_walkers_agree purchase .trigger (List.cons_ne_nil "item" ["sku"]) hplain
  exact ⟨hbracketed (by decide), hdotted hnames (by decide), hcall (by decide)⟩

end

end Expr

end Workflow
