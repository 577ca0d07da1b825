import Mathlib.Data.List.Chain
import Workflow.Proofs.Text.Parts
import Workflow.Text.Slug

/-!
# The form of slugs

A slug is made of runs of small letters and digits, joined by single hyphens.  Its letters and
digits are those of the name in small form, two of them with a hyphen between them exactly if
something else stood between them in the name, and a slug is its own slug.

While a name is gone through, no two hyphens are written next to each other, and what is written
stays; the hyphens at the two ends are taken off at last.
-/

namespace Workflow.Text

variable {c d : Char} {cs gap written front mid back before after : List Char}
  {runs : List (List Char)}

/-! ### Characters -/

/-- A small ASCII letter or a digit. -/
def IsSmall (c : Char) : Prop := c.isLower = true ∨ c.isDigit = true

instance (c : Char) : Decidable (IsSmall c) := inferInstanceAs (Decidable (_ ∨ _))

/-- What holds of each letter and digit can be read off the table of ASCII characters. -/
theorem forall_alphanum {p : Char → Prop}
    (htable : ∀ n ∈ List.range 123, (Char.ofNat n).isAlphanum = true → p (Char.ofNat n))
    (h : c.isAlphanum = true) : p c := by
  have hlt : c.toNat < 123 := by
    have hranges := h
    unfold Char.isAlphanum Char.isAlpha Char.isUpper Char.isLower Char.isDigit at hranges
    simp only [Bool.or_eq_true, Bool.and_eq_true, decide_eq_true_eq, UInt32.le_iff_toNat_le,
      ge_iff_le] at hranges
    change ((65 ≤ c.toNat ∧ c.toNat ≤ 90) ∨ (97 ≤ c.toNat ∧ c.toNat ≤ 122)) ∨
      (48 ≤ c.toNat ∧ c.toNat ≤ 57) at hranges
    omega
  have hc := htable c.toNat (List.mem_range.mpr hlt)
  rw [Char.ofNat_toNat] at hc
  exact hc h

theorem isSmall_toLower (h : c.isAlphanum = true) : IsSmall c.toLower :=
  forall_alphanum (p := fun c => IsSmall c.toLower) (by decide +kernel) h

theorem IsSmall.isAlphanum (h : IsSmall c) : c.isAlphanum = true := by
  change (c.isUpper || c.isLower || c.isDigit) = true
  rcases h with h | h <;> simp [h]

theorem IsSmall.toLower_eq (h : IsSmall c) : c.toLower = c :=
  forall_alphanum (p := fun c => IsSmall c → c.toLower = c) (by decide +kernel) h.isAlphanum h

theorem IsSmall.ne_hyphen (h : IsSmall c) : c ≠ '-' := by
  rintro rfl
  revert h
  decide

/-- The letters and digits of a text, in small form. -/
def letters (cs : List Char) : List Char := (cs.filter Char.isAlphanum).map Char.toLower

theorem letters_cons : letters (c :: cs) = letters [c] ++ letters cs := by
  rw [letters, ← List.singleton_append, List.filter_append, List.map_append]
  rfl

/-! ### Going through a name -/

theorem slugStep_kept (h : c.isAlphanum = true) : slugStep written c = c.toLower :: written :=
  if_pos h

theorem slugStep_left (h : c.isAlphanum = false) :
    slugStep written c = if written.head? = some '-' then written else '-' :: written := by
  rw [slugStep, isSlugChar, h]
  rfl

/-- A text of small letters, digits and hyphens that do not stand next to each other. -/
structure Tidy (cs : List Char) : Prop where
  small : ∀ c ∈ cs, IsSmall c ∨ c = '-'
  single : cs.IsChain fun a b => a ≠ '-' ∨ b ≠ '-'

theorem tidy_nil : Tidy [] := ⟨nofun, .nil⟩

theorem tidy_cons :
    Tidy (c :: cs) ↔
      (IsSmall c ∨ c = '-') ∧ (c = '-' → cs.head? ≠ some '-') ∧ Tidy cs := by
  constructor
  · rintro ⟨hsmall, hsingle⟩
    obtain ⟨hc, hcs⟩ := List.forall_mem_cons.mp hsmall
    obtain ⟨hhead, htail⟩ := List.isChain_cons.mp hsingle
    refine ⟨hc, fun hhyphen hnext => ?_, hcs, htail⟩
    exact (hhead '-' hnext).elim (absurd hhyphen) (absurd rfl)
  · rintro ⟨hc, hhead, hcs, htail⟩
    refine ⟨List.forall_mem_cons.mpr ⟨hc, hcs⟩, List.isChain_cons.mpr ⟨fun b hb => ?_, htail⟩⟩
    by_cases hhyphen : c = '-'
    · exact .inr fun heq => hhead hhyphen (heq ▸ hb)
    · exact .inl hhyphen

theorem Tidy.reverse (h : Tidy cs) : Tidy cs.reverse :=
  ⟨fun c hc => h.small c (List.mem_reverse.mp hc),
    List.isChain_reverse.mpr (h.single.imp fun _ _ => Or.symm)⟩

theorem Tidy.part (h : Tidy cs) (hpart : mid <:+: cs) : Tidy mid := by
  refine ⟨fun c hc => h.small c (hpart.subset hc), ?_⟩
  obtain ⟨front, back, rfl⟩ := hpart
  exact h.single.left_of_append.right_of_append

theorem Tidy.slugStep (h : Tidy written) : Tidy (slugStep written c) := by
  cases hc : c.isAlphanum with
  | true =>
      have hsmall := isSmall_toLower hc
      rw [slugStep_kept hc]
      exact tidy_cons.mpr ⟨.inl hsmall, fun hhyphen => absurd hhyphen hsmall.ne_hyphen, h⟩
  | false =>
      rw [slugStep_left hc]
      split
      · exact h
      · next hhead => exact tidy_cons.mpr ⟨.inr rfl, fun _ => hhead, h⟩

theorem Tidy.foldl_slugStep (h : Tidy written) : Tidy (cs.foldl Text.slugStep written) := by
  induction cs generalizing written with
  | nil => exact h
  | cons c cs ih => exact ih h.slugStep

theorem letters_slugStep :
    (slugStep written c).reverse.filter Char.isAlphanum =
      written.reverse.filter Char.isAlphanum ++ letters [c] := by
  cases hc : c.isAlphanum with
  | true =>
      have hkept : c.toLower.isAlphanum = true := (isSmall_toLower hc).isAlphanum
      rw [slugStep_kept hc, List.reverse_cons, List.filter_append]
      simp [letters, hc, hkept]
  | false =>
      have hhyphen : Char.isAlphanum '-' = false := rfl
      rw [slugStep_left hc]
      split <;> simp [letters, hc, hhyphen]

/-- What is written for the characters of a text are its letters and digits, but for hyphens. -/
theorem letters_foldl_slugStep :
    (cs.foldl slugStep written).reverse.filter Char.isAlphanum =
      written.reverse.filter Char.isAlphanum ++ letters cs := by
  induction cs generalizing written with
  | nil => exact (List.append_nil _).symm
  | cons c cs ih => rw [List.foldl_cons, ih, letters_slugStep, List.append_assoc, ← letters_cons]

/-- What was written stays. -/
theorem suffix_foldl_slugStep : written <:+ cs.foldl slugStep written := by
  induction cs generalizing written with
  | nil => exact List.suffix_refl _
  | cons c cs ih =>
      have hstep : written <:+ slugStep written c := by
        rw [slugStep]
        split
        · exact List.suffix_cons _ _
        · split
          · exact List.suffix_refl _
          · exact List.suffix_cons _ _
      exact hstep.trans ih

/-- A single hyphen is written for a gap, however long it is. -/
theorem foldl_slugStep_gap (hc : c ≠ '-') (hgap : ∀ x ∈ gap, x.isAlphanum = false) :
    gap.foldl slugStep (c :: written) = (if gap = [] then [] else ['-']) ++ c :: written := by
  have hwritten (gap : List Char) (hgap : ∀ x ∈ gap, x.isAlphanum = false) :
      gap.foldl slugStep ('-' :: c :: written) = '-' :: c :: written := by
    induction gap with
    | nil => rfl
    | cons x gap ih =>
        obtain ⟨hx, hrest⟩ := List.forall_mem_cons.mp hgap
        rw [List.foldl_cons, slugStep_left hx, if_pos List.head?_cons, ih hrest]
  cases gap with
  | nil => rfl
  | cons x gap =>
      obtain ⟨hx, hrest⟩ := List.forall_mem_cons.mp hgap
      have hhead : (c :: written).head? ≠ some '-' := fun h => hc (Option.some.inj h)
      rw [List.foldl_cons, slugStep_left hx, if_neg hhead, hwritten gap hrest,
        if_neg (List.cons_ne_nil x gap)]
      rfl

/-- A tidy text is written as it is. -/
theorem foldl_slugStep_tidy (h : Tidy (cs.reverse ++ written)) :
    cs.foldl slugStep written = cs.reverse ++ written := by
  induction cs generalizing written with
  | nil => rfl
  | cons c cs ih =>
      rw [List.reverse_cons, List.append_assoc, List.singleton_append] at h ⊢
      obtain ⟨hc, hhead, -⟩ := tidy_cons.mp (h.part (List.suffix_append _ _).isInfix)
      have hstep : slugStep written c = c :: written := by
        rcases hc with hsmall | rfl
        · rw [slugStep_kept hsmall.isAlphanum, hsmall.toLower_eq]
        · rw [slugStep_left (c := '-') rfl, if_neg (hhead rfl)]
      rw [List.foldl_cons, hstep, ih h]

/-! ### Ends -/

/-- A text with no hyphen at its ends. -/
structure Bare (cs : List Char) : Prop where
  first : ∀ c ∈ cs.head?, c ≠ '-'
  last : ∀ c ∈ cs.getLast?, c ≠ '-'

theorem Bare.reverse (h : Bare cs) : Bare cs.reverse :=
  ⟨fun c hc => h.last c (by rwa [List.head?_reverse] at hc),
    fun c hc => h.first c (by rwa [List.getLast?_reverse] at hc)⟩

theorem bare_between (hc : c ≠ '-') (hd : d ≠ '-') : Bare (c :: (mid ++ [d])) := by
  refine ⟨fun x hx => ?_, fun x hx => ?_⟩
  · cases hx
    exact hc
  · rw [← List.cons_append, List.getLast?_concat] at hx
    cases hx
    exact hd

theorem dropWhile_hyphen_eq_self (h : ∀ c ∈ cs.head?, c ≠ '-') :
    cs.dropWhile (· == '-') = cs :=
  dropWhile_eq_self.mpr fun c hc => beq_eq_false_iff_ne.mpr (h c hc)

theorem dropWhile_hyphen_head (cs : List Char) :
    ∀ c ∈ (cs.dropWhile (· == '-')).head?, c ≠ '-' := by
  intro c hc
  have hhead := List.head?_dropWhile_not (· == '-') cs
  rw [Option.mem_def.mp hc] at hhead
  exact beq_eq_false_iff_ne.mp hhead

theorem filter_dropWhile_hyphen :
    (cs.dropWhile (· == '-')).filter Char.isAlphanum = cs.filter Char.isAlphanum := by
  induction cs with
  | nil => rfl
  | cons c cs ih =>
      rw [List.dropWhile_cons]
      split
      · next hc =>
        obtain rfl : c = '-' := beq_iff_eq.mp hc
        exact ih
      · rfl

theorem trimHyphens_isPrefix (cs : List Char) : trimHyphens cs <+: cs.dropWhile (· == '-') := by
  have hback := List.dropWhile_suffix (· == '-') (l := (cs.dropWhile (· == '-')).reverse)
  rwa [← List.reverse_prefix, List.reverse_reverse] at hback

theorem trimHyphens_isInfix : trimHyphens cs <:+: cs :=
  (trimHyphens_isPrefix cs).isInfix.trans (List.dropWhile_suffix _).isInfix

theorem trimHyphens_bare : Bare (trimHyphens cs) := by
  constructor
  · intro c hc
    obtain ⟨rest, hrest⟩ := trimHyphens_isPrefix cs
    apply dropWhile_hyphen_head cs c
    rw [← hrest]
    exact List.mem_head?_append_of_mem_head? hc
  · intro c hc
    rw [trimHyphens, List.getLast?_reverse] at hc
    exact dropWhile_hyphen_head _ c hc

theorem dropWhile_hyphen_append (h : ∀ c ∈ cs.head?, c ≠ '-') :
    (front ++ cs).dropWhile (· == '-') = front.dropWhile (· == '-') ++ cs := by
  rw [List.dropWhile_append, dropWhile_hyphen_eq_self h]
  split
  · next hempty => rw [List.isEmpty_iff.mp hempty, List.nil_append]
  · rfl

/-- Around a text with no hyphen at its ends, nothing but hyphens is taken off. -/
theorem trimHyphens_append (front back : List Char) (h : Bare mid) (hne : mid ≠ []) :
    ∃ front' back', trimHyphens (front ++ mid ++ back) = front' ++ mid ++ back' ∧
      front'.filter Char.isAlphanum = front.filter Char.isAlphanum ∧
      back'.filter Char.isAlphanum = back.filter Char.isAlphanum := by
  have hfirst : ∀ c ∈ (mid ++ back).head?, c ≠ '-' := by
    rw [List.head?_append_of_ne_nil _ hne]
    exact h.first
  have hlast : ∀ c ∈ (front.dropWhile (· == '-') ++ mid).reverse.head?, c ≠ '-' := by
    rw [List.head?_reverse, List.getLast?_append_of_ne_nil _ hne]
    exact h.last
  refine ⟨front.dropWhile (· == '-'), (back.reverse.dropWhile (· == '-')).reverse, ?_,
    filter_dropWhile_hyphen, ?_⟩
  · rw [trimHyphens, List.append_assoc, dropWhile_hyphen_append hfirst, ← List.append_assoc,
      List.reverse_append, dropWhile_hyphen_append hlast, List.reverse_append,
      List.reverse_reverse]
  · rw [List.filter_reverse, filter_dropWhile_hyphen, List.filter_reverse, List.reverse_reverse]

theorem trimHyphens_eq_self (h : Bare cs) : trimHyphens cs = cs := by
  rw [trimHyphens, dropWhile_hyphen_eq_self h.first, dropWhile_hyphen_eq_self h.reverse.first,
    List.reverse_reverse]

theorem filter_trimHyphens :
    (trimHyphens cs).filter Char.isAlphanum = cs.filter Char.isAlphanum := by
  rw [trimHyphens, List.filter_reverse, filter_dropWhile_hyphen, List.filter_reverse,
    filter_dropWhile_hyphen, List.reverse_reverse]

/-! ### Runs -/

/-- A text made of runs of small letters and digits, joined by single hyphens. -/
structure Joins (runs : List (List Char)) (cs : List Char) : Prop where
  text : cs = ['-'].intercalate runs
  small : ∀ run ∈ runs, run ≠ [] ∧ ∀ c ∈ run, IsSmall c

theorem joins_nil : Joins [] [] := ⟨rfl, nofun⟩

/-- A letter in front of a text goes to its first run. -/
theorem Joins.cons (h : Joins runs cs) (hc : IsSmall c) :
    ∃ runs', Joins runs' (c :: cs) := by
  obtain ⟨rfl, hsmall⟩ := h
  cases runs with
  | nil => exact ⟨[[c]], rfl, by simpa using hc⟩
  | cons run runs =>
      obtain ⟨⟨-, hrun⟩, hruns⟩ := List.forall_mem_cons.mp hsmall
      have hfirst : ∀ d ∈ c :: run, IsSmall d := List.forall_mem_cons.mpr ⟨hc, hrun⟩
      refine ⟨(c :: run) :: runs, ?_,
        List.forall_mem_cons.mpr ⟨⟨List.cons_ne_nil c run, hfirst⟩, hruns⟩⟩
      rw [intercalate_cons, intercalate_cons, List.cons_append]

/-- Before a hyphen, a letter is a run of its own. -/
theorem Joins.cons_hyphen (h : Joins runs cs) (hne : runs ≠ []) (hc : IsSmall c) :
    Joins ([c] :: runs) (c :: '-' :: cs) := by
  obtain ⟨rfl, hsmall⟩ := h
  refine ⟨?_, List.forall_mem_cons.mpr ⟨⟨List.cons_ne_nil c [], ?_⟩, hsmall⟩⟩
  · rw [List.intercalate_cons_of_ne_nil hne]
    rfl
  · exact List.forall_mem_singleton.mpr hc

/-- A tidy text that does not end in a hyphen is made of runs, up to a hyphen in front of them. -/
theorem Tidy.exists_runs (h : Tidy cs) (hlast : ∀ c ∈ cs.getLast?, c ≠ '-') :
    ∃ runs rest, Joins runs rest ∧ (cs = rest ∨ runs ≠ [] ∧ cs = '-' :: rest) := by
  induction cs with
  | nil => exact ⟨[], [], joins_nil, .inl rfl⟩
  | cons c cs ih =>
      obtain ⟨hc, hhead, hcs⟩ := tidy_cons.mp h
      have hlast' : ∀ d ∈ cs.getLast?, d ≠ '-' := by
        intro d hd
        apply hlast
        rw [List.getLast?_cons, Option.mem_def.mp hd]
        rfl
      obtain ⟨runs, rest, hruns, hrest⟩ := ih hcs hlast'
      -- A hyphen is held back for the letter before it.
      rcases hc with hc | rfl
      · rcases hrest with rfl | ⟨hne, rfl⟩
        · obtain ⟨runs', hruns'⟩ := hruns.cons hc
          exact ⟨runs', _, hruns', .inl rfl⟩
        · exact ⟨[c] :: runs, _, hruns.cons_hyphen hne hc, .inl rfl⟩
      · rcases hrest with rfl | ⟨-, rfl⟩
        · refine ⟨runs, _, hruns, .inr ⟨?_, rfl⟩⟩
          rintro rfl
          obtain ⟨rfl, -⟩ := hruns
          exact hlast '-' rfl rfl
        · exact absurd rfl (hhead rfl)

/-! ### Slugs -/

theorem tidy_slugChars : Tidy (slugChars cs) :=
  (tidy_nil.foldl_slugStep.reverse).part trimHyphens_isInfix

theorem bare_slugChars : Bare (slugChars cs) := trimHyphens_bare

theorem slugChars_eq_self (h : Tidy cs) (hbare : Bare cs) : slugChars cs = cs := by
  rw [slugChars, foldl_slugStep_tidy (by rw [List.append_nil]; exact h.reverse), List.append_nil,
    List.reverse_reverse, trimHyphens_eq_self hbare]

theorem letters_slugChars : (slugChars cs).filter Char.isAlphanum = letters cs := by
  rw [slugChars, filter_trimHyphens, letters_foldl_slugStep]
  rfl

theorem joins_slugChars : ∃ runs, Joins runs (slugChars cs) := by
  obtain ⟨runs, rest, hruns, hrest | ⟨-, hrest⟩⟩ := tidy_slugChars.exists_runs bare_slugChars.last
  · exact ⟨runs, hrest ▸ hruns⟩
  · exact absurd rfl (bare_slugChars.first '-' (by rw [hrest]; rfl))

/-- Two letters or digits of a text, with nothing but other characters in the gap between them. -/
structure Neighbours (cs before : List Char) (c : Char) (gap : List Char) (d : Char)
    (after : List Char) : Prop where
  text : cs = before ++ c :: (gap ++ d :: after)
  left : c.isAlphanum = true
  right : d.isAlphanum = true
  other : ∀ x ∈ gap, x.isAlphanum = false

/-- Neighbours are written next to each other, with a hyphen between them for a gap. -/
theorem Neighbours.exists_written (h : Neighbours cs before c gap d after) :
    ∃ front back,
      (cs.foldl slugStep []).reverse =
        front ++ (c.toLower :: ((if gap = [] then [] else ['-']) ++ [d.toLower])) ++ back ∧
      front.filter Char.isAlphanum = letters before ∧
      back.filter Char.isAlphanum = letters after := by
  have hc := isSmall_toLower h.left
  set hyphen : List Char := if gap = [] then [] else ['-'] with hhyphen
  have hreverse : hyphen.reverse = hyphen := by
    rw [hhyphen]
    split <;> rfl
  let written := before.foldl slugStep []
  let met := d.toLower :: (hyphen ++ c.toLower :: written)
  -- What is written up to the second of the two stays, and is followed by what is written after.
  obtain ⟨rest, hrest⟩ : met <:+ after.foldl slugStep met := suffix_foldl_slugStep
  have hfold : cs.foldl slugStep [] = rest ++ met := by
    rw [h.text, List.foldl_append, List.foldl_cons, slugStep_kept h.left, List.foldl_append,
      foldl_slugStep_gap hc.ne_hyphen h.other, List.foldl_cons, slugStep_kept h.right, hrest]
  refine ⟨written.reverse, rest.reverse, ?_, letters_foldl_slugStep, ?_⟩
  · simp [hfold, met, hreverse]
  · have hafter : (after.foldl slugStep met).reverse.filter Char.isAlphanum =
        met.reverse.filter Char.isAlphanum ++ letters after := letters_foldl_slugStep
    rw [← hrest, List.reverse_append, List.filter_append] at hafter
    exact List.append_cancel_left hafter

/-- Neighbours of a name are neighbours of its slug, with a hyphen between them for a gap. -/
theorem Neighbours.slugChars (h : Neighbours cs before c gap d after) :
    ∃ front back,
      Neighbours (slugChars cs) front c.toLower (if gap = [] then [] else ['-']) d.toLower back ∧
      front.filter Char.isAlphanum = letters before ∧
      back.filter Char.isAlphanum = letters after := by
  have hc := isSmall_toLower h.left
  have hd := isSmall_toLower h.right
  obtain ⟨front, back, hwritten, hfront, hback⟩ := h.exists_written
  obtain ⟨front', back', htrim, hfront', hback'⟩ :=
    trimHyphens_append front back (bare_between hc.ne_hyphen hd.ne_hyphen) (List.cons_ne_nil _ _)
  refine ⟨front', back', ⟨?_, hc.isAlphanum, hd.isAlphanum, fun x hx => ?_⟩,
    hfront'.trans hfront, hback'.trans hback⟩
  · rw [Text.slugChars, hwritten, htrim, List.append_assoc, List.cons_append, List.append_assoc,
      List.singleton_append]
  · have hhyphen : x = '-' := by
      revert hx
      split <;> simp
    rw [hhyphen]
    rfl

/-- A slug is made of runs of small letters and digits, joined by single hyphens.  Its letters and
digits are those of the name in small form and in order, two of them with a hyphen between them
exactly if something else separates them in the name, and it is its own slug. -/
theorem slug_canonical (name : String) :
    (∃ runs, Joins runs (slug name).toList) ∧
    (slug name).toList.filter Char.isAlphanum = letters name.toList ∧
    (∀ before c gap d after, Neighbours name.toList before c gap d after → ∃ front back,
      Neighbours (slug name).toList front c.toLower (if gap = [] then [] else ['-']) d.toLower
        back ∧
      front.filter Char.isAlphanum = letters before ∧
      back.filter Char.isAlphanum = letters after) ∧
    slug (slug name) = slug name := by
  have htext : (slug name).toList = slugChars name.toList := String.toList_ofList
  rw [htext]
  refine ⟨joins_slugChars, letters_slugChars, fun _ _ _ _ _ h => h.slugChars, ?_⟩
  rw [slug, htext, slugChars_eq_self tidy_slugChars bare_slugChars]
  rfl

/-- A gap of several characters between two words. -/
theorem slug_canonical_order :
    Neighbours "Order -- Nº 7".toList "Orde".toList 'r' " -- ".toList 'N' "º 7".toList ∧
    slug "Order -- Nº 7" = "order-n-7" ∧
    ∃ front back, Neighbours "order-n-7".toList front 'r' ['-'] 'n' back ∧
      front.filter Char.isAlphanum = "orde".toList ∧ back.filter Char.isAlphanum = ['7'] := by
  have hname : Neighbours "Order -- Nº 7".toList "Orde".toList 'r' " -- ".toList 'N'
      "º 7".toList := ⟨by decide, by decide, by decide, by simp⟩
  have hslug : slug "Order -- Nº 7" = "order-n-7" := by decide
  obtain ⟨-, -, hneighbours, -⟩ := slug_canonical "Order -- Nº 7"
  rw [hslug] at hneighbours
  exact ⟨hname, hslug, hneighbours _ _ _ _ _ hname⟩

end Workflow.Text
