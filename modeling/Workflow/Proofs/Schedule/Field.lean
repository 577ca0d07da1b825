import Mathlib.Algebra.Order.Ring.Nat
import Workflow.Proofs.Except
import Workflow.Proofs.Text.Parts
import Workflow.Schedule.Cron

/-!
# Fields of cron expressions

A plain field is a list of stars, numbers, ranges and steps.  What a field that is accepted asks for
is said by its items alone: a number asks for itself, a range for what lies between its ends, and a
step for every so many of these.
-/

namespace Workflow.Cron

/-! ### Numerals -/

/-- The characters of plain fields. -/
def plainChars : List Char := "0123456789*,-/".toList

theorem mem_plainChars {c : Char} (h : c.isDigit = true) : c ∈ plainChars := by
  have hdigits : ∀ d ∈ Text.digits, d ∈ plainChars := Text.forall_of_all (by decide)
  exact hdigits c (Text.mem_digits h)

theorem plainChars_spec : ∀ c ∈ plainChars,
    Text.isBlank c = false ∧ Text.isCaseless c.toNat = true ∧ c.isAlpha = false ∧ c ≠ '#' ∧
      c ≠ '?' :=
  Text.forall_of_all (by decide +kernel)

/-- A number as it is written: at least one digit. -/
structure Numeral where
  digits : List Char
  nonempty : digits ≠ []
  areDigits : ∀ c ∈ digits, c.isDigit = true

namespace Numeral

def value (n : Numeral) : Nat := n.digits.foldl (fun n d => 10 * n + (d.toNat - '0'.toNat)) 0

theorem notMem {c : Char} (n : Numeral) (hc : c.isDigit = false) : c ∉ n.digits := by
  intro hmem
  rw [n.areDigits c hmem] at hc
  cases hc

theorem number?_text (n : Numeral) :
    number? (String.ofList n.digits) = if n.value < 256 then some n.value else none := by
  obtain ⟨digits, hne, hdigits⟩ := n
  cases digits with
  | nil => exact absurd rfl hne
  | cons c rest =>
      have hplus : c ≠ '+' := by
        rintro rfl
        exact absurd (hdigits '+' List.mem_cons_self) (by decide)
      have hall : (c :: rest).all Char.isDigit = true := List.all_eq_true.mpr hdigits
      simp only [number?, String.toList_ofList]
      split
      · next h => exact absurd (List.cons.inj h).1 hplus
      · simp [hall, value]

theorem number_eq_ok {n : Numeral} {e : FieldError} {v : Nat}
    (h : number (String.ofList n.digits) e = .ok v) : v = n.value := by
  rw [number, number?_text] at h
  split at h
  · next m hm =>
    split at hm
    · cases h
      exact (Option.some.inj hm).symm
    · cases hm
  · cases h

theorem unmarked_text (n : Numeral) :
    unmarked (String.ofList n.digits) = String.ofList n.digits := by
  rw [unmarked, Text.splitAt_of_notMem (by simpa using n.notMem (by decide))]
  rfl

theorem trim_text (n : Numeral) :
    Text.trim (String.ofList n.digits) = String.ofList n.digits := by
  refine Text.trim_eq_self fun c hc => ?_
  rw [String.toList_ofList] at hc
  exact (plainChars_spec c (mem_plainChars (n.areDigits c hc))).1

end Numeral

/-! ### Items -/

/-- An item of a plain field. -/
inductive Item where
  | star
  | single (n : Numeral)
  | range (first last : Numeral)
  | everyNth (step : Numeral)
  | rangeNth (first last step : Numeral)

namespace Item

def chars : Item → List Char
  | .star => ['*']
  | .single n => n.digits
  | .range a b => a.digits ++ '-' :: b.digits
  | .everyNth s => '*' :: '/' :: s.digits
  | .rangeNth a b s => a.digits ++ '-' :: (b.digits ++ '/' :: s.digits)

def text (i : Item) : String := String.ofList i.chars

/-- Whether an item asks for a value of a field.  Steps of a star are counted from the least value
of the field. -/
def Admits (k : FieldKind) (v : Nat) : Item → Prop
  | .star => True
  | .single n => v = n.value
  | .range a b => a.value ≤ v ∧ v ≤ b.value
  | .everyNth s => s.value ∣ v - k.least
  | .rangeNth a b s => (a.value ≤ v ∧ v ≤ b.value) ∧ s.value ∣ v - a.value

theorem mem_chars {i : Item} {c : Char} (hc : c ∈ i.chars) :
    c ∈ ['*', '-', '/'] ∨ ∃ n : Numeral, c ∈ n.digits := by
  cases i <;> simp only [chars, List.mem_append, List.mem_cons] at hc ⊢ <;> grind

theorem plain_of_mem {i : Item} {c : Char} (hc : c ∈ i.chars) : c ∈ plainChars ∧ c ≠ ',' := by
  rcases mem_chars hc with h | ⟨n, h⟩
  · have htable : ∀ c ∈ ['*', '-', '/'], c ∈ plainChars ∧ c ≠ ',' :=
      Text.forall_of_all (by decide)
    exact htable c h
  · refine ⟨mem_plainChars (n.areDigits c h), ?_⟩
    rintro rfl
    exact n.notMem (by decide) h

theorem trim_text (i : Item) : Text.trim i.text = i.text := by
  refine Text.trim_eq_self fun c hc => ?_
  rw [text, String.toList_ofList] at hc
  exact (plainChars_spec c (plain_of_mem hc).1).1

theorem eq_star {i : Item} (h : i.text = "*") : i = .star := by
  have hchars : i.chars = ['*'] := by
    rw [← String.toList_ofList (l := i.chars)]
    exact congrArg String.toList h
  cases i with
  | star => rfl
  | single n =>
      have hmem : '*' ∈ n.digits := by
        change n.digits = ['*'] at hchars
        simp [hchars]
      exact absurd hmem (n.notMem (by decide))
  | range a b =>
      have hmem : '-' ∈ (range a b).chars := by simp [chars]
      rw [hchars] at hmem
      exact absurd hmem (by decide)
  | everyNth s => cases hchars
  | rangeNth a b s =>
      have hmem : '-' ∈ (rangeNth a b s).chars := by simp [chars]
      rw [hchars] at hmem
      exact absurd hmem (by decide)

end Item

/-! ### Steps -/

theorem mem_steps {a b s v : Nat} (hab : a ≤ b) (hs : 0 < s) :
    v ∈ steps a b s ↔ (a ≤ v ∧ v ≤ b) ∧ s ∣ v - a := by
  rw [steps, List.mem_map]
  constructor
  · rintro ⟨i, hi, rfl⟩
    have hi' : i * s ≤ b - a :=
      (Nat.le_div_iff_mul_le hs).mp (Nat.le_of_lt_succ (List.mem_range.mp hi))
    exact ⟨by omega, ⟨i, by rw [Nat.add_sub_cancel_left, Nat.mul_comm]⟩⟩
  · rintro ⟨⟨hav, hvb⟩, i, hi⟩
    refine ⟨i, List.mem_range.mpr (Nat.lt_succ_of_le ((Nat.le_div_iff_mul_le hs).mpr ?_)), ?_⟩
    · rw [Nat.mul_comm, ← hi]
      omega
    · rw [Nat.mul_comm, ← hi]
      omega

/-! ### What an accepted item asks for -/

theorem FieldKind.contains_iff {k : FieldKind} {n : Nat} :
    k.contains n = true ↔ k.least ≤ n ∧ n ≤ k.greatest := by
  rw [contains, Bool.and_eq_true, decide_eq_true_eq, decide_eq_true_eq]

theorem mark_eq_ok {k : FieldKind} {values : List Nat} {m : Mark} {marked : List (Nat × Mark)}
    (h : mark k values m = .ok marked) : marked = values.map fun n => (n, m) := by
  rw [mark] at h
  split at h
  · cases h
    rfl
  · cases h

theorem markOf_eq_every {s : String} (hs : 'l' ∉ s.toList) (hhash : '#' ∉ s.toList) :
    markOf s = .ok .every := by
  have hsuffix : ¬ ['l'].isSuffixOf s.toList = true := by
    rw [List.isSuffixOf_iff_suffix]
    exact fun h => hs (h.subset List.mem_cons_self)
  have hdrop : s.toList.dropWhile (· != '#') = [] := by
    rw [List.dropWhile_eq_nil_iff]
    intro c hc
    rw [bne_iff_ne]
    rintro rfl
    exact hhash hc
  rw [markOf, if_neg hsuffix, hdrop]

/-- What a field asks for if it asks for values every time that they come. -/
structure Field.Asks (f : Field) (k : FieldKind) (P : Nat → Prop) : Prop where
  monthEnd : f.monthEnd = false
  marked : ∀ v m, (v, m) ∈ f.marked ↔ m = .every ∧ k.contains v = true ∧ P v

section

variable {k : FieldKind} {marked : List (Nat × Mark)}

theorem notMem_text {i : Item} {c : Char} (hc : c ∉ plainChars) : c ∉ i.text.toList := by
  rw [Item.text, String.toList_ofList]
  exact fun h => hc (Item.plain_of_mem h).1

theorem markOf_text (i : Item) : markOf i.text = .ok .every :=
  markOf_eq_every (notMem_text (by decide)) (notMem_text (by decide))

theorem single_eq_ok {i : Item} (h : single k i.text = .ok marked) :
    ∃ v, number (unmarked i.text) .invalidNumber = .ok v ∧ k.contains v = true ∧
      marked = [(v, .every)] := by
  have hhash : i.text.toList.contains '#' = false := by simpa using notMem_text (by decide)
  have hl : i.text.toList.contains 'l' = false := by simpa using notMem_text (by decide)
  have hsuffix : ['l'].isSuffixOf i.text.toList = false := by
    rw [Bool.eq_false_iff, ne_eq, List.isSuffixOf_iff_suffix]
    exact fun h => notMem_text (by decide) (h.subset List.mem_cons_self)
  simp only [single, hsuffix, Bool.false_and, Bool.false_eq_true, if_false, hhash, hl] at h
  obtain ⟨m, hm, h⟩ := bind_eq_ok h
  rw [markOf_text] at hm
  cases hm
  obtain ⟨v, hv, h⟩ := bind_eq_ok h
  split at h
  · next hk => exact ⟨v, hv, hk, mark_eq_ok h⟩
  · cases h

theorem ranged_eq_ok {a b : Numeral} (h : ranged k (Item.range a b).text = .ok marked) :
    (k.least ≤ a.value ∧ a.value ≤ b.value ∧ b.value ≤ k.greatest) ∧
      marked = (steps a.value b.value 1).map fun n => (n, .every) := by
  have hsplit : (Text.splitAt '-' (Item.range a b).text).map Text.trim =
      [String.ofList a.digits, String.ofList b.digits] := by
    rw [Item.text, Item.chars, Text.splitAt_append (a.notMem (by decide)),
      Text.splitAt_of_notMem (by simpa using b.notMem (by decide))]
    simp [a.trim_text, b.trim_text]
  rw [ranged, hsplit] at h
  obtain ⟨first, hfirst, h⟩ := bind_eq_ok h
  obtain ⟨last, hlast, h⟩ := bind_eq_ok h
  rw [a.unmarked_text] at hfirst
  rw [b.unmarked_text] at hlast
  obtain rfl := a.number_eq_ok hfirst
  obtain rfl := b.number_eq_ok hlast
  split at h
  · cases h
  · next hbounds =>
    simp only [Bool.or_eq_true, decide_eq_true_eq, not_or, Nat.not_lt] at hbounds
    obtain ⟨m, hm, h⟩ := bind_eq_ok h
    rw [markOf_text] at hm
    cases hm
    exact ⟨⟨hbounds.1.2, hbounds.1.1, hbounds.2⟩, mark_eq_ok h⟩

/-- The steps between two values, once it is known which values these are. -/
theorem counted_eq_ok {i : Item} {first last step : Nat}
    (h : (if (decide (first < k.least) || decide (k.greatest < last) ||
          decide (last < first)) = true
        then .error FieldError.stepOutOfBounds
        else do
          let m ← markOf i.text
          let marked ← mark k (steps first last step) m
          if (steps first last step).getLastD 0 + step < 256 then .ok marked
          else .error .stepOverflow) = .ok marked) :
    (k.least ≤ first ∧ first ≤ last ∧ last ≤ k.greatest) ∧
      marked = (steps first last step).map fun n => (n, .every) := by
  split at h
  · cases h
  · next hbounds =>
    simp only [Bool.or_eq_true, decide_eq_true_eq, not_or, Nat.not_lt] at hbounds
    obtain ⟨m, hm, h⟩ := bind_eq_ok h
    rw [markOf_text] at hm
    cases hm
    obtain ⟨found, hfound, h⟩ := bind_eq_ok h
    split at h
    · cases h
      exact ⟨⟨hbounds.1.1, hbounds.2, hbounds.1.2⟩, mark_eq_ok hfound⟩
    · cases h

theorem splitAt_slash {i : Item} {r : List Char} {s : Numeral}
    (hi : i.chars = r ++ '/' :: s.digits) (hr : '/' ∉ r) :
    Text.splitAt '/' i.text = [String.ofList r, String.ofList s.digits] := by
  rw [Item.text, hi, Text.splitAt_append hr,
    Text.splitAt_of_notMem (by simpa using s.notMem (by decide))]

theorem stepped_everyNth_eq_ok {s : Numeral} (h : stepped k (Item.everyNth s).text = .ok marked) :
    0 < s.value ∧ k.least ≤ k.greatest ∧
      marked = (steps k.least k.greatest s.value).map fun n => (n, .every) := by
  rw [stepped, splitAt_slash (r := ['*']) rfl (by decide)] at h
  obtain ⟨step, hstep, h⟩ := bind_eq_ok h
  rw [s.unmarked_text] at hstep
  obtain rfl := s.number_eq_ok hstep
  split at h
  · cases h
  · next hzero =>
    obtain ⟨⟨-, hbounds, -⟩, hmarked⟩ := counted_eq_ok h
    exact ⟨Nat.pos_of_ne_zero hzero, hbounds, hmarked⟩

theorem stepped_rangeNth_eq_ok {a b s : Numeral}
    (h : stepped k (Item.rangeNth a b s).text = .ok marked) :
    0 < s.value ∧ (k.least ≤ a.value ∧ a.value ≤ b.value ∧ b.value ≤ k.greatest) ∧
      marked = (steps a.value b.value s.value).map fun n => (n, .every) := by
  have hslash : '/' ∉ a.digits ++ '-' :: b.digits := by
    have ha := a.notMem (c := '/') (by decide)
    have hb := b.notMem (c := '/') (by decide)
    simp [ha, hb]
  have hchars : (Item.rangeNth a b s).chars = (a.digits ++ '-' :: b.digits) ++ '/' :: s.digits := by
    simp [Item.chars]
  have hstar : String.ofList (a.digits ++ '-' :: b.digits) ≠ "*" := by
    intro h
    have hmem : '-' ∈ (String.ofList (a.digits ++ '-' :: b.digits)).toList := by simp
    rw [h] at hmem
    exact absurd hmem (by decide)
  have hdash : Text.splitAt '-' (String.ofList (a.digits ++ '-' :: b.digits)) =
      [String.ofList a.digits, String.ofList b.digits] := by
    rw [Text.splitAt_append (a.notMem (by decide)),
      Text.splitAt_of_notMem (by simpa using b.notMem (by decide))]
  rw [stepped, splitAt_slash hchars hslash] at h
  obtain ⟨step, hstep, h⟩ := bind_eq_ok h
  rw [s.unmarked_text] at hstep
  obtain rfl := s.number_eq_ok hstep
  by_cases hzero : s.value = 0
  · rw [if_pos hzero] at h
    cases h
  · simp only [if_neg hzero, if_neg hstar, hdash] at h
    obtain ⟨first, hfirst, h⟩ := bind_eq_ok h
    obtain ⟨last, hlast, h⟩ := bind_eq_ok h
    obtain rfl := a.number_eq_ok hfirst
    obtain rfl := b.number_eq_ok hlast
    exact ⟨Nat.pos_of_ne_zero hzero, counted_eq_ok h⟩

theorem asks_single {v : Nat} {P : Nat → Prop} (hv : k.contains v = true) (hP : ∀ w, P w ↔ w = v) :
    Field.Asks { Field.none with marked := [(v, .every)] } k P := by
  refine ⟨rfl, fun w m => ?_⟩
  rw [List.mem_singleton, Prod.mk.injEq, hP]
  constructor
  · rintro ⟨rfl, rfl⟩
    exact ⟨rfl, hv, rfl⟩
  · rintro ⟨rfl, -, rfl⟩
    exact ⟨rfl, rfl⟩

theorem asks_steps {first last step : Nat} {P : Nat → Prop} {star : Bool} (hstep : 0 < step)
    (hbounds : k.least ≤ first ∧ first ≤ last ∧ last ≤ k.greatest)
    (hP : ∀ v, k.contains v = true → (P v ↔ (first ≤ v ∧ v ≤ last) ∧ step ∣ v - first)) :
    Field.Asks ⟨star, (steps first last step).map fun n => (n, .every), false⟩ k P := by
  refine ⟨rfl, fun v m => ?_⟩
  rw [List.mem_map]
  constructor
  · rintro ⟨n, hn, hv⟩
    obtain ⟨rfl, rfl⟩ := Prod.mk.inj hv
    have hmem := (mem_steps hbounds.2.1 hstep).mp hn
    have hk : k.contains n = true := FieldKind.contains_iff.mpr (by omega)
    exact ⟨rfl, hk, (hP n hk).mpr hmem⟩
  · rintro ⟨rfl, hk, hv⟩
    exact ⟨v, (mem_steps hbounds.2.1 hstep).mpr ((hP v hk).mp hv), rfl⟩

/-- An item that is accepted asks for what it admits. -/
theorem item_eq_ok {i : Item} {f : Field} (h : item k i.text = .ok f) :
    f.Asks k fun v => i.Admits k v := by
  have hw : i.text.toList.contains 'w' = false := by simpa using notMem_text (by decide)
  have hl : i.text ≠ "l" := by
    intro hl
    have hmem : 'l' ∈ "l".toList := by decide
    rw [← hl] at hmem
    exact notMem_text (by decide) hmem
  have hempty : i.text.toList.isEmpty = false := by
    rw [List.isEmpty_eq_false_iff, Item.text, String.toList_ofList]
    cases i <;> simp [Item.chars, Numeral.nonempty]
  simp only [item, hw, hempty, if_neg hl, Bool.false_eq_true, if_false] at h
  cases i with
  | star =>
      have hslash : '/' ∉ Item.star.text.toList := by decide
      have hdash : '-' ∉ Item.star.text.toList := by decide
      simp only [List.contains_iff_mem, hslash, hdash, if_false] at h
      obtain ⟨marked, hmarked, rfl⟩ := map_eq_ok h
      obtain ⟨v, hv, -⟩ := single_eq_ok hmarked
      cases hv
  | single n =>
      have hslash := n.notMem (c := '/') (by decide)
      have hdash := n.notMem (c := '-') (by decide)
      simp only [Item.text, Item.chars, String.toList_ofList, List.contains_iff_mem, hslash, hdash,
        if_false] at h
      obtain ⟨marked, hmarked, rfl⟩ := map_eq_ok h
      obtain ⟨v, hv, hk, rfl⟩ := single_eq_ok (i := .single n) hmarked
      rw [Item.text, Item.chars, n.unmarked_text] at hv
      obtain rfl := n.number_eq_ok hv
      exact asks_single hk fun _ => Iff.rfl
  | range a b =>
      have hslash : '/' ∉ (Item.range a b).text.toList := by
        simp [Item.text, Item.chars, a.notMem, b.notMem]
      have hdash : '-' ∈ (Item.range a b).text.toList := by simp [Item.text, Item.chars]
      simp only [List.contains_iff_mem, hslash, hdash, if_false, if_true] at h
      obtain ⟨marked, hmarked, rfl⟩ := map_eq_ok h
      obtain ⟨hbounds, rfl⟩ := ranged_eq_ok hmarked
      exact asks_steps Nat.one_pos hbounds fun v _ => by simp [Item.Admits]
  | everyNth s =>
      have hslash : '/' ∈ (Item.everyNth s).text.toList := by simp [Item.text, Item.chars]
      simp only [List.contains_iff_mem, hslash, if_true] at h
      obtain ⟨marked, hmarked, rfl⟩ := map_eq_ok h
      obtain ⟨hs, hk, rfl⟩ := stepped_everyNth_eq_ok hmarked
      refine asks_steps hs ⟨le_rfl, hk, le_rfl⟩ fun v hv => ?_
      simp [Item.Admits, FieldKind.contains_iff.mp hv]
  | rangeNth a b s =>
      have hslash : '/' ∈ (Item.rangeNth a b s).text.toList := by simp [Item.text, Item.chars]
      simp only [List.contains_iff_mem, hslash, if_true] at h
      obtain ⟨marked, hmarked, rfl⟩ := map_eq_ok h
      obtain ⟨hs, hbounds, rfl⟩ := stepped_rangeNth_eq_ok hmarked
      exact asks_steps hs hbounds fun _ _ => Iff.rfl

end

/-! ### Lists of items -/

/-- A plain field: items that are joined by commas. -/
structure Listing where
  items : List Item
  nonempty : items ≠ []

namespace Listing

def text (l : Listing) : String := ",".intercalate (l.items.map Item.text)

/-- Whether a field leaves all values open: it is a star alone. -/
def IsStar (l : Listing) : Prop := l.items = [.star]

def Admits (l : Listing) (k : FieldKind) (v : Nat) : Prop := ∃ i ∈ l.items, i.Admits k v

theorem mem_text {l : Listing} {c : Char} (hc : c ∈ l.text.toList) : c ∈ plainChars := by
  obtain ⟨items, hne⟩ := l
  cases items with
  | nil => exact absurd rfl hne
  | cons i items =>
      have hcomma : ",".toList = [','] := by decide
      rw [text, String.toList_intercalate, hcomma, List.map_cons, List.map_cons,
        Text.intercalate_cons, List.mem_append, List.mem_flatMap] at hc
      rcases hc with hc | ⟨l, hl, hc⟩
      · rw [Item.text, String.toList_ofList] at hc
        exact (Item.plain_of_mem hc).1
      · rw [List.map_map, List.mem_map] at hl
        obtain ⟨j, -, rfl⟩ := hl
        rcases List.mem_cons.mp hc with rfl | hc
        · decide
        · rw [Function.comp_apply, Item.text, String.toList_ofList] at hc
          exact (Item.plain_of_mem hc).1

theorem splitAt_text (l : Listing) : Text.splitAt ',' l.text = l.items.map Item.text := by
  refine Text.splitAt_intercalate (by decide) (by simpa using l.nonempty) fun s hs => ?_
  obtain ⟨i, -, rfl⟩ := List.mem_map.mp hs
  rw [Item.text, String.toList_ofList]
  exact fun hc => (Item.plain_of_mem hc).2 rfl

theorem text_eq_star {l : Listing} : l.text = "*" ↔ l.IsStar := by
  constructor
  · intro h
    have hitems : l.items.map Item.text = ["*"] := by
      rw [← l.splitAt_text, h]
      decide
    obtain ⟨i, hi, htext⟩ := List.map_eq_singleton_iff.mp hitems
    rw [IsStar, hi, Item.eq_star htext]
  · intro h
    rw [text, h]
    decide

end Listing

theorem asks_flatMap {k : FieldKind} {items : List Item} {fields : List Field}
    (h : List.Forall₂ (fun (i : Item) f => item k i.text = .ok f) items fields) (star : Bool) :
    Field.Asks ⟨star, fields.flatMap Field.marked, fields.any Field.monthEnd⟩ k
      fun v => ∃ i ∈ items, i.Admits k v := by
  induction h with
  | nil => exact ⟨rfl, by simp⟩
  | cons hitem _ ih =>
      have hfirst := item_eq_ok hitem
      refine ⟨?_, fun v m => ?_⟩
      · rw [List.any_cons, hfirst.monthEnd, Bool.false_or]
        exact ih.monthEnd
      · rw [List.flatMap_cons, List.mem_append, hfirst.marked, ih.marked, List.exists_mem_cons_iff]
        tauto

/-- A plain field that is accepted asks for the values that one of its items admits, and only a
star alone leaves it open. -/
theorem field_eq_ok {k : FieldKind} {l : Listing} {f : Field} (hk : k.least ≤ k.greatest)
    (h : field k l.text = .ok f) : (f.star = true ↔ l.IsStar) ∧ f.Asks k (l.Admits k) := by
  by_cases hstar : l.text = "*"
  · have hl := Listing.text_eq_star.mp hstar
    rw [field, if_pos hstar] at h
    cases h
    refine ⟨iff_of_true rfl hl, asks_steps Nat.one_pos ⟨le_rfl, hk, le_rfl⟩ fun v hv => ?_⟩
    rw [Listing.Admits, hl]
    simp [Item.Admits, FieldKind.contains_iff.mp hv]
  · have htrim : (l.items.map Item.text).map Text.trim = l.items.map Item.text := by
      rw [List.map_map]
      exact List.map_congr_left fun i _ => i.trim_text
    rw [field, if_neg hstar, l.splitAt_text, htrim] at h
    obtain ⟨fields, hfields, h⟩ := bind_eq_ok h
    cases h
    have hitems := List.forall₂_map_left_iff.mp (forall₂_of_mapM_eq_ok hfields)
    exact ⟨iff_of_false (by simp) (mt Listing.text_eq_star.mpr hstar), asks_flatMap hitems false⟩

end Workflow.Cron
