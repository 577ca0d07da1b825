import Mathlib.Data.List.TakeWhile
import Workflow.Text.Case
import Workflow.Text.Class

/-!
# Texts in parts

Splitting undoes joining, trimming leaves alone what has no blank ends, and each character of a
text that is not blank is in one of its words.  Characters that have no small form are their own,
and a pattern is found only in texts that have all of its characters.
-/

namespace Workflow.Text

variable {sep c : Char} {piece rest cs : List Char} {s : String}

/-! ### Splitting -/

theorem splitChars_of_notMem (h : sep ∉ piece) : splitChars sep piece = [piece] := by
  induction piece with
  | nil => rfl
  | cons c piece ih =>
      obtain ⟨hc, hpiece⟩ := not_or.mp (mt List.mem_cons.mpr h)
      rw [splitChars, if_neg (Ne.symm hc), ih hpiece]

theorem splitChars_append (h : sep ∉ piece) :
    splitChars sep (piece ++ sep :: rest) = piece :: splitChars sep rest := by
  induction piece with
  | nil => simp [splitChars]
  | cons c piece ih =>
      obtain ⟨hc, hpiece⟩ := not_or.mp (mt List.mem_cons.mpr h)
      rw [List.cons_append, splitChars, if_neg (Ne.symm hc), ih hpiece]

theorem intercalate_cons (ls : List (List Char)) :
    [sep].intercalate (piece :: ls) = piece ++ ls.flatMap fun l => sep :: l := by
  induction ls generalizing piece with
  | nil => simp
  | cons l ls ih => rw [List.intercalate_cons_cons, ih, List.flatMap_cons, List.append_assoc]; rfl

/-- Splitting undoes joining. -/
theorem splitAt_intercalate {joint : String} (hjoint : joint.toList = [sep])
    {pieces : List String} (hne : pieces ≠ []) (h : ∀ p ∈ pieces, sep ∉ p.toList) :
    splitAt sep (joint.intercalate pieces) = pieces := by
  have hchars : splitChars sep ([sep].intercalate (pieces.map String.toList)) =
      pieces.map String.toList := by
    induction pieces with
    | nil => exact absurd rfl hne
    | cons p more ih =>
        cases more with
        | nil =>
            rw [List.map_singleton, List.intercalate_singleton]
            exact splitChars_of_notMem (h p List.mem_cons_self)
        | cons q more =>
            have hmore := ih (List.cons_ne_nil q more) fun p hp => h p (List.mem_cons_of_mem _ hp)
            rw [List.map_cons, List.map_cons, List.intercalate_cons_cons, List.append_assoc,
              List.singleton_append, splitChars_append (h p List.mem_cons_self)]
            exact congrArg _ hmore
  rw [splitAt, String.toList_intercalate, hjoint, hchars, List.map_map]
  simp

theorem splitAt_of_notMem (h : sep ∉ s.toList) : splitAt sep s = [s] := by
  rw [splitAt, splitChars_of_notMem h, List.map_singleton, String.ofList_toList]

theorem splitAt_append (h : sep ∉ piece) :
    splitAt sep (String.ofList (piece ++ sep :: rest)) =
      String.ofList piece :: splitAt sep (String.ofList rest) := by
  rw [splitAt, splitAt, String.toList_ofList, String.toList_ofList, splitChars_append h,
    List.map_cons]

/-! ### Trimming -/

theorem dropWhile_eq_self {p : Char → Bool} :
    cs.dropWhile p = cs ↔ ∀ c ∈ cs.head?, p c = false := by
  cases cs with
  | nil => simp
  | cons c cs =>
      rw [List.dropWhile_cons]
      cases hc : p c with
      | false => simp [hc]
      | true =>
          have hlt := (List.dropWhile_suffix p (l := cs)).length_le
          refine ⟨fun h => ?_, fun h => absurd (h c rfl) (by simp [hc])⟩
          have hlength := congrArg List.length h
          simp only [if_true, List.length_cons] at hlength
          omega

/-- Nothing is trimmed off exactly if neither end is blank. -/
theorem trimChars_eq_self :
    trimChars cs = cs ↔
      (∀ c ∈ cs.head?, isBlank c = false) ∧ ∀ c ∈ cs.getLast?, isBlank c = false := by
  rw [← dropWhile_eq_self, ← List.head?_reverse, ← dropWhile_eq_self, trimChars]
  constructor
  · intro h
    have hfront := (List.dropWhile_suffix isBlank (l := cs)).length_le
    have hback := (List.dropWhile_suffix isBlank (l := (cs.dropWhile isBlank).reverse)).length_le
    have hlength := congrArg List.length h
    rw [List.length_reverse] at hlength hback
    have hself : cs.dropWhile isBlank = cs :=
      (List.dropWhile_suffix isBlank).eq_of_length (by omega)
    rw [hself] at h
    exact ⟨hself, List.reverse_eq_iff.mp h⟩
  · rintro ⟨hfront, hback⟩
    rw [hfront, hback, List.reverse_reverse]

theorem trim_eq_self (h : ∀ c ∈ s.toList, isBlank c = false) : trim s = s := by
  have htrim : trimChars s.toList = s.toList := trimChars_eq_self.mpr
    ⟨fun c hc => h c (List.mem_of_mem_head? hc), fun c hc => h c (List.mem_of_getLast? hc)⟩
  rw [trim, htrim, String.ofList_toList]

/-! ### Words -/

theorem mem_wordsFrom {run : List Char} (h : c ∈ run ∨ c ∈ cs ∧ isBlank c = false) :
    ∃ w ∈ wordsFrom run cs, c ∈ w := by
  induction cs generalizing run with
  | nil =>
      have hc : c ∈ run := by simpa using h
      have hrun : run.isEmpty = false := by
        rw [List.isEmpty_eq_false_iff]
        exact List.ne_nil_of_mem hc
      exact ⟨run.reverse, by simp [wordsFrom, hrun], by simpa using hc⟩
  | cons d cs ih =>
      rw [wordsFrom]
      split
      · next hd =>
        have hrest : c ∈ run ∨ c ∈ cs ∧ isBlank c = false := by
          rcases h with hc | ⟨hc, hblank⟩
          · exact .inl hc
          · rcases List.mem_cons.mp hc with rfl | hc
            · rw [hd] at hblank
              cases hblank
            · exact .inr ⟨hc, hblank⟩
        split
        · next hrun =>
          rw [List.isEmpty_iff] at hrun
          rw [hrun] at hrest
          exact ih hrest
        · rcases hrest with hc | hc
          · exact ⟨run.reverse, List.mem_cons_self, List.mem_reverse.mpr hc⟩
          · obtain ⟨w, hw, hcw⟩ := ih (.inr hc)
            exact ⟨w, List.mem_cons_of_mem _ hw, hcw⟩
      · refine ih ?_
        rcases h with hc | ⟨hc, hblank⟩
        · exact .inl (List.mem_cons_of_mem _ hc)
        · rcases List.mem_cons.mp hc with rfl | hc
          · exact .inl List.mem_cons_self
          · exact .inr ⟨hc, hblank⟩

/-- Each character that is not blank is in one of the words. -/
theorem exists_mem_words (hc : c ∈ s.toList) (hblank : isBlank c = false) :
    ∃ w ∈ words s, c ∈ w.toList := by
  obtain ⟨w, hw, hcw⟩ : ∃ w ∈ wordsFrom [] s.toList, c ∈ w := mem_wordsFrom (.inr ⟨hc, hblank⟩)
  exact ⟨String.ofList w, List.mem_map_of_mem hw, by simpa using hcw⟩

/-! ### Tables of characters -/

section

variable {p : Char → Prop} [DecidablePred p] {cs : List Char}

theorem forall_of_all (h : cs.all (fun c => decide (p c)) = true) : ∀ c ∈ cs, p c :=
  fun c hc => of_decide_eq_true (List.all_eq_true.mp h c hc)

theorem exists_of_any (h : cs.any (fun c => decide (p c)) = true) : ∃ c ∈ cs, p c := by
  obtain ⟨c, hc, hp⟩ := List.any_eq_true.mp h
  exact ⟨c, hc, of_decide_eq_true hp⟩

end

def digits : List Char := "0123456789".toList

theorem mem_digits (h : c.isDigit = true) : c ∈ digits := by
  simp only [Char.isDigit, Bool.and_eq_true, decide_eq_true_eq, UInt32.le_iff_toNat_le] at h
  have htable : ∀ n ∈ List.range' 48 10, Char.ofNat n ∈ digits := by decide
  rw [← Char.ofNat_toNat c]
  refine htable _ (List.mem_range'_1.mpr ?_)
  change 48 ≤ c.val.toNat ∧ c.val.toNat < 58
  exact ⟨h.1, Nat.lt_succ_of_le h.2⟩

/-! ### Patterns and small forms -/

theorem replaceAll_eq_self {pattern by_ : String}
    (h : ∃ c ∈ pattern.toList, c ∉ s.toList) : replaceAll pattern by_ s = s := by
  obtain ⟨c, hc, hnot⟩ := h
  have hchars (cs : List Char) (hcs : c ∉ cs) :
      replaceChars pattern.toList by_.toList 0 cs = cs := by
    induction cs with
    | nil => rfl
    | cons d cs ih =>
        have hfound : ¬ pattern.toList.isPrefixOf (d :: cs) = true := by
          rw [List.isPrefixOf_iff_prefix]
          exact fun hstarts => hcs (hstarts.subset hc)
        rw [replaceChars, if_neg hfound, ih (mt (List.mem_cons_of_mem d) hcs)]
  rw [replaceAll, hchars _ hnot, String.ofList_toList]

/-- A character without a small form of its own, wherever it stands. -/
def isCaseless (n : Nat) : Bool := n != 0x130 && n != 0x3a3 && shifted lowerShifts n == n

theorem lower_eq_self (h : ∀ c ∈ s.toList, isCaseless c.toNat = true) : lower s = s := by
  have hchars (before cs : List Char) (hcs : ∀ c ∈ cs, isCaseless c.toNat = true) :
      lowerFrom before cs = cs := by
    induction cs generalizing before with
    | nil => rfl
    | cons c cs ih =>
        have hc := hcs c List.mem_cons_self
        simp only [isCaseless, Bool.and_eq_true, bne_iff_ne, beq_iff_eq] at hc
        obtain ⟨⟨hdotted, hsigma⟩, hshift⟩ := hc
        rw [lowerFrom, if_neg hsigma, lowerChar, if_neg hdotted, hshift, Char.ofNat_toNat,
          ih (c :: before) fun d hd => hcs d (List.mem_cons_of_mem c hd)]
        rfl
  rw [lower, hchars [] _ h, String.ofList_toList]

theorem isCaseless_of_isBlank (h : isBlank c = true) : isCaseless c.toNat = true := by
  have htable : ∀ r ∈ blankRanges, ∀ n ∈ List.range' r.1 (r.2 + 1 - r.1), isCaseless n = true := by
    decide +kernel
  obtain ⟨r, hr, hin⟩ := List.any_eq_true.mp h
  simp only [Bool.and_eq_true, decide_eq_true_eq] at hin
  exact htable r hr _ (by rw [List.mem_range'_1]; omega)

end Workflow.Text
