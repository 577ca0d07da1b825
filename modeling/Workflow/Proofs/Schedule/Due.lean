import Workflow.Proofs.Schedule.Field
import Workflow.Proofs.Time.Calendar
import Workflow.Schedule.Due

/-!
# When plain schedules are due

A schedule of five plain fields is read field by field, so that what it asks for at a time can be
said without its text.  Minute, hour and month must each be admitted.  The two fields for days are
both asked only if one of them is a star: two restricted fields are alternatives.
-/

namespace Workflow.Cron

/-- A cron expression in plain fields. -/
structure Pattern where
  minute : Listing
  hour : Listing
  dayOfMonth : Listing
  month : Listing
  dayOfWeek : Listing

namespace Pattern

def texts (p : Pattern) : List String :=
  [p.minute.text, p.hour.text, p.dayOfMonth.text, p.month.text, p.dayOfWeek.text]

/-- Whether an expression consists of the fields of a pattern, with blanks between them. -/
def Spells (p : Pattern) (expression : String) : Prop := Text.words expression = p.texts

theorem mem_of_spells {p : Pattern} {expression : String} {c : Char} (h : p.Spells expression)
    (hc : c ∈ expression.toList) : Text.isBlank c = true ∨ c ∈ plainChars := by
  cases hblank : Text.isBlank c with
  | true => exact .inl rfl
  | false =>
      obtain ⟨w, hw, hcw⟩ := Text.exists_mem_words hc hblank
      rw [h] at hw
      have htext : ∃ l : Listing, w = l.text := by
        simp only [texts, List.mem_cons, List.not_mem_nil, or_false] at hw
        rcases hw with rfl | rfl | rfl | rfl | rfl <;> exact ⟨_, rfl⟩
      obtain ⟨l, rfl⟩ := htext
      exact .inr (Listing.mem_text hcw)

end Pattern

/-! ### Reading -/

section

variable {p : Pattern} {expression : String}

theorem replaceAll_eq_self_of_spells {name by_ : String} {c : Char} (h : p.Spells expression)
    (hname : c ∈ name.toList) (hblank : Text.isBlank c = false) (hc : c ∉ plainChars) :
    Text.replaceAll name by_ expression = expression := by
  refine Text.replaceAll_eq_self ⟨c, hname, fun hmem => ?_⟩
  rcases p.mem_of_spells h hmem with hb | hp
  · rw [hb] at hblank
    cases hblank
  · exact hc hp

/-- A plain expression has no names, no capital letters and no question marks. -/
theorem plain_eq_self (h : p.Spells expression) : plain expression = expression := by
  have hlower : Text.lower expression = expression := by
    refine Text.lower_eq_self fun c hc => ?_
    rcases p.mem_of_spells h hc with hb | hp
    · exact Text.isCaseless_of_isBlank hb
    · exact (plainChars_spec c hp).2.1
  have hnames : ∀ a ∈ aliases, ∃ c ∈ a.1.toList, Text.isBlank c = false ∧ c ∉ plainChars := by
    have htable : aliases.all (fun a => a.1.toList.any fun c =>
        decide (Text.isBlank c = false ∧ c ∉ plainChars)) = true := by decide
    exact fun a ha => Text.exists_of_any (List.all_eq_true.mp htable a ha)
  have hfold (as : List (String × String)) (has : as ⊆ aliases) :
      as.foldl (fun s a => Text.replaceAll a.1 a.2 s) expression = expression := by
    induction as with
    | nil => rfl
    | cons a as ih =>
        obtain ⟨c, hname, hblank, hc⟩ := hnames a (has List.mem_cons_self)
        have hself : Text.replaceAll a.1 a.2 expression = expression :=
          replaceAll_eq_self_of_spells h hname hblank hc
        rw [List.foldl_cons, hself]
        exact ih fun b hb => has (List.mem_cons_of_mem a hb)
  rw [plain, replaceAll_eq_self_of_spells (c := '?') h (by decide) (by decide) (by decide), hlower]
  exact hfold aliases (List.Subset.refl aliases)

/-- What an accepted expression in plain fields asks for. -/
theorem parse_eq_ok {c : Cron} (h : p.Spells expression) (hc : parse expression = .ok c) :
    ∃ weekdays, c.minute.Asks .minute (p.minute.Admits .minute) ∧
      c.hour.Asks .hour (p.hour.Admits .hour) ∧
      c.month.Asks .month (p.month.Admits .month) ∧
      ((c.dayOfMonth.star = true ↔ p.dayOfMonth.IsStar) ∧
        c.dayOfMonth.Asks .dayOfMonth (p.dayOfMonth.Admits .dayOfMonth)) ∧
      ((weekdays.star = true ↔ p.dayOfWeek.IsStar) ∧
        weekdays.Asks .dayOfWeek (p.dayOfWeek.Admits .dayOfWeek)) ∧
      c.dayOfWeek = foldSunday weekdays := by
  unfold parse at hc
  rw [plain_eq_self h, h] at hc
  have hfields := mapError_eq_ok hc
  obtain ⟨minute, hminute, hfields⟩ := bind_eq_ok hfields
  obtain ⟨hour, hhour, hfields⟩ := bind_eq_ok hfields
  obtain ⟨days, hdays, hfields⟩ := bind_eq_ok hfields
  obtain ⟨month, hmonth, hfields⟩ := bind_eq_ok hfields
  obtain ⟨weekdays, hweekdays, hfields⟩ := bind_eq_ok hfields
  cases hfields
  exact ⟨weekdays, (field_eq_ok (by decide) hminute).2, (field_eq_ok (by decide) hhour).2,
    (field_eq_ok (by decide) hmonth).2, field_eq_ok (by decide) hdays,
    field_eq_ok (by decide) hweekdays, rfl⟩

end

/-! ### Matching -/

section

variable {f : Field} {k : FieldKind} {P : Nat → Prop} {d : Time.Date}

theorem Field.Asks.has_iff {v : Nat} {m : Mark} (h : f.Asks k P) :
    f.has v m = true ↔ m = .every ∧ k.contains v = true ∧ P v := by
  rw [Field.has, List.contains_iff_mem, h.marked]

theorem Field.Asks.has_eq_false {v : Nat} {m : Mark} (h : f.Asks k P) (hm : m ≠ .every) :
    f.has v m = false := by
  rw [Bool.eq_false_iff, ne_eq, h.has_iff]
  exact fun hhas => hm hhas.1

/-- A plain field for days of the month has no marked days and no end of the month. -/
theorem admitsDay_iff (h : f.Asks .dayOfMonth P) (hd : 1 ≤ d.day ∧ d.day ≤ 31) :
    admitsDay f d = true ↔ P d.day := by
  have hcontains : FieldKind.dayOfMonth.contains d.day = true := FieldKind.contains_iff.mpr hd
  have hnearest : isNearest f d = false := by
    simp [isNearest, h.has_eq_false (m := .nearest)]
  rw [admitsDay, h.monthEnd, hnearest, Bool.false_and, Bool.or_false, Bool.or_false, h.has_iff]
  exact ⟨fun hday => hday.2.2, fun hday => ⟨rfl, hcontains, hday⟩⟩

/-- A plain field for days of the week admits a weekday, with Sunday as zero or as seven. -/
theorem foldSunday_has_iff {v : Nat} {m : Mark} (h : f.Asks .dayOfWeek P) (hv : v < 7) :
    (foldSunday f).has v m = true ↔ m = .every ∧ (P v ∨ v = 0 ∧ P 7) := by
  rw [Field.has, List.contains_iff_mem, foldSunday, List.mem_map]
  constructor
  · rintro ⟨⟨n, m'⟩, hmem, heq⟩
    obtain ⟨rfl, hk, hn⟩ := (h.marked n m').mp hmem
    by_cases hseven : n = 7
    · subst hseven
      obtain ⟨rfl, rfl⟩ := Prod.mk.inj heq
      exact ⟨rfl, .inr ⟨rfl, hn⟩⟩
    · simp only [hseven, decide_false, Bool.false_and, Bool.false_eq_true, if_false] at heq
      obtain ⟨rfl, rfl⟩ := Prod.mk.inj heq
      exact ⟨rfl, .inl hn⟩
  · have hcontains {n : Nat} (hn : n ≤ 7) : FieldKind.dayOfWeek.contains n = true :=
      FieldKind.contains_iff.mpr ⟨Nat.zero_le n, hn⟩
    rintro ⟨rfl, hP | ⟨rfl, hP⟩⟩
    · refine ⟨(v, .every), (h.marked v _).mpr ⟨rfl, hcontains (by omega), hP⟩, ?_⟩
      have hne : v ≠ 7 := by omega
      simp [hne]
    · exact ⟨(7, .every), (h.marked 7 _).mpr ⟨rfl, hcontains le_rfl, hP⟩, rfl⟩

theorem admitsWeekday_iff (h : f.Asks .dayOfWeek P) :
    admitsWeekday (foldSunday f) d = true ↔
      P (Time.weekday d.toDays) ∨ Time.weekday d.toDays = 0 ∧ P 7 := by
  have hlt : Time.weekday d.toDays < 7 := by
    rw [Time.weekday]
    omega
  have hmarked {m : Mark} (hm : m ≠ .every) :
      (foldSunday f).has (Time.weekday d.toDays) m = false := by
    rw [Bool.eq_false_iff, ne_eq, foldSunday_has_iff h hlt]
    exact fun hhas => hm hhas.1
  rw [admitsWeekday, hmarked (m := .nth _) (by simp), hmarked (m := .last) (by simp),
    Bool.false_and, Bool.or_false, Bool.or_false, foldSunday_has_iff h hlt]
  exact ⟨fun hday => hday.2, fun hday => ⟨rfl, hday⟩⟩

/-- Two fields for days that are both restricted are alternatives. -/
theorem admitsDate_iff {c : Cron} {D W : Prop} (hday : admitsDay c.dayOfMonth d = true ↔ D)
    (hweekday : admitsWeekday c.dayOfWeek d = true ↔ W) (hopenDay : c.dayOfMonth.star = true → D)
    (hopenWeekday : c.dayOfWeek.star = true → W) :
    c.admitsDate d = true ↔
      (D ∧ W) ∨ (¬ c.dayOfMonth.star = true ∧ ¬ c.dayOfWeek.star = true) ∧ ¬ (D ↔ W) := by
  rw [admitsDate]
  by_cases hw : c.dayOfWeek.star = true
  · rw [if_pos hw, hday]
    have := hopenWeekday hw
    tauto
  · rw [if_neg hw]
    by_cases hd : c.dayOfMonth.star = true
    · rw [if_pos hd, hweekday]
      have := hopenDay hd
      tauto
    · rw [if_neg hd, Bool.or_eq_true, hday, hweekday]
      tauto

end

/-! ### Times -/

theorem civil_bounds (now : Time.Zoned) :
    now.civil.minute < 60 ∧ now.civil.hour < 24 ∧
      (1 ≤ now.civil.date.month ∧ now.civil.date.month ≤ 12) ∧
      (1 ≤ now.civil.date.day ∧ now.civil.date.day ≤ 31) := by
  have hrest (s : Int) :
      (s - Int.fdiv s Time.secondsPerDay * Time.secondsPerDay).toNat < 86400 := by
    rw [Int.fdiv_eq_ediv_of_nonneg _ (by decide), Time.secondsPerDay]
    omega
  refine ⟨Nat.mod_lt _ (by decide), ?_, Time.ofDays_month _, Time.ofDays_day _⟩
  exact Nat.div_lt_of_lt_mul (hrest _)

theorem weekday_toDays (now : Time.Zoned) :
    Time.weekday now.civil.date.toDays = now.civil.weekday := by
  simp only [Time.Zoned.civil, Time.toDays_ofDays]

namespace Pattern

/-- Whether the field for days of the week admits a weekday; Sunday is 0 and 7. -/
def AdmitsWeekday (p : Pattern) (w : Nat) : Prop :=
  p.dayOfWeek.Admits .dayOfWeek w ∨ w = 0 ∧ p.dayOfWeek.Admits .dayOfWeek 7

/-- Whether the fields for the minute, the hour and the month admit a time. -/
structure AdmitsClock (p : Pattern) (t : Time.Civil) : Prop where
  minute : p.minute.Admits .minute t.minute
  hour : p.hour.Admits .hour t.hour
  month : p.month.Admits .month t.date.month

/-- Whether every field admits its part of a time. -/
structure AdmitsAll (p : Pattern) (t : Time.Civil) : Prop where
  clock : p.AdmitsClock t
  day : p.dayOfMonth.Admits .dayOfMonth t.date.day
  weekday : p.AdmitsWeekday t.weekday

/-- Whether a time is let through by just one of the fields for days, both of which are
restricted. -/
structure AdmitsOneDay (p : Pattern) (t : Time.Civil) : Prop where
  clock : p.AdmitsClock t
  restricted : ¬ p.dayOfMonth.IsStar ∧ ¬ p.dayOfWeek.IsStar
  one : ¬ (p.dayOfMonth.Admits .dayOfMonth t.date.day ↔ p.AdmitsWeekday t.weekday)

end Pattern

section

variable {p : Pattern} {expression : String} {c : Cron}

theorem Listing.IsStar.admits {l : Listing} (h : l.IsStar) (k : FieldKind) (v : Nat) :
    l.Admits k v := by
  rw [Listing.Admits, h]
  exact ⟨.star, List.mem_singleton.mpr rfl, trivial⟩

theorem matches_iff (h : p.Spells expression) (hc : parse expression = .ok c)
    (now : Time.Zoned) :
    c.matches? now = true ↔ p.AdmitsAll now.civil ∨ p.AdmitsOneDay now.civil := by
  obtain ⟨weekdays, hminute, hhour, hmonth, ⟨hdayStar, hday⟩, ⟨hweekdayStar, hweekday⟩, hfold⟩ :=
    parse_eq_ok h hc
  obtain ⟨bminute, bhour, bmonth, bday⟩ := civil_bounds now
  have hclock : (c.minute.has now.civil.minute .every && c.hour.has now.civil.hour .every &&
      c.month.has now.civil.date.month .every) = true ↔ p.AdmitsClock now.civil := by
    have kminute : FieldKind.minute.contains now.civil.minute = true :=
      FieldKind.contains_iff.mpr ⟨Nat.zero_le _, Nat.le_of_lt_succ bminute⟩
    have khour : FieldKind.hour.contains now.civil.hour = true :=
      FieldKind.contains_iff.mpr ⟨Nat.zero_le _, Nat.le_of_lt_succ bhour⟩
    have kmonth : FieldKind.month.contains now.civil.date.month = true :=
      FieldKind.contains_iff.mpr bmonth
    rw [Bool.and_eq_true, Bool.and_eq_true, hminute.has_iff, hhour.has_iff, hmonth.has_iff]
    simp only [kminute, khour, kmonth, true_and]
    exact ⟨fun hadmits => ⟨hadmits.1.1, hadmits.1.2, hadmits.2⟩,
      fun hadmits => ⟨⟨hadmits.minute, hadmits.hour⟩, hadmits.month⟩⟩
  have hadmitsDay := admitsDay_iff hday bday
  have hadmitsWeekday : admitsWeekday c.dayOfWeek now.civil.date = true ↔
      p.AdmitsWeekday now.civil.weekday := by
    rw [hfold, admitsWeekday_iff hweekday, weekday_toDays]
    rfl
  have hstar : c.dayOfWeek.star = true ↔ p.dayOfWeek.IsStar := by rwa [hfold]
  have hdate := admitsDate_iff hadmitsDay hadmitsWeekday (fun hs => (hdayStar.mp hs).admits _ _)
    fun hs => .inl ((hstar.mp hs).admits _ _)
  rw [hdayStar, hstar] at hdate
  rw [matches?, Bool.and_eq_true, hclock, hdate]
  constructor
  · rintro ⟨hc, ⟨hd, hw⟩ | ⟨hr, hone⟩⟩
    · exact .inl ⟨hc, hd, hw⟩
    · exact .inr ⟨hc, hr, hone⟩
  · rintro (hall | hone)
    · exact ⟨hall.clock, .inl ⟨hall.day, hall.weekday⟩⟩
    · exact ⟨hone.clock, .inr ⟨hone.restricted, hone.one⟩⟩

end

end Workflow.Cron

namespace Workflow.Definition

open Workflow.Cron

/-- A workflow on a plain schedule is due exactly if it is enabled and every field of its schedule
admits the time in its own offset, or just one of two restricted fields for days does. -/
theorem isDue_iff (d : Definition) (now : Time.Zoned)
    (h : ∀ e, d.trigger = .schedule e → (∃ p : Pattern, p.Spells e) ∧ (parse e).isOk = true) :
    d.isDue now = true ↔
      d.enabled = true ∧ ∃ (e : String) (p : Pattern), d.trigger = .schedule e ∧ p.Spells e ∧
        (p.AdmitsAll now.civil ∨ p.AdmitsOneDay now.civil) := by
  rw [isDue, Bool.and_eq_true]
  refine and_congr_right fun _ => ?_
  cases htrigger : d.trigger with
  | manual => simp
  | webhook => simp
  | event name => simp
  | schedule e =>
      obtain ⟨⟨p, hp⟩, hok⟩ := h e htrigger
      cases hparse : parse e with
      | error _ =>
          rw [hparse] at hok
          cases hok
      | ok c =>
          simp only [hparse]
          constructor
          · exact fun hmatch => ⟨e, p, rfl, hp, (matches_iff hp hparse now).mp hmatch⟩
          · rintro ⟨e', q, he, hq, hadmits⟩
            cases he
            exact (matches_iff hq hparse now).mpr hadmits

/-- Midnight of each Friday the thirteenth, as its fields say. -/
def fridayThe13th : Pattern where
  minute := ⟨[.single ⟨['0'], by decide, Text.forall_of_all (by decide)⟩], by simp⟩
  hour := ⟨[.single ⟨['0'], by decide, Text.forall_of_all (by decide)⟩], by simp⟩
  dayOfMonth := ⟨[.single ⟨['1', '3'], by decide, Text.forall_of_all (by decide)⟩], by simp⟩
  month := ⟨[.star], by simp⟩
  dayOfWeek := ⟨[.single ⟨['5'], by decide, Text.forall_of_all (by decide)⟩], by simp⟩

/-- Friday, the sixth of September 2024, in UTC. -/
def fridayThe6th : Time.Zoned := ⟨⟨1725580800, 0⟩, 0⟩

/-- A schedule for each Friday the thirteenth makes workflows due on other Fridays. -/
theorem due_on_fridayThe6th :
    (create ⟨1⟩ "Days" (.schedule "0 0 13 * 5") [] []).isDue fridayThe6th = true ∧
      fridayThe13th.Spells "0 0 13 * 5" ∧ ¬ fridayThe13th.AdmitsAll fridayThe6th.civil := by
  have hspells : fridayThe13th.Spells "0 0 13 * 5" := by
    unfold Pattern.Spells
    decide +kernel
  have hday : ¬ fridayThe13th.dayOfMonth.Admits .dayOfMonth fridayThe6th.civil.date.day := by
    have hsix : fridayThe6th.civil.date.day = 6 := by decide +kernel
    rw [hsix]
    rintro ⟨i, hi, hadmits⟩
    obtain rfl := List.mem_singleton.mp hi
    exact absurd hadmits (by unfold Item.Admits; decide)
  have hweekday : fridayThe13th.AdmitsWeekday fridayThe6th.civil.weekday :=
    .inl ⟨_, List.mem_singleton.mpr rfl, by unfold Item.Admits; decide +kernel⟩
  have hone : fridayThe13th.AdmitsOneDay fridayThe6th.civil :=
    { clock :=
        { minute := ⟨_, List.mem_singleton.mpr rfl, by unfold Item.Admits; decide +kernel⟩
          hour := ⟨_, List.mem_singleton.mpr rfl, by unfold Item.Admits; decide +kernel⟩
          month := ⟨_, List.mem_singleton.mpr rfl, trivial⟩ }
      restricted :=
        ⟨by simp [Listing.IsStar, fridayThe13th], by simp [Listing.IsStar, fridayThe13th]⟩
      one := fun hboth => hday (hboth.mpr hweekday) }
  refine ⟨(isDue_iff _ fridayThe6th fun e he => ?_).mpr ⟨rfl, _, _, rfl, hspells, .inr hone⟩,
    hspells, fun hall => hday hall.day⟩
  cases he
  exact ⟨⟨_, hspells⟩, by decide +kernel⟩

end Workflow.Definition
