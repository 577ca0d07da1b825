import Mathlib.Tactic.Ring
import Workflow.Proofs.Decimal.Rounding

/-!
# Whole numbers as doubles

The double of a whole number below `2 ^ 64` has the value of the nearest number with 53 binary
digits.  So comparing two such doubles is comparing these two whole numbers.
-/

namespace Workflow.Decimal

open Float.Model Float.Model.UnpackedFloat

/-! ### Parts of a double -/

/-- A mantissa has all the binary digits that doubles have. -/
structure Full (m : Nat) : Prop where
  low : 2 ^ 52 ≤ m
  high : m < 2 ^ 53

section

variable {s : Sign} {m n k : Nat} {e : Int}

theorem Full.log2_eq (h : Full m) : m.log2 = 52 :=
  (Nat.log2_eq_iff (by have := h.low; omega)).mpr ⟨h.low, h.high⟩

theorem toNat_exponent (hn : n < 2047) : (BitVec.ofNat 11 n).toNat = n := by
  rw [BitVec.toNat_ofNat, Nat.mod_eq_of_lt (by omega)]

theorem toNat_mantissa (h : Full m) : (1#1 ++ BitVec.ofNat 52 m).toNat = m := by
  have := h.low
  have := h.high
  rw [BitVec.toNat_append, ← Nat.shiftLeft_add_eq_or_of_lt (BitVec.isLt _), BitVec.toNat_ofNat,
    BitVec.toNat_ofNat, Nat.shiftLeft_eq]
  omega

/-- The sign of a double is its first digit. -/
theorem ofBitVec_unpackSign (s : Sign) (exponent : BitVec 11) (mantissa : BitVec 52) :
    Sign.ofBitVec (unpackSign (packComponents Format.binary64 s exponent mantissa)) = s := by
  have hdigit : unpackSign (packComponents Format.binary64 s exponent mantissa) = s.toBitVec := by
    change (s.toBitVec ++ exponent ++ mantissa).extractLsb' 63 1 = s.toBitVec
    rw [BitVec.extractLsb'_append_eq_of_le (by decide),
      BitVec.extractLsb'_append_eq_of_le (by decide)]
    exact BitVec.extractLsb'_eq_self
  rw [hdigit]
  cases s <;> rfl

/-- The digits of a double with a full mantissa. -/
theorem pack_full (s : Sign) {stored : Nat} (hm : 0 < m) (hfull : Full m)
    (hstored : stored < 2047) :
    UnpackedFloat.pack Format.binary64 (.finite s m (stored - 1075) hm) =
      packComponents Format.binary64 s (BitVec.ofNat 11 stored) (BitVec.ofNat 52 m) := by
  have hexponent : ((stored : Int) - 1075 + (1023 : Nat) + (52 : Nat)).toNat = stored := by omega
  have hlog : m.log2 + 1 = 53 := by rw [hfull.log2_eq]
  change (if 2048 ≤ ((stored : Int) - 1075 + (1023 : Nat) + (52 : Nat)).toNat + 1 then _
    else if m.log2 + 1 = 53 then packComponents Format.binary64 s (BitVec.ofNat 11
      ((stored : Int) - 1075 + (1023 : Nat) + (52 : Nat)).toNat) _ else _) = _
  rw [hexponent, if_neg (by omega), if_pos hlog]

/-- Digits stand for a finite double, unless the exponent is the least or the greatest one. -/
theorem unpack_components (s : Sign) {stored : Nat} (hm : 0 < m) (hfull : Full m)
    (hlow : 0 < stored) (hhigh : stored < 2047) :
    UnpackedFloat.unpack Format.binary64
        (packComponents Format.binary64 s (BitVec.ofNat 11 stored) (BitVec.ofNat 52 m)) =
      .finite s m (stored - 1075) hm := by
  have hstored : (BitVec.ofNat 11 stored).toNat = stored := toNat_exponent hhigh
  have hfinite : BitVec.ofNat 11 stored ≠ -1#11 := by
    rintro h
    rw [h] at hstored
    change 2047 = stored at hstored
    omega
  have hnormal : BitVec.ofNat 11 stored ≠ 0#11 := by
    rintro h
    rw [h] at hstored
    change 0 = stored at hstored
    omega
  obtain ⟨digits, hdigits⟩ : ∃ digits, packComponents Format.binary64 s (BitVec.ofNat 11 stored)
      (BitVec.ofNat 52 m) = digits := ⟨_, rfl⟩
  have hsign : Sign.ofBitVec (unpackSign digits) = s := by
    rw [← hdigits]
    exact ofBitVec_unpackSign s _ _
  have hexponent : unpackExponent digits = BitVec.ofNat 11 stored := by
    rw [← hdigits]
    exact unpackExponent_packComponents
  have hmantissa : unpackMantissa digits = BitVec.ofNat 52 m := by
    rw [← hdigits]
    exact unpackMantissa_packComponents
  rw [hdigits]
  change (if unpackExponent digits = -1#11 then _ else if unpackExponent digits = 0#11 then _
    else _) = _
  rw [if_neg (hexponent ▸ hfinite), if_neg (hexponent ▸ hnormal), UnpackedFloat.finite.injEq]
  refine ⟨hsign, ?_, ?_⟩
  · rw [hmantissa]
    exact toNat_mantissa hfull
  · change ((unpackExponent digits).toNat : Int) - (1023 + 52 : Nat) = stored - 1075
    rw [hexponent, hstored]
    rfl

/-- A double with a full mantissa is put together without loss. -/
theorem unpack_pack (hm : 0 < m) (hfull : Full m) (he : -1074 ≤ e) (he' : e ≤ 971) :
    (Float.Model.pack (.finite s m e hm)).unpack = .finite s m e hm := by
  obtain ⟨stored, rfl⟩ : ∃ stored : Nat, e = stored - 1075 := ⟨(e + 1075).toNat, by omega⟩
  change UnpackedFloat.unpack Format.binary64 (UnpackedFloat.pack Format.binary64 _) = _
  rw [pack_full s hm hfull (by omega), unpack_components s hm hfull (by omega) (by omega)]

theorem unpack_pack_zero (s : Sign) : (Float.Model.pack (.zero s)).unpack = .zero s := by
  cases s <;> rfl

/-! ### Rounding -/

/-- What is left of a number when its last digits are shifted out, and what is known of these. -/
theorem shiftRight_succ (n k : Nat) :
    (ExtendedMantissa.mk n false false) >>> (k + 1) =
      ⟨n / 2 ^ (k + 1), n / 2 ^ k % 2 != 0, n % 2 ^ k != 0⟩ := by
  induction k with
  | zero =>
      change ExtendedMantissa.shiftRightOne ⟨n, false, false⟩ = _
      simp [ExtendedMantissa.shiftRightOne, Nat.mod_one]
  | succ k ih =>
      have hrest : (n / 2 ^ k % 2 != 0 || n % 2 ^ k != 0) = (n % 2 ^ (k + 1) != 0) := by
        rw [Nat.mod_pow_succ, Bool.eq_iff_iff]
        simp
        tauto
      change ExtendedMantissa.shiftRightOne ((ExtendedMantissa.mk n false false) >>> (k + 1)) = _
      rw [ih, ExtendedMantissa.shiftRightOne]
      simp only [hrest, Nat.div_div_eq_div_mul, ← Nat.pow_succ]

theorem roundedMantissa_shiftRight (n k : Nat) :
    ((ExtendedMantissa.mk n false false) >>> k).roundedMantissa = roundedQuotient n k := by
  cases k with
  | zero =>
      rw [roundedQuotient_zero]
      rfl
  | succ k =>
      have hrest : n % 2 ^ (k + 1) = n % 2 ^ k + 2 ^ k * (n / 2 ^ k % 2) := Nat.mod_pow_succ
      have hless := Nat.mod_lt n (Nat.two_pow_pos k)
      have htwice : 2 ^ (k + 1) = 2 * 2 ^ k := Nat.pow_succ'
      rw [shiftRight_succ, roundedQuotient]
      -- The first digit shifted out says on which side of the middle the rest is, and the others
      -- whether it is in the middle.
      rcases Nat.mod_two_eq_zero_or_one (n / 2 ^ k) with hbit | hbit
      · rw [hbit] at hrest
        rw [hbit, if_pos (by omega)]
        cases (n % 2 ^ k != 0) <;> rfl
      · rw [hbit] at hrest
        by_cases hzero : n % 2 ^ k = 0
        · rw [hbit, hzero, if_neg (by omega), if_pos (by omega)]
          rfl
        · rw [hbit, bne_iff_ne.mpr hzero, if_neg (by omega), if_neg (by omega)]
          rfl

/-- The exponent that leaves a mantissa with all digits. -/
theorem targetExponent_eq (hm : m.log2 = 52 + k) (he : -1074 ≤ e + k) :
    Format.binary64.targetExponent (totalExponent m e) = e + k := by
  rw [Format.targetExponent, totalExponent, hm]
  change max (((52 + k : Nat) : Int) + 1 + e - (53 : Nat)) (-1074) = e + k
  omega

theorem shiftToTargetExponent_eq (hm : m.log2 = 52 + k) (he : -1074 ≤ e + k) :
    shiftToTargetExponent Format.binary64 m e .exact =
      ((ExtendedMantissa.mk m false false) >>> k, e + k) := by
  have hshift : (e + k - e).toNat = k := by omega
  rw [shiftToTargetExponent]
  simp only [targetExponent_eq hm he, shiftToExponent, hshift]
  rfl

/-- Rounding shifts twice, the second time for a carry that the first has left. -/
theorem roundWithAccuracy_of_shifts (s : Sign) {first last : ExtendedMantissa} {e' e'' : Int}
    (hfirst : shiftToTargetExponent Format.binary64 m e .exact = (first, e'))
    (hrounded : first.roundedMantissa = n)
    (hlast : shiftToTargetExponent Format.binary64 n e' .exact = (last, e''))
    (hpos : 0 < last.mantissa) :
    roundWithAccuracy Format.binary64 s m e .exact = .finite s last.mantissa e'' hpos := by
  rw [roundWithAccuracy, hfirst]
  dsimp only
  rw [hrounded, hlast]
  exact dif_neg hpos.ne'

/-- A number is rounded to one with a full mantissa; a carry beyond that goes to the exponent. -/
theorem roundWithAccuracy_eq (s : Sign) (hm : m.log2 = 52 + k) (he : -1074 ≤ e + k) :
    ∃ (m' j : Nat) (hm' : 0 < m'),
      roundWithAccuracy Format.binary64 s m e .exact = .finite s m' (e + k + j) hm' ∧
        Full m' ∧ j ≤ 1 ∧ m' * 2 ^ j = roundedQuotient m k := by
  have hne : m ≠ 0 := by
    rintro rfl
    rw [Nat.log2_zero] at hm
    omega
  have hcount : 2 ^ 52 ≤ m / 2 ^ k ∧ m / 2 ^ k < 2 ^ 53 := by
    obtain ⟨hlow, hhigh⟩ := (Nat.log2_eq_iff hne).mp hm
    rw [Nat.le_div_iff_mul_le (Nat.two_pow_pos k), Nat.div_lt_iff_lt_mul (Nat.two_pow_pos k),
      ← Nat.pow_add, ← Nat.pow_add]
    exact ⟨hlow, hhigh.trans_le (Nat.pow_le_pow_right Nat.two_pos (by omega))⟩
  have hlow := hcount.1.trans (div_le_roundedQuotient m k)
  have hhigh : roundedQuotient m k ≤ 2 ^ 53 := (roundedQuotient_le m k).trans hcount.2
  have hfirst := shiftToTargetExponent_eq hm he
  have hrounded := roundedMantissa_shiftRight m k
  obtain ⟨r, hr⟩ : ∃ r, roundedQuotient m k = r := ⟨_, rfl⟩
  rw [hr] at hlow hhigh hrounded ⊢
  rcases hhigh.lt_or_eq with hlt | rfl
  · have hlog : r.log2 = 52 + 0 := (Full.mk hlow hlt).log2_eq
    have hpos : 0 < r := by omega
    have hlast := shiftToTargetExponent_eq hlog (e := e + k) (by omega)
    refine ⟨r, 0, hpos, ?_, ⟨hlow, hlt⟩, by omega, by omega⟩
    exact roundWithAccuracy_of_shifts s hfirst hrounded hlast hpos
  · have hlog : (2 ^ 53).log2 = 52 + 1 := by decide
    have hlast := shiftToTargetExponent_eq hlog (e := e + k) (by omega)
    refine ⟨2 ^ 52, 1, by omega, ?_, ⟨by omega, by omega⟩, by omega, by omega⟩
    exact roundWithAccuracy_of_shifts s hfirst hrounded hlast (by decide)

/-! ### Whole numbers -/

/-- A full mantissa and an exponent make up a whole number. -/
structure Parts (m : Nat) (e : Int) (n : Nat) : Prop where
  full : Full m
  low : -52 ≤ e
  value : m * 2 ^ (e + 52).toNat = n * 2 ^ 52

theorem Parts.pow_le (h : Parts m e n) : 2 ^ (e + 52).toNat ≤ n := by
  have hlowest := Nat.mul_le_mul_right (2 ^ (e + 52).toNat) h.full.low
  have hvalue := h.value
  omega

/-- The exponent is no greater than the value allows. -/
theorem Parts.exponent_lt (h : Parts m e n) (hn : n < 2 ^ k) : (e + 52).toNat < k :=
  (Nat.pow_lt_pow_iff_right Nat.one_lt_two).mp (h.pow_le.trans_lt hn)

/-- A double has the value of a whole number. -/
inductive Holds : UnpackedFloat → Int → Prop where
  | zero (s : Sign) : Holds (.zero s) 0
  | finite (s : Sign) {m n : Nat} {e : Int} (hm : 0 < m) (h : Parts m e n) :
      Holds (.finite s m e hm) (s.apply n)

theorem natAbs_apply (s : Sign) (n : Nat) : (s.apply n).natAbs = n := by
  cases s
  · exact Int.natAbs_neg n
  · rfl

/-- What is rounded to a whole number has its value as a double. -/
theorem holds_round (s : Sign) (hm : m.log2 = 52 + k) (hlow : -52 ≤ e + k) (hhigh : e + k ≤ 970)
    (hvalue : roundedQuotient m k * 2 ^ (e + k + 52).toNat = n * 2 ^ 52) :
    Holds (Float.Model.pack (roundWithAccuracy Format.binary64 s m e .exact)).unpack
      (s.apply n) := by
  obtain ⟨m', j, hm', hround, hfull, hj, hcarry⟩ :=
    roundWithAccuracy_eq s hm (e := e) (by omega)
  rw [hround, unpack_pack hm' hfull (by omega) (by omega)]
  refine .finite s hm' ⟨hfull, by omega, ?_⟩
  have hsum : (e + k + j + 52).toNat = j + (e + k + 52).toNat := by omega
  rw [hsum, Nat.pow_add, ← Nat.mul_assoc, hcarry, hvalue]

theorem log2_mul_two_pow (hn : 0 < n) (c : Nat) : (n * 2 ^ c).log2 = n.log2 + c := by
  rw [Nat.log2_eq_iff (Nat.mul_pos hn (Nat.two_pow_pos c)).ne', Nat.pow_add, Nat.add_right_comm,
    Nat.pow_add, Nat.mul_le_mul_right_iff (Nat.two_pow_pos c),
    Nat.mul_lt_mul_right (Nat.two_pow_pos c)]
  exact ⟨Nat.log2_self_le hn.ne', Nat.lt_log2_self⟩

/-- A small number is shifted up to a full mantissa, and then rounded. -/
theorem ofUInt64_eq {c : Nat} (hpos : 0 < n) (hc : n.log2 + c = 52) :
    UnpackedFloat.ofUInt64 Format.binary64 n.toUInt64 =
      roundWithAccuracy Format.binary64 .positive (n * 2 ^ c) (-c) .exact := by
  have hlt : n < 2 ^ 53 := (Nat.log2_lt hpos.ne').mp (by omega)
  have hnat : n.toUInt64.toNat = n := Nat.mod_eq_of_lt (by omega)
  have hsigned : compare (n : Int) 0 = .gt := compare_gt_iff_gt.mpr (by omega)
  have htarget : Format.binary64.targetExponent (totalExponent n 0) = -c := by
    change max ((n.log2 : Int) + 1 + 0 - (53 : Nat)) (-1074) = -c
    omega
  have hshift : (0 - -(c : Int)).toNat = c := by omega
  change UnpackedFloat.normalize Format.binary64 (n.toUInt64.toNat : Int) 0 .positive = _
  rw [hnat, UnpackedFloat.normalize, hsigned]
  simp only [UnpackedFloat.round, Int.toNat_natCast, htarget, decreaseExponent, hshift,
    Nat.shiftLeft_eq]
  rw [Int.zero_sub]

theorem holds_toFloat (hpos : 0 < n) (hn : n < 2 ^ 53) :
    Holds n.toUInt64.toFloat.toModel.unpack n := by
  have hlog : n.log2 ≤ 52 := Nat.lt_succ_iff.mp ((Nat.log2_lt hpos.ne').mpr hn)
  obtain ⟨c, hc⟩ : ∃ c, n.log2 + c = 52 := ⟨52 - n.log2, by omega⟩
  have hscale : c + (-(c : Int) + (0 : Nat) + 52).toNat = 52 := by omega
  change Holds (Float.Model.pack (UnpackedFloat.ofUInt64 Format.binary64 n.toUInt64)).unpack _
  rw [ofUInt64_eq hpos hc]
  refine holds_round .positive (k := 0) (by rw [log2_mul_two_pow hpos, hc]) (by omega) (by omega) ?_
  rw [roundedQuotient_zero, Nat.mul_assoc, ← Nat.pow_add, hscale]

theorem zero_mul_finite (s s' : Sign) (hm : 0 < m) (e : Int) :
    UnpackedFloat.mul Format.binary64 (.zero s) (.finite s' m e hm) = .zero (s * s') := rfl

theorem finite_mul_finite (s s' : Sign) (hm : 0 < m) (hn : 0 < n) (e e' : Int) :
    UnpackedFloat.mul Format.binary64 (.finite s m e hm) (.finite s' n e' hn) =
      roundWithAccuracy Format.binary64 (s * s') (m * n) (e + e') .exact := rfl

/-- Nothing changes when a small whole number is multiplied by one. -/
theorem holds_mul_one {x : UnpackedFloat} {i : Int} (h : Holds x i) (hi : i.natAbs < 2 ^ 53) :
    Holds (Float.Model.pack (UnpackedFloat.mul Format.binary64 x
      (.finite .positive (2 ^ 52) (-52) (by decide)))).unpack i := by
  have hsign (s : Sign) : s * .positive = s := by cases s <;> rfl
  cases h with
  | zero s =>
      rw [zero_mul_finite, hsign, unpack_pack_zero]
      exact .zero s
  | @finite s m n e hm h =>
      rw [natAbs_apply] at hi
      have hlow := h.low
      have hexponent := h.exponent_lt hi
      have hlog : (m * 2 ^ 52).log2 = 52 + 52 := by rw [log2_mul_two_pow hm, h.full.log2_eq]
      have hplaces : e + -52 + (52 : Nat) + 52 = e + 52 := by omega
      rw [finite_mul_finite, hsign]
      refine holds_round s hlog (by omega) (by omega) ?_
      rw [hplaces, ← Nat.zero_add 52, roundedQuotient_mul, roundedQuotient_zero]
      exact h.value

/-- A number without an exponent is rounded with 53 zeros behind it. -/
theorem ofScientific_eq (hpos : 0 < n) :
    UnpackedFloat.ofScientific Format.binary64 n 0 =
      roundWithAccuracy Format.binary64 .positive (n * 2 ^ 53) (-53) .exact := by
  have hrange : ¬ (0 : Int) < -(2 ^ Format.binary64.exponentBits + n.log2) := by
    change ¬ (0 : Int) < -(2048 + n.log2)
    omega
  rw [UnpackedFloat.ofScientific, dif_neg hpos.ne', if_neg (by decide), if_neg hrange,
    if_pos le_rfl]
  change roundWithAccuracy Format.binary64 .positive (n <<< 53 * 1) (-53) .exact = _
  rw [Nat.mul_one, Nat.shiftLeft_eq]

theorem holds_ofScientific (hn : 2 ^ 53 ≤ n) (hhigh : n < 2 ^ 64) :
    Holds (Float.Model.ofScientific n 0).unpack (roundedNat n) := by
  have hpos : 0 < n := by omega
  have hlog := (Nat.le_log2 hpos.ne').mpr hn
  have hlog' := (Nat.log2_lt hpos.ne').mpr hhigh
  have hzeros := log2_mul_two_pow hpos 53
  have hplaces : ((-53 : Int) + (surplus n + 53 : Nat) + 52).toNat = surplus n + 52 := by omega
  have hsurplus : surplus n = n.log2 - 52 := rfl
  change Holds (Float.Model.pack (UnpackedFloat.ofScientific Format.binary64 n 0)).unpack _
  rw [ofScientific_eq hpos]
  refine holds_round .positive (k := surplus n + 53) (by omega) (by omega) (by omega) ?_
  rw [roundedQuotient_mul, hplaces, roundedNat, Nat.pow_add, Nat.mul_assoc]

/-- The double of a natural number has the value of the nearest number with 53 digits. -/
theorem holds_ofNat (hn : n < 2 ^ 64) : Holds (Float.ofNat n).toModel.unpack (roundedNat n) := by
  rcases Nat.eq_zero_or_pos n with rfl | hpos
  · exact Holds.zero .positive
  rcases Nat.lt_or_ge n (2 ^ 53) with hsmall | hlarge
  · -- The double of a small number is a product with a power of ten, here with one.
    have hfloat : Float.ofNat n =
        n.toUInt64.toFloat * Float.exactlyRepresentablePowersOfTen[0] :=
      dif_pos ⟨hsmall, Nat.zero_le 22⟩
    rw [hfloat, roundedNat_of_le hsmall.le]
    exact holds_mul_one (holds_toFloat hpos hsmall) hsmall
  · have hfloat : Float.ofNat n = ⟨Float.Model.ofScientific n 0⟩ :=
      dif_neg fun h => Nat.not_lt.mpr hlarge h.1
    rw [hfloat]
    exact holds_ofScientific hlarge hn

theorem neg_apply (s : Sign) (i : Int) : -s.apply i = (-s).apply i := by
  cases s
  · exact Int.neg_neg i
  · rfl

theorem holds_neg {x : UnpackedFloat} {i : Int} (h : Holds x i) (hi : i.natAbs < 2 ^ 65) :
    Holds (Float.Model.pack x.neg).unpack (-i) := by
  cases h with
  | zero s =>
      change Holds (Float.Model.pack (.zero (-s))).unpack 0
      rw [unpack_pack_zero]
      exact .zero (-s)
  | finite s hm h =>
      rw [natAbs_apply] at hi
      have hlow := h.low
      have hexponent := h.exponent_lt hi
      change Holds (Float.Model.pack (.finite (-s) _ _ hm)).unpack _
      rw [unpack_pack hm h.full (by omega) (by omega), neg_apply]
      exact .finite (-s) hm h

/-- The double of a whole number has the value of the nearest number with 53 digits. -/
theorem holds_ofInt {i : Int} (hi : i.natAbs < 2 ^ 64) :
    Holds (Float.ofInt i).toModel.unpack (rounded i) := by
  cases i with
  | ofNat n => exact holds_ofNat hi
  | negSucc n =>
      have hn : n + 1 < 2 ^ 64 := hi
      have hlargest : roundedNat (n + 1) ≤ roundedNat (2 ^ 64) := roundedNat_mono hn.le
      have hself : roundedNat (2 ^ 64) = 2 ^ 64 := by decide
      exact holds_neg (holds_ofNat hn) (by rw [Int.natAbs_natCast]; omega)

/-! ### Comparisons -/

section

variable {m' n' : Nat} {e' : Int} (h : Parts m e n) (h' : Parts m' e' n')

include h h'

/-- The greater exponent decides, since mantissas are full. -/
theorem Parts.lt (he : e < e') : n < n' := by
  have hlow := h.low
  have hscale : n * 2 ^ 52 < n' * 2 ^ 52 :=
    calc n * 2 ^ 52 = m * 2 ^ (e + 52).toNat := h.value.symm
      _ < 2 ^ 53 * 2 ^ (e + 52).toNat :=
        Nat.mul_lt_mul_of_pos_right h.full.high (Nat.two_pow_pos _)
      _ = 2 ^ 52 * 2 ^ ((e + 52).toNat + 1) := by ring
      _ ≤ 2 ^ 52 * 2 ^ (e' + 52).toNat :=
        Nat.mul_le_mul_left _ (Nat.pow_le_pow_right Nat.two_pos (by omega))
      _ ≤ m' * 2 ^ (e' + 52).toNat := Nat.mul_le_mul_right _ h'.full.low
      _ = n' * 2 ^ 52 := h'.value
  exact Nat.lt_of_mul_lt_mul_right hscale

theorem Parts.compare_eq : (compare e e').then (compare m m') = compare (n : Int) n' := by
  rcases lt_trichotomy e e' with he | rfl | he
  · have hn := h.lt h' he
    rw [compare_lt_iff_lt.mpr he, compare_lt_iff_lt.mpr (Int.ofNat_lt.mpr hn)]
    rfl
  · have hm : compare m m' = compare n n' := by
      rw [← cmp_eq_compare, ← cmp_eq_compare, ← cmp_mul_pos_right (Nat.two_pow_pos (e + 52).toNat),
        h.value, h'.value, cmp_mul_pos_right (Nat.two_pow_pos 52)]
    rw [compare_eq_iff_eq.mpr rfl, Ordering.eq_then, hm, ← cmp_eq_compare, ← cmp_eq_compare]
    exact (Int.natCast_strictMono.cmp_map_eq n n').symm
  · have hn := h'.lt h he
    rw [compare_gt_iff_gt.mpr he, compare_gt_iff_gt.mpr (Int.ofNat_lt.mpr hn)]
    rfl

end

theorem Parts.negative_neg (h : Parts m e n) : Sign.negative.apply n < 0 := by
  have hpos := (Nat.two_pow_pos _).trans_le h.pow_le
  exact Int.neg_neg_of_pos (Int.natCast_pos.mpr hpos)

theorem Parts.positive_pos (h : Parts m e n) : 0 < Sign.positive.apply n := by
  have hpos := (Nat.two_pow_pos _).trans_le h.pow_le
  exact Int.natCast_pos.mpr hpos

theorem swap_compare (i j : Int) : (compare i j).swap = compare (-i) (-j) := by
  have hneg : StrictAnti fun i : Int => -i := fun _ _ h => Int.neg_lt_neg h
  rw [← cmp_eq_compare, ← cmp_eq_compare, cmp_swap]
  exact (hneg.cmp_map_eq i j).symm

/-- Doubles compare as their values do. -/
theorem Holds.compare_eq {x y : UnpackedFloat} {i j : Int} (hx : Holds x i) (hy : Holds y j) :
    x.compare y = some (compare i j) := by
  cases hx with
  | zero s =>
      cases hy with
      | zero s' => rfl
      | finite s' hm' h' =>
          cases s' with
          | negative => exact congrArg some (compare_gt_iff_gt.mpr h'.negative_neg).symm
          | positive => exact congrArg some (compare_lt_iff_lt.mpr h'.positive_pos).symm
  | finite s hm h =>
      cases hy with
      | zero s' =>
          cases s with
          | negative => exact congrArg some (compare_lt_iff_lt.mpr h.negative_neg).symm
          | positive => exact congrArg some (compare_gt_iff_gt.mpr h.positive_pos).symm
      | finite s' hm' h' =>
          cases s with
          | negative =>
              cases s' with
              | negative =>
                  exact congrArg some ((congrArg _ (h.compare_eq h')).trans (swap_compare _ _))
              | positive =>
                  have hlt := h.negative_neg.trans h'.positive_pos
                  exact congrArg some (compare_lt_iff_lt.mpr hlt).symm
          | positive =>
              cases s' with
              | negative =>
                  have hlt := h'.negative_neg.trans h.positive_pos
                  exact congrArg some (compare_gt_iff_gt.mpr hlt).symm
              | positive => exact congrArg some (h.compare_eq h')

end

section

variable {i j : Int} (hi : i.natAbs < 2 ^ 64) (hj : j.natAbs < 2 ^ 64)

include hi hj

theorem compare_ofInt : (Float.ofInt i).toModel.unpack.compare (Float.ofInt j).toModel.unpack =
    some (compare (rounded i) (rounded j)) :=
  (holds_ofInt hi).compare_eq (holds_ofInt hj)

theorem ofInt_beq : (Float.ofInt i == Float.ofInt j) = decide (rounded i = rounded j) := by
  change (UnpackedFloat.compare _ _ == some .eq) = _
  rw [compare_ofInt hi hj, Bool.eq_iff_iff, beq_iff_eq, decide_eq_true_iff, Option.some.injEq,
    compare_eq_iff_eq]

theorem ofInt_lt : Float.ofInt i < Float.ofInt j ↔ rounded i < rounded j := by
  change decide ((UnpackedFloat.compare _ _ == some .lt) = true) = true ↔ _
  rw [compare_ofInt hi hj, decide_eq_true_iff, beq_iff_eq, Option.some.injEq, compare_lt_iff_lt]

theorem ofInt_le : Float.ofInt i ≤ Float.ofInt j ↔ rounded i ≤ rounded j := by
  change decide ((UnpackedFloat.compare _ _).any (·.isLE) = true) = true ↔ _
  rw [compare_ofInt hi hj, decide_eq_true_iff, Option.any_some, Ordering.isLE_iff_ne_gt,
    compare_gt_iff_gt, not_lt]

end

end Workflow.Decimal
