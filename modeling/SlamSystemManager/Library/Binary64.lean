import Mathlib.Data.Int.Log
import Mathlib.Data.Rat.Floor
import Mathlib.Tactic.IntervalCases
import Mathlib.Tactic.Ring
import SlamSystemManager.Library.Rounding

/-!
# Rounding to binary64

The rounding of a `double` in the default mode: to the nearest multiple of the last place, and to
the even one of two that are equally near. The last place of a value with leading digit `2 ^ e` is
`2 ^ (e - 52)`, but never less than `2 ^ (-1074)`; a result of magnitude `2 ^ 1024` or more is out
of range. Both functions compute, so an operation on two doubles can be evaluated.
-/

namespace Numeric

namespace Binary64

/-- The exponent of the last place of a value. -/
def placeExponent (x : ℚ) : ℤ := max (Int.log 2 |x|) (-1022) - 52

/-- The distance between two neighbouring doubles around a value. -/
def place (x : ℚ) : ℚ := 2 ^ placeExponent x

/-- The nearest integer, and the even one of two. -/
def roundEven (r : ℚ) : ℤ :=
  if Int.fract r < 1 / 2 ∨ (Int.fract r = 1 / 2 ∧ Even ⌊r⌋) then ⌊r⌋ else ⌊r⌋ + 1

def nearest (x : ℚ) : ℚ := roundEven (x / place x) * place x

def overflows (x : ℚ) : Bool := decide (2 ^ 1024 ≤ |x|)

/-! ## Rounding to an integer -/

@[simp] theorem roundEven_intCast (n : ℤ) : roundEven n = n := by
  simp [roundEven]

theorem floor_le_roundEven (r : ℚ) : ⌊r⌋ ≤ roundEven r := by
  unfold roundEven
  split_ifs <;> omega

theorem roundEven_le_floor_add_one (r : ℚ) : roundEven r ≤ ⌊r⌋ + 1 := by
  unfold roundEven
  split_ifs <;> omega

theorem roundEven_mono {r s : ℚ} (h : r ≤ s) : roundEven r ≤ roundEven s := by
  obtain hlt | heq := (Int.floor_le_floor h).lt_or_eq
  · calc
      roundEven r ≤ ⌊r⌋ + 1 := roundEven_le_floor_add_one r
      _ ≤ ⌊s⌋ := hlt
      _ ≤ roundEven s := floor_le_roundEven s
  · -- between the same two integers the fractional parts are in order
    have hfract : Int.fract r ≤ Int.fract s := by
      rw [Int.fract, Int.fract, heq]
      linarith
    unfold roundEven
    rw [heq]
    split_ifs with hr hs hs
    · exact le_rfl
    · omega
    · exfalso
      apply hr
      obtain hsmall | ⟨hhalf, heven⟩ := hs
      · exact Or.inl (hfract.trans_lt hsmall)
      · obtain hless | hequal := hfract.lt_or_eq
        · exact Or.inl (hhalf ▸ hless)
        · exact Or.inr ⟨hequal.trans hhalf, heven⟩
    · exact le_rfl

theorem roundEven_neg (r : ℚ) : roundEven (-r) = -roundEven r := by
  by_cases hinteger : Int.fract r = 0
  · obtain ⟨n, rfl⟩ := Int.fract_eq_zero_iff.mp hinteger
    rw [← Int.cast_neg, roundEven_intCast, roundEven_intCast]
  · have hfract : Int.fract (-r) = 1 - Int.fract r := Int.fract_neg hinteger
    have hfloor : ⌊-r⌋ = -⌊r⌋ - 1 := by
      have hnot : r ∉ Set.range ((↑) : ℤ → ℚ) := Int.fract_ne_zero_iff.mp hinteger
      rw [Int.floor_neg, (Int.ceil_eq_floor_add_one_iff_notMem r).mpr hnot]
      ring
    have hparity : Even (-⌊r⌋ - 1) ↔ ¬Even ⌊r⌋ := by
      rw [Int.even_sub_one, even_neg]
    unfold roundEven
    simp only [hfract, hfloor, hparity]
    obtain hlow | hhalf | hhigh := lt_trichotomy (Int.fract r) (1 / 2)
    · have hother : ¬1 - Int.fract r < 1 / 2 := by linarith
      have hne : 1 - Int.fract r ≠ 1 / 2 := by linarith
      simp only [hlow, hother, hne, true_or, false_and, or_self, if_true, if_false]
      ring
    · by_cases heven : Even ⌊r⌋
      · norm_num [hhalf, heven]
      · norm_num [hhalf, heven]
        ring
    · have hother : 1 - Int.fract r < 1 / 2 := by linarith
      have hne : Int.fract r ≠ 1 / 2 := hhigh.ne'
      simp only [hhigh.not_gt, hother, hne, true_or, false_and, or_self, if_true, if_false]
      ring

theorem abs_roundEven_le {r : ℚ} {n : ℤ} (h : |r| ≤ n) : |roundEven r| ≤ n := by
  obtain ⟨hlow, hhigh⟩ := abs_le.mp h
  rw [abs_le]
  constructor
  · calc
      -n = roundEven (-n : ℤ) := (roundEven_intCast _).symm
      _ ≤ roundEven r := roundEven_mono (by simpa using hlow)
  · calc
      roundEven r ≤ roundEven n := roundEven_mono hhigh
      _ = n := roundEven_intCast n

/-! ## The last place -/

theorem place_pos (x : ℚ) : 0 < place x := zpow_pos two_pos _

theorem le_placeExponent (x : ℚ) : -1074 ≤ placeExponent x := by
  unfold placeExponent
  omega

@[simp] theorem placeExponent_neg (x : ℚ) : placeExponent (-x) = placeExponent x := by
  rw [placeExponent, placeExponent, abs_neg]

@[simp] theorem place_neg (x : ℚ) : place (-x) = place x := by
  rw [place, place, placeExponent_neg]

/-- A value is less than `2 ^ 53` of its last places. -/
theorem abs_lt_place (x : ℚ) : |x| < 2 ^ 53 * place x := by
  have hlog : |x| < (2 : ℚ) ^ (Int.log 2 |x| + 1) := by
    exact_mod_cast Int.lt_zpow_succ_log_self one_lt_two |x|
  calc
    |x| < (2 : ℚ) ^ (Int.log 2 |x| + 1) := hlog
    _ ≤ (2 : ℚ) ^ (53 + placeExponent x) := by
      apply zpow_le_zpow_right₀ one_le_two
      unfold placeExponent
      omega
    _ = 2 ^ 53 * place x := by
      rw [zpow_add₀ two_ne_zero, place]
      norm_cast

theorem placeExponent_le {x : ℚ} {e : ℤ} (hne : x ≠ 0) (he : -1074 ≤ e)
    (h : |x| < 2 ^ (53 + e)) : placeExponent x ≤ e := by
  have hlog : Int.log 2 |x| < 53 + e := by
    apply (Int.lt_zpow_iff_log_lt one_lt_two (abs_pos.mpr hne)).mp
    exact_mod_cast h
  unfold placeExponent
  omega

theorem placeExponent_mono {x y : ℚ} (hx : 0 < x) (h : x ≤ y) :
    placeExponent x ≤ placeExponent y := by
  have hlog : Int.log 2 |x| ≤ Int.log 2 |y| := by
    apply Int.log_mono_right (abs_pos.mpr hx.ne')
    rwa [abs_of_pos hx, abs_of_pos (hx.trans_le h)]
  unfold placeExponent
  omega

/-- A last place beyond the smallest one belongs to the leading digit. -/
theorem le_of_lt_placeExponent {x : ℚ} (hx : 0 < x) (h : -1074 < placeExponent x) :
    2 ^ 52 * place x ≤ x := by
  have hexponent : Int.log 2 |x| = 52 + placeExponent x := by
    unfold placeExponent at h ⊢
    omega
  calc
    2 ^ 52 * place x = (2 : ℚ) ^ Int.log 2 |x| := by
      rw [hexponent, zpow_add₀ two_ne_zero, place]
      norm_cast
    _ ≤ |x| := by exact_mod_cast Int.zpow_log_le_self one_lt_two (abs_pos.mpr hx.ne')
    _ = x := abs_of_pos hx

/-! ## Rounding to a double -/

@[simp] theorem nearest_zero : nearest 0 = 0 := by
  simp [nearest, roundEven]

theorem nearest_neg (x : ℚ) : nearest (-x) = -nearest x := by
  rw [nearest, nearest, place_neg, neg_div, roundEven_neg]
  push_cast
  ring

/-- A multiple of its last place is kept. -/
theorem nearest_of_multiple {x : ℚ} {n e : ℤ} (he : placeExponent x ≤ e)
    (hx : x = n * 2 ^ e) : nearest x = x := by
  have hplaces : x / place x = ((n * 2 ^ (e - placeExponent x).toNat : ℤ) : ℚ) := by
    have hsplit : (2 : ℚ) ^ e = 2 ^ (e - placeExponent x).toNat * place x := by
      rw [place, ← zpow_natCast, ← zpow_add₀ two_ne_zero, Int.toNat_of_nonneg (by omega)]
      congr 1
      ring
    rw [div_eq_iff (place_pos x).ne']
    push_cast
    rw [mul_assoc, ← hsplit, ← hx]
  rw [nearest, hplaces, roundEven_intCast, ← hplaces, div_mul_cancel₀ _ (place_pos x).ne']

/-- An integer below `2 ^ 53` times a power of two is a double, if it is not too small. -/
theorem nearest_of_abs_lt {n e : ℤ} (hn : |n| < 2 ^ 53) (he : -1074 ≤ e) :
    nearest (n * 2 ^ e) = n * 2 ^ e := by
  by_cases hzero : n = 0
  · simp [hzero]
  · have hpower : (0 : ℚ) < 2 ^ e := zpow_pos two_pos _
    refine nearest_of_multiple (placeExponent_le ?_ he ?_) rfl
    · exact mul_ne_zero (Int.cast_ne_zero.mpr hzero) hpower.ne'
    · calc
        |(n : ℚ) * 2 ^ e| = |n| * 2 ^ e := by rw [abs_mul, abs_of_pos hpower, Int.cast_abs]
        _ < 2 ^ 53 * 2 ^ e := mul_lt_mul_of_pos_right (by exact_mod_cast hn) hpower
        _ = 2 ^ (53 + e) := by
          rw [zpow_add₀ two_ne_zero]
          norm_cast

theorem nearest_two_zpow {e : ℤ} (he : -1074 ≤ e) : nearest ((2 : ℚ) ^ e) = 2 ^ e := by
  have hkept := nearest_of_abs_lt (n := 1) (by norm_num) he
  rwa [Int.cast_one, one_mul] at hkept

/-- With `2 ^ 53` the power of two takes one more factor. -/
theorem nearest_of_abs_le {n e : ℤ} (hn : |n| ≤ 2 ^ 53) (he : -1074 ≤ e) :
    nearest (n * 2 ^ e) = n * 2 ^ e := by
  obtain hlt | heq := hn.lt_or_eq
  · exact nearest_of_abs_lt hlt he
  · obtain ⟨m, hm, hhalf⟩ : ∃ m : ℤ, |m| < 2 ^ 53 ∧ n = m * 2 := by
      obtain h | h := abs_eq (by norm_num) |>.mp heq
      · exact ⟨2 ^ 52, by norm_num, by rw [h]; norm_num⟩
      · exact ⟨-2 ^ 52, by norm_num, by rw [h]; norm_num⟩
    have hshift : (n : ℚ) * 2 ^ e = m * 2 ^ (e + 1) := by
      rw [hhalf, zpow_add_one₀ two_ne_zero]
      push_cast
      ring
    rw [hshift]
    exact nearest_of_abs_lt hm (by omega)

theorem abs_roundEven_places_le (x : ℚ) : |roundEven (x / place x)| ≤ 2 ^ 53 := by
  apply abs_roundEven_le
  rw [abs_div, abs_of_pos (place_pos x), div_le_iff₀ (place_pos x)]
  exact_mod_cast (abs_lt_place x).le

theorem nearest_nearest (x : ℚ) : nearest (nearest x) = nearest x :=
  nearest_of_abs_le (abs_roundEven_places_le x) (le_placeExponent x)

theorem nearest_nonneg {x : ℚ} (h : 0 ≤ x) : 0 ≤ nearest x := by
  have hplaces : 0 ≤ roundEven (x / place x) := by
    calc
      (0 : ℤ) = roundEven (0 : ℤ) := (roundEven_intCast 0).symm
      _ ≤ roundEven (x / place x) :=
        roundEven_mono (by simpa using div_nonneg h (place_pos x).le)
  exact mul_nonneg (Int.cast_nonneg hplaces) (place_pos x).le

theorem nearest_mono_of_pos {x y : ℚ} (hx : 0 < x) (h : x ≤ y) : nearest x ≤ nearest y := by
  have hy := hx.trans_le h
  obtain hlt | heq := (placeExponent_mono hx h).lt_or_eq
  · -- a power of two lies between the two values
    have hbelow : nearest x ≤ 2 ^ 53 * place x := by
      apply mul_le_mul_of_nonneg_right _ (place_pos x).le
      exact_mod_cast (abs_le.mp (abs_roundEven_places_le x)).2
    have hplaces : 2 ^ 52 ≤ roundEven (y / place y) := by
      calc
        2 ^ 52 = roundEven ((2 ^ 52 : ℤ) : ℚ) := (roundEven_intCast _).symm
        _ ≤ roundEven (y / place y) := by
          apply roundEven_mono
          rw [le_div_iff₀ (place_pos y)]
          have hexponent := le_placeExponent x
          exact_mod_cast le_of_lt_placeExponent hy (by omega)
    calc
      nearest x ≤ 2 ^ 53 * place x := hbelow
      _ = 2 ^ 52 * (2 : ℚ) ^ (placeExponent x + 1) := by
        rw [zpow_add_one₀ two_ne_zero, place]
        ring
      _ ≤ 2 ^ 52 * place y := by
        apply mul_le_mul_of_nonneg_left _ (by positivity)
        exact zpow_le_zpow_right₀ one_le_two (by omega)
      _ ≤ nearest y := by
        apply mul_le_mul_of_nonneg_right _ (place_pos y).le
        exact_mod_cast hplaces
  · have hplace : place x = place y := by rw [place, place, heq]
    rw [nearest, nearest, hplace]
    apply mul_le_mul_of_nonneg_right _ (place_pos y).le
    exact_mod_cast roundEven_mono (div_le_div_of_nonneg_right h (place_pos y).le)

theorem nearest_mono {x y : ℚ} (h : x ≤ y) : nearest x ≤ nearest y := by
  obtain hx | rfl | hx := lt_trichotomy 0 x
  · exact nearest_mono_of_pos hx h
  · rw [nearest_zero]
    exact nearest_nonneg h
  · obtain hy | hy := le_or_gt 0 y
    · have hbelow : 0 ≤ -nearest x := by
        rw [← nearest_neg]
        exact nearest_nonneg (neg_nonneg.mpr hx.le)
      linarith [nearest_nonneg hy]
    · have hneg := nearest_mono_of_pos (neg_pos.mpr hy) (neg_le_neg h)
      rw [nearest_neg, nearest_neg] at hneg
      linarith

/-- Every double is a multiple of the smallest one. -/
theorem exists_multiple (x : ℚ) : ∃ n : ℤ, nearest x = n * 2 ^ (-1074 : ℤ) := by
  have he := le_placeExponent x
  refine ⟨roundEven (x / place x) * 2 ^ (placeExponent x + 1074).toNat, ?_⟩
  have hsplit : place x = 2 ^ (placeExponent x + 1074).toNat * (2 : ℚ) ^ (-1074 : ℤ) := by
    rw [place, ← zpow_natCast, ← zpow_add₀ two_ne_zero, Int.toNat_of_nonneg (by omega)]
    congr 1
    ring
  calc
    nearest x = roundEven (x / place x) * place x := rfl
    _ = roundEven (x / place x) *
          (2 ^ (placeExponent x + 1074).toNat * (2 : ℚ) ^ (-1074 : ℤ)) := by rw [← hsplit]
    _ = (roundEven (x / place x) * 2 ^ (placeExponent x + 1074).toNat : ℤ) *
          (2 : ℚ) ^ (-1074 : ℤ) := by
      rw [Int.cast_mul, Int.cast_pow, Int.cast_ofNat, mul_assoc]

/-- The difference of two doubles is at least the smallest one. -/
theorem nearest_sub_pos {x y : ℚ} (hx : nearest x = x) (hy : nearest y = y) (h : x < y) :
    0 < nearest (y - x) := by
  obtain ⟨m, hm⟩ := exists_multiple x
  obtain ⟨n, hn⟩ := exists_multiple y
  rw [hx] at hm
  rw [hy] at hn
  have hunit : (0 : ℚ) < 2 ^ (-1074 : ℤ) := zpow_pos two_pos _
  have hlt : m < n := by
    rw [hm, hn] at h
    exact Int.cast_lt.mp (lt_of_mul_lt_mul_right h hunit.le)
  calc
    (0 : ℚ) < 2 ^ (-1074 : ℤ) := hunit
    _ = nearest (2 ^ (-1074 : ℤ)) := (nearest_two_zpow le_rfl).symm
    _ ≤ nearest (y - x) := by
      apply nearest_mono
      have hone : (1 : ℚ) ≤ n - m := by exact_mod_cast Int.sub_pos_of_lt hlt
      rw [hm, hn, ← sub_mul]
      exact le_mul_of_one_le_left hunit.le hone

end Binary64

open Binary64 in
/-- The rounding of doubles. -/
instance binary64 : Rounding where
  nearest := nearest
  overflows := overflows
  nearest_mono := nearest_mono
  nearest_neg := nearest_neg
  nearest_nearest := nearest_nearest
  nearest_dyadic m k hm hk :=
    nearest_of_abs_lt (hm.trans_lt (by norm_num)) (by have := abs_le.mp hk; omega)
  nearest_tenths k hk := by interval_cases k <;> decide +kernel
  nearest_sub_pos := nearest_sub_pos
  overflows_mono h hx := decide_eq_true ((of_decide_eq_true hx).trans h)
  not_overflows := by decide +kernel

example : Rounding.nearest (1 / 10) = 3602879701896397 / 2 ^ 55 := by decide +kernel

end Numeric
