import Mathlib.Algebra.Order.Field.Power
import Mathlib.Algebra.Order.Ring.Rat
import Mathlib.Data.Rat.Defs
import Mathlib.Tactic.Linarith
import Mathlib.Tactic.NormNum
import Mathlib.Tactic.Positivity

/-!
# Rounding

A number format with a last place rounds every rational to a nearest value of its own, as if its
exponent were unbounded above, and then checks whether the result lies beyond its largest value.
`Rounding` collects what the arithmetic of such a format rests on: the rounding is monotone and odd,
it keeps the values of the format and the small multiples of a power of two, and two different
values have a difference that does not round to zero. Exact arithmetic is the rounding that changes
nothing and never overflows.
-/

namespace Numeric

/-- The rounding of a number format. -/
class Rounding where
  /-- The value that stands for a rational when the exponent has no upper bound. -/
  nearest : ℚ → ℚ
  /-- Whether a value lies beyond the largest one of the format. -/
  overflows : ℚ → Bool
  nearest_mono : ∀ {x y : ℚ}, x ≤ y → nearest x ≤ nearest y
  nearest_neg : ∀ x, nearest (-x) = -nearest x
  nearest_nearest : ∀ x, nearest (nearest x) = nearest x
  nearest_dyadic : ∀ m k : ℤ, |m| ≤ 2 ^ 10 → |k| ≤ 900 → nearest (m * 2 ^ k) = m * 2 ^ k
  nearest_tenths : ∀ k : ℕ, k ≤ 10 →
    nearest (nearest (k / 10) + nearest ((10 - k) / 10)) = 1
  nearest_sub_pos : ∀ {x y : ℚ}, nearest x = x → nearest y = y → x < y → 0 < nearest (y - x)
  overflows_mono : ∀ {x y : ℚ}, |x| ≤ |y| → overflows x = true → overflows y = true
  not_overflows : overflows (2 ^ 900) = false

namespace Rounding

/-- Exact arithmetic. -/
@[reducible] def exact : Rounding where
  nearest x := x
  overflows _ := false
  nearest_mono h := h
  nearest_neg _ := rfl
  nearest_nearest _ := rfl
  nearest_dyadic _ _ _ _ := rfl
  nearest_tenths k _ := by rw [← add_div]; norm_num
  nearest_sub_pos _ _ h := sub_pos.mpr h
  overflows_mono _ h := h
  not_overflows := rfl

/-- The rounding changes nothing: the arithmetic is that of the rationals. -/
class IsExact [Rounding] : Prop where
  nearest_eq : ∀ x : ℚ, nearest x = x
  overflows_eq : ∀ x : ℚ, overflows x = false

theorem isExact_exact : @IsExact exact :=
  @IsExact.mk exact (fun _ ↦ rfl) fun _ ↦ rfl

variable [Rounding]

/-- A finite value of the format. -/
structure Representable (x : ℚ) : Prop where
  nearest_eq : nearest x = x
  inRange : overflows x = false

/-! ## Values that are kept -/

@[simp] theorem nearest_zero : nearest (0 : ℚ) = 0 := by
  have hneg := nearest_neg (0 : ℚ)
  rw [neg_zero] at hneg
  linarith

theorem nearest_two_zpow {k : ℤ} (hk : |k| ≤ 900) : nearest ((2 : ℚ) ^ k) = 2 ^ k := by
  simpa using nearest_dyadic 1 k (by norm_num) hk

@[simp] theorem nearest_one : nearest (1 : ℚ) = 1 := by
  simpa using nearest_two_zpow (k := 0) (by norm_num)

/-! ## Order -/

theorem nearest_nonneg {x : ℚ} (h : 0 ≤ x) : 0 ≤ nearest x := by
  simpa using nearest_mono h

theorem nearest_nonpos {x : ℚ} (h : x ≤ 0) : nearest x ≤ 0 := by
  simpa using nearest_mono h

theorem one_le_nearest {x : ℚ} (h : 1 ≤ x) : 1 ≤ nearest x := by
  simpa using nearest_mono h

/-- What is not too small does not round to zero. -/
theorem nearest_pos {x : ℚ} (h : (2 : ℚ) ^ (-900 : ℤ) ≤ x) : 0 < nearest x := by
  have hkept := nearest_two_zpow (k := -900) (by norm_num)
  calc
    (0 : ℚ) < 2 ^ (-900 : ℤ) := by positivity
    _ = nearest (2 ^ (-900 : ℤ)) := hkept.symm
    _ ≤ nearest x := nearest_mono h

/-- Four fifths stay below one. -/
theorem nearest_four_fifths_lt : nearest (8 / 10 : ℚ) < 1 := by
  have hkept : nearest (7 / 8 : ℚ) = 7 / 8 := by
    have hdyadic := nearest_dyadic 7 (-3) (by norm_num) (by norm_num)
    norm_num at hdyadic
    exact hdyadic
  have hle : nearest (8 / 10 : ℚ) ≤ nearest (7 / 8) := nearest_mono (by norm_num)
  rw [hkept] at hle
  linarith

/-! ## Range -/

theorem overflows_eq_false {x y : ℚ} (h : |x| ≤ |y|) (hy : overflows y = false) :
    overflows x = false := by
  by_contra hx
  rw [Bool.not_eq_false] at hx
  rw [overflows_mono h hx] at hy
  cases hy

/-- A value of a moderate size is in range. -/
theorem overflows_of_abs_le {x : ℚ} (h : |x| ≤ 2 ^ 900) : overflows x = false :=
  overflows_eq_false (by rwa [abs_of_pos (by positivity : (0 : ℚ) < 2 ^ 900)]) not_overflows

theorem abs_nearest_le {x : ℚ} {m : ℕ} (hm : m ≤ 2 ^ 10) (h : |x| ≤ m) : |nearest x| ≤ m := by
  have hkept : nearest (m : ℚ) = m := by
    have hdyadic := nearest_dyadic m 0 (by rw [abs_of_nonneg (by positivity)]; exact_mod_cast hm)
      (by norm_num)
    simpa using hdyadic
  obtain ⟨hlow, hhigh⟩ := abs_le.mp h
  rw [abs_le]
  constructor
  · calc
      -(m : ℚ) = nearest (-m) := by rw [nearest_neg, hkept]
      _ ≤ nearest x := nearest_mono hlow
  · calc
      nearest x ≤ nearest m := nearest_mono hhigh
      _ = m := hkept

/-- Small rationals round to finite values. -/
theorem overflows_nearest {x : ℚ} {m : ℕ} (hm : m ≤ 2 ^ 10) (h : |x| ≤ m) :
    overflows (nearest x) = false := by
  apply overflows_of_abs_le
  calc
    |nearest x| ≤ (m : ℚ) := abs_nearest_le hm h
    _ ≤ 2 ^ 10 := by exact_mod_cast hm
    _ ≤ 2 ^ 900 := pow_le_pow_right₀ one_le_two (by norm_num)

theorem representable_zero : Representable 0 :=
  ⟨nearest_zero, overflows_of_abs_le (by norm_num)⟩

theorem representable_one : Representable 1 :=
  ⟨nearest_one, overflows_of_abs_le (by simpa using one_le_pow₀ (one_le_two (α := ℚ)))⟩

end Rounding

end Numeric
