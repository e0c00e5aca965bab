import SlamSystemManager.Library.Rounding

/-!
# Doubles with their special values

A double is a NaN, a signed infinity or a finite value. Comparisons with a NaN are false, and the
arithmetic produces NaN and infinities where IEEE 754 does. The result of an operation on finite
values is the exact one, rounded: to a finite value of the format, or to an infinity when it lies
beyond its range. The sign of zero is not represented. The lemmas at the end say when a failed
comparison may be turned around, which is where a NaN matters.
-/

namespace Numeric

/-- A double: a NaN, a signed infinity or a finite value. -/
inductive Double where
  | nan
  | inf (negative : Bool)
  | fin (value : ℚ)
  deriving DecidableEq, Repr

namespace Double

open Rounding

instance : Inhabited Double := ⟨.fin 0⟩

def isFinite : Double → Bool
  | .fin _ => true
  | _ => false

/-- The C++ operator `<`. -/
def lt : Double → Double → Bool
  | .nan, _ => false
  | _, .nan => false
  | .fin x, .fin y => decide (x < y)
  | .fin _, .inf negative => !negative
  | .inf negative, .fin _ => negative
  | .inf left, .inf right => left && !right

/-- The C++ operator `<=`. -/
def le : Double → Double → Bool
  | .nan, _ => false
  | _, .nan => false
  | .fin x, .fin y => decide (x ≤ y)
  | .fin _, .inf negative => !negative
  | .inf negative, .fin _ => negative
  | .inf left, .inf right => left || !right

def neg : Double → Double
  | .nan => .nan
  | .inf negative => .inf !negative
  | .fin x => .fin (-x)

/-- `std::abs`. -/
def abs : Double → Double
  | .nan => .nan
  | .inf _ => .inf false
  | .fin x => .fin |x|

/-- The double that stands for a rational: a literal, or the result of an operation. -/
def ofRat [Rounding] (x : ℚ) : Double :=
  if overflows (nearest x) then .inf (decide (x < 0)) else .fin (nearest x)

def add [Rounding] : Double → Double → Double
  | .nan, _ => .nan
  | _, .nan => .nan
  | .fin x, .fin y => ofRat (x + y)
  | .fin _, .inf negative => .inf negative
  | .inf negative, .fin _ => .inf negative
  | .inf left, .inf right => if left = right then .inf left else .nan

def sub [Rounding] (x y : Double) : Double := add x (neg y)

/-- An infinity times a finite value; zero times an infinity is a NaN. -/
def scaleInf (negative : Bool) (x : ℚ) : Double :=
  if x = 0 then .nan else .inf (xor negative (decide (x < 0)))

def mul [Rounding] : Double → Double → Double
  | .nan, _ => .nan
  | _, .nan => .nan
  | .fin x, .fin y => ofRat (x * y)
  | .fin x, .inf negative => scaleInf negative x
  | .inf negative, .fin x => scaleInf negative x
  | .inf left, .inf right => .inf (xor left right)

def div [Rounding] : Double → Double → Double
  | .nan, _ => .nan
  | _, .nan => .nan
  | .fin x, .fin y =>
    if y = 0 then (if x = 0 then .nan else .inf (decide (x < 0))) else ofRat (x / y)
  | .fin _, .inf _ => .fin 0
  | .inf negative, .fin x => .inf (xor negative (decide (x < 0)))
  | .inf _, .inf _ => .nan

/-- `std::max`: the first argument unless it is smaller. -/
def max (x y : Double) : Double := if lt x y then y else x

/-- `std::clamp`. -/
def clamp (x low high : Double) : Double :=
  if lt x low then low else if lt high x then high else x

/-- A value of the format: what a variable of the type holds. -/
def IsValue [Rounding] (x : Double) : Prop := ∀ q : ℚ, x = .fin q → Representable q

@[simp] theorem isFinite_fin (x : ℚ) : isFinite (.fin x) = true := rfl
@[simp] theorem isFinite_nan : isFinite .nan = false := rfl

@[simp] theorem lt_fin_fin (x y : ℚ) : lt (.fin x) (.fin y) = decide (x < y) := rfl
@[simp] theorem le_fin_fin (x y : ℚ) : le (.fin x) (.fin y) = decide (x ≤ y) := rfl
@[simp] theorem lt_nan_left (x : Double) : lt .nan x = false := rfl
@[simp] theorem le_nan_left (x : Double) : le .nan x = false := rfl

@[simp] theorem lt_nan_right (x : Double) : lt x .nan = false := by cases x <;> rfl

@[simp] theorem le_nan_right (x : Double) : le x .nan = false := by cases x <;> rfl

/-! ## Rounded results -/

section Results

variable [Rounding]

@[simp] theorem ofRat_ne_nan (x : ℚ) : ofRat x ≠ .nan := by
  unfold ofRat
  split_ifs <;> simp

theorem ofRat_of_inRange {x : ℚ} (h : overflows (nearest x) = false) :
    ofRat x = .fin (nearest x) := by
  simp [ofRat, h]

/-- A value of the format stands for itself. -/
theorem ofRat_of_representable {x : ℚ} (h : Representable x) : ofRat x = .fin x := by
  rw [ofRat_of_inRange (by rw [h.nearest_eq]; exact h.inRange), h.nearest_eq]

@[simp] theorem ofRat_zero : ofRat 0 = .fin 0 := ofRat_of_representable representable_zero

@[simp] theorem ofRat_one : ofRat 1 = .fin 1 := ofRat_of_representable representable_one

/-- A finite result is the rounded exact one, and in range. -/
theorem eq_nearest_of_ofRat {x z : ℚ} (h : ofRat x = .fin z) :
    z = nearest x ∧ overflows (nearest x) = false := by
  unfold ofRat at h
  split_ifs at h with hoverflows
  cases h
  exact ⟨rfl, Bool.eq_false_of_not_eq_true hoverflows⟩

theorem isValue_ofRat (x : ℚ) : (ofRat x).IsValue := by
  intro z hz
  obtain ⟨rfl, hinRange⟩ := eq_nearest_of_ofRat hz
  exact ⟨nearest_nearest x, hinRange⟩

/-- Between values of the format no result overflows. -/
theorem ofRat_of_mem {x y : ℚ} (hy : Representable y) (h0 : 0 ≤ x) (h : x ≤ y) :
    ofRat x = .fin (nearest x) ∧ 0 ≤ nearest x ∧ nearest x ≤ y := by
  have hnonneg := nearest_nonneg h0
  have hle : nearest x ≤ y := by
    rw [← hy.nearest_eq]
    exact nearest_mono h
  refine ⟨ofRat_of_inRange (overflows_eq_false ?_ hy.inRange), hnonneg, hle⟩
  rwa [abs_of_nonneg hnonneg, abs_of_nonneg (h0.trans h)]

@[simp] theorem add_fin (x y : ℚ) : add (.fin x) (.fin y) = ofRat (x + y) := rfl
@[simp] theorem sub_fin (x y : ℚ) : sub (.fin x) (.fin y) = ofRat (x - y) := by
  simp [sub, neg, sub_eq_add_neg]
@[simp] theorem mul_fin (x y : ℚ) : mul (.fin x) (.fin y) = ofRat (x * y) := rfl

theorem div_fin (x : ℚ) {y : ℚ} (hy : y ≠ 0) : div (.fin x) (.fin y) = ofRat (x / y) := by
  simp [div, hy]

/-- Over the rationals every result is the exact one. -/
theorem ofRat_eq [IsExact] (x : ℚ) : ofRat x = .fin x := by
  rw [ofRat_of_inRange (IsExact.overflows_eq _), IsExact.nearest_eq]

theorem add_fin_fin [IsExact] (x y : ℚ) : add (.fin x) (.fin y) = .fin (x + y) := ofRat_eq _
theorem sub_fin_fin [IsExact] (x y : ℚ) : sub (.fin x) (.fin y) = .fin (x - y) := by
  rw [sub_fin, ofRat_eq]
theorem mul_fin_fin [IsExact] (x y : ℚ) : mul (.fin x) (.fin y) = .fin (x * y) := ofRat_eq _

theorem div_fin_fin [IsExact] (x : ℚ) {y : ℚ} (hy : y ≠ 0) :
    div (.fin x) (.fin y) = .fin (x / y) := by
  rw [div_fin x hy, ofRat_eq]

end Results

@[simp] theorem max_nan_left (x : Double) : max .nan x = .nan := rfl

theorem max_fin_fin (x y : ℚ) : max (.fin x) (.fin y) = .fin (Max.max x y) := by
  simp only [max, lt_fin_fin, decide_eq_true_eq]
  split
  · rename_i h
    rw [max_eq_right (le_of_lt h)]
  · rename_i h
    rw [max_eq_left (not_lt.mp h)]

/-- A finite value that does not exceed a bound is below it as soon as the bound is no NaN. -/
theorem le_of_not_gt {x : ℚ} {bound : Double} (hbound : bound ≠ .nan)
    (h : lt bound (.fin x) = false) : le (.fin x) bound = true := by
  cases bound with
  | nan => exact absurd rfl hbound
  | inf negative => simpa [lt, le] using h
  | fin y => simpa using h

/-- A finite value that does not lie below a bound has reached it unless the bound is a NaN. -/
theorem ge_of_not_lt {x : ℚ} {bound : Double} (hbound : bound ≠ .nan)
    (h : lt (.fin x) bound = false) : le bound (.fin x) = true := by
  cases bound with
  | nan => exact absurd rfl hbound
  | inf negative => simpa [lt, le] using h
  | fin y => simpa using h

theorem gt_eq_false_of_le {x bound : Double} (h : le x bound = true) : lt bound x = false := by
  cases x with
  | nan => simp
  | inf negative => cases negative <;> cases bound <;> simp_all [lt, le]
  | fin x =>
    cases bound with
    | nan => rfl
    | inf negative => simpa [lt, le] using h
    | fin y => simpa using h

theorem le_eq_false_of_lt {x bound : Double} (h : lt x bound = true) : le bound x = false := by
  by_contra hle
  rw [Bool.not_eq_false] at hle
  rw [gt_eq_false_of_le hle] at h
  cases h

/-- Unless the bound is a NaN, a finite value has reached it exactly when it does not lie below. -/
theorem ge_iff_not_lt {x : ℚ} {bound : Double} (hbound : bound ≠ .nan) :
    le bound (.fin x) = true ↔ lt (.fin x) bound = false :=
  ⟨gt_eq_false_of_le, ge_of_not_lt hbound⟩

/-- Against a NaN no upper bound can be established. -/
theorem ne_nan_of_le {x bound : Double} (h : le x bound = true) : bound ≠ .nan := by
  rintro rfl
  simp at h

theorem ne_nan_of_lt {x bound : Double} (h : lt x bound = true) : bound ≠ .nan := by
  rintro rfl
  simp at h

theorem le_of_lt {x y : Double} (h : lt x y = true) : le x y = true := by
  cases x with
  | nan => cases h
  | inf negative => cases negative <;> cases y <;> simp_all [le, lt]
  | fin x =>
    cases y with
    | nan => cases h
    | inf negative => exact h
    | fin y => simpa using (of_decide_eq_true h).le

theorem le_of_le_of_le {x y z : Double} (hxy : le x y = true) (hyz : le y z = true) :
    le x z = true := by
  cases y with
  | nan => cases ne_nan_of_le hxy rfl
  | inf negative => cases negative <;> cases x <;> cases z <;> simp_all [le]
  | fin y =>
    cases x with
    | nan => cases hxy
    | inf negative => cases negative <;> cases z <;> simp_all [le]
    | fin x =>
      cases z with
      | nan => cases hyz
      | inf negative => exact hyz
      | fin z =>
        simp only [le_fin_fin, decide_eq_true_eq] at hxy hyz ⊢
        exact hxy.trans hyz

theorem le_of_le_of_lt {x y z : Double} (hxy : le x y = true) (hyz : lt y z = true) :
    le x z = true :=
  le_of_le_of_le hxy (le_of_lt hyz)

/-- A finite value a bound does not lie below is within the bound unless the bound is a NaN. -/
theorem le_iff_ne_nan {x : ℚ} {bound : Double} (h : lt bound (.fin x) = false) :
    le (.fin x) bound = true ↔ bound ≠ .nan :=
  ⟨ne_nan_of_le, fun hbound ↦ le_of_not_gt hbound h⟩

/-- A value that a bound does not lie below is within the bound unless one of them is a NaN. -/
theorem le_iff_of_not_gt {x bound : Double} (h : lt bound x = false) :
    le x bound = true ↔ x ≠ .nan ∧ bound ≠ .nan := by
  cases x with
  | nan => simp
  | inf negative =>
    cases bound with
    | nan => simp
    | inf other => cases negative <;> cases other <;> simp_all [lt, le]
    | fin y => simpa [lt, le] using h
  | fin x => simpa using le_iff_ne_nan h

theorem le_max_fin_iff (x y : ℚ) (bound : Double) :
    le (.fin (Max.max x y)) bound = true ↔
      le (.fin x) bound = true ∧ le (.fin y) bound = true := by
  cases bound <;> simp [le]

/-! ## Sums and products -/

section Sums

variable [Rounding]

@[simp] theorem add_nan_right (x : Double) : add x .nan = .nan := by cases x <;> rfl

@[simp] theorem add_nan_left (x : Double) : add .nan x = .nan := rfl

@[simp] theorem sub_nan_right (x : Double) : sub x .nan = .nan := add_nan_right x

@[simp] theorem mul_nan_right (x : Double) : mul x .nan = .nan := by cases x <;> rfl

@[simp] theorem div_nan_right (x : Double) : div x .nan = .nan := by cases x <;> rfl

@[simp] theorem div_nan_left (x : Double) : div .nan x = .nan := rfl

theorem fin_zero_add {x : Double} (h : x.IsValue) : add (.fin 0) x = x := by
  cases x with
  | nan => rfl
  | inf negative => rfl
  | fin x => rw [add_fin, zero_add, ofRat_of_representable (h x rfl)]

/-- A finite sum has finite terms. -/
theorem exists_of_add_eq_fin {x y : Double} {z : ℚ} (h : x.add y = .fin z) :
    ∃ a b : ℚ, x = .fin a ∧ y = .fin b ∧ ofRat (a + b) = .fin z := by
  cases x with
  | nan => cases h
  | inf negative =>
    cases y with
    | nan => cases h
    | inf other => cases negative <;> cases other <;> cases h
    | fin b => cases h
  | fin a =>
    cases y with
    | nan => cases h
    | inf negative => cases h
    | fin b => exact ⟨a, b, rfl, rfl, h⟩

/-- A finite product has finite factors. -/
theorem isFinite_of_mul_eq_fin {x y : Double} {z : ℚ} (h : x.mul y = .fin z) :
    x.isFinite = true ∧ y.isFinite = true := by
  cases x with
  | nan => cases h
  | inf negative =>
    cases y with
    | nan => cases h
    | inf other => cases h
    | fin b =>
      simp only [mul, scaleInf] at h
      split_ifs at h
  | fin a =>
    cases y with
    | nan => cases h
    | inf negative =>
      simp only [mul, scaleInf] at h
      split_ifs at h
    | fin b => exact ⟨rfl, rfl⟩

/-- A positive result is that of a positive value. -/
theorem pos_of_ofRat {x : ℚ} (h : lt (.fin 0) (ofRat x) = true) : 0 < x := by
  by_contra hnot
  have hx := not_lt.mp hnot
  unfold ofRat at h
  split_ifs at h with hoverflows
  · obtain hneg | rfl := hx.lt_or_eq
    · simp [lt, hneg] at h
    · rw [nearest_zero, representable_zero.inRange] at hoverflows
      cases hoverflows
  · exact absurd (of_decide_eq_true h) (not_lt.mpr (nearest_nonpos hx))

/-- One of the terms of a positive sum is positive. -/
theorem pos_or_pos_of_add {x y : Double} (h : lt (.fin 0) (x.add y) = true) :
    lt (.fin 0) x = true ∨ lt (.fin 0) y = true := by
  cases x with
  | nan => cases h
  | inf negative =>
    cases negative with
    | false => exact Or.inl rfl
    | true =>
      right
      cases y with
      | nan => cases h
      | inf other => cases other <;> cases h
      | fin b => cases h
  | fin a =>
    cases y with
    | nan => cases h
    | inf negative => exact Or.inr h
    | fin b =>
      have hsum : 0 < a + b := pos_of_ofRat h
      simp only [lt_fin_fin, decide_eq_true_eq]
      by_contra hnone
      simp only [not_or, not_lt] at hnone
      linarith [hnone.1, hnone.2]

end Sums

theorem exists_of_isFinite {x : Double} (h : x.isFinite = true) : ∃ q : ℚ, x = .fin q := by
  cases x with
  | nan => cases h
  | inf negative => cases h
  | fin q => exact ⟨q, rfl⟩

/-! ## Values that are not below zero -/

/-- Neither a NaN nor below zero. -/
def NotNegative (x : Double) : Prop := le (.fin 0) x = true

theorem NotNegative.cases {x : Double} (h : NotNegative x) :
    x = .inf false ∨ ∃ q : ℚ, x = .fin q ∧ 0 ≤ q := by
  cases x with
  | nan => simp [NotNegative] at h
  | inf negative =>
    cases negative with
    | false => exact Or.inl rfl
    | true => cases h
  | fin q => exact Or.inr ⟨q, rfl, of_decide_eq_true h⟩

theorem NotNegative.ne_nan {x : Double} (h : NotNegative x) : x ≠ .nan :=
  ne_nan_of_le h

theorem notNegative_fin {x : ℚ} (h : 0 ≤ x) : NotNegative (.fin x) := decide_eq_true h

theorem notNegative_abs {x : Double} (h : abs x ≠ .nan) : NotNegative (abs x) := by
  cases x with
  | nan => exact absurd rfl h
  | inf negative => rfl
  | fin x => exact notNegative_fin (abs_nonneg x)

theorem pos_of_le {x y : Double} (hx : lt (.fin 0) x = true) (h : le x y = true) :
    lt (.fin 0) y = true := by
  cases x with
  | nan => cases hx
  | inf negative => cases y <;> simp_all [le, lt]
  | fin x =>
    cases y with
    | nan => cases h
    | inf negative => exact h
    | fin y => simpa using (of_decide_eq_true hx).trans_le (of_decide_eq_true h)

theorem NotNegative.le_self {x : Double} (h : NotNegative x) : le x x = true := by
  obtain rfl | ⟨q, rfl, -⟩ := h.cases
  · rfl
  · simp

theorem NotNegative.lt_zero {x : Double} (h : NotNegative x) : lt x (.fin 0) = false := by
  obtain rfl | ⟨q, rfl, hq⟩ := h.cases
  · rfl
  · simpa using hq

theorem NotNegative.of_le {x y : Double} (hx : NotNegative x) (h : le x y = true) :
    NotNegative y :=
  le_of_le_of_le hx h

/-- Zero is the only such value that is not positive. -/
theorem NotNegative.eq_zero {x : Double} (hx : NotNegative x) (h : lt (.fin 0) x = false) :
    x = .fin 0 := by
  obtain rfl | ⟨q, rfl, hq⟩ := hx.cases
  · cases h
  · rw [le_antisymm (by simpa using h) hq]

/-- No value is below the infinity. -/
theorem NotNegative.eq_inf {x : Double} (h : le (.inf false) x = true) : x = .inf false := by
  cases x with
  | nan => cases h
  | inf negative => cases negative <;> simp_all [le]
  | fin x => cases h

section Operations

variable [Rounding]

theorem ofRat_le_ofRat {x y : ℚ} (h0 : 0 ≤ x) (h : x ≤ y) : le (ofRat x) (ofRat y) = true := by
  have hnearest : nearest x ≤ nearest y := nearest_mono h
  have habs : |nearest x| ≤ |nearest y| := abs_le_abs_of_nonneg (nearest_nonneg h0) hnearest
  by_cases hy : overflows (nearest y) = true
  · have hinf : ofRat y = .inf false := by simp [ofRat, hy, (h0.trans h).not_gt]
    rw [hinf]
    unfold ofRat
    split_ifs
    · simp [le]
    · rfl
  · have hinRange := Bool.eq_false_of_not_eq_true hy
    rw [ofRat_of_inRange hinRange, ofRat_of_inRange (overflows_eq_false habs hinRange)]
    simpa using hnearest

theorem add_fin_zero {x : Double} (h : x.IsValue) : add x (.fin 0) = x := by
  cases x with
  | nan => rfl
  | inf negative => rfl
  | fin x => rw [add_fin, add_zero, ofRat_of_representable (h x rfl)]

theorem mul_fin_one {x : Double} (h : x.IsValue) : mul x (.fin 1) = x := by
  cases x with
  | nan => rfl
  | inf negative => simp [mul, scaleInf, zero_le_one.not_gt]
  | fin x => rw [mul_fin, mul_one, ofRat_of_representable (h x rfl)]

theorem isValue_add {x y : Double} : (x.add y).IsValue := by
  intro z hz
  obtain ⟨a, b, -, -, hsum⟩ := exists_of_add_eq_fin hz
  exact isValue_ofRat (a + b) z hsum

theorem notNegative_ofRat {x : ℚ} (h : 0 ≤ x) : NotNegative (ofRat x) := by
  unfold NotNegative ofRat
  split_ifs
  · simp [le, not_lt.mpr h]
  · simpa using nearest_nonneg h

theorem NotNegative.add {x y : Double} (hx : NotNegative x) (hy : NotNegative y) :
    NotNegative (x.add y) := by
  obtain rfl | ⟨a, rfl, ha⟩ := hx.cases
  · obtain rfl | ⟨b, rfl, -⟩ := hy.cases <;> rfl
  · obtain rfl | ⟨b, rfl, hb⟩ := hy.cases
    · rfl
    · exact notNegative_ofRat (add_nonneg ha hb)

theorem NotNegative.add_mono {a b c d : Double} (ha : NotNegative a) (hab : le a b = true)
    (hc : NotNegative c) (hcd : le c d = true) : le (a.add c) (b.add d) = true := by
  obtain rfl | ⟨b, rfl, -⟩ := (ha.of_le hab).cases
  · obtain hsum | ⟨q, hq, -⟩ := (ha.add hc).cases
    · rw [hsum]
      obtain rfl | ⟨d, rfl, -⟩ := (hc.of_le hcd).cases <;> rfl
    · rw [hq]
      obtain rfl | ⟨d, rfl, -⟩ := (hc.of_le hcd).cases <;> rfl
  · obtain rfl | ⟨a, rfl, ha0⟩ := ha.cases
    · cases hab
    · obtain rfl | ⟨d, rfl, -⟩ := (hc.of_le hcd).cases
      · obtain hsum | ⟨q, hq, -⟩ := (ha.add hc).cases
        · rw [hsum]
          rfl
        · rw [hq]
          rfl
      · obtain rfl | ⟨c, rfl, hc0⟩ := hc.cases
        · cases hcd
        · exact ofRat_le_ofRat (add_nonneg ha0 hc0)
            (add_le_add (of_decide_eq_true hab) (of_decide_eq_true hcd))

/-- Adding what is not below zero does not make a sum smaller. -/
theorem NotNegative.le_add {x y : Double} (hvalue : x.IsValue) (hx : NotNegative x)
    (hy : NotNegative y) : le x (x.add y) = true := by
  calc
    le x (x.add y) = le (x.add (.fin 0)) (x.add y) := by rw [add_fin_zero hvalue]
    _ = true := hx.add_mono hx.le_self (notNegative_fin le_rfl) hy

theorem notNegative_square {x : Double} (h : x ≠ .nan) : NotNegative (x.mul x) := by
  cases x with
  | nan => exact absurd rfl h
  | inf negative => cases negative <;> rfl
  | fin x => exact notNegative_ofRat (mul_self_nonneg x)

theorem NotNegative.div {x : Double} (hx : NotNegative x) {y : ℚ} (hy : 0 < y) :
    NotNegative (x.div (.fin y)) := by
  obtain rfl | ⟨a, rfl, ha⟩ := hx.cases
  · simp [NotNegative, Double.div, le, hy.not_gt]
  · rw [div_fin a hy.ne']
    exact notNegative_ofRat (div_nonneg ha hy.le)

theorem NotNegative.mul {x : Double} (hx : NotNegative x) {y : ℚ} (hy : 0 < y) :
    NotNegative (x.mul (.fin y)) := by
  obtain rfl | ⟨a, rfl, ha⟩ := hx.cases
  · simp [NotNegative, Double.mul, scaleInf, le, hy.ne', hy.not_gt]
  · exact notNegative_ofRat (mul_nonneg ha hy.le)

end Operations

/-! ## Sums that differ in one finite term -/

/-- The same double, or two finite ones in order. Unlike `le` it holds of a NaN and itself. -/
def AtMost (x y : Double) : Prop := x = y ∨ ∃ a b : ℚ, x = .fin a ∧ y = .fin b ∧ a ≤ b

theorem atMost_fin {a b : ℚ} (h : a ≤ b) : AtMost (.fin a) (.fin b) := Or.inr ⟨a, b, rfl, rfl, h⟩

section Exact

variable [Rounding] [IsExact]

theorem AtMost.add {x y : Double} (h : AtMost x y) (z : Double) : AtMost (x.add z) (y.add z) := by
  obtain rfl | ⟨a, b, rfl, rfl, hab⟩ := h
  · exact Or.inl rfl
  · cases z with
    | nan => exact Or.inl rfl
    | inf negative => exact Or.inl rfl
    | fin z =>
      rw [add_fin_fin, add_fin_fin]
      exact atMost_fin (add_le_add_left hab z)

theorem AtMost.add_left {x y : Double} (h : AtMost x y) (z : Double) :
    AtMost (z.add x) (z.add y) := by
  obtain rfl | ⟨a, b, rfl, rfl, hab⟩ := h
  · exact Or.inl rfl
  · cases z with
    | nan => exact Or.inl rfl
    | inf negative => exact Or.inl rfl
    | fin z =>
      rw [add_fin_fin, add_fin_fin]
      exact atMost_fin (add_le_add_right hab z)

theorem AtMost.mul {x y : Double} (h : AtMost x y) {w : ℚ} (hw : 0 ≤ w) :
    AtMost ((fin w).mul x) ((fin w).mul y) := by
  obtain rfl | ⟨a, b, rfl, rfl, hab⟩ := h
  · exact Or.inl rfl
  · rw [mul_fin_fin, mul_fin_fin]
    exact atMost_fin (mul_le_mul_of_nonneg_left hab hw)

theorem AtMost.div {x y : Double} (h : AtMost x y) {z : Double} (hz : lt (.fin 0) z = true) :
    AtMost (x.div z) (y.div z) := by
  obtain rfl | ⟨a, b, rfl, rfl, hab⟩ := h
  · exact Or.inl rfl
  · cases z with
    | nan => exact Or.inl rfl
    | inf negative => exact Or.inl rfl
    | fin z =>
      have hpos : 0 < z := by simpa using hz
      rw [div_fin_fin a hpos.ne', div_fin_fin b hpos.ne']
      exact atMost_fin (div_le_div_of_nonneg_right hab hpos.le)

end Exact

theorem AtMost.le {x y : Double} (h : AtMost x y) (hy : y ≠ .nan) : x.le y = true := by
  obtain rfl | ⟨a, b, rfl, rfl, hab⟩ := h
  · cases x with
    | nan => exact absurd rfl hy
    | inf negative => cases negative <;> rfl
    | fin a => simp
  · simpa using hab

theorem AtMost.lt_of_lt {x y z : Double} (h : AtMost x y) (hlt : y.lt z = true) :
    x.lt z = true := by
  obtain rfl | ⟨a, b, rfl, rfl, hab⟩ := h
  · exact hlt
  · cases z with
    | nan => cases hlt
    | inf negative => exact hlt
    | fin z => simpa using lt_of_le_of_lt hab (by simpa using hlt)

theorem AtMost.le_of_le {x y z : Double} (h : AtMost x y) (hle : z.le x = true) :
    z.le y = true := by
  obtain rfl | ⟨a, b, rfl, rfl, hab⟩ := h
  · exact hle
  · cases z with
    | nan => cases hle
    | inf negative => exact hle
    | fin z => simpa using le_trans (by simpa using hle) hab

/-- A limit stays exceeded when the value grows. -/
theorem lt_fin_mono {bound : Double} {a b : ℚ} (hab : a ≤ b) (h : bound.lt (.fin a) = true) :
    bound.lt (.fin b) = true := by
  cases bound with
  | nan => cases h
  | inf negative => exact h
  | fin bound => simpa using lt_of_lt_of_le (by simpa using h) hab

end Double

end Numeric
