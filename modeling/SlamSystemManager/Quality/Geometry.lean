import SlamSystemManager.Library.Binary64
import SlamSystemManager.Messages

/-!
# Distances and yaw angles

The helpers with which the observers compare two poses. They compute on doubles, so that a distance
of finite coordinates may be infinite. A yaw is a number except for an orientation whose two
products overflow with opposite signs: their sum is a NaN, and so is every yaw difference it enters.
-/

open Numeric Numeric.Rounding

namespace SlamSystemManager

/-! ## Library functions on doubles -/

/-- `std::sqrt`. -/
def Cmath.sqrtOf (math : Cmath) : Double → Double
  | .nan => .nan
  | .inf negative => if negative then .nan else .inf false
  | .fin x => if x < 0 then .nan else .fin (math.sqrt x)

/-- `std::sin`. -/
def Cmath.sinOf (math : Cmath) : Double → Double
  | .fin x => .fin (math.sin x)
  | _ => .nan

/-- `std::cos`. -/
def Cmath.cosOf (math : Cmath) : Double → Double
  | .fin x => .fin (math.cos x)
  | _ => .nan

/-- The unit step towards an infinity. -/
def towards (negative : Bool) : ℚ := if negative then -1 else 1

/-- `std::atan2`. Beside an infinity a finite coordinate counts for nothing but its sign. -/
def Cmath.atan2Of (math : Cmath) : Double → Double → Double
  | .nan, _ => .nan
  | _, .nan => .nan
  | .fin y, .fin x => .fin (math.atan2 y x)
  | .inf up, .fin _ => .fin (math.atan2 (towards up) 0)
  | .fin y, .inf left =>
    if left && decide (y < 0) then .fin (-math.atan2 0 (-1))
    else .fin (math.atan2 0 (towards left))
  | .inf up, .inf left => .fin (math.atan2 (towards up) (towards left))

namespace Quality

/-- `constexpr double kPi`. -/
def kPi [Rounding] : ℚ := nearest (314159265358979323846 / 10 ^ 20)

def norm3 [Rounding] (math : Cmath) (first second : Point ℚ) : Double :=
  let dx := (Double.fin first.x).sub (.fin second.x)
  let dy := (Double.fin first.y).sub (.fin second.y)
  let dz := (Double.fin first.z).sub (.fin second.z)
  math.sqrtOf (((dx.mul dx).add (dy.mul dy)).add (dz.mul dz))

def yawFromQuaternion [Rounding] (math : Cmath) (orientation : Quaternion ℚ) : Double :=
  let x := Double.fin orientation.x
  let y := Double.fin orientation.y
  let z := Double.fin orientation.z
  let w := Double.fin orientation.w
  math.atan2Of ((Double.fin 2).mul ((w.mul z).add (x.mul y)))
    ((Double.fin 1).sub ((Double.fin 2).mul ((y.mul y).add (z.mul z))))

def wrappedAngleDifference [Rounding] (math : Cmath) (current previous : Double) : Double :=
  let difference := current.sub previous
  math.atan2Of (math.sinOf difference) (math.cosOf difference)

/-- The absolute yaw difference of two poses, as both observers compute it. -/
def yawDifference [Rounding] (math : Cmath) (current previous : Pose ℚ) : Double :=
  (wrappedAngleDifference math (yawFromQuaternion math current.orientation)
    (yawFromQuaternion math previous.orientation)).abs

/-- A configured limit in degrees, in radians. -/
def radians [Rounding] (degrees : Double) : Double := (degrees.mul (.fin kPi)).div (.fin 180)

/-- An angle in the range of `std::atan2`. -/
def IsAngle (x : Double) : Prop := ∃ angle : ℚ, x = .fin angle ∧ |angle| ≤ 4

theorem isAngle_atan2Of (math : Cmath) {y x : Double} (hy : y ≠ .nan) (hx : x ≠ .nan) :
    IsAngle (math.atan2Of y x) := by
  cases y with
  | nan => exact absurd rfl hy
  | inf up =>
    cases x with
    | nan => exact absurd rfl hx
    | inf left => exact ⟨_, rfl, math.abs_atan2_le _ _⟩
    | fin x => exact ⟨_, rfl, math.abs_atan2_le _ _⟩
  | fin y =>
    cases x with
    | nan => exact absurd rfl hx
    | inf left =>
      unfold Cmath.atan2Of
      dsimp only
      split_ifs
      · exact ⟨_, rfl, by rw [abs_neg]; exact math.abs_atan2_le _ _⟩
      · exact ⟨_, rfl, math.abs_atan2_le _ _⟩
    | fin x => exact ⟨_, rfl, math.abs_atan2_le _ _⟩

section Values

variable [Rounding]

/-! ## Limits in radians -/

theorem kPi_pos : 0 < kPi := zero_lt_one.trans_le (one_le_nearest (by norm_num))

theorem radians_ne_nan_iff (degrees : Double) : radians degrees ≠ .nan ↔ degrees ≠ .nan := by
  have hdivided (x : Double) (hx : x ≠ .nan) : x.div (.fin 180) ≠ .nan := by
    cases x with
    | nan => exact absurd rfl hx
    | inf negative => simp [Double.div]
    | fin x => simp [Double.div_fin]
  cases degrees with
  | nan => simp [radians, Double.mul, Double.div]
  | inf negative =>
    have hscaled : (Double.inf negative).mul (.fin kPi) = .inf (xor negative false) := by
      simp [Double.mul, Double.scaleInf, kPi_pos.ne', kPi_pos.not_gt]
    simp [radians, hscaled, Double.div]
  | fin degrees => simpa [radians] using hdivided _ (Double.ofRat_ne_nan _)

/-! ## Distances -/

theorem notNegative_radians {degrees : Double} (h : degrees.NotNegative) :
    (radians degrees).NotNegative :=
  (h.mul kPi_pos).div (by norm_num)

theorem norm3_ne_nan (math : Cmath) (first second : Point ℚ) :
    norm3 math first second ≠ .nan := by
  have hsquare (a b : ℚ) :
      (((Double.fin a).sub (.fin b)).mul ((Double.fin a).sub (.fin b))).NotNegative :=
    Double.notNegative_square (by rw [Double.sub_fin]; exact Double.ofRat_ne_nan _)
  have hsum := ((hsquare first.x second.x).add (hsquare first.y second.y)).add
    (hsquare first.z second.z)
  unfold norm3
  dsimp only
  obtain hinf | ⟨q, hq, hq0⟩ := hsum.cases
  · rw [hinf]
    simp [Cmath.sqrtOf]
  · rw [hq]
    simp [Cmath.sqrtOf, hq0.not_gt]

/-! ## Yaw angles -/

/-- The products of an orientation do not overflow with opposite signs. -/
def YawDefined (orientation : Quaternion ℚ) : Prop :=
  ((Double.fin orientation.w).mul (.fin orientation.z)).add
    ((Double.fin orientation.x).mul (.fin orientation.y)) ≠ .nan

instance (orientation : Quaternion ℚ) : Decidable (YawDefined orientation) :=
  inferInstanceAs (Decidable (_ ≠ _))

theorem isAngle_yawFromQuaternion (math : Cmath) {orientation : Quaternion ℚ}
    (h : YawDefined orientation) : IsAngle (yawFromQuaternion math orientation) := by
  have htwice {x : Double} (hx : x ≠ .nan) : (Double.fin 2).mul x ≠ .nan := by
    cases x with
    | nan => exact absurd rfl hx
    | inf negative => simp [Double.mul, Double.scaleInf]
    | fin x => simp
  have hrest {x : Double} (hx : x ≠ .nan) : (Double.fin 1).sub x ≠ .nan := by
    cases x with
    | nan => exact absurd rfl hx
    | inf negative => simp [Double.sub, Double.neg, Double.add]
    | fin x => simp
  have hsquare (a : ℚ) : ((Double.fin a).mul (.fin a)).NotNegative :=
    Double.notNegative_square (by simp)
  exact isAngle_atan2Of math (htwice h) (hrest (htwice ((hsquare _).add (hsquare _)).ne_nan))

theorem yawFromQuaternion_eq_nan (math : Cmath) {orientation : Quaternion ℚ}
    (h : ¬YawDefined orientation) : yawFromQuaternion math orientation = .nan := by
  unfold yawFromQuaternion
  dsimp only
  rw [not_not.mp h]
  rfl

/-- The difference of two angles is small enough for all the library functions. -/
theorem yawDifference_ne_nan_iff (math : Cmath) (current previous : Pose ℚ) :
    yawDifference math current previous ≠ .nan ↔
      YawDefined current.orientation ∧ YawDefined previous.orientation := by
  constructor
  · intro h
    constructor
    · by_contra hcurrent
      apply h
      rw [yawDifference, yawFromQuaternion_eq_nan math hcurrent]
      rfl
    · by_contra hprevious
      apply h
      rw [yawDifference, yawFromQuaternion_eq_nan math hprevious]
      cases yawFromQuaternion math current.orientation <;> rfl
  · rintro ⟨hcurrent, hprevious⟩
    obtain ⟨a, ha, hale⟩ := isAngle_yawFromQuaternion math hcurrent
    obtain ⟨b, hb, hble⟩ := isAngle_yawFromQuaternion math hprevious
    have hdifference : |a - b| ≤ (8 : ℕ) := by
      calc
        |a - b| ≤ |a| + |b| := abs_sub a b
        _ ≤ 4 + 4 := add_le_add hale hble
        _ = (8 : ℕ) := by norm_num
    have hinRange := overflows_nearest (m := 8) (by norm_num) hdifference
    rw [yawDifference, wrappedAngleDifference, ha, hb, Double.sub_fin,
      Double.ofRat_of_inRange hinRange]
    simp [Cmath.sinOf, Cmath.cosOf, Cmath.atan2Of, Double.abs]

end Values

/-- Finite and not too short to be accepted, yet without a yaw. -/
example : ¬YawDefined ⟨2 ^ 600, -2 ^ 600, 2 ^ 600, 2 ^ 600⟩ := by decide +kernel

end Quality

end SlamSystemManager
