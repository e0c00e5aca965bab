import SlamSystemManager.Library.Double

/-!
# Messages and geometry

The ROS messages the manager exchanges, with the fields its code reads. Coordinates arrive as
doubles that may be NaN or infinite; `finitePose` is the gate that turns them into numbers.
Times are nanosecond counts: `rclcpp::Time` rejects a negative stamp with an exception.
-/

open Numeric

namespace SlamSystemManager

/-- Nanoseconds of a clock that never shows a negative time. -/
abbrev Time := ℕ

structure Point (α : Type) where
  x : α
  y : α
  z : α
  deriving DecidableEq

structure Quaternion (α : Type) where
  x : α
  y : α
  z : α
  w : α
  deriving DecidableEq

structure Pose (α : Type) where
  position : Point α
  orientation : Quaternion α
  deriving DecidableEq

/-- The value of a default-constructed `geometry_msgs::msg::Pose`. -/
def Pose.identity : Pose ℚ := ⟨⟨0, 0, 0⟩, ⟨0, 0, 0, 1⟩⟩

/-- `nav_msgs::msg::Odometry` and `PoseWithCovarianceStamped`, as far as they are read. -/
structure StampedPose where
  frameId : String
  stamp : Time
  pose : Pose Double
  deriving DecidableEq

structure RegistrationQuality where
  valid : Bool := false
  accepted : Bool := false
  fitness : Double := .fin 0
  meanResidual : Double := .fin 0
  correspondenceCount : ℕ := 0
  sourcePointCount : ℕ := 0
  deriving DecidableEq

/-- The library functions of `<cmath>` on finite arguments. An angle lies between `-π` and `π`. -/
structure Cmath where
  sqrt : ℚ → ℚ
  sin : ℚ → ℚ
  cos : ℚ → ℚ
  atan2 : ℚ → ℚ → ℚ
  abs_atan2_le : ∀ y x, |atan2 y x| ≤ 4

theorem abs_zero_le_four : |(0 : ℚ)| ≤ 4 := abs_zero.trans_le zero_le_four

/-- The finite value of a double, if it has one. -/
def finiteValue : Double → Option ℚ
  | .fin x => some x
  | _ => none

def Quaternion.normSquared (orientation : Quaternion ℚ) : ℚ :=
  orientation.x * orientation.x + orientation.y * orientation.y +
    orientation.z * orientation.z + orientation.w * orientation.w

/-- `norm_squared` of `finitePose`, computed on doubles. -/
def Quaternion.squaredNorm [Rounding] (orientation : Quaternion ℚ) : Double :=
  let square (value : ℚ) : Double := (Double.fin value).mul (.fin value)
  (((square orientation.x).add (square orientation.y)).add (square orientation.z)).add
    (square orientation.w)

/-- `LocalizationQualityMonitor::finitePose`, returning the pose it lets through. -/
def finitePose [Rounding] (pose : Pose Double) : Option (Pose ℚ) := do
  let position : Point ℚ :=
    ⟨← finiteValue pose.position.x, ← finiteValue pose.position.y, ← finiteValue pose.position.z⟩
  let orientation : Quaternion ℚ :=
    ⟨← finiteValue pose.orientation.x, ← finiteValue pose.orientation.y,
      ← finiteValue pose.orientation.z, ← finiteValue pose.orientation.w⟩
  if (Double.ofRat (1 / 10 ^ 12)).lt orientation.squaredNorm then some ⟨position, orientation⟩
  else none

/-- Seconds from one time to another, negative when `earlier` is the later one. -/
def secondsBetween (later earlier : Time) : ℚ := ((later : ℤ) - (earlier : ℤ) : ℤ) / 10 ^ 9

theorem secondsBetween_pos {later earlier : Time} (h : earlier < later) :
    0 < secondsBetween later earlier := by
  unfold secondsBetween
  have hcast : (0 : ℚ) < ((later : ℤ) - (earlier : ℤ) : ℤ) := by
    exact_mod_cast sub_pos.mpr (Int.ofNat_lt.mpr h)
  positivity

/-- `rclcpp::Duration::seconds` of the time since `earlier`, as `LocalizationQualityMonitor`
computes its ages and time steps: the nanoseconds are converted to a double, which a 64-bit count
does without overflow, and divided. -/
def ageSeconds [Rounding] (now earlier : Time) : ℚ :=
  Rounding.nearest (Rounding.nearest ((now : ℤ) - (earlier : ℤ) : ℤ) / 10 ^ 9)

section Ages

variable [Rounding]

open Rounding

@[simp] theorem ageSeconds_self (time : Time) : ageSeconds time time = 0 := by
  simp [ageSeconds]

theorem ageSeconds_pos {now earlier : Time} (h : earlier < now) : 0 < ageSeconds now earlier := by
  have hcount : (1 : ℚ) ≤ ((now : ℤ) - (earlier : ℤ) : ℤ) := by
    exact_mod_cast Int.le_sub_left_of_add_le (Int.ofNat_lt.mpr h)
  apply nearest_pos
  calc
    (2 : ℚ) ^ (-900 : ℤ) ≤ 2 ^ (-30 : ℤ) := zpow_le_zpow_right₀ one_le_two (by norm_num)
    _ ≤ 1 / 10 ^ 9 := by norm_num
    _ ≤ nearest ((now : ℤ) - (earlier : ℤ) : ℤ) / 10 ^ 9 :=
      div_le_div_of_nonneg_right (one_le_nearest hcount) (by positivity)

theorem ageSeconds_swap (now earlier : Time) :
    ageSeconds earlier now = -ageSeconds now earlier := by
  unfold ageSeconds
  rw [← nearest_neg, ← neg_div, ← nearest_neg, ← Int.cast_neg, neg_sub]

theorem ageSeconds_neg_iff {now earlier : Time} : ageSeconds now earlier < 0 ↔ now < earlier := by
  constructor
  · intro h
    by_contra hnot
    obtain heq | hlt := (not_lt.mp hnot).eq_or_lt
    · rw [heq, ageSeconds_self] at h
      exact lt_irrefl 0 h
    · exact lt_asymm h (ageSeconds_pos hlt)
  · intro h
    rw [ageSeconds_swap earlier now]
    exact neg_neg_of_pos (ageSeconds_pos h)

theorem ageSeconds_nonneg_iff (now earlier : Time) :
    0 ≤ ageSeconds now earlier ↔ earlier ≤ now := by
  rw [← not_lt, ageSeconds_neg_iff, not_lt]

theorem ageSeconds_mono {earlier later : Time} (h : earlier ≤ later) (receipt : Time) :
    ageSeconds earlier receipt ≤ ageSeconds later receipt := by
  apply nearest_mono
  apply div_le_div_of_nonneg_right _ (by positivity)
  apply nearest_mono
  exact_mod_cast sub_le_sub_right (Int.ofNat_le.mpr h) (receipt : ℤ)

end Ages

end SlamSystemManager
