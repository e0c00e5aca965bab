import SlamSystemManager.Library.Binary64
import SlamSystemManager.Library.Double

/-!
# Localization quality configuration

`LocalizationQualityConfig` and `LocalizationQualityMonitor::loadConfig`. A YAML map is the
function from a key to the value found under it, and a value says which of the conversions of the
YAML library it admits: a number is written exactly and rounded when it is read as a double. A
double read from YAML may be a NaN or an infinity, and every comparison of the validation is
made on doubles as the source makes it.
-/

open Numeric

namespace SlamSystemManager.Quality

/-- What a YAML scalar says, or the text of the conversion error. -/
inductive YamlValue where
  | real (value : Double)
  | natural (value : ℕ)
  | other (what : String)

abbrev YamlMap := String → Option YamlValue

/-- The `localization_quality` section with its two nested maps. -/
structure QualityDocument where
  quality : YamlMap
  confidence : Option YamlMap
  weights : Option YamlMap

def invalidKey (key what : String) : String :=
  "Invalid localization quality key '" ++ key ++ "': " ++ what

/-- The conversion of a written number to a double, which fails for a number out of range. -/
def convertDouble [Rounding] (key : String) : Double → Except String Double
  | .fin number =>
    if Rounding.overflows (Rounding.nearest number) then .error (invalidKey key "bad conversion")
    else .ok (.fin (Rounding.nearest number))
  | special => .ok special

/-- `requiredValue<double>`. -/
def requiredDouble [Rounding] (parent : YamlMap) (key : String) : Except String Double :=
  match parent key with
  | none => .error ("Missing localization quality key: " ++ key)
  | some (.real value) => convertDouble key value
  | some (.natural value) => convertDouble key (.fin value)
  | some (.other what) => .error (invalidKey key what)

/-- `requiredValue<std::size_t>`. -/
def requiredSize (parent : YamlMap) (key : String) : Except String ℕ :=
  match parent key with
  | none => .error ("Missing localization quality key: " ++ key)
  | some (.natural value) => .ok value
  | some (.real _) => .error (invalidKey key "bad conversion")
  | some (.other what) => .error (invalidKey key what)

/-- `LocalizationQualityConfig`, with the defaults of its declaration. -/
structure Config where
  publishHz : Double := .fin 5
  poseTimeoutSec : Double := .ofRat (6 / 10)
  correctionTimeoutSec : Double := .fin 5
  registrationTimeoutSec : Double := .fin 5
  maxPositionJumpM : Double := .ofRat (6 / 10)
  maxYawJumpDeg : Double := .fin 25
  maxLinearVelocityMps : Double := .fin 3
  maxAngularVelocityDps : Double := .fin 180
  maxCorrectionPositionJumpM : Double := .ofRat (75 / 100)
  maxCorrectionYawJumpDeg : Double := .fin 30
  minRegistrationFitness : Double := .ofRat (7 / 10)
  maxRegistrationResidualM : Double := .ofRat (6 / 10)
  badFramesToDegraded : ℕ := 3
  badFramesToLost : ℕ := 10
  goodFramesToRecover : ℕ := 10
  localizedThreshold : Double := .ofRat (75 / 100)
  degradedThreshold : Double := .ofRat (4 / 10)
  updateWeight : Double := .ofRat (3 / 10)
  motionWeight : Double := .ofRat (25 / 100)
  registrationWeight : Double := .ofRat (3 / 10)
  overlapWeight : Double := .ofRat (15 / 100)
  deriving DecidableEq

/-- The four checks made after the values are read, in the order of the source. -/
def validate [Rounding] (config : Config) : Except String Config :=
  let zero : Double := .fin 0
  let one : Double := .fin 1
  if config.publishHz.le zero || config.poseTimeoutSec.le zero ||
      config.correctionTimeoutSec.le zero || config.registrationTimeoutSec.le zero ||
      config.maxPositionJumpM.le zero || config.maxYawJumpDeg.le zero ||
      config.maxLinearVelocityMps.le zero || config.maxAngularVelocityDps.le zero ||
      config.maxCorrectionPositionJumpM.le zero || config.maxCorrectionYawJumpDeg.le zero ||
      config.maxRegistrationResidualM.le zero then
    .error "Localization quality rates, timeouts, and limits must be positive"
  else if config.minRegistrationFitness.lt zero || one.le config.minRegistrationFitness ||
      config.degradedThreshold.lt zero || one.lt config.localizedThreshold ||
      config.localizedThreshold.le config.degradedThreshold then
    .error "Localization quality confidence and fitness thresholds are invalid"
  else if config.badFramesToDegraded == 0 || config.badFramesToLost == 0 ||
      config.goodFramesToRecover == 0 ||
      decide (config.badFramesToLost < config.badFramesToDegraded) then
    .error "Localization quality hysteresis frame counts are invalid"
  else if config.updateWeight.lt zero || config.motionWeight.lt zero ||
      config.registrationWeight.lt zero || config.overlapWeight.lt zero ||
      (((config.updateWeight.add config.motionWeight).add config.registrationWeight).add
        config.overlapWeight).le zero then
    .error "Localization quality weights must be non-negative with a positive sum"
  else .ok config

/-- The reading half of `loadConfig`: every key in the order of the source. -/
def readConfig [Rounding] (document : Option QualityDocument) : Except String Config := do
  let document ← match document with
    | none => throw "Missing localization_quality configuration section"
    | some document => pure document
  let quality := document.quality
  let publishHz ← requiredDouble quality "publish_hz"
  let poseTimeoutSec ← requiredDouble quality "pose_timeout_sec"
  let correctionTimeoutSec ← requiredDouble quality "correction_timeout_sec"
  let registrationTimeoutSec ← requiredDouble quality "registration_timeout_sec"
  let maxPositionJumpM ← requiredDouble quality "max_position_jump_m"
  let maxYawJumpDeg ← requiredDouble quality "max_yaw_jump_deg"
  let maxLinearVelocityMps ← requiredDouble quality "max_linear_velocity_mps"
  let maxAngularVelocityDps ← requiredDouble quality "max_angular_velocity_dps"
  let maxCorrectionPositionJumpM ← requiredDouble quality "max_correction_position_jump_m"
  let maxCorrectionYawJumpDeg ← requiredDouble quality "max_correction_yaw_jump_deg"
  let minRegistrationFitness ← requiredDouble quality "min_registration_fitness"
  let maxRegistrationResidualM ← requiredDouble quality "max_registration_residual_m"
  let badFramesToDegraded ← requiredSize quality "bad_frames_to_degraded"
  let badFramesToLost ← requiredSize quality "bad_frames_to_lost"
  let goodFramesToRecover ← requiredSize quality "good_frames_to_recover"
  match document.confidence, document.weights with
  | some confidence, some weights =>
    let localizedThreshold ← requiredDouble confidence "localized_threshold"
    let degradedThreshold ← requiredDouble confidence "degraded_threshold"
    let updateWeight ← requiredDouble weights "update"
    let motionWeight ← requiredDouble weights "motion"
    let registrationWeight ← requiredDouble weights "registration"
    let overlapWeight ← requiredDouble weights "overlap"
    return {
        publishHz, poseTimeoutSec, correctionTimeoutSec, registrationTimeoutSec,
        maxPositionJumpM, maxYawJumpDeg, maxLinearVelocityMps, maxAngularVelocityDps,
        maxCorrectionPositionJumpM, maxCorrectionYawJumpDeg, minRegistrationFitness,
        maxRegistrationResidualM, badFramesToDegraded, badFramesToLost, goodFramesToRecover,
        localizedThreshold, degradedThreshold, updateWeight, motionWeight, registrationWeight,
        overlapWeight }
  | _, _ => throw "Localization quality confidence and weights must be maps"

/-- `LocalizationQualityMonitor::loadConfig`, after YAML parsing. -/
def loadConfig [Rounding] (document : Option QualityDocument) : Except String Config := do
  validate (← readConfig document)

/-- A YAML map given by its entries. -/
def yamlMap (entries : List (String × YamlValue)) : YamlMap := fun key ↦ entries.lookup key

/-- `config/localization_quality.yaml`, with the values of one or two keys replaced. -/
def localizationQualityYaml (replaced : List (String × YamlValue)) : QualityDocument where
  quality := yamlMap (replaced ++
    [("publish_hz", .real (.fin 5)), ("pose_timeout_sec", .real (.fin (6 / 10))),
      ("correction_timeout_sec", .real (.fin 5)), ("registration_timeout_sec", .real (.fin 5)),
      ("max_position_jump_m", .real (.fin (6 / 10))), ("max_yaw_jump_deg", .real (.fin 25)),
      ("max_linear_velocity_mps", .real (.fin 3)), ("max_angular_velocity_dps", .real (.fin 180)),
      ("max_correction_position_jump_m", .real (.fin (75 / 100))),
      ("max_correction_yaw_jump_deg", .real (.fin 30)),
      ("min_registration_fitness", .real (.fin (7 / 10))),
      ("max_registration_residual_m", .real (.fin (6 / 10))),
      ("bad_frames_to_degraded", .natural 3), ("bad_frames_to_lost", .natural 10),
      ("good_frames_to_recover", .natural 10)])
  confidence := some (yamlMap
    [("localized_threshold", .real (.fin (75 / 100))),
      ("degraded_threshold", .real (.fin (4 / 10)))])
  weights := some (yamlMap
    [("update", .real (.fin (3 / 10))), ("motion", .real (.fin (25 / 100))),
      ("registration", .real (.fin (3 / 10))), ("overlap", .real (.fin (15 / 100)))])

/-- The shipped file holds the default of every field. -/
theorem loadConfig_localizationQualityYaml :
    loadConfig (some (localizationQualityYaml [])) = .ok {} := by
  decide +kernel

/-- The shipped file, read over exact rationals. -/
def exactConfig : Config where
  poseTimeoutSec := .fin (6 / 10)
  maxPositionJumpM := .fin (6 / 10)
  maxCorrectionPositionJumpM := .fin (75 / 100)
  minRegistrationFitness := .fin (7 / 10)
  maxRegistrationResidualM := .fin (6 / 10)
  localizedThreshold := .fin (75 / 100)
  degradedThreshold := .fin (4 / 10)
  updateWeight := .fin (3 / 10)
  motionWeight := .fin (25 / 100)
  registrationWeight := .fin (3 / 10)
  overlapWeight := .fin (15 / 100)

theorem loadConfig_exactConfig :
    @loadConfig Rounding.exact (some (localizationQualityYaml [])) = .ok exactConfig := by
  decide +kernel

/-- The frame-count check of `loadConfig`. -/
structure FrameCountsValid (config : Config) : Prop where
  degraded_pos : 0 < config.badFramesToDegraded
  lost_pos : 0 < config.badFramesToLost
  recover_pos : 0 < config.goodFramesToRecover
  degraded_le_lost : config.badFramesToDegraded ≤ config.badFramesToLost

/-- The doubles of a configuration. -/
def Config.numbers (config : Config) : List Double :=
  [config.publishHz, config.poseTimeoutSec, config.correctionTimeoutSec,
    config.registrationTimeoutSec, config.maxPositionJumpM, config.maxYawJumpDeg,
    config.maxLinearVelocityMps, config.maxAngularVelocityDps, config.maxCorrectionPositionJumpM,
    config.maxCorrectionYawJumpDeg, config.minRegistrationFitness,
    config.maxRegistrationResidualM, config.localizedThreshold, config.degradedThreshold,
    config.updateWeight, config.motionWeight, config.registrationWeight, config.overlapWeight]

/-- A sequence succeeds when its first step and the rest do. -/
theorem exists_of_bind_eq_ok {α β : Type} {first : Except String α} {rest : α → Except String β}
    {result : β} (h : first >>= rest = .ok result) :
    ∃ value, first = .ok value ∧ rest value = .ok result := by
  cases first with
  | error what => cases h
  | ok value => exact ⟨value, rfl, h⟩

section Accepted

variable [Rounding]

/-! ## What is read -/

theorem isValue_of_requiredDouble {parent : YamlMap} {key : String} {value : Double}
    (h : requiredDouble parent key = .ok value) : value.IsValue := by
  have hconvert {number : Double} (hnumber : convertDouble key number = .ok value) :
      value.IsValue := by
    cases number with
    | nan => cases hnumber; exact nofun
    | inf negative => cases hnumber; exact nofun
    | fin number =>
      simp only [convertDouble] at hnumber
      split_ifs at hnumber with hoverflows
      cases hnumber
      rintro _ ⟨⟩
      exact ⟨Rounding.nearest_nearest number, Bool.eq_false_of_not_eq_true hoverflows⟩
  unfold requiredDouble at h
  split at h
  · cases h
  · exact hconvert h
  · exact hconvert h
  · cases h

/-- Every double that is read is a value of the format. -/
theorem isValue_of_readConfig {document : Option QualityDocument} {config : Config}
    (h : readConfig document = .ok config) : ∀ number ∈ config.numbers, number.IsValue := by
  unfold readConfig at h
  cases document with
  | none => cases h
  | some document =>
    dsimp only at h
    obtain ⟨_, ⟨⟩, h⟩ := exists_of_bind_eq_ok h
    obtain ⟨publishHz, hpublishHz, h⟩ := exists_of_bind_eq_ok h
    obtain ⟨poseTimeout, hposeTimeout, h⟩ := exists_of_bind_eq_ok h
    obtain ⟨correctionTimeout, hcorrectionTimeout, h⟩ := exists_of_bind_eq_ok h
    obtain ⟨registrationTimeout, hregistrationTimeout, h⟩ := exists_of_bind_eq_ok h
    obtain ⟨positionJump, hpositionJump, h⟩ := exists_of_bind_eq_ok h
    obtain ⟨yawJump, hyawJump, h⟩ := exists_of_bind_eq_ok h
    obtain ⟨linear, hlinear, h⟩ := exists_of_bind_eq_ok h
    obtain ⟨angular, hangular, h⟩ := exists_of_bind_eq_ok h
    obtain ⟨positionCorrection, hpositionCorrection, h⟩ := exists_of_bind_eq_ok h
    obtain ⟨yawCorrection, hyawCorrection, h⟩ := exists_of_bind_eq_ok h
    obtain ⟨fitness, hfitness, h⟩ := exists_of_bind_eq_ok h
    obtain ⟨residual, hresidual, h⟩ := exists_of_bind_eq_ok h
    obtain ⟨_, _, h⟩ := exists_of_bind_eq_ok h
    obtain ⟨_, _, h⟩ := exists_of_bind_eq_ok h
    obtain ⟨_, _, h⟩ := exists_of_bind_eq_ok h
    split at h
    · obtain ⟨localized, hlocalized, h⟩ := exists_of_bind_eq_ok h
      obtain ⟨degraded, hdegraded, h⟩ := exists_of_bind_eq_ok h
      obtain ⟨update, hupdate, h⟩ := exists_of_bind_eq_ok h
      obtain ⟨motion, hmotion, h⟩ := exists_of_bind_eq_ok h
      obtain ⟨registration, hregistration, h⟩ := exists_of_bind_eq_ok h
      obtain ⟨overlap, hoverlap, h⟩ := exists_of_bind_eq_ok h
      cases h
      simp only [Config.numbers, List.forall_mem_cons, List.not_mem_nil, false_imp_iff,
        implies_true, and_true]
      exact ⟨isValue_of_requiredDouble hpublishHz, isValue_of_requiredDouble hposeTimeout,
        isValue_of_requiredDouble hcorrectionTimeout,
        isValue_of_requiredDouble hregistrationTimeout, isValue_of_requiredDouble hpositionJump,
        isValue_of_requiredDouble hyawJump, isValue_of_requiredDouble hlinear,
        isValue_of_requiredDouble hangular, isValue_of_requiredDouble hpositionCorrection,
        isValue_of_requiredDouble hyawCorrection, isValue_of_requiredDouble hfitness,
        isValue_of_requiredDouble hresidual, isValue_of_requiredDouble hlocalized,
        isValue_of_requiredDouble hdegraded, isValue_of_requiredDouble hupdate,
        isValue_of_requiredDouble hmotion, isValue_of_requiredDouble hregistration,
        isValue_of_requiredDouble hoverlap⟩
    · cases h

/-! ## What is checked -/

theorem validate_eq_ok {config accepted : Config} (h : validate config = .ok accepted) :
    accepted = config ∧ FrameCountsValid config := by
  unfold validate at h
  dsimp only at h
  split at h
  · cases h
  split at h
  · cases h
  split at h
  · cases h
  rename_i hcounts
  split at h
  · cases h
  simp only [Bool.or_eq_true, beq_iff_eq, decide_eq_true_eq, not_or, not_lt] at hcounts
  obtain ⟨⟨⟨hdegraded, hlost⟩, hrecover⟩, hle⟩ := hcounts
  cases h
  exact ⟨rfl, Nat.pos_of_ne_zero hdegraded, Nat.pos_of_ne_zero hlost,
    Nat.pos_of_ne_zero hrecover, hle⟩

/-- Whatever `loadConfig` returns has passed `validate`. -/
theorem validate_of_loadConfig {document : Option QualityDocument} {config : Config}
    (h : loadConfig document = .ok config) : validate config = .ok config := by
  obtain ⟨raw, -, hvalid⟩ := exists_of_bind_eq_ok h
  rw [(validate_eq_ok hvalid).1]
  rw [(validate_eq_ok hvalid).1] at hvalid
  exact hvalid

theorem frameCountsValid_of_loadConfig {document : Option QualityDocument} {config : Config}
    (h : loadConfig document = .ok config) : FrameCountsValid config :=
  (validate_eq_ok (validate_of_loadConfig h)).2

/-- What the checks of `loadConfig` leave open: a comparison with a NaN fails, so a NaN passes
each of them. -/
structure Checked (config : Config) : Prop where
  values : ∀ number ∈ config.numbers, number.IsValue
  poseTimeout : config.poseTimeoutSec.le (.fin 0) = false
  correctionTimeout : config.correctionTimeoutSec.le (.fin 0) = false
  registrationTimeout : config.registrationTimeoutSec.le (.fin 0) = false
  linearVelocity : config.maxLinearVelocityMps.le (.fin 0) = false
  angularVelocity : config.maxAngularVelocityDps.le (.fin 0) = false
  positionCorrection : config.maxCorrectionPositionJumpM.le (.fin 0) = false
  yawCorrection : config.maxCorrectionYawJumpDeg.le (.fin 0) = false
  residual : config.maxRegistrationResidualM.le (.fin 0) = false
  fitnessNotNegative : config.minRegistrationFitness.lt (.fin 0) = false
  fitnessBelowOne : (Double.fin 1).le config.minRegistrationFitness = false
  degradedNotNegative : config.degradedThreshold.lt (.fin 0) = false
  localizedAtMostOne : (Double.fin 1).lt config.localizedThreshold = false
  ordered : config.localizedThreshold.le config.degradedThreshold = false
  updateWeight : config.updateWeight.lt (.fin 0) = false
  motionWeight : config.motionWeight.lt (.fin 0) = false
  registrationWeight : config.registrationWeight.lt (.fin 0) = false
  overlapWeight : config.overlapWeight.lt (.fin 0) = false
  sum : (((config.updateWeight.add config.motionWeight).add config.registrationWeight).add
    config.overlapWeight).le (.fin 0) = false

theorem checked_of_loadConfig {document : Option QualityDocument} {config : Config}
    (h : loadConfig document = .ok config) : Checked config := by
  have hvalid := validate_of_loadConfig h
  have hvalues : ∀ number ∈ config.numbers, number.IsValue := by
    obtain ⟨raw, hread, hraw⟩ := exists_of_bind_eq_ok h
    rw [(validate_eq_ok hraw).1]
    exact isValue_of_readConfig hread
  unfold validate at hvalid
  dsimp only at hvalid
  split at hvalid
  · cases hvalid
  rename_i hpositive
  split at hvalid
  · cases hvalid
  rename_i hthresholds
  split at hvalid
  · cases hvalid
  split at hvalid
  · cases hvalid
  rename_i hweights
  simp only [Bool.or_eq_true, not_or, Bool.not_eq_true] at hpositive hthresholds hweights
  obtain ⟨⟨⟨⟨⟨⟨⟨⟨⟨⟨-, hpose⟩, hcorrection⟩, hregistration⟩, -⟩, -⟩, hlinear⟩, hangular⟩, hposition⟩,
    hyaw⟩, hresidual⟩ := hpositive
  obtain ⟨⟨⟨⟨hfitness, hone⟩, hdegraded⟩, hlocalized⟩, hordered⟩ := hthresholds
  obtain ⟨⟨⟨⟨hupdate, hmotion⟩, hregistrationWeight⟩, hoverlap⟩, hsum⟩ := hweights
  exact ⟨hvalues, hpose, hcorrection, hregistration, hlinear, hangular, hposition, hyaw,
    hresidual, hfitness, hone, hdegraded, hlocalized, hordered, hupdate, hmotion,
    hregistrationWeight, hoverlap, hsum⟩

end Accepted

end SlamSystemManager.Quality
