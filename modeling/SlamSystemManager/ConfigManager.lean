import Mathlib.Data.List.Induction
import SlamSystemManager.Library.Yaml

/-!
# The system configuration

`ConfigManager`: the file is read key by key, with every value checked before any of them counts. A
manager holds the configuration that has been accepted last.
-/

open Numeric Yaml

namespace SlamSystemManager

/-! ## The configuration -/

structure FrameConfig where
  map : String := ""
  odom : String := ""
  base : String := ""
  lidar : String := ""
  deriving DecidableEq

structure TopicConfig where
  pointcloud : String := ""
  imu : String := ""
  initialPose : String := ""
  localizationRawOdometry : String := ""
  localizationCorrection : String := ""
  localizationOdometry : String := ""
  localizationPose : String := ""
  systemStatus : String := ""
  deriving DecidableEq

structure LastPoseConfig where
  enable : Bool := true
  saveIntervalSec : Double := .fin 5
  deriving DecidableEq

structure RelocalizationConfig where
  initialPoseWaitTimeoutSec : Double := .fin 5
  initialPoseSettleSec : Double := .fin 6
  lastPoseRetryCount : ℕ := 3
  lastPoseRetryIntervalSec : Double := .fin 2
  minInitialPoseSubscribers : ℕ := 2
  deriving DecidableEq

/-- The members of `std::array<double, 3>`. -/
structure Vector3 where
  x : Double := .fin 0
  y : Double := .fin 0
  z : Double := .fin 0
  deriving DecidableEq

structure ExtrinsicConfig where
  translation : Vector3 := {}
  rotationRpy : Vector3 := {}
  deriving DecidableEq

structure SystemConfig where
  mapRoot : String := ""
  frames : FrameConfig := {}
  topics : TopicConfig := {}
  lastPose : LastPoseConfig := {}
  relocalization : RelocalizationConfig := {}
  lidarToBase : ExtrinsicConfig := {}
  statusPublishHz : Double := .fin 2
  deriving DecidableEq

structure ConfigManager where
  config : SystemConfig := {}
  loaded : Bool := false
  deriving DecidableEq

namespace ConfigManager

/-! ## Reading -/

variable (convert : Conversions)

/-- `requiredValue`. -/
def requiredValue {α : Type} (as : Yaml → Except String α) (parent : Yaml) (key : String) :
    Except String α :=
  convert.required ("Missing required configuration key: " ++ key)
    (fun what ↦ "Invalid value for configuration key '" ++ key ++ "': " ++ what) as parent key

/-- `requiredVector3`. -/
def requiredVector3 (parent : Yaml) (key : String) : Except String Vector3 := do
  match ← convert.subscript parent key with
  | some (.sequence [x, y, z]) =>
    return ⟨← convert.asReal x, ← convert.asReal y, ← convert.asReal z⟩
  | _ => throw ("Configuration key '" ++ key ++ "' must contain exactly three numbers")

/-- A section of the file. -/
def readSection (root : Yaml) (name : String) : Except String Yaml :=
  convert.requiredMap ("Missing required configuration section: " ++ name) root name

/-- The section of the extrinsics within theirs. -/
def lidarToBase (root : Yaml) : Except String Yaml := do
  let missing := "Missing required configuration section: extrinsics.lidar_to_base"
  match ← convert.subscript root "extrinsics" with
  | none => throw missing
  | some extrinsics => convert.requiredMap missing extrinsics "lidar_to_base"

def readFrames (root : Yaml) : Except String FrameConfig := do
  let frames ← readSection convert root "frames"
  return {
    map := ← requiredValue convert convert.asText frames "map"
    odom := ← requiredValue convert convert.asText frames "odom"
    base := ← requiredValue convert convert.asText frames "base"
    lidar := ← requiredValue convert convert.asText frames "lidar" }

def readTopics (root : Yaml) : Except String TopicConfig := do
  let topics ← readSection convert root "topics"
  return {
    pointcloud := ← requiredValue convert convert.asText topics "pointcloud"
    imu := ← requiredValue convert convert.asText topics "imu"
    initialPose := ← requiredValue convert convert.asText topics "initial_pose"
    localizationRawOdometry :=
      ← requiredValue convert convert.asText topics "localization_raw_odometry"
    localizationCorrection :=
      ← requiredValue convert convert.asText topics "localization_correction"
    localizationOdometry := ← requiredValue convert convert.asText topics "localization_odometry"
    localizationPose := ← requiredValue convert convert.asText topics "localization_pose"
    systemStatus := ← requiredValue convert convert.asText topics "system_status" }

def readLastPose (root : Yaml) : Except String LastPoseConfig := do
  let lastPose ← readSection convert root "last_pose"
  return {
    enable := ← requiredValue convert convert.asFlag lastPose "enable"
    saveIntervalSec := ← requiredValue convert convert.asReal lastPose "save_interval_sec" }

def readRelocalization (root : Yaml) : Except String RelocalizationConfig := do
  let relocalization ← readSection convert root "relocalization"
  return {
    initialPoseWaitTimeoutSec :=
      ← requiredValue convert convert.asReal relocalization "initial_pose_wait_timeout_sec"
    initialPoseSettleSec :=
      ← requiredValue convert convert.asReal relocalization "initial_pose_settle_sec"
    lastPoseRetryCount :=
      ← requiredValue convert convert.asNatural relocalization "last_pose_retry_count"
    lastPoseRetryIntervalSec :=
      ← requiredValue convert convert.asReal relocalization "last_pose_retry_interval_sec"
    minInitialPoseSubscribers :=
      ← requiredValue convert convert.asNatural relocalization "min_initial_pose_subscribers" }

def readExtrinsics (root : Yaml) : Except String ExtrinsicConfig := do
  let lidarToBase ← lidarToBase convert root
  return {
    translation := ← requiredVector3 convert lidarToBase "translation"
    rotationRpy := ← requiredVector3 convert lidarToBase "rotation_rpy" }

/-- The first part of `load`, section by section. -/
def readConfig (root : Yaml) : Except String SystemConfig := do
  let mapRoot ← requiredValue convert convert.asText root "map_root"
  let statusPublishHz ← requiredValue convert convert.asReal root "status_publish_hz"
  return {
    mapRoot, statusPublishHz
    frames := ← readFrames convert root
    topics := ← readTopics convert root
    lastPose := ← readLastPose convert root
    relocalization := ← readRelocalization convert root
    lidarToBase := ← readExtrinsics convert root }

/-! ## Checks -/

/-- `requireNonEmpty`. -/
def requireNonEmpty (value key : String) : Except String Unit :=
  if value = "" then .error ("Configuration key '" ++ key ++ "' must not be empty") else .ok ()

/-- `requireAbsoluteTopic`. -/
def requireAbsoluteTopic (value key : String) : Except String Unit := do
  requireNonEmpty value key
  if value.toList.head? ≠ some '/' then
    throw ("Configuration topic '" ++ key ++ "' must start with '/'")

/-- The second part of `load`. -/
def validate (next : SystemConfig) : Except String Unit := do
  requireNonEmpty next.mapRoot "map_root"
  if next.mapRoot.toList.head? ≠ some '/' then
    throw "Configuration key 'map_root' must be an absolute path"
  requireNonEmpty next.frames.map "frames.map"
  requireNonEmpty next.frames.odom "frames.odom"
  requireNonEmpty next.frames.base "frames.base"
  requireNonEmpty next.frames.lidar "frames.lidar"
  requireAbsoluteTopic next.topics.pointcloud "topics.pointcloud"
  requireAbsoluteTopic next.topics.imu "topics.imu"
  requireAbsoluteTopic next.topics.initialPose "topics.initial_pose"
  requireAbsoluteTopic next.topics.localizationRawOdometry "topics.localization_raw_odometry"
  requireAbsoluteTopic next.topics.localizationCorrection "topics.localization_correction"
  requireAbsoluteTopic next.topics.localizationOdometry "topics.localization_odometry"
  requireAbsoluteTopic next.topics.localizationPose "topics.localization_pose"
  requireAbsoluteTopic next.topics.systemStatus "topics.system_status"
  if next.statusPublishHz.le (.fin 0) then
    throw "Configuration key 'status_publish_hz' must be greater than zero"
  if next.lastPose.saveIntervalSec.le (.fin 0) then
    throw "Configuration key 'last_pose.save_interval_sec' must be greater than zero"
  if next.relocalization.initialPoseWaitTimeoutSec.le (.fin 0) then
    throw ("Configuration key 'relocalization.initial_pose_wait_timeout_sec' must be greater " ++
      "than zero")
  if next.relocalization.initialPoseSettleSec.lt (.fin 0) then
    throw "Configuration key 'relocalization.initial_pose_settle_sec' must not be negative"
  if next.relocalization.lastPoseRetryCount = 0 ∨
      next.relocalization.lastPoseRetryIntervalSec.le (.fin 0) then
    throw "Relocalization Last Pose retry count and interval must be greater than zero"
  if next.relocalization.minInitialPoseSubscribers < 2 then
    throw ("Configuration key 'relocalization.min_initial_pose_subscribers' must be at least 2")

/-- `load` up to the assignment, for the document in the file or the text of the exception of
`LoadFile`. -/
def parse (path : String) (file : Except String Yaml) : Except String SystemConfig := do
  match file with
  | .error what => throw ("Unable to load system config '" ++ path ++ "': " ++ what)
  | .ok root =>
    let next ← readConfig convert root
    validate next
    return next

/-- `load`, and what it throws. -/
def load (manager : ConfigManager) (path : String) (file : Except String Yaml) :
    ConfigManager × Except String Unit :=
  match parse convert path file with
  | .error what => (manager, .error what)
  | .ok next => ({ config := next, loaded := true }, .ok ())

def get (manager : ConfigManager) : Except String SystemConfig :=
  if manager.loaded then .ok manager.config
  else .error "System configuration has not been loaded"

/-! ## What a document says -/

/-- A value of a configuration as a document may say it. -/
inductive Setting where
  | text (value : String)
  | real (value : Double)
  | natural (value : ℕ)
  | flag (value : Bool)
  | vector (value : Vector3)

variable {convert}

/-- What a node says, to a reader that converts its scalars. -/
def Says (convert : Conversions) (node : Yaml) : Setting → Prop
  | .text value => node = .scalar value
  | .real value => convert.asReal node = .ok value
  | .natural value => convert.asNatural node = .ok value
  | .flag value => convert.asFlag node = .ok value
  | .vector value => ∃ x y z, node = .sequence [x, y, z] ∧ convert.asReal x = .ok value.x ∧
      convert.asReal y = .ok value.y ∧ convert.asReal z = .ok value.z

/-- Every key of the file, and what a configuration holds of it. -/
def settings (config : SystemConfig) : List (List String × Setting) :=
  [(["map_root"], .text config.mapRoot),
    (["status_publish_hz"], .real config.statusPublishHz),
    (["frames", "map"], .text config.frames.map),
    (["frames", "odom"], .text config.frames.odom),
    (["frames", "base"], .text config.frames.base),
    (["frames", "lidar"], .text config.frames.lidar),
    (["topics", "pointcloud"], .text config.topics.pointcloud),
    (["topics", "imu"], .text config.topics.imu),
    (["topics", "initial_pose"], .text config.topics.initialPose),
    (["topics", "localization_raw_odometry"], .text config.topics.localizationRawOdometry),
    (["topics", "localization_correction"], .text config.topics.localizationCorrection),
    (["topics", "localization_odometry"], .text config.topics.localizationOdometry),
    (["topics", "localization_pose"], .text config.topics.localizationPose),
    (["topics", "system_status"], .text config.topics.systemStatus),
    (["last_pose", "enable"], .flag config.lastPose.enable),
    (["last_pose", "save_interval_sec"], .real config.lastPose.saveIntervalSec),
    (["relocalization", "initial_pose_wait_timeout_sec"],
      .real config.relocalization.initialPoseWaitTimeoutSec),
    (["relocalization", "initial_pose_settle_sec"],
      .real config.relocalization.initialPoseSettleSec),
    (["relocalization", "last_pose_retry_count"],
      .natural config.relocalization.lastPoseRetryCount),
    (["relocalization", "last_pose_retry_interval_sec"],
      .real config.relocalization.lastPoseRetryIntervalSec),
    (["relocalization", "min_initial_pose_subscribers"],
      .natural config.relocalization.minInitialPoseSubscribers),
    (["extrinsics", "lidar_to_base", "translation"], .vector config.lidarToBase.translation),
    (["extrinsics", "lidar_to_base", "rotation_rpy"], .vector config.lidarToBase.rotationRpy)]

def Finds (convert : Conversions) (node : Yaml) (path : List String) (setting : Setting) : Prop :=
  ∃ value, node.find path = some value ∧ Says convert value setting

/-- A document that says what a configuration holds. -/
def Describes (convert : Conversions) (root : Yaml) (config : SystemConfig) : Prop :=
  ∀ entry ∈ settings config, Finds convert root entry.1 entry.2

/-- A configuration that passes the checks. -/
structure Valid (config : SystemConfig) : Prop where
  mapRoot : config.mapRoot.toList.head? = some '/'
  frames : config.frames.map ≠ "" ∧ config.frames.odom ≠ "" ∧ config.frames.base ≠ "" ∧
    config.frames.lidar ≠ ""
  topics : ∀ topic ∈ [config.topics.pointcloud, config.topics.imu, config.topics.initialPose,
    config.topics.localizationRawOdometry, config.topics.localizationCorrection,
    config.topics.localizationOdometry, config.topics.localizationPose,
    config.topics.systemStatus], topic.toList.head? = some '/'
  positive : ∀ value ∈ [config.statusPublishHz, config.lastPose.saveIntervalSec,
    config.relocalization.initialPoseWaitTimeoutSec,
    config.relocalization.lastPoseRetryIntervalSec], value.le (.fin 0) = false
  settle : config.relocalization.initialPoseSettleSec.lt (.fin 0) = false
  retries : config.relocalization.lastPoseRetryCount ≠ 0
  subscribers : 2 ≤ config.relocalization.minInitialPoseSubscribers

theorem requireNonEmpty_eq_ok {value key : String} {u : Unit} :
    requireNonEmpty value key = .ok u ↔ value ≠ "" := by
  unfold requireNonEmpty
  split_ifs with hempty <;> simp [hempty]

theorem requireAbsoluteTopic_eq_ok {value key : String} {u : Unit} :
    requireAbsoluteTopic value key = .ok u ↔ value.toList.head? = some '/' := by
  unfold requireAbsoluteTopic
  rw [bind_eq_ok]
  constructor
  · rintro ⟨-, -, habsolute⟩
    by_contra hrelative
    rw [if_pos hrelative] at habsolute
    cases habsolute
  · intro habsolute
    refine ⟨(), requireNonEmpty_eq_ok.mpr ?_, if_neg (not_not.mpr habsolute)⟩
    rintro rfl
    cases habsolute

theorem throw_or_return_eq_ok {p : Prop} [Decidable p] {what : String} :
    (if p then (throw what : Except String Unit) else pure ()) = .ok () ↔ ¬p := by
  by_cases hp : p
  · simp [hp, throw, throwThe, MonadExceptOf.throw]
  · simp [hp, pure, Except.pure]

theorem validate_eq_ok (config : SystemConfig) : validate config = .ok () ↔ Valid config := by
  unfold validate
  simp only [bind_eq_ok, requireNonEmpty_eq_ok, requireAbsoluteTopic_eq_ok, throw_or_eq_ok,
    throw_or_return_eq_ok, exists_const, not_not, not_or, not_lt, Bool.not_eq_true]
  constructor
  · rintro ⟨-, hroot, hmap, hodom, hbase, hlidar, hpointcloud, himu, hinitial, hraw, hcorrection,
      hodometry, hpose, hstatus, hpublish, hsave, hwait, hsettle, ⟨hcount, hinterval⟩,
      hsubscribers⟩
    exact ⟨hroot, ⟨hmap, hodom, hbase, hlidar⟩,
      by simp [hpointcloud, himu, hinitial, hraw, hcorrection, hodometry, hpose, hstatus],
      by simp [hpublish, hsave, hwait, hinterval], hsettle, hcount, hsubscribers⟩
  · rintro ⟨hroot, ⟨hmap, hodom, hbase, hlidar⟩, htopics, hpositive, hsettle, hcount, hsubscribers⟩
    simp only [List.forall_mem_cons, List.not_mem_nil, false_imp_iff, implies_true, and_true]
      at htopics hpositive
    obtain ⟨hpointcloud, himu, hinitial, hraw, hcorrection, hodometry, hpose, hstatus⟩ := htopics
    obtain ⟨hpublish, hsave, hwait, hinterval⟩ := hpositive
    have hsome : config.mapRoot ≠ "" := by
      intro hempty
      rw [hempty] at hroot
      cases hroot
    exact ⟨hsome, hroot, hmap, hodom, hbase, hlidar, hpointcloud, himu, hinitial, hraw,
      hcorrection, hodometry, hpose, hstatus, hpublish, hsave, hwait, hsettle, ⟨hcount, hinterval⟩,
      hsubscribers⟩

theorem text_eq_ok {parent : Yaml} {key value : String} :
    requiredValue convert convert.asText parent key = .ok value ↔
      Finds convert parent [key] (.text value) := by
  rw [requiredValue, Conversions.required_asText_eq_ok]
  constructor
  · intro hfind
    exact ⟨_, hfind, rfl⟩
  · rintro ⟨_, hfind, rfl⟩
    exact hfind

theorem real_eq_ok {parent : Yaml} {key : String} {value : Double} :
    requiredValue convert convert.asReal parent key = .ok value ↔
      Finds convert parent [key] (.real value) :=
  Conversions.required_asReal_eq_ok

theorem natural_eq_ok {parent : Yaml} {key : String} {value : ℕ} :
    requiredValue convert convert.asNatural parent key = .ok value ↔
      Finds convert parent [key] (.natural value) :=
  Conversions.required_asScalar_eq_ok

theorem flag_eq_ok {parent : Yaml} {key : String} {value : Bool} :
    requiredValue convert convert.asFlag parent key = .ok value ↔
      Finds convert parent [key] (.flag value) :=
  Conversions.required_asFlag_eq_ok

theorem vector_eq_ok {parent : Yaml} {key : String} {value : Vector3} :
    requiredVector3 convert parent key = .ok value ↔
      Finds convert parent [key] (.vector value) := by
  unfold requiredVector3
  rw [bind_eq_ok]
  constructor
  · rintro ⟨found, hfind, hread⟩
    split at hread
    · simp only [bind_eq_ok, pure_eq_ok] at hread
      obtain ⟨x, hx, y, hy, z, hz, rfl⟩ := hread
      exact ⟨_, Conversions.subscript_eq_ok.mp hfind, _, _, _, rfl, hx, hy, hz⟩
    · cases hread
  · rintro ⟨node, hfind, x, y, z, rfl, hx, hy, hz⟩
    refine ⟨_, Conversions.subscript_eq_ok.mpr hfind, ?_⟩
    simp only [bind_eq_ok, pure_eq_ok]
    exact ⟨_, hx, _, hy, _, hz, rfl⟩

theorem section_eq_ok {root node : Yaml} {name : String} :
    readSection convert root name = .ok node ↔
      root.find [name] = some node ∧ node.isMap = true :=
  Conversions.requiredMap_eq_ok

/-! ## Sections -/

/-- What is found in a section is found by way of it. -/
theorem finds_cons {root node : Yaml} {name : String} {path : List String} {setting : Setting}
    (h : root.find [name] = some node) :
    Finds convert root (name :: path) setting ↔ Finds convert node path setting := by
  have hfind : root.find (name :: path) = node.find path := by
    rw [← List.singleton_append, Yaml.find_append, h]
    rfl
  simp only [Finds, hfind]

/-- A key that is found has a section that is a map. -/
theorem section_of_finds {root : Yaml} {name key : String} {path : List String} {setting : Setting}
    (h : Finds convert root (name :: key :: path) setting) :
    ∃ node, root.find [name] = some node ∧ node.isMap = true := by
  obtain ⟨value, hfind, -⟩ := h
  rw [← List.singleton_append, Yaml.find_append] at hfind
  obtain ⟨node, hnode, hrest⟩ := Option.bind_eq_some_iff.mp hfind
  exact ⟨node, hnode, Yaml.isMap_of_find hrest⟩

theorem readFrames_eq_ok {root : Yaml} {frames : FrameConfig} :
    readFrames convert root = .ok frames ↔
      Finds convert root ["frames", "map"] (.text frames.map) ∧
      Finds convert root ["frames", "odom"] (.text frames.odom) ∧
      Finds convert root ["frames", "base"] (.text frames.base) ∧
      Finds convert root ["frames", "lidar"] (.text frames.lidar) := by
  simp only [readFrames, bind_eq_ok, pure_eq_ok, section_eq_ok, text_eq_ok]
  constructor
  · rintro ⟨node, ⟨hnode, -⟩, map, hmap, odom, hodom, base, hbase, lidar, hlidar, rfl⟩
    simp only [finds_cons hnode]
    exact ⟨hmap, hodom, hbase, hlidar⟩
  · intro h
    obtain ⟨node, hnode, hismap⟩ := section_of_finds h.1
    simp only [finds_cons hnode] at h
    obtain ⟨hmap, hodom, hbase, hlidar⟩ := h
    exact ⟨node, ⟨hnode, hismap⟩, _, hmap, _, hodom, _, hbase, _, hlidar, rfl⟩

theorem readTopics_eq_ok {root : Yaml} {topics : TopicConfig} :
    readTopics convert root = .ok topics ↔
      Finds convert root ["topics", "pointcloud"] (.text topics.pointcloud) ∧
      Finds convert root ["topics", "imu"] (.text topics.imu) ∧
      Finds convert root ["topics", "initial_pose"] (.text topics.initialPose) ∧
      Finds convert root ["topics", "localization_raw_odometry"]
        (.text topics.localizationRawOdometry) ∧
      Finds convert root ["topics", "localization_correction"]
        (.text topics.localizationCorrection) ∧
      Finds convert root ["topics", "localization_odometry"] (.text topics.localizationOdometry) ∧
      Finds convert root ["topics", "localization_pose"] (.text topics.localizationPose) ∧
      Finds convert root ["topics", "system_status"] (.text topics.systemStatus) := by
  simp only [readTopics, bind_eq_ok, pure_eq_ok, section_eq_ok, text_eq_ok]
  constructor
  · rintro ⟨node, ⟨hnode, -⟩, _, hpointcloud, _, himu, _, hinitial, _, hraw, _, hcorrection, _,
      hodometry, _, hpose, _, hstatus, rfl⟩
    simp only [finds_cons hnode]
    exact ⟨hpointcloud, himu, hinitial, hraw, hcorrection, hodometry, hpose, hstatus⟩
  · intro h
    obtain ⟨node, hnode, hismap⟩ := section_of_finds h.1
    simp only [finds_cons hnode] at h
    obtain ⟨hpointcloud, himu, hinitial, hraw, hcorrection, hodometry, hpose, hstatus⟩ := h
    exact ⟨node, ⟨hnode, hismap⟩, _, hpointcloud, _, himu, _, hinitial, _, hraw, _, hcorrection, _,
      hodometry, _, hpose, _, hstatus, rfl⟩

theorem readLastPose_eq_ok {root : Yaml} {lastPose : LastPoseConfig} :
    readLastPose convert root = .ok lastPose ↔
      Finds convert root ["last_pose", "enable"] (.flag lastPose.enable) ∧
      Finds convert root ["last_pose", "save_interval_sec"] (.real lastPose.saveIntervalSec) := by
  simp only [readLastPose, bind_eq_ok, pure_eq_ok, section_eq_ok, flag_eq_ok, real_eq_ok]
  constructor
  · rintro ⟨node, ⟨hnode, -⟩, _, henable, _, hinterval, rfl⟩
    simp only [finds_cons hnode]
    exact ⟨henable, hinterval⟩
  · intro h
    obtain ⟨node, hnode, hismap⟩ := section_of_finds h.1
    simp only [finds_cons hnode] at h
    exact ⟨node, ⟨hnode, hismap⟩, _, h.1, _, h.2, rfl⟩

theorem readRelocalization_eq_ok {root : Yaml} {relocalization : RelocalizationConfig} :
    readRelocalization convert root = .ok relocalization ↔
      Finds convert root ["relocalization", "initial_pose_wait_timeout_sec"]
        (.real relocalization.initialPoseWaitTimeoutSec) ∧
      Finds convert root ["relocalization", "initial_pose_settle_sec"]
        (.real relocalization.initialPoseSettleSec) ∧
      Finds convert root ["relocalization", "last_pose_retry_count"]
        (.natural relocalization.lastPoseRetryCount) ∧
      Finds convert root ["relocalization", "last_pose_retry_interval_sec"]
        (.real relocalization.lastPoseRetryIntervalSec) ∧
      Finds convert root ["relocalization", "min_initial_pose_subscribers"]
        (.natural relocalization.minInitialPoseSubscribers) := by
  simp only [readRelocalization, bind_eq_ok, pure_eq_ok, section_eq_ok, natural_eq_ok, real_eq_ok]
  constructor
  · rintro ⟨node, ⟨hnode, -⟩, _, hwait, _, hsettle, _, hcount, _, hinterval, _, hsubscribers, rfl⟩
    simp only [finds_cons hnode]
    exact ⟨hwait, hsettle, hcount, hinterval, hsubscribers⟩
  · intro h
    obtain ⟨node, hnode, hismap⟩ := section_of_finds h.1
    simp only [finds_cons hnode] at h
    obtain ⟨hwait, hsettle, hcount, hinterval, hsubscribers⟩ := h
    exact ⟨node, ⟨hnode, hismap⟩, _, hwait, _, hsettle, _, hcount, _, hinterval, _, hsubscribers,
      rfl⟩

theorem lidarToBase_eq_ok {root node : Yaml} :
    lidarToBase convert root = .ok node ↔
      root.find ["extrinsics", "lidar_to_base"] = some node ∧ node.isMap = true := by
  have hpath : root.find ["extrinsics", "lidar_to_base"] =
      (root.find ["extrinsics"]).bind fun extrinsics ↦ extrinsics.find ["lidar_to_base"] :=
    Yaml.find_append root ["extrinsics"] ["lidar_to_base"]
  unfold lidarToBase
  rw [bind_eq_ok, hpath, Option.bind_eq_some_iff]
  constructor
  · rintro ⟨found, hfind, hread⟩
    cases found with
    | none => cases hread
    | some extrinsics =>
      obtain ⟨hinner, hmap⟩ := Conversions.requiredMap_eq_ok.mp hread
      exact ⟨⟨extrinsics, Conversions.subscript_eq_ok.mp hfind, hinner⟩, hmap⟩
  · rintro ⟨⟨extrinsics, hextrinsics, hinner⟩, hmap⟩
    exact ⟨some extrinsics, Conversions.subscript_eq_ok.mpr hextrinsics,
      Conversions.requiredMap_eq_ok.mpr ⟨hinner, hmap⟩⟩

theorem readExtrinsics_eq_ok {root : Yaml} {extrinsics : ExtrinsicConfig} :
    readExtrinsics convert root = .ok extrinsics ↔
      Finds convert root ["extrinsics", "lidar_to_base", "translation"]
        (.vector extrinsics.translation) ∧
      Finds convert root ["extrinsics", "lidar_to_base", "rotation_rpy"]
        (.vector extrinsics.rotationRpy) := by
  have hway {node : Yaml} (hnode : root.find ["extrinsics", "lidar_to_base"] = some node)
      (key : String) (setting : Setting) :
      Finds convert root ["extrinsics", "lidar_to_base", key] setting ↔
        Finds convert node [key] setting := by
    have hfind : root.find ["extrinsics", "lidar_to_base", key] = node.find [key] := by
      change root.find (["extrinsics", "lidar_to_base"] ++ [key]) = _
      rw [Yaml.find_append, hnode]
      rfl
    simp only [Finds, hfind]
  simp only [readExtrinsics, bind_eq_ok, pure_eq_ok, lidarToBase_eq_ok, vector_eq_ok]
  constructor
  · rintro ⟨node, ⟨hnode, -⟩, _, htranslation, _, hrotation, rfl⟩
    simp only [hway hnode]
    exact ⟨htranslation, hrotation⟩
  · intro h
    obtain ⟨value, hfind, -⟩ := id h.1
    change root.find (["extrinsics", "lidar_to_base"] ++ ["translation"]) = _ at hfind
    rw [Yaml.find_append] at hfind
    obtain ⟨node, hnode, hrest⟩ := Option.bind_eq_some_iff.mp hfind
    have hismap : node.isMap = true := Yaml.isMap_of_find hrest
    simp only [hway hnode] at h
    exact ⟨node, ⟨hnode, hismap⟩, _, h.1, _, h.2, rfl⟩

/-- The values are read if the document says them all, and as it says them. -/
theorem readConfig_eq_ok {root : Yaml} {config : SystemConfig} :
    readConfig convert root = .ok config ↔ Describes convert root config := by
  simp only [readConfig, bind_eq_ok, pure_eq_ok, text_eq_ok, real_eq_ok, readFrames_eq_ok,
    readTopics_eq_ok, readLastPose_eq_ok, readRelocalization_eq_ok, readExtrinsics_eq_ok, Describes,
    settings, List.forall_mem_cons, List.not_mem_nil, false_imp_iff, implies_true, and_true]
  constructor
  · rintro ⟨_, hroot, _, hpublish, _, hframes, _, htopics, _, hlast, _, hrelocalization, _,
      hextrinsics, rfl⟩
    simp only [hroot, hpublish, hframes, htopics, hlast, hrelocalization, hextrinsics, and_self]
  · rintro ⟨hroot, hpublish, hmap, hodom, hbase, hlidar, hpointcloud, himu, hinitial, hraw,
      hcorrection, hodometry, hpose, hstatus, henable, hsave, hwait, hsettle, hcount, hinterval,
      hsubscribers, htranslation, hrotation⟩
    exact ⟨_, hroot, _, hpublish, _, ⟨hmap, hodom, hbase, hlidar⟩, _,
      ⟨hpointcloud, himu, hinitial, hraw, hcorrection, hodometry, hpose, hstatus⟩, _,
      ⟨henable, hsave⟩, _, ⟨hwait, hsettle, hcount, hinterval, hsubscribers⟩, _,
      ⟨htranslation, hrotation⟩, rfl⟩

/-! ## Loads -/

/-- A file that is a document of a valid configuration. -/
def Accepts (convert : Conversions) (file : Except String Yaml) (config : SystemConfig) : Prop :=
  ∃ root, file = .ok root ∧ Describes convert root config ∧ Valid config

theorem parse_eq_ok {path : String} {file : Except String Yaml} {config : SystemConfig} :
    parse convert path file = .ok config ↔ Accepts convert file config := by
  cases file with
  | error what => exact iff_of_false nofun nofun
  | ok root =>
    simp only [parse, Accepts, bind_eq_ok, pure_eq_ok, readConfig_eq_ok, Except.ok.injEq,
      exists_eq_left']
    constructor
    · rintro ⟨next, hnext, _, hvalid, rfl⟩
      exact ⟨hnext, (validate_eq_ok next).mp hvalid⟩
    · rintro ⟨hconfig, hvalid⟩
      exact ⟨config, hconfig, (), (validate_eq_ok config).mpr hvalid, rfl⟩

/-- A manager that has been asked to load one file after another. -/
def loadAll (convert : Conversions) (files : List (String × Except String Yaml)) : ConfigManager :=
  files.foldl (fun manager file ↦ (load convert manager file.1 file.2).1) {}

/-- The configuration a manager gives, if it gives one. -/
def held (manager : ConfigManager) : Option SystemConfig :=
  if manager.loaded then some manager.config else none

theorem get_eq_ok {manager : ConfigManager} {config : SystemConfig} :
    manager.get = .ok config ↔ manager.held = some config := by
  unfold get held
  split_ifs <;> simp

theorem held_load (manager : ConfigManager) (path : String) (file : Except String Yaml) :
    (load convert manager path file).1.held =
      (parse convert path file).toOption.or manager.held := by
  unfold load
  cases parse convert path file <;> rfl

theorem held_loadAll (files : List (String × Except String Yaml)) :
    (loadAll convert files).held =
      files.reverse.findSome? fun file ↦ (parse convert file.1 file.2).toOption := by
  induction files using List.reverseRecOn with
  | nil => rfl
  | append_singleton files file ih =>
    have hlast : loadAll convert (files ++ [file]) =
        (load convert (loadAll convert files) file.1 file.2).1 := by
      simp only [loadAll, List.foldl_append, List.foldl_cons, List.foldl_nil]
    rw [hlast, held_load, ih, List.reverse_append, List.reverse_singleton, List.singleton_append,
      List.findSome?_cons]
    cases (parse convert file.1 file.2).toOption <;> rfl

theorem toOption_parse_eq_some {path : String} {file : Except String Yaml}
    {config : SystemConfig} :
    (parse convert path file).toOption = some config ↔ Accepts convert file config := by
  rw [← @parse_eq_ok convert path]
  cases parse convert path file <;> simp [Except.toOption]

theorem toOption_parse_eq_none {path : String} {file : Except String Yaml} :
    (parse convert path file).toOption = none ↔ ∀ config, ¬Accepts convert file config := by
  simp only [← @toOption_parse_eq_some convert path, Option.eq_none_iff_forall_ne_some, ne_eq]

/-- Whatever has been loaded, the configuration in force is the one that the last acceptable file
describes. -/
theorem get_loadAll (files : List (String × Except String Yaml)) (config : SystemConfig) :
    (loadAll convert files).get = .ok config ↔
      ∃ before file after, files = before ++ file :: after ∧ Accepts convert file.2 config ∧
        ∀ later ∈ after, ∀ other, ¬Accepts convert later.2 other := by
  rw [get_eq_ok, held_loadAll, List.findSome?_eq_some_iff]
  constructor
  · rintro ⟨after, file, before, hfiles, haccepts, hafter⟩
    refine ⟨before.reverse, file, after.reverse, ?_, toOption_parse_eq_some.mp haccepts, ?_⟩
    · rw [← List.reverse_reverse files, hfiles]
      simp
    · intro later hlater
      exact toOption_parse_eq_none.mp (hafter later (List.mem_reverse.mp hlater))
  · rintro ⟨before, file, after, rfl, haccepts, hafter⟩
    refine ⟨after.reverse, file, before.reverse, by simp, toOption_parse_eq_some.mpr haccepts, ?_⟩
    intro later hlater
    exact toOption_parse_eq_none.mpr (hafter later (List.mem_reverse.mp hlater))

end ConfigManager

end SlamSystemManager
