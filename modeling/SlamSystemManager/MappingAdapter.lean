import SlamSystemManager.Library.Path
import SlamSystemManager.Library.Replacement
import SlamSystemManager.Library.Yaml

/-!
# The configuration of a mapping run

`MappingAdapter::loadConfig` and `prepareRuntimeConfig`, which gives the mapping process a copy of a
template with the place of its output in it. The template and the packages are the machine's.
-/

open Numeric PosixPath Replacement Yaml

namespace SlamSystemManager.MappingAdapter

/-! ## Configuration -/

structure MappingAdapterConfig where
  templateConfig : String := ""
  runtimeConfigName : String := "mapping_runtime.yaml"
  saveServiceName : String := "/map_save"
  saveServiceType : String := "std_srvs/srv/Trigger"
  startupTimeoutSec : Double := .fin 10
  saveTimeoutSec : Double := .fin 60
  deriving DecidableEq

variable (convert : Conversions)

def requiredValue {α : Type} (as : Yaml → Except String α) (parent : Yaml) (key : String) :
    Except String α :=
  convert.required ("Missing mapping_adapter configuration key: " ++ key)
    (fun what ↦ "Invalid mapping_adapter configuration key '" ++ key ++ "': " ++ what) as parent key

/-- The first part of `loadConfig`. -/
def readConfig (root : Yaml) : Except String MappingAdapterConfig := do
  let mapping ← convert.requiredMap "Process config must contain a mapping_adapter map" root
    "mapping_adapter"
  let templateConfig ← requiredValue convert convert.asText mapping "template_config"
  let runtimeConfigName ← requiredValue convert convert.asText mapping "runtime_config_name"
  let startupTimeoutSec ← requiredValue convert convert.asReal mapping "startup_timeout_sec"
  let saveService ← convert.requiredMap "mapping_adapter.save_service must be a map" mapping
    "save_service"
  return {
    templateConfig, runtimeConfigName, startupTimeoutSec
    saveServiceName := ← requiredValue convert convert.asText saveService "name"
    saveServiceType := ← requiredValue convert convert.asText saveService "type"
    saveTimeoutSec := ← requiredValue convert convert.asReal saveService "timeout_sec" }

/-- The second part of `loadConfig`; a name with a separator has a parent path. -/
def validate (config : MappingAdapterConfig) : Except String MappingAdapterConfig :=
  if config.runtimeConfigName = "" ∨ '/' ∈ config.runtimeConfigName.toList then
    .error "mapping_adapter.runtime_config_name must be a file name"
  else if config.saveServiceName.toList.head? ≠ some '/' then
    .error "mapping adapter save service name must be absolute"
  else if config.saveServiceType ≠ "std_srvs/srv/Trigger" then
    .error ("Unsupported mapping save service type: " ++ config.saveServiceType)
  else if config.startupTimeoutSec.le (.fin 0) || config.saveTimeoutSec.le (.fin 0) then
    .error "Mapping adapter timeouts must be positive"
  else .ok config

/-- `loadConfig`, for the document in the file or the text of the exception of `LoadFile`. -/
def loadConfig (file : Except String Yaml) : Except String MappingAdapterConfig := do
  match file with
  | .error what => throw ("Unable to load mapping adapter config: " ++ what)
  | .ok root => validate (← readConfig convert root)

/-! ## The runtime configuration -/

/-- What an adapter finds on the machine it runs on. -/
structure Host where
  /-- `get_package_share_directory`, or what it throws. -/
  share : String → Except String String
  /-- `YAML::LoadFile`, or what it throws. -/
  loadFile : String → Except String Yaml
  isDirectory : String → Bool
  emit : Yaml → List UInt8
  pid : ℕ

def packagePrefix : List Char := "package://".toList

/-- `directory / path`. -/
def join (directory path : String) : String :=
  if path.toList.head? = some '/' ∨ directory = "" then path
  else if directory.toList.getLast? = some '/' then directory ++ path
  else directory ++ "/" ++ path

/-- `resolveConfigPath`. -/
def resolveConfigPath (share : String → Except String String) (path : String) :
    Except String String :=
  if packagePrefix.isPrefixOf path.toList then
    let packageAndPath := path.toList.drop packagePrefix.length
    let packageName := packageAndPath.takeWhile (· ≠ '/')
    if packageName = packageAndPath ∨ packageName = [] then
      .error ("Invalid package:// mapping template path: " ++ path)
    else
      (share (String.ofList packageName)).map fun directory ↦
        join directory (String.ofList (packageAndPath.drop (packageName.length + 1)))
  else if path.toList.head? = some '/' then .ok path
  else .error "Mapping template path must be absolute or use package://"

def parametersPath : List String := ["/**", "ros__parameters"]

def mapFilePath : List String := parametersPath ++ ["map_file_path"]

def pcdSaveEnPath : List String := parametersPath ++ ["pcd_save", "pcd_save_en"]

/-- The parameters of a template; a subscript of a scalar is an exception. -/
def parameters (root : Yaml) : Except String Yaml :=
  if root.isScalar then .error (convert.badSubscript "/**")
  else if (root.child "/**").isScalar then .error (convert.badSubscript "ros__parameters")
  else
    match root.find parametersPath with
    | some (.map entries) => .ok (.map entries)
    | _ => .error "Mapping template must contain '/**.ros__parameters'"

/-- The template with the two assignments made. -/
def runtimeDocument (template : Yaml) (mapPath : String) : Except String Yaml := do
  let _ ← parameters convert template
  match (template.setAt mapFilePath (.scalar mapPath)).bind fun document ↦
      document.setAt pcdSaveEnPath (.scalar "true") with
  | some document => return document
  | none => throw (convert.badSubscript "pcd_save_en")

/-- `prepareRuntimeConfig` up to the emission of the document. -/
def requestedDocument (host : Host) (config : MappingAdapterConfig) (mapPath : String) :
    Except String Yaml := do
  if mapPath.toList.head? ≠ some '/' ∨ (Path.parse mapPath).filename ≠ "map.pcd" then
    throw "Mapping output must be an absolute path ending in map.pcd"
  let mapDirectory := (Path.parse mapPath).parentPath.text
  if !host.isDirectory mapDirectory then
    throw ("Map directory does not exist: " ++ mapDirectory)
  let templatePath ← resolveConfigPath host.share config.templateConfig
  match host.loadFile templatePath with
  | .error what => throw ("Unable to load mapping template '" ++ templatePath ++ "': " ++ what)
  | .ok template => runtimeDocument convert template mapPath

/-- The temporary file of a process. -/
def temporaryName (config : MappingAdapterConfig) (pid : ℕ) : String :=
  "." ++ config.runtimeConfigName ++ ".tmp." ++ toString pid

def faultText (temporaryPath : String) : Fault Yaml.File → String
  | .serialize => "Unable to serialize mapping runtime configuration"
  | .openTemporary => "Unable to create mapping runtime config: " ++ temporaryPath
  | .write _ => "Unable to write mapping runtime config: " ++ temporaryPath
  | .rename what => "Unable to install mapping runtime config: " ++ what

/-- `prepareRuntimeConfig` on the files of the directory of a map. -/
def prepareRuntimeConfig (host : Host) (config : MappingAdapterConfig)
    (fault : Option (Fault Yaml.File)) (files : Files Yaml.File) (mapPath : String) :
    Files Yaml.File × Except String String :=
  match requestedDocument convert host config mapPath with
  | .error what => (files, .error what)
  | .ok document =>
    let mapDirectory := (Path.parse mapPath).parentPath.text
    let temporary := temporaryName config host.pid
    match replace temporary config.runtimeConfigName fault (Yaml.file host.emit document)
        files with
    | (files, some fault) => (files, .error (faultText (join mapDirectory temporary) fault))
    | (files, none) => (files, .ok (join mapDirectory config.runtimeConfigName))

/-! ## What is asked of a configuration -/

variable {convert}

/-- A configuration that passes the checks. -/
structure Checked (config : MappingAdapterConfig) : Prop where
  runtimeConfigName : config.runtimeConfigName ≠ "" ∧ '/' ∉ config.runtimeConfigName.toList
  saveServiceName : config.saveServiceName.toList.head? = some '/'
  saveServiceType : config.saveServiceType = "std_srvs/srv/Trigger"
  positive : config.startupTimeoutSec.le (.fin 0) = false ∧
    config.saveTimeoutSec.le (.fin 0) = false

theorem checked_of_validate {config checked : MappingAdapterConfig}
    (h : validate config = .ok checked) : Checked checked := by
  unfold validate at h
  split_ifs at h with hname hservice htype htimes
  cases h
  rw [not_or] at hname
  rw [Bool.not_eq_true, Bool.or_eq_false_iff] at htimes
  exact ⟨hname, not_not.mp hservice, not_not.mp htype, htimes⟩

theorem checked_of_loadConfig {file : Except String Yaml} {config : MappingAdapterConfig}
    (h : loadConfig convert file = .ok config) : Checked config := by
  cases file with
  | error what => cases h
  | ok root =>
    unfold loadConfig at h
    cases hread : readConfig convert root with
    | error what =>
      simp only [hread] at h
      cases h
    | ok read =>
      simp only [hread] at h
      exact checked_of_validate h

/-! ## What becomes of a template -/

/-- A document that is a template but for the two assignments. -/
structure Derived (template document : Yaml) (mapPath : String) : Prop where
  mapFile : document.find mapFilePath = some (.scalar mapPath)
  pcdSaveEn : document.find pcdSaveEnPath = some (.scalar "true")
  others : ∀ place, (∀ path ∈ [mapFilePath, pcdSaveEnPath], ¬path <+: place ∧ ¬place <+: path) →
    document.place place = template.place place

/-- A template that takes the assignments. -/
structure Fit (template : Yaml) : Prop where
  parameters : ∃ node, template.find parametersPath = some node ∧ node.isMap = true
  pcdSave : ∀ text, template.place (parametersPath ++ ["pcd_save"]) ≠ some (.scalar text)

theorem parameters_isOk (root : Yaml) :
    (parameters convert root).isOk = true ↔
      ∃ node, root.find parametersPath = some node ∧ node.isMap = true := by
  unfold parameters
  constructor
  · intro h
    split_ifs at h
    · cases h
    · cases h
    · split at h
      · next entries hfind => exact ⟨_, hfind, rfl⟩
      · cases h
  · rintro ⟨node, hfind, hmap⟩
    have hroot : root.isScalar = false := isScalar_of_isMap (isMap_of_find hfind)
    obtain ⟨nodes, hnodes, hrest⟩ := Option.bind_eq_some_iff.mp
      ((root.find_append ["/**"] ["ros__parameters"]).symm.trans hfind)
    have hchild : (root.child "/**").isScalar = false := by
      rw [child_of_find hnodes]
      exact isScalar_of_isMap (isMap_of_find hrest)
    rw [if_neg (by simp [hroot]), if_neg (by simp [hchild]), hfind]
    cases node with
    | map entries => rfl
    | _ => cases hmap

/-- The places side by side. -/
theorem not_prefix_pcdSave : ¬mapFilePath <+: parametersPath ++ ["pcd_save"] ∧
    ¬parametersPath ++ ["pcd_save"] <+: mapFilePath := by
  decide

theorem not_prefix_pcdSaveEn : ¬pcdSaveEnPath <+: mapFilePath ∧ ¬mapFilePath <+: pcdSaveEnPath := by
  decide

/-- The first assignment, and what the second one meets. -/
theorem setAt_mapFile {template node : Yaml} (hfind : template.find parametersPath = some node)
    (hmap : node.isMap = true) (mapPath : String) :
    ∃ document, template.setAt mapFilePath (.scalar mapPath) = some document ∧
      ((document.setAt pcdSaveEnPath (.scalar "true")).isSome = true ↔
        ∀ text, template.place (parametersPath ++ ["pcd_save"]) ≠ some (.scalar text)) := by
  have hsome : (template.setAt mapFilePath (.scalar mapPath)).isSome = true := by
    rw [mapFilePath, isSome_setAt_append _ _ hfind, isSome_setAt_cons (isScalar_of_isMap hmap)]
    rfl
  obtain ⟨document, hdocument⟩ := Option.isSome_iff_exists.mp hsome
  refine ⟨document, hdocument, ?_⟩
  obtain ⟨inner, hinner, hfile⟩ := Option.bind_eq_some_iff.mp
    ((document.find_append parametersPath ["map_file_path"]).symm.trans (find_setAt hdocument))
  have hplace : template.place (parametersPath ++ ["pcd_save"]) = inner.place ["pcd_save"] := by
    rw [← place_setAt_of_apart hdocument not_prefix_pcdSave.1 not_prefix_pcdSave.2,
      place_append, place_of_find hinner]
    rfl
  rw [pcdSaveEnPath, isSome_setAt_append _ _ hinner,
    isSome_setAt_cons (isScalar_of_isMap (isMap_of_find hfile)), hplace]
  simp only [ne_eq, place_cons_eq_scalar, place_nil, Option.some.injEq]
  cases inner.child "pcd_save" with
  | scalar text => simp [setAt, isScalar]
  | _ => simp [setAt, isScalar]

theorem isOk_iff {α : Type} {x : Except String α} : x.isOk = true ↔ ∃ a, x = .ok a := by
  cases x <;> simp [Except.isOk, Except.toBool]

theorem runtimeDocument_eq_ok {template document : Yaml} {mapPath : String} :
    runtimeDocument convert template mapPath = .ok document ↔
      (parameters convert template).isOk = true ∧
      ((template.setAt mapFilePath (.scalar mapPath)).bind fun document ↦
        document.setAt pcdSaveEnPath (.scalar "true")) = some document := by
  rw [runtimeDocument, bind_eq_ok, isOk_iff, ← exists_and_right]
  refine exists_congr fun found ↦ and_congr_right fun _ ↦ ?_
  split
  · next result hresult => rw [hresult, pure_eq_ok, Option.some.injEq]
  · next hnone => exact iff_of_false nofun (by rw [hnone]; nofun)

/-- The templates of which a document is made. -/
theorem fit_iff (template : Yaml) (mapPath : String) :
    Fit template ↔ ∃ document, runtimeDocument convert template mapPath = .ok document := by
  simp only [runtimeDocument_eq_ok, exists_and_left, parameters_isOk]
  constructor
  · rintro ⟨⟨node, hfind, hmap⟩, hscalar⟩
    obtain ⟨document, hdocument, hsecond⟩ := setAt_mapFile hfind hmap mapPath
    refine ⟨⟨node, hfind, hmap⟩, ?_⟩
    rw [hdocument, Option.bind_some, ← Option.isSome_iff_exists]
    exact hsecond.mpr hscalar
  · rintro ⟨⟨node, hfind, hmap⟩, hset⟩
    obtain ⟨document, hdocument, hsecond⟩ := setAt_mapFile hfind hmap mapPath
    rw [hdocument, Option.bind_some, ← Option.isSome_iff_exists] at hset
    exact ⟨⟨node, hfind, hmap⟩, hsecond.mp hset⟩

theorem derived_of_runtimeDocument {template document : Yaml} {mapPath : String}
    (h : runtimeDocument convert template mapPath = .ok document) :
    Derived template document mapPath := by
  obtain ⟨middle, hfirst, hsecond⟩ := Option.bind_eq_some_iff.mp (runtimeDocument_eq_ok.mp h).2
  refine ⟨?_, find_setAt hsecond, fun place hplace ↦ ?_⟩
  · exact find_setAt_of_apart hsecond (find_setAt hfirst) not_prefix_pcdSaveEn.1
      not_prefix_pcdSaveEn.2
  · obtain ⟨hfile, hsave⟩ : (¬mapFilePath <+: place ∧ ¬place <+: mapFilePath) ∧
        ¬pcdSaveEnPath <+: place ∧ ¬place <+: pcdSaveEnPath := by
      simpa using hplace
    rw [place_setAt_of_apart hsecond hsave.1 hsave.2,
      place_setAt_of_apart hfirst hfile.1 hfile.2]

/-! ## What is written -/

/-- What an adapter needs to make a configuration for a map. -/
def Ready (host : Host) (config : MappingAdapterConfig) (mapPath : String) : Prop :=
  (mapPath.toList.head? = some '/' ∧ (Path.parse mapPath).filename = "map.pcd") ∧
  host.isDirectory (Path.parse mapPath).parentPath.text = true ∧
  ∃ templatePath template, resolveConfigPath host.share config.templateConfig = .ok templatePath ∧
    host.loadFile templatePath = .ok template ∧ Fit template

/-- A document made for a map. -/
def MadeFor (host : Host) (config : MappingAdapterConfig) (mapPath : String) (document : Yaml) :
    Prop :=
  ∃ templatePath template, resolveConfigPath host.share config.templateConfig = .ok templatePath ∧
    host.loadFile templatePath = .ok template ∧ Derived template document mapPath

theorem requestedDocument_eq_ok {host : Host} {config : MappingAdapterConfig} {mapPath : String}
    {document : Yaml} :
    requestedDocument convert host config mapPath = .ok document ↔
      (mapPath.toList.head? = some '/' ∧ (Path.parse mapPath).filename = "map.pcd") ∧
      host.isDirectory (Path.parse mapPath).parentPath.text = true ∧
      ∃ templatePath template,
        resolveConfigPath host.share config.templateConfig = .ok templatePath ∧
        host.loadFile templatePath = .ok template ∧
        runtimeDocument convert template mapPath = .ok document := by
  unfold requestedDocument
  rw [throw_or_eq_ok, throw_or_eq_ok, not_or, not_not, not_not, Bool.not_eq_true',
    Bool.not_eq_false]
  refine and_congr_right fun _ ↦ and_congr_right fun _ ↦ ?_
  rw [bind_eq_ok]
  constructor
  · rintro ⟨templatePath, hresolve, hread⟩
    split at hread
    · cases hread
    · next template hload => exact ⟨templatePath, template, hresolve, hload, hread⟩
  · rintro ⟨templatePath, template, hresolve, hload, hdocument⟩
    refine ⟨templatePath, hresolve, ?_⟩
    rw [hload]
    exact hdocument

theorem requestedDocument_isOk (host : Host) (config : MappingAdapterConfig) (mapPath : String) :
    (requestedDocument convert host config mapPath).isOk = true ↔ Ready host config mapPath := by
  simp only [isOk_iff, requestedDocument_eq_ok, Ready, @fit_iff convert _ mapPath,
    exists_and_left]
  constructor
  · rintro ⟨hpath, hdirectory, document, templatePath, hresolve, template, hload, hdocument⟩
    exact ⟨hpath, hdirectory, templatePath, hresolve, template, hload, document, hdocument⟩
  · rintro ⟨hpath, hdirectory, templatePath, hresolve, template, hload, document, hdocument⟩
    exact ⟨hpath, hdirectory, document, templatePath, hresolve, template, hload, hdocument⟩

theorem madeFor_of_requestedDocument {host : Host} {config : MappingAdapterConfig}
    {mapPath : String} {document : Yaml}
    (h : requestedDocument convert host config mapPath = .ok document) :
    MadeFor host config mapPath document := by
  obtain ⟨-, -, templatePath, template, hresolve, hload, hdocument⟩ := requestedDocument_eq_ok.mp h
  exact ⟨templatePath, template, hresolve, hload, derived_of_runtimeDocument hdocument⟩

theorem temporaryName_ne (config : MappingAdapterConfig) (pid : ℕ) :
    config.runtimeConfigName ≠ temporaryName config pid := by
  intro h
  have hlength := congrArg String.length h
  simp only [temporaryName, String.length_append] at hlength
  have hdot : ".".length = 1 := rfl
  omega

/-- A name of an entry of a directory. -/
def IsEntry (name : String) : Prop := name ≠ "" ∧ '/' ∉ name.toList

theorem isEntry_temporaryName {config : MappingAdapterConfig} (h : IsEntry config.runtimeConfigName)
    (pid : ℕ) : IsEntry (temporaryName config pid) := by
  constructor
  · intro hempty
    have hlength := congrArg String.length hempty
    simp only [temporaryName, String.length_append] at hlength
    have hdot : ".".length = 1 := rfl
    have hnone : "".length = 0 := rfl
    omega
  · have hdigits : '/' ∉ (toString pid).toList := by
      intro hslash
      have hdigit : ('/').isDigit = true :=
        Nat.isDigit_of_mem_toDigits (by decide : 0 < 10) (by decide)
          (by simpa [Nat.repr] using hslash)
      exact absurd hdigit (by decide)
    simp only [temporaryName, String.toList_append, List.mem_append, not_or]
    exact ⟨⟨⟨by decide, h.2⟩, by decide⟩, hdigits⟩

/-- The directory of a map after a call, and whether the call has succeeded. -/
theorem prepareRuntimeConfig_cases (convert : Conversions) (host : Host)
    (config : MappingAdapterConfig) (fault : Option (Fault Yaml.File)) (files : Files Yaml.File)
    (mapPath : String) :
    (∃ document, requestedDocument convert host config mapPath = .ok document ∧ fault = none ∧
        prepareRuntimeConfig convert host config fault files mapPath =
          ((replace (temporaryName config host.pid) config.runtimeConfigName none
              (Yaml.file host.emit document) files).1,
            .ok (join (Path.parse mapPath).parentPath.text config.runtimeConfigName))) ∨
      (fault.isNone = false ∨ ¬Ready host config mapPath) ∧
        (∃ what, (prepareRuntimeConfig convert host config fault files mapPath).2 = .error what) ∧
        ∀ name, name ≠ temporaryName config host.pid →
          (prepareRuntimeConfig convert host config fault files mapPath).1 name = files name := by
  have hready := @requestedDocument_isOk convert host config mapPath
  unfold prepareRuntimeConfig
  cases hread : requestedDocument convert host config mapPath with
  | error what =>
    rw [hread] at hready
    have hnot : ¬Ready host config mapPath := fun h ↦ Bool.false_ne_true (hready.mpr h)
    exact .inr ⟨.inr hnot, ⟨what, rfl⟩, fun _ _ ↦ rfl⟩
  | ok document =>
    cases fault with
    | none => exact .inl ⟨document, rfl, rfl, rfl⟩
    | some fault =>
      refine .inr ⟨.inl rfl, ?_, fun name hname ↦ ?_⟩
      · cases fault <;> exact ⟨_, rfl⟩
      · cases fault <;> simp [replace, hname]

/-- What an adapter whose configuration has been accepted makes of the directory of a map. -/
theorem runtime_config_exact {file : Except String Yaml} {config : MappingAdapterConfig}
    (hconfig : loadConfig convert file = .ok config) (host : Host)
    (fault : Option (Fault Yaml.File)) (files : Files Yaml.File) (mapPath : String) :
    ((prepareRuntimeConfig convert host config fault files mapPath).2.isOk = true ↔
      fault.isNone = true ∧ Ready host config mapPath) ∧
    (∀ runtimePath,
      (prepareRuntimeConfig convert host config fault files mapPath).2 = .ok runtimePath →
      runtimePath = join (Path.parse mapPath).parentPath.text config.runtimeConfigName ∧
      ∃ document, MadeFor host config mapPath document ∧
        (prepareRuntimeConfig convert host config fault files mapPath).1
          config.runtimeConfigName = some (Yaml.file host.emit document)) ∧
    (∀ what, (prepareRuntimeConfig convert host config fault files mapPath).2 = .error what →
      (prepareRuntimeConfig convert host config fault files mapPath).1 config.runtimeConfigName =
        files config.runtimeConfigName) ∧
    ∀ name, (prepareRuntimeConfig convert host config fault files mapPath).1 name ≠ files name →
      IsEntry name ∧ (name = config.runtimeConfigName ∨ name = temporaryName config host.pid) := by
  have hentry : IsEntry config.runtimeConfigName :=
    (checked_of_loadConfig hconfig).runtimeConfigName
  have htemporary := isEntry_temporaryName hentry host.pid
  have hne := temporaryName_ne config host.pid
  rcases prepareRuntimeConfig_cases convert host config fault files mapPath with
    ⟨document, hread, rfl, hresult⟩ | ⟨hfails, ⟨what, hwhat⟩, hkept⟩
  · rw [hresult]
    have hready : Ready host config mapPath :=
      (requestedDocument_isOk host config mapPath).mp (by rw [hread]; rfl)
    refine ⟨iff_of_true rfl ⟨rfl, hready⟩, ?_, nofun, fun name hchanged ↦ ?_⟩
    · rintro runtimePath ⟨⟩
      exact ⟨rfl, document, madeFor_of_requestedDocument hread, replace_target hne none _ _⟩
    · by_cases hname : name = config.runtimeConfigName
      · subst hname
        exact ⟨hentry, .inl rfl⟩
      · by_cases htemp : name = temporaryName config host.pid
        · subst htemp
          exact ⟨htemporary, .inr rfl⟩
        · exact absurd (replace_other hname htemp none _ _) hchanged
  · rw [hwhat]
    refine ⟨iff_of_false nofun ?_, nofun, fun _ _ ↦ hkept _ hne, fun name hchanged ↦ ?_⟩
    · rintro ⟨hnone, hready⟩
      rcases hfails with hfault | hnot
      · rw [hnone] at hfault
        cases hfault
      · exact hnot hready
    · by_cases htemp : name = temporaryName config host.pid
      · subst htemp
        exact ⟨htemporary, .inr rfl⟩
      · exact absurd (hkept name htemp) hchanged

/-- The section of `process.yaml`. -/
def processYaml : Yaml :=
  .map [("mapping_adapter", .map [
    ("template_config", .scalar "package://fast_lio/config/ouster64.yaml"),
    ("runtime_config_name", .scalar "mapping_runtime.yaml"),
    ("startup_timeout_sec", .scalar "10.0"),
    ("save_service", .map [("name", .scalar "/map_save"),
      ("type", .scalar "std_srvs/srv/Trigger"), ("timeout_sec", .scalar "60.0")])])]

def processConversions : Conversions where
  real text := [("10.0", .fin 10), ("60.0", .fin 60)].lookup text
  natural _ := none
  flag _ := none
  badConversion _ := "bad conversion"
  badSubscript key := "operator[] call on a scalar (key: \"" ++ key ++ "\")"

def templateYaml : Yaml :=
  .map [("/**", .map [("ros__parameters", .map [("map_file_path", .scalar "./old.pcd"),
    ("pcd_save", .map [("pcd_save_en", .scalar "false"), ("interval", .scalar "-1")])])])]

/-- A machine with the package and one map on it. -/
def machine : Host where
  share package := if package = "fast_lio" then .ok "/opt/share/fast_lio" else .error package
  loadFile path :=
    if path = "/opt/share/fast_lio/config/ouster64.yaml" then .ok templateYaml
    else .error "bad file"
  isDirectory path := path == "/maps/lab"
  emit _ := []
  pid := 7

theorem runtime_config_exact_shipped :
    (prepareRuntimeConfig processConversions machine
        { templateConfig := "package://fast_lio/config/ouster64.yaml" } none (fun _ ↦ none)
        "/maps/lab/map.pcd").2 = .ok "/maps/lab/mapping_runtime.yaml" ∧
      ∃ document, MadeFor machine { templateConfig := "package://fast_lio/config/ouster64.yaml" }
          "/maps/lab/map.pcd" document ∧
        (prepareRuntimeConfig processConversions machine
          { templateConfig := "package://fast_lio/config/ouster64.yaml" } none (fun _ ↦ none)
          "/maps/lab/map.pcd").1 "mapping_runtime.yaml" =
        some (Yaml.file machine.emit document) := by
  have hconfig : loadConfig processConversions (.ok processYaml) =
      .ok { templateConfig := "package://fast_lio/config/ouster64.yaml" } := by
    rfl
  have hpath : (prepareRuntimeConfig processConversions machine
      { templateConfig := "package://fast_lio/config/ouster64.yaml" } none (fun _ ↦ none)
      "/maps/lab/map.pcd").2 = .ok "/maps/lab/mapping_runtime.yaml" := by
    rfl
  exact ⟨hpath, ((runtime_config_exact hconfig machine none (fun _ ↦ none)
    "/maps/lab/map.pcd").2.1 _ hpath).2⟩

end SlamSystemManager.MappingAdapter
