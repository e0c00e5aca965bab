import Mathlib.Data.Rat.Encodable
import SlamSystemManager.Library.Refinement
import SlamSystemManager.MapFiles
import SlamSystemManager.MappingAdapter
import SlamSystemManager.RelocalizationAdapter

/-!
# The documents in the directory of a map

Three files of a map are written by the manager, each through a temporary file: `metadata.yaml`,
`last_pose.yaml` and the configuration of its mapping runs. The first two are read back. Seen
through their readers the writers change the directory at once or not at all, which is how the
store of the manager has it.
-/

open Numeric Replacement TransitionSystem Yaml

namespace SlamSystemManager.Documents

/-! ## Metadata -/

/-- The document `writeMetadata` emits. -/
def metadataYaml (metadata : MapMetadata) : Yaml :=
  .map [("name", .scalar metadata.name), ("created_at", .scalar metadata.createdAt),
    ("updated_at", .scalar metadata.updatedAt), ("map_file", .scalar metadata.mapFile),
    ("frame_id", .scalar metadata.frameId)]

variable (convert : Conversions)

/-- `root[key].as<std::string>()`. -/
def textAt (root : Yaml) (key : String) : Except String String :=
  if root.isScalar then .error (convert.badSubscript key)
  else
    match root.find [key] with
    | none => .error (convert.badConversion .null)
    | some node => convert.asText node

def readEntries (root : Yaml) : Except String MapMetadata := do
  return {
    name := ← textAt convert root "name"
    createdAt := ← textAt convert root "created_at"
    updatedAt := ← textAt convert root "updated_at"
    mapFile := ← textAt convert root "map_file"
    frameId := ← textAt convert root "frame_id" }

/-- The first half of `readMetadata`, up to the checks of the store. -/
def parseMetadata (name : String) (file : Except String Yaml) : Except String MapMetadata :=
  match file with
  | .error what => .error ("Unable to read map metadata for '" ++ name ++ "': " ++ what)
  | .ok root =>
    (readEntries convert root).mapError fun what ↦
      "Invalid map metadata for '" ++ name ++ "': " ++ what

/-! ## Last poses -/

/-- The document `writeLastPose` emits, with the texts of its numbers. -/
def lastPoseYaml (text : Double → String) (file : LastPoseFile) : Yaml :=
  .map [("frame_id", .scalar file.frameId),
    ("position", .map [("x", .scalar (text file.pose.position.x)),
      ("y", .scalar (text file.pose.position.y)), ("z", .scalar (text file.pose.position.z))]),
    ("orientation", .map [("x", .scalar (text file.pose.orientation.x)),
      ("y", .scalar (text file.pose.orientation.y)),
      ("z", .scalar (text file.pose.orientation.z)),
      ("w", .scalar (text file.pose.orientation.w))])]

def requiredValue {α : Type} (as : Yaml → Except String α) (parent : Yaml) (key : String) :
    Except String α :=
  convert.required ("Missing Last Pose key: " ++ key) (fun what ↦ what) as parent key

/-- `loadLastPose` up to the validation of the pose. -/
def parseLastPose (file : Except String Yaml) : Except String LastPoseFile := do
  let root ← file
  let maps := "Last Pose position and orientation must be maps"
  let frameId ← requiredValue convert convert.asText root "frame_id"
  let position ← convert.requiredMap maps root "position"
  let orientation ← convert.requiredMap maps root "orientation"
  return {
    frameId
    pose := {
      position := {
        x := ← requiredValue convert convert.asReal position "x"
        y := ← requiredValue convert convert.asReal position "y"
        z := ← requiredValue convert convert.asReal position "z" }
      orientation := {
        x := ← requiredValue convert convert.asReal orientation "x"
        y := ← requiredValue convert convert.asReal orientation "y"
        z := ← requiredValue convert convert.asReal orientation "z"
        w := ← requiredValue convert convert.asReal orientation "w" } } }

/-- `writeLastPose` on the files of the directory of a map, with the path of its temporary file. -/
def writeLastPose (emit : Yaml → List UInt8) (text : Double → String) (pid : ℕ) (directory : String)
    (fault : Option (Fault Yaml.File)) (files : Files Yaml.File) (request : SaveRequest) :
    Files Yaml.File × Except String Unit :=
  let temporary := ".last_pose.yaml.tmp." ++ toString pid
  let document := lastPoseYaml text (RelocalizationAdapter.lastPoseFile request)
  match replace temporary "last_pose.yaml" fault (Yaml.file emit document) files with
  | (files, none) => (files, .ok ())
  | (files, some .serialize) => (files, .error "Unable to serialize Last Pose")
  | (files, some .openTemporary) =>
    (files, .error ("Unable to open temporary Last Pose file: " ++ directory ++ "/" ++ temporary))
  | (files, some (.write _)) =>
    (files, .error ("Unable to write Last Pose file: " ++ directory ++ "/" ++ temporary))
  | (files, some (.rename what)) => (files, .error ("Unable to install Last Pose file: " ++ what))

/-! ## Round trips -/

variable {convert}

/-- The library reads a number from the text that it writes for it. -/
def ReadsNumbers (convert : Conversions) (text : Double → String) : Prop :=
  ∀ value, convert.real (text value) = some value

theorem parseMetadata_metadataYaml (name : String) (metadata : MapMetadata) :
    parseMetadata convert name (.ok (metadataYaml metadata)) = .ok metadata := by
  rfl

theorem requiredReal_eq_ok {text : Double → String} (h : ReadsNumbers convert text) {parent : Yaml}
    {key : String} {value : Double} (hfind : parent.find [key] = some (.scalar (text value))) :
    requiredValue convert convert.asReal parent key = .ok value := by
  refine Conversions.required_asScalar_eq_ok.mpr ⟨_, hfind, ?_⟩
  simp only [Conversions.asScalar, h value]
  rfl

theorem parseLastPose_lastPoseYaml {text : Double → String} (h : ReadsNumbers convert text)
    (file : LastPoseFile) : parseLastPose convert (.ok (lastPoseYaml text file)) = .ok file := by
  unfold parseLastPose
  refine bind_eq_ok.mpr ⟨_, rfl, ?_⟩
  refine bind_eq_ok.mpr ⟨_, Conversions.required_asText_eq_ok.mpr rfl, ?_⟩
  refine bind_eq_ok.mpr ⟨_, Conversions.requiredMap_eq_ok.mpr ⟨rfl, rfl⟩, ?_⟩
  refine bind_eq_ok.mpr ⟨_, Conversions.requiredMap_eq_ok.mpr ⟨rfl, rfl⟩, ?_⟩
  simp only [bind_eq_ok, pure_eq_ok]
  exact ⟨_, requiredReal_eq_ok h rfl, _, requiredReal_eq_ok h rfl, _, requiredReal_eq_ok h rfl,
    _, requiredReal_eq_ok h rfl, _, requiredReal_eq_ok h rfl, _, requiredReal_eq_ok h rfl,
    _, requiredReal_eq_ok h rfl, rfl⟩

/-! ## A directory as the store has it -/

/-- The directory of a map through the readers of its files. -/
def view (convert : Conversions) (name : String) (files : Files Yaml.File) : MapDirectory where
  metadata := (files "metadata.yaml").map fun file ↦ parseMetadata convert name file.yaml
  mapPcd := (files "map.pcd").map Yaml.File.bytes
  lastPose := (files "last_pose.yaml").map fun file ↦ parseLastPose convert file.yaml

/-- What the store knows of writing in a directory. -/
inductive Change where
  | metadata (metadata : MapMetadata)
  | lastPose (file : LastPoseFile)

def change (contents : MapDirectory) : Change → Option MapDirectory
  | .metadata metadata => some { contents with metadata := some (.ok metadata) }
  | .lastPose file => some { contents with lastPose := some (.ok file) }

inductive Writer where
  | metadata
  | lastPose
  | runtimeConfig
  deriving DecidableEq

/-- The file of each writer, for a name of the runtime configuration. -/
def targetName (runtimeConfigName : String) : Writer → String
  | .metadata => "metadata.yaml"
  | .lastPose => "last_pose.yaml"
  | .runtimeConfig => runtimeConfigName

/-- A name that is none of the other files of a map and no hidden one. -/
structure OwnName (runtimeConfigName : String) : Prop where
  hidden : runtimeConfigName.toList.head? ≠ some '.'
  notMetadata : runtimeConfigName ≠ "metadata.yaml"
  notLastPose : runtimeConfigName ≠ "last_pose.yaml"
  notMap : runtimeConfigName ≠ "map.pcd"

theorem head?_targetName {runtimeConfigName : String} (h : OwnName runtimeConfigName)
    (writer : Writer) : (targetName runtimeConfigName writer).toList.head? ≠ some '.' := by
  cases writer with
  | metadata => exact (by decide : "metadata.yaml".toList.head? ≠ some '.')
  | lastPose => exact (by decide : "last_pose.yaml".toList.head? ≠ some '.')
  | runtimeConfig => exact h.hidden

theorem targetName_injective {runtimeConfigName : String} (h : OwnName runtimeConfigName) :
    Function.Injective (targetName runtimeConfigName) := by
  have hfiles : "metadata.yaml" ≠ "last_pose.yaml" := by decide
  intro first second hsame
  cases first with
  | metadata =>
    cases second with
    | metadata => rfl
    | lastPose => exact absurd hsame hfiles
    | runtimeConfig => exact absurd hsame.symm h.notMetadata
  | lastPose =>
    cases second with
    | metadata => exact absurd hsame.symm hfiles
    | lastPose => rfl
    | runtimeConfig => exact absurd hsame.symm h.notLastPose
  | runtimeConfig =>
    cases second with
    | metadata => exact absurd hsame h.notMetadata
    | lastPose => exact absurd hsame h.notLastPose
    | runtimeConfig => rfl

/-- The files of the writers of a map, and their temporary files. -/
def layout {runtimeConfigName : String} (h : OwnName runtimeConfigName) : Layout Writer where
  target := targetName runtimeConfigName
  temporary pid writer := "." ++ targetName runtimeConfigName writer ++ ".tmp." ++ toString pid
  target_injective := targetName_injective h
  temporary_injective pid first second hsame := by
    have hlists := congrArg String.toList hsame
    simp only [String.toList_append, List.append_cancel_right_eq,
      List.append_cancel_left_eq] at hlists
    exact targetName_injective h (String.toList_inj.mp hlists)
  target_ne_temporary writer pid other hsame := by
    apply head?_targetName h writer
    rw [hsame]
    simp [String.toList_append]

/-- What each writer writes. -/
def Document (text : Double → String) (host : MappingAdapter.Host)
    (config : MappingAdapter.MappingAdapterConfig) (mapPath : String) :
    Writer → Yaml.File → Prop
  | .metadata, file => ∃ metadata, file.yaml = .ok (metadataYaml metadata)
  | .lastPose, file => ∃ pose, file.yaml = .ok (lastPoseYaml text pose)
  | .runtimeConfig, file =>
    ∃ document, file.yaml = .ok document ∧ MappingAdapter.MadeFor host config mapPath document

section Runs

variable {text : Double → String} {host : MappingAdapter.Host}
  {config : MappingAdapter.MappingAdapterConfig} {mapPath name : String}

/-- Temporary files are not seen. -/
theorem view_congr {runtimeConfigName : String} (h : OwnName runtimeConfigName) (name : String)
    {files files' : Files Yaml.File} (pid : ℕ)
    (hsame : ∀ file, (∀ writer, file ≠ (layout h).temporary pid writer) →
      files' file = files file) :
    view convert name files' = view convert name files := by
  have hmap : files' "map.pcd" = files "map.pcd" := by
    apply hsame
    intro writer hfile
    have hhead := congrArg (fun file : String ↦ file.toList.head?) hfile
    simp [layout, String.toList_append] at hhead
  have hmetadata := hsame _ ((layout h).target_ne_temporary .metadata pid)
  have hpose := hsame _ ((layout h).target_ne_temporary .lastPose pid)
  simp only [layout, targetName] at hmetadata hpose
  simp only [view, hmap, hmetadata, hpose]

/-- Every step of a writer is none of the store's, or one. -/
theorem refines_change (htext : ReadsNumbers convert text)
    (h : OwnName config.runtimeConfigName) (name : String) :
    Refines (Replacement.step (layout h)) (Writes (Document text host config mapPath))
      (Pending (layout h) (Document text host config mapPath)) change anyAction
      (fun s ↦ view convert name s.files) where
  keeps s action s' hpending hwrites hstep := hpending.step hwrites hstep
  seen s action s' hpending _ hstep := by
    rcases hpending.files hstep with hkept | ⟨writer, contents, hdocument, hput⟩
    · rw [view_congr h name s.pid hkept]
      exact .refl
    · rw [view_congr h name s.pid hput]
      cases writer with
      | metadata =>
        obtain ⟨metadata, hyaml⟩ := hdocument
        refine Steps.refl.tail (a := .metadata metadata) trivial ?_
        simp [change, view, layout, targetName, hyaml, parseMetadata_metadataYaml]
      | lastPose =>
        obtain ⟨pose, hyaml⟩ := hdocument
        refine Steps.refl.tail (a := .lastPose pose) trivial ?_
        simp [change, view, layout, targetName, hyaml, parseLastPose_lastPoseYaml htext]
      | runtimeConfig =>
        have hsame : view convert name (Function.update s.files ((layout h).target .runtimeConfig)
            (some contents)) = view convert name s.files := by
          simp [view, layout, targetName, h.notMetadata.symm, h.notLastPose.symm, h.notMap.symm]
        rw [hsame]
        exact .refl

/-- Whatever the writers of a map have done, and wherever their process has ended, its directory
is one that the store of the manager has, and its runtime configuration is whole. -/
theorem directory_written_whole (htext : ReadsNumbers convert text)
    (h : OwnName config.runtimeConfigName) (name : String) {files : Files Yaml.File}
    {s : State Writer Yaml.File}
    (hreach : Reaches (Replacement.step (layout h)) (Writes (Document text host config mapPath))
      (Begins files) s) :
    Steps change anyAction (view convert name files) (view convert name s.files) ∧
      (s.files config.runtimeConfigName = files config.runtimeConfigName ∨
        ∃ file, s.files config.runtimeConfigName = some file ∧
          Document text host config mapPath .runtimeConfig file) := by
  constructor
  · have hpending (s : State Writer Yaml.File) (hs : Begins files s) :
        Pending (layout h) (Document text host config mapPath) s :=
      pending_of_reaches (.start hs)
    obtain ⟨start, hstart, hrun⟩ := hreach
    have hview : view convert name start.files = view convert name files := by rw [hstart.1]
    rw [← hview]
    exact (refines_change htext h name).steps (hpending start hstart) hrun
  · rcases whole_of_reaches hreach .runtimeConfig with hkept | ⟨file, hdocument, hfile⟩
    · exact .inl hkept
    · exact .inr ⟨file, hfile, hdocument⟩

/-- Texts of numbers: zero and one as they are written, and codes for the others. -/
def numberText : Double → String
  | .nan => ".nan"
  | .inf negative => if negative then "-.inf" else ".inf"
  | .fin value =>
    if value = 0 then "0" else if value = 1 then "1"
    else String.ofList ('#' :: List.replicate (Encodable.encode value) '1')

def numberConversions : Conversions where
  real text :=
    if text = ".nan" then some .nan
    else if text = "-.inf" then some (.inf true)
    else if text = ".inf" then some (.inf false)
    else if text = "0" then some (.fin 0)
    else if text = "1" then some (.fin 1)
    else (Encodable.decode (text.toList.length - 1)).map Double.fin
  natural _ := none
  flag _ := none
  badConversion _ := "bad conversion"
  badSubscript _ := "operator[] call on a scalar"

theorem numberConversions_readsNumbers : ReadsNumbers numberConversions numberText := by
  intro value
  cases value with
  | nan => rfl
  | inf negative => cases negative <;> rfl
  | fin value =>
    by_cases hzero : value = 0
    · subst hzero
      rfl
    · by_cases hone : value = 1
      · subst hone
        rfl
      · have hne {other : String} (hother : other.toList.head? ≠ some '#') :
            String.ofList ('#' :: List.replicate (Encodable.encode value) '1') ≠ other := by
          rintro rfl
          simp at hother
        simp only [numberText, numberConversions, hzero, hone, if_false]
        rw [if_neg (hne (by decide)), if_neg (hne (by decide)), if_neg (hne (by decide)),
          if_neg (hne (by decide)), if_neg (hne (by decide))]
        simp

/-- The pose of the origin, as a save captures it. -/
def originFile : LastPoseFile :=
  ⟨"map", ⟨⟨.fin 0, .fin 0, .fin 0⟩, ⟨.fin 0, .fin 0, .fin 0, .fin 1⟩⟩⟩

/-- A directory with a map and its metadata. -/
def savedFiles : Files Yaml.File := fun file ↦
  if file = "metadata.yaml" then
    some (Yaml.file (fun _ ↦ [0])
      (metadataYaml { name := "lab", createdAt := "t", updatedAt := "t", frameId := "map" }))
  else if file = "map.pcd" then some ⟨[1], .error "bad file"⟩ else none

def defaultConfig : MappingAdapter.MappingAdapterConfig := {}

theorem ownName_default : OwnName defaultConfig.runtimeConfigName :=
  ⟨by decide, by decide, by decide, by decide⟩

/-- The directory after a process that ended while it wrote a last pose. -/
def interrupted : State Writer Yaml.File where
  files := Function.update savedFiles ((layout ownName_default).temporary 7 .lastPose)
    (some ⟨[], .error "end of file"⟩)
  stage _ := .idle
  pid := 8

def originDocument : Yaml.File := Yaml.file (fun _ ↦ [0]) (lastPoseYaml numberText originFile)

theorem originDocument_document :
    Document numberText MappingAdapter.machine defaultConfig "/maps/lab/map.pcd" .lastPose
      originDocument :=
  ⟨originFile, rfl⟩

theorem interrupted_reached :
    Reaches (Replacement.step (layout ownName_default))
      (Writes (Document numberText MappingAdapter.machine defaultConfig "/maps/lab/map.pcd"))
      (Begins savedFiles) interrupted := by
  let start : State Writer Yaml.File := ⟨savedFiles, fun _ ↦ .idle, 7⟩
  have hstart : Reaches (Replacement.step (layout ownName_default))
      (Writes (Document numberText MappingAdapter.machine defaultConfig "/maps/lab/map.pcd"))
      (Begins savedFiles) start := .start ⟨rfl, fun _ ↦ rfl⟩
  have hopened : Reaches (Replacement.step (layout ownName_default))
      (Writes (Document numberText MappingAdapter.machine defaultConfig "/maps/lab/map.pcd"))
      (Begins savedFiles) (start.move .lastPose (.writing originDocument) interrupted.files) :=
    hstart.tail (a := .openTemporary .lastPose originDocument ⟨[], .error "end of file"⟩)
      originDocument_document rfl
  exact hopened.tail (a := .restart 8) trivial rfl

theorem directory_written_whole_interrupted :
    ∃ s : State Writer Yaml.File,
      (view numberConversions "lab" s.files).lastPose = some (.ok originFile) ∧
      Steps change anyAction (view numberConversions "lab" savedFiles)
        (view numberConversions "lab" s.files) := by
  have hsaved := interrupted_reached.steps (steps_replace _ originDocument_document none rfl)
  refine ⟨_, ?_, (directory_written_whole numberConversions_readsNumbers ownName_default "lab"
    hsaved).1⟩
  have hfile := replace_target ((layout ownName_default).target_ne_temporary .lastPose 8 .lastPose)
    none originDocument interrupted.files
  have hread : parseLastPose numberConversions originDocument.yaml = .ok originFile :=
    parseLastPose_lastPoseYaml numberConversions_readsNumbers originFile
  exact (congrArg (Option.map fun file : Yaml.File ↦
    parseLastPose numberConversions file.yaml) hfile).trans (congrArg some hread)

end Runs

/-! ## The writing functions are runs of the writers -/

section Writing

variable {text : Double → String} {host : MappingAdapter.Host}
  {config : MappingAdapter.MappingAdapterConfig} {mapPath : String}

theorem prepareRuntimeConfig_runs (h : OwnName config.runtimeConfigName)
    (fault : Option (Fault Yaml.File)) {s : State Writer Yaml.File}
    (hidle : s.stage .runtimeConfig = .idle) (hpid : host.pid = s.pid) :
    Steps (Replacement.step (layout h)) (Writes (Document text host config mapPath)) s
      { s with files :=
          (MappingAdapter.prepareRuntimeConfig convert host config fault s.files mapPath).1 } := by
  unfold MappingAdapter.prepareRuntimeConfig
  cases hread : MappingAdapter.requestedDocument convert host config mapPath with
  | error what => exact .refl
  | ok document =>
    have hdocument : Document text host config mapPath .runtimeConfig
        (Yaml.file host.emit document) :=
      ⟨document, rfl, MappingAdapter.madeFor_of_requestedDocument hread⟩
    have hrun := steps_replace (layout h) hdocument fault hidle
    simp only [hpid]
    rcases fault with _ | _ | _ | _ | _ <;> exact hrun

theorem writeLastPose_runs (h : OwnName config.runtimeConfigName) (emit : Yaml → List UInt8)
    (directory : String) (fault : Option (Fault Yaml.File)) (request : SaveRequest)
    {s : State Writer Yaml.File} (hidle : s.stage .lastPose = .idle) :
    Steps (Replacement.step (layout h)) (Writes (Document text host config mapPath)) s
      { s with files := (writeLastPose emit text s.pid directory fault s.files request).1 } := by
  have hdocument : Document text host config mapPath .lastPose
      (Yaml.file emit (lastPoseYaml text (RelocalizationAdapter.lastPoseFile request))) :=
    ⟨_, rfl⟩
  have hrun := steps_replace (layout h) hdocument fault hidle
  unfold writeLastPose
  rcases fault with _ | _ | _ | _ | _ <;> exact hrun

/-- The faults of the store one level above. -/
def metadataFault : MapFiles.WriteFault → Fault MapFiles.FileEntry
  | .serialize => .serialize
  | .openTemporary => .openTemporary
  | .write left => .write (.regular left)
  | .rename what => .rename what

theorem writeMetadata_eq_replace (settings : MapFiles.Settings) (name : String)
    (fault : Option MapFiles.WriteFault) (files : MapFiles.Directory) (metadata : MapMetadata) :
    (MapFiles.writeMetadata settings name fault files metadata).1 =
      (replace (MapFiles.temporaryName settings.pid) "metadata.yaml" (fault.map metadataFault)
        (.regular ⟨settings.emit (MapFiles.document metadata), .ok (MapFiles.document metadata)⟩)
        files).1 := by
  rcases fault with _ | _ | _ | _ | what
  · have hne : MapFiles.temporaryName settings.pid ≠ "metadata.yaml" :=
      MapFiles.temporaryName_ne (by decide)
    simp only [MapFiles.writeMetadata, replace, Option.map_none, Function.update_self]
    rw [Function.update_comm hne, Function.update_idem]
  all_goals rfl

end Writing

end SlamSystemManager.Documents
