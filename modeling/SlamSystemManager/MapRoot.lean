import SlamSystemManager.Library.Path
import SlamSystemManager.MapManager

/-!
# The map root of the two components

`MapManager` keeps the canonical path of the configured map root, and the directories it hands out
lie under that. `RelocalizationAdapter` compares the parent of such a directory with the lexical
normal form of the same configuration value. The module says when the two are the same path.
-/

open PosixPath

namespace SlamSystemManager.MapRoot

/-! ## The configuration value -/

/-- The check of `map_root` in `ConfigManager::load`. -/
def checkMapRoot (spelling : String) : Except String Unit :=
  match spelling.toList with
  | [] => .error "Configuration key 'map_root' must not be empty"
  | first :: _ =>
    if first = '/' then .ok () else .error "Configuration key 'map_root' must be an absolute path"

/-- A `map_root` that `ConfigManager::load` accepts. -/
structure ConfiguredRoot where
  spelling : String
  accepted : checkMapRoot spelling = .ok ()

def ConfiguredRoot.path (configured : ConfiguredRoot) : Path := Path.parse configured.spelling

/-! ## MapManager -/

/-- The constructor, on the file system that `create_directories` has left without an error. -/
def mapRoot (fs : FileSystem) (configured : Path) : Except String Path :=
  match fs.canonical configured with
  | none => .error "filesystem error: cannot make canonical path"
  | some root =>
    if fs.isDirectory root then .ok root
    else .error ("Map root is not a directory: " ++ root.text)

/-- `mapDirectory`. -/
def mapDirectory (root : Path) (name : String) : Except String Path :=
  if MapManager.isValidMapName name then
    if (root.append name).lexicallyNormal.parentPath = root then
      .ok (root.append name).lexicallyNormal
    else .error "Map path escapes the configured map root"
  else .error MapManager.invalidNameMessage

/-- `getMapPath`. -/
def getMapPath (root : Path) (name : String) : Except String Path := do
  return (← mapDirectory root name).append "map.pcd"

/-- `readMetadata` on a directory, where `loadFile` is what the YAML library makes of a file. -/
def readMetadata (loadFile : Path → Except String MapMetadata) (directory : Path) :
    Except String MapMetadata :=
  MapManager.readMetadata directory.parentPath.text directory.filename
    { metadata := some (loadFile (directory.append "metadata.yaml")) }

/-- The last lines of `loadMap`. -/
def mapFilePath (fs : FileSystem) (mapFile : Path) : Except String Path :=
  if fs.isRegularFile mapFile then
    match fs.canonical mapFile with
    | some path => .ok path
    | none => .error "filesystem error: cannot make canonical path"
  else .error ("Map PCD file not found: " ++ mapFile.text)

/-- `loadMap`. -/
def loadMap (fs : FileSystem) (loadFile : Path → Except String MapMetadata) (root : Path)
    (name : String) : Except String Path := do
  let directory ← mapDirectory root name
  if fs.isRegularFile (directory.append "metadata.yaml") then
    mapFilePath fs (directory.append (← readMetadata loadFile directory).mapFile)
  else throw ("Map metadata not found: " ++ name)

/-- A directory that `MapManager` hands out for a map, as the manager asks for it. -/
inductive HandedOut (fs : FileSystem) (loadFile : Path → Except String MapMetadata) (root : Path)
    (name : String) : Path → Prop
  | getMapPath {path : Path} (h : getMapPath root name = .ok path) :
    HandedOut fs loadFile root name path.parentPath
  | loadMap {path : Path} (h : loadMap fs loadFile root name = .ok path) :
    HandedOut fs loadFile root name path.parentPath

/-! ## RelocalizationAdapter -/

/-- The comparison both functions of the adapter make; the paths are absolute. -/
def escapesRoot (configured directory : Path) : Bool :=
  decide (directory.lexicallyNormal.parentPath ≠ configured.lexicallyNormal)

/-- The check at the begin of `loadLastPose`. -/
def loadDirectory (configured directory : Path) : Except String Path :=
  if escapesRoot configured directory then
    .error "Last Pose path escapes the configured map root"
  else .ok directory.lexicallyNormal

/-- The check at the begin of `requestLastPoseSave`. -/
def saveDirectory (fs : FileSystem) (configured directory : Path) : Except String Path :=
  if escapesRoot configured directory || !fs.isDirectory directory.lexicallyNormal then
    .error "Last Pose map directory is invalid"
  else .ok directory.lexicallyNormal

/-- A directory that both checks let through. -/
def Passes (fs : FileSystem) (configured directory : Path) : Prop :=
  (loadDirectory configured directory).isOk = true ∧
    (saveDirectory fs configured directory).isOk = true

instance (fs : FileSystem) (configured directory : Path) :
    Decidable (Passes fs configured directory) :=
  inferInstanceAs (Decidable (_ ∧ _))

/-! ## What the two components make of a map -/

theorem isName_of_isValidMapName {name : String} (h : MapManager.isValidMapName name = true) :
    IsName name := by
  refine ⟨MapManager.ne_empty_of_isValidMapName h, ?_, ?_⟩ <;>
    · rintro rfl
      revert h
      decide

/-- The root that the constructor keeps is the way to a directory through directories only. -/
theorem root_of_mapRoot {fs : FileSystem} {configured root : Path}
    (h : mapRoot fs configured = .ok root) :
    fs.canonical configured = some root ∧ fs.Reaches root.elements ∧
      fs.entry root.elements = some .directory := by
  unfold mapRoot at h
  cases hcanonical : fs.canonical configured with
  | none => simp [hcanonical] at h
  | some found =>
    have hreaches := FileSystem.reaches_of_canonical hcanonical
    simp only [hcanonical] at h
    split_ifs at h with hdirectory
    cases h
    rw [FileSystem.isDirectory, FileSystem.canonical_of_reaches hreaches] at hdirectory
    exact ⟨rfl, hreaches, by simpa using hdirectory⟩

theorem isName_concat {names : List String} {name : String}
    (hnames : ∀ element ∈ names, IsName element)
    (hvalid : MapManager.isValidMapName name = true) :
    ∀ element ∈ names ++ [name], IsName element := by
  simp only [List.mem_append, List.mem_singleton]
  rintro element (hbefore | rfl)
  · exact hnames element hbefore
  · exact isName_of_isValidMapName hvalid

theorem append_eq {names : List String} (hnames : ∀ name ∈ names, IsName name) (element : String) :
    Path.append ⟨names⟩ element = ⟨names ++ [element]⟩ := by
  have hlast : names.getLast? ≠ some "" := fun hlast ↦
    (hnames "" (List.mem_of_getLast? hlast)).1 rfl
  simp [Path.append, Path.names, hlast]

section

variable {fs : FileSystem} {loadFile : Path → Except String MapMetadata} {configured root : Path}
  {name : String}

/-- The directory of a map under the canonical root. -/
theorem mapDirectory_eq (hroot : ∀ element ∈ root.elements, IsName element)
    (hvalid : MapManager.isValidMapName name = true) :
    mapDirectory root name = .ok ⟨root.elements ++ [name]⟩ := by
  have hnormal : (root.append name).lexicallyNormal = ⟨root.elements ++ [name]⟩ := by
    rw [append_eq hroot, Path.lexicallyNormal_of_isName (isName_concat hroot hvalid)]
  simp [mapDirectory, hvalid, hnormal, Path.parentPath]

/-- The comparison in the form in which the model of the manager makes it, between its two roots. -/
theorem escapesRoot_eq {names : List String} (hnames : ∀ element ∈ names, IsName element) :
    escapesRoot configured ⟨names⟩ = decide (⟨names.dropLast⟩ ≠ configured.lexicallyNormal) := by
  rw [escapesRoot, Path.lexicallyNormal_of_isName hnames, Path.parentPath]

/-- Both checks of a directory on the way to which there is no link come down to one comparison. -/
theorem passes_iff {names : List String} (hnames : ∀ element ∈ names, IsName element)
    (hdirectory : fs.entry names = some .directory) :
    Passes fs configured ⟨names⟩ ↔ configured.lexicallyNormal = ⟨names.dropLast⟩ := by
  have hnormal := Path.lexicallyNormal_of_isName hnames
  have hreal := FileSystem.isDirectory_of_entry hnames hdirectory
  rw [Passes, loadDirectory, saveDirectory, escapesRoot_eq hnames, hnormal, hreal]
  by_cases hsame : configured.lexicallyNormal = ⟨names.dropLast⟩
  · simp [hsame, Except.isOk, Except.toBool]
  · simp [hsame, Ne.symm hsame, Except.isOk, Except.toBool]

theorem mapFilePath_eq_ok_iff {mapFile path : Path} :
    mapFilePath fs mapFile = .ok path ↔
      fs.canonical mapFile = some path ∧ fs.entry path.elements = some .regular := by
  unfold mapFilePath
  cases hcanonical : fs.canonical mapFile with
  | none => simp [FileSystem.isRegularFile, hcanonical]
  | some found =>
    simp only [FileSystem.isRegularFile, hcanonical, Option.any_some, decide_eq_true_eq,
      Option.some.injEq]
    split_ifs with hentry
    · constructor
      · rintro ⟨rfl⟩
        exact ⟨rfl, hentry⟩
      · rintro ⟨rfl, -⟩
        rfl
    · constructor
      · rintro ⟨⟩
      · rintro ⟨rfl, hregular⟩
        exact absurd hregular hentry

/-- The metadata of a map can be read. -/
def Readable (fs : FileSystem) (loadFile : Path → Except String MapMetadata) (directory : Path) :
    Prop :=
  fs.isRegularFile (directory.append "metadata.yaml") = true ∧
    ∃ metadata, readMetadata loadFile directory = .ok metadata

theorem loadMap_eq_ok_iff (hroot : ∀ element ∈ root.elements, IsName element)
    (hvalid : MapManager.isValidMapName name = true) {path : Path} :
    loadMap fs loadFile root name = .ok path ↔
      Readable fs loadFile ⟨root.elements ++ [name]⟩ ∧
        fs.canonical ⟨root.elements ++ [name, "map.pcd"]⟩ = some path ∧
        fs.entry path.elements = some .regular := by
  have hnames := isName_concat hroot hvalid
  have hfile : Path.append ⟨root.elements ++ [name]⟩ "map.pcd" =
      ⟨root.elements ++ [name, "map.pcd"]⟩ := by
    rw [append_eq hnames]
    simp
  unfold loadMap Readable
  simp only [mapDirectory_eq hroot hvalid, Bind.bind, Except.bind]
  by_cases hregular : fs.isRegularFile (Path.append ⟨root.elements ++ [name]⟩ "metadata.yaml")
  · cases hmetadata : readMetadata loadFile ⟨root.elements ++ [name]⟩ with
    | error what => simp [hregular]
    | ok metadata =>
      simp only [hregular, if_true, MapManager.mapFile_of_readMetadata hmetadata, hfile]
      rw [mapFilePath_eq_ok_iff]
      simp
  · simp [hregular, throw, throwThe, MonadExceptOf.throw]

/-- `getMapPath` hands out the directory of the map under the canonical root. -/
theorem getMapPath_eq (hroot : ∀ element ∈ root.elements, IsName element)
    (hvalid : MapManager.isValidMapName name = true) :
    getMapPath root name = .ok ⟨root.elements ++ [name, "map.pcd"]⟩ := by
  have hnames := isName_concat hroot hvalid
  simp [getMapPath, mapDirectory_eq hroot hvalid, append_eq hnames, Bind.bind, Except.bind, pure,
    Except.pure]

/-- The directory of a regular file is handed to the same comparison. -/
theorem passes_parentPath_iff {file : Path} (hreaches : fs.Reaches file.elements)
    (hregular : fs.entry file.elements = some .regular) :
    Passes fs configured file.parentPath ↔
      configured.lexicallyNormal = ⟨file.elements.dropLast.dropLast⟩ := by
  rcases List.eq_nil_or_concat file.elements with hnil | ⟨rest, last, hfile⟩
  · rw [hnil, fs.root] at hregular
    cases hregular
  · rw [List.concat_eq_append] at hfile
    have hdirectory : fs.entry rest = some .directory := by
      rw [hfile] at hregular
      exact fs.parent rest last (by simp [hregular])
    rw [Path.parentPath, hfile, List.dropLast_concat]
    refine passes_iff (fun element hmem ↦ hreaches.isName element ?_) hdirectory
    simp [hfile, hmem]

end

/-! ## When the two agree -/

/-- The configured root is spelled as it is on disk, and the map file leads to no other root. -/
structure Agrees (fs : FileSystem) (loadFile : Path → Except String MapMetadata)
    (configured root : Path) (name : String) : Prop where
  /-- The spelling ends in a name, unless it is one of the root directory. -/
  spelled : textNames configured.elements = [] ∨
    ∃ last, configured.elements.getLast? = some last ∧ IsName last
  /-- The links in the spelling lead to the directory it names without them. -/
  links : textNames configured.elements = root.elements
  /-- A `map.pcd` that is a link leads into a directory of the same root. -/
  output : Readable fs loadFile ⟨root.elements ++ [name]⟩ →
    ∀ file, fs.canonical ⟨root.elements ++ [name, "map.pcd"]⟩ = some file →
      fs.entry file.elements = some .regular → file.elements.dropLast.dropLast = root.elements

/-- The directories handed out for a map pass the checks of the adapter exactly when the
configuration spells the root as it is on disk. -/
theorem handedOut_passes_iff (fs : FileSystem) (loadFile : Path → Except String MapMetadata)
    (configured : ConfiguredRoot) (root : Path) (name : String)
    (hroot : mapRoot fs configured.path = .ok root)
    (hvalid : MapManager.isValidMapName name = true)
    (hmap : fs.entry (root.elements ++ [name]) = some .directory) :
    (∀ directory, HandedOut fs loadFile root name directory →
      Passes fs configured.path directory) ↔
      Agrees fs loadFile configured.path root name := by
  obtain ⟨-, hreaches, -⟩ := root_of_mapRoot hroot
  have hnames := hreaches.isName
  have hempty : "" ∉ root.elements := fun hmem ↦ (hnames "" hmem).1 rfl
  have hpasses : Passes fs configured.path ⟨root.elements ++ [name]⟩ ↔
      configured.path.lexicallyNormal = ⟨root.elements⟩ := by
    rw [passes_iff (isName_concat hnames hvalid) hmap, List.dropLast_concat]
  have hpath := getMapPath_eq hnames hvalid
  have hparent : Path.parentPath ⟨root.elements ++ [name, "map.pcd"]⟩ =
      ⟨root.elements ++ [name]⟩ := by
    simp [Path.parentPath, List.dropLast_append_of_ne_nil]
  constructor
  · intro h
    have hsame := hpasses.mp (hparent ▸ h _ (.getMapPath hpath))
    obtain ⟨hlinks, hspelled⟩ := (Path.lexicallyNormal_eq_iff hempty).mp hsame
    refine ⟨hlinks ▸ hspelled, hlinks, fun hreadable file hcanonical hregular ↦ ?_⟩
    have hload := (loadMap_eq_ok_iff hnames hvalid).mpr ⟨hreadable, hcanonical, hregular⟩
    have hfile := (passes_parentPath_iff (FileSystem.reaches_of_canonical hcanonical)
      hregular).mp (h _ (.loadMap hload))
    rw [hsame] at hfile
    exact (congrArg PosixPath.Path.elements hfile).symm
  · intro h directory hhanded
    have hsame : configured.path.lexicallyNormal = ⟨root.elements⟩ :=
      (Path.lexicallyNormal_eq_iff hempty).mpr ⟨h.links, h.links ▸ h.spelled⟩
    cases hhanded with
    | getMapPath hother =>
      cases hpath.symm.trans hother
      rw [hparent]
      exact hpasses.mpr hsame
    | loadMap hload =>
      obtain ⟨hreadable, hcanonical, hregular⟩ := (loadMap_eq_ok_iff hnames hvalid).mp hload
      rw [passes_parentPath_iff (FileSystem.reaches_of_canonical hcanonical) hregular, hsame,
        h.output hreadable _ hcanonical hregular]

/-- Without symbolic links on its way the spelling leads to the directory it names. -/
theorem links_of_plain {fs : FileSystem} {configured root : Path}
    (hplain : fs.Plain [] configured.elements) (hroot : mapRoot fs configured = .ok root) :
    textNames configured.elements = root.elements := by
  have hcanonical := (root_of_mapRoot hroot).1
  rw [FileSystem.canonical, FileSystem.resolve_of_plain hplain] at hcanonical
  exact congrArg Path.elements (Option.some.inj hcanonical)

/-! ## Two spellings of one root -/

/-- The map `m` under `/maps`, to which `/data` is a link. -/
def linkedRoot : FileSystem where
  entry
    | [] | ["maps"] | ["maps", "m"] => some .directory
    | ["maps", "m", "metadata.yaml"] | ["maps", "m", "map.pcd"] => some .regular
    | ["data"] => some (.link true ["maps"])
    | _ => none
  root := rfl
  parent names name h := by
    rcases names with _ | ⟨first, _ | ⟨second, _ | ⟨third, rest⟩⟩⟩
    · rfl
    all_goals
      simp only [List.cons_append, List.nil_append] at h
      split at h <;> simp_all

/-- The metadata that `createMap` has written. -/
def createdMetadata (_ : Path) : Except String MapMetadata :=
  .ok { name := "m", createdAt := "", updatedAt := "", frameId := "map" }

/-- The root as it is on disk is a spelling with which both checks pass. -/
theorem handedOut_passes_plain :
    HandedOut linkedRoot createdMetadata ⟨["maps"]⟩ "m" ⟨["maps", "m"]⟩ ∧
      Passes linkedRoot (Path.parse "/maps") ⟨["maps", "m"]⟩ := by
  have hpath : getMapPath ⟨["maps"]⟩ "m" = .ok ⟨["maps", "m", "map.pcd"]⟩ := by decide +kernel
  have hhanded : HandedOut linkedRoot createdMetadata ⟨["maps"]⟩ "m" ⟨["maps", "m"]⟩ :=
    .getMapPath hpath
  refine ⟨hhanded, (handedOut_passes_iff linkedRoot createdMetadata ⟨"/maps", rfl⟩ ⟨["maps"]⟩ "m"
    (by decide +kernel) (by decide +kernel) rfl).mpr ⟨?_, ?_, ?_⟩ _ hhanded⟩
  · exact Or.inr ⟨"maps", by decide +kernel, by decide⟩
  · decide +kernel
  · intro _ file hfile _
    cases (by decide +kernel : linkedRoot.canonical ⟨["maps", "m", "map.pcd"]⟩ =
      some ⟨["maps", "m", "map.pcd"]⟩).symm.trans hfile
    rfl

/-- With a separator at the end, or with a link, neither function of the adapter takes the directory
of a map. -/
theorem handedOut_refused :
    (checkMapRoot "/maps/" = .ok () ∧ mapRoot linkedRoot (Path.parse "/maps/") = .ok ⟨["maps"]⟩ ∧
      HandedOut linkedRoot createdMetadata ⟨["maps"]⟩ "m" ⟨["maps", "m"]⟩ ∧
      ¬ Passes linkedRoot (Path.parse "/maps/") ⟨["maps", "m"]⟩) ∧
    checkMapRoot "/data" = .ok () ∧ mapRoot linkedRoot (Path.parse "/data") = .ok ⟨["maps"]⟩ ∧
      ¬ Passes linkedRoot (Path.parse "/data") ⟨["maps", "m"]⟩ := by
  have hpath : getMapPath ⟨["maps"]⟩ "m" = .ok ⟨["maps", "m", "map.pcd"]⟩ := by decide +kernel
  have hslash : mapRoot linkedRoot (Path.parse "/maps/") = .ok ⟨["maps"]⟩ := by decide +kernel
  have hlink : mapRoot linkedRoot (Path.parse "/data") = .ok ⟨["maps"]⟩ := by decide +kernel
  exact ⟨⟨rfl, hslash, .getMapPath hpath, by decide +kernel⟩, rfl, hlink, by decide +kernel⟩

end SlamSystemManager.MapRoot
