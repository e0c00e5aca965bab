import Mathlib.Data.List.ReduceOption
import Mathlib.Data.String.Basic
import SlamSystemManager.MapManager

/-!
# The map store as a directory tree

`MapManager` one level below the store: the root directory, the directories of the maps, the files
in them and the writing of `metadata.yaml` through a temporary file that is renamed. A write may
fail when the document is serialised, when the temporary file is opened or written, and when it is
renamed. A file is what it holds together with what the YAML library reads from it, and the library
reads back what it has written. Creating, renaming and removing happen completely or not at all.
-/

namespace SlamSystemManager.MapFiles

open MapManager

/-! ## Directories and files -/

/-- A regular file: its bytes, and the entries `YAML::LoadFile` finds or the text it throws. -/
structure FileContents where
  bytes : List UInt8
  yaml : Except String (List (String × String))

inductive FileEntry where
  | regular (contents : FileContents)
  | other

/-- The entries of the directory of a map, by their names. -/
abbrev Directory := String → Option FileEntry

inductive Entry where
  | directory (files : Directory)
  | other

abbrev Root := Finmap fun _ : String ↦ Entry

/-- The members of `MapManager` and what it runs with: its process, and the bytes the YAML library
emits. The constructor refuses an empty frame. -/
structure Settings where
  root : String := "/maps"
  mapFrame : String := "map"
  mapFrame_ne : mapFrame ≠ "" := by decide
  pid : ℕ := 1
  emit : List (String × String) → List UInt8 := fun _ ↦ [0]

def directory? (root : Root) (name : String) : Option Directory :=
  match root.lookup name with
  | some (.directory files) => some files
  | _ => none

/-! ## Reading and writing metadata -/

def requiredKey (name : String) (entries : List (String × String)) (key : String) :
    Except String String :=
  match entries.lookup key with
  | some value => .ok value
  | none =>
    .error ("Invalid map metadata for '" ++ name ++ "': invalid node; first invalid key: " ++
      key.quote)

/-- The first half of `readMetadata`. -/
def parseMetadata (name : String) (contents : FileContents) : Except String MapMetadata :=
  match contents.yaml with
  | .error what => .error ("Unable to read map metadata for '" ++ name ++ "': " ++ what)
  | .ok entries => do
    return {
      name := ← requiredKey name entries "name"
      createdAt := ← requiredKey name entries "created_at"
      updatedAt := ← requiredKey name entries "updated_at"
      mapFile := ← requiredKey name entries "map_file"
      frameId := ← requiredKey name entries "frame_id" }

/-- A directory as the store above sees it; `readPose` reads a last pose. An entry that is no
regular file counts as absent. -/
def view (readPose : Option FileEntry → Option (Except String LastPoseFile)) (name : String)
    (files : Directory) : MapDirectory where
  metadata :=
    match files "metadata.yaml" with
    | some (.regular contents) => some (parseMetadata name contents)
    | _ => none
  mapPcd :=
    match files "map.pcd" with
    | some (.regular contents) => some contents.bytes
    | _ => none
  lastPose := readPose (files "last_pose.yaml")

/-- `readMetadata`; the checks of its second half are those of the store. -/
def readMetadata (settings : Settings) (name : String) (files : Directory) :
    Except String MapMetadata :=
  MapManager.readMetadata settings.root name (view (fun _ ↦ none) name files)

/-- Where a write of metadata fails; a write that fails has left something in the file. -/
inductive WriteFault where
  | serialize
  | openTemporary
  | write (left : FileContents)
  | rename (what : String)

/-- The document `writeMetadata` emits. -/
def document (metadata : MapMetadata) : List (String × String) :=
  [("name", metadata.name), ("created_at", metadata.createdAt), ("updated_at", metadata.updatedAt),
    ("map_file", metadata.mapFile), ("frame_id", metadata.frameId)]

def temporaryName (pid : ℕ) : String := ".metadata.yaml.tmp." ++ toString pid

/-- `writeMetadata` on the files of the directory of a map. -/
def writeMetadata (settings : Settings) (name : String) (fault : Option WriteFault)
    (files : Directory) (metadata : MapMetadata) : Directory × Except String Unit :=
  let temporary := temporaryName settings.pid
  let path := filePath settings.root name temporary
  match fault with
  | some .serialize =>
    (files, .error ("Unable to serialize metadata for map: " ++ metadata.name))
  | some .openTemporary =>
    (files, .error ("Unable to open temporary metadata file: " ++ path))
  | some (.write left) =>
    (Function.update files temporary (some (.regular left)),
      .error ("Unable to write map metadata: " ++ path))
  | some (.rename what) =>
    let written := Function.update files temporary
      (some (.regular ⟨settings.emit (document metadata), .ok (document metadata)⟩))
    (Function.update written temporary none,
      .error ("Unable to install map metadata: " ++ what))
  | none =>
    let written := Function.update files temporary
      (some (.regular ⟨settings.emit (document metadata), .ok (document metadata)⟩))
    (Function.update (Function.update written "metadata.yaml" (written temporary)) temporary none,
      .ok ())

/-! ## The operations -/

/-- The metadata of a map that is created. -/
def newMetadata (mapFrame name utcNow : String) : MapMetadata :=
  { name := name, createdAt := utcNow, updatedAt := utcNow, frameId := mapFrame }

/-- `createMap`; the directory whose metadata cannot be written is removed again. -/
def createMap (settings : Settings) (utcNow : String) (fault : Option WriteFault) (root : Root)
    (name : String) : Root × Except String MapMetadata :=
  match mapDirectory name with
  | .error what => (root, .error what)
  | .ok directory =>
    if directory ∈ root then (root, .error ("Map already exists: " ++ name))
    else
      let metadata := newMetadata settings.mapFrame name utcNow
      match writeMetadata settings directory fault (fun _ ↦ none) metadata with
      | (files, .error what) =>
        ((root.insert directory (.directory files)).erase directory, .error what)
      | (files, .ok ()) => (root.insert directory (.directory files), .ok metadata)

/-- `deleteMap`. -/
def deleteMap (removeError : Option String) (root : Root) (name : String) :
    Root × Except String Unit :=
  match mapDirectory name with
  | .error what => (root, .error what)
  | .ok directory =>
    match directory? root directory with
    | none => (root, .error ("Map not found: " ++ name))
    | some _ =>
      match removeError with
      | some what => (root, .error ("Unable to delete map '" ++ name ++ "': " ++ what))
      | none => (root.erase directory, .ok ())

/-- The bytes of a regular file. -/
def regularBytes : Option FileEntry → Option (List UInt8)
  | some (.regular contents) => some contents.bytes
  | _ => none

/-- `markMapSaved`. -/
def markMapSaved (settings : Settings) (utcNow : String) (fault : Option WriteFault) (root : Root)
    (name : String) : Root × Except String MapMetadata :=
  match mapDirectory name with
  | .error what => (root, .error what)
  | .ok directory =>
    let files := (directory? root directory).getD fun _ ↦ none
    match readMetadata settings directory files with
    | .error what => (root, .error what)
    | .ok metadata =>
      if (regularBytes (files metadata.mapFile)).getD [] = [] then
        (root, .error ("Saved map PCD is missing or empty: " ++
          filePath settings.root directory metadata.mapFile))
      else
        let updated := { metadata with updatedAt := utcNow }
        match writeMetadata settings directory fault files updated with
        | (files, .error what) => (root.insert directory (.directory files), .error what)
        | (files, .ok ()) => (root.insert directory (.directory files), .ok updated)

/-- `loadMap`. -/
def loadMap (settings : Settings) (root : Root) (name : String) : Except String String := do
  let directory ← mapDirectory name
  let files := (directory? root directory).getD fun _ ↦ none
  if (regularBytes (files "metadata.yaml")).isSome then
    let metadata ← readMetadata settings directory files
    if (regularBytes (files metadata.mapFile)).isSome then
      return filePath settings.root directory metadata.mapFile
    else
      throw ("Map PCD file not found: " ++ filePath settings.root directory metadata.mapFile)
  else throw ("Map metadata not found: " ++ name)

/-- `mapExists`, when its status call is answered. -/
def mapExists (root : Root) (name : String) : Bool :=
  isValidMapName name &&
    (directory? root name).any fun files ↦ (regularBytes (files "metadata.yaml")).isSome

/-- The file-system calls that fail during a scan: `is_directory` of an entry, `is_regular_file` of
the `metadata.yaml` in it, and an increment, with which the iteration ends. A link that leads to
itself has no status, and an unreadable directory gives none of the files in it. -/
structure ScanFaults where
  isDirectory : String → Option String := fun _ ↦ none
  isRegularFile : String → Option String := fun _ ↦ none
  iteration : Option String := none

/-- The body of the loop of `listMaps`. -/
def scanEntry (settings : Settings) (faults : ScanFaults) (root : Root) (name : String) :
    Except String (Option MapMetadata) :=
  match faults.isDirectory name with
  | some what => .error what
  | none =>
    match directory? root name with
    | none => .ok none
    | some files =>
      if isValidMapName name then
        match faults.isRegularFile name with
        | some what => .error what
        | none =>
          if (regularBytes (files "metadata.yaml")).isSome then
            (readMetadata settings name files).map some
          else .ok none
      else .ok none

/-- `listMaps`, for the order in which the iteration over the root meets its entries. -/
def listMaps (settings : Settings) (root : Root) (order : List String)
    (faults : ScanFaults := {}) : Except String (List MapMetadata) := do
  let maps ← order.mapM (scanEntry settings faults root)
  match faults.iteration with
  | some what => throw ("Unable to scan map root: " ++ what)
  | none => return maps.reduceOption.mergeSort fun left right ↦ decide (left.name ≤ right.name)

/-! ## Sequences of calls -/

inductive Call where
  | createMap (name utcNow : String) (fault : Option WriteFault)
  | deleteMap (name : String) (removeError : Option String)
  | markMapSaved (name utcNow : String) (fault : Option WriteFault)
  | loadMap (name : String)
  | mapExists (name : String)
  | listMaps (order : List String)
  /-- The mapping node leaves a `map.pcd`. -/
  | mapFileAppears (name : String) (file : FileEntry)

inductive Reply where
  | metadata (result : Except String MapMetadata)
  | deleted (result : Except String Unit)
  | path (result : Except String String)
  | known (result : Bool)
  | maps (result : Except String (List MapMetadata))
  | nothing

/-- An iteration over the root meets every entry once, in any order; a map file appears in maps that
are listed. -/
def step (settings : Settings) (root : Root) : Call → Option (Root × Reply)
  | .createMap name utcNow fault =>
    some ((createMap settings utcNow fault root name).map id .metadata)
  | .deleteMap name removeError => some ((deleteMap removeError root name).map id .deleted)
  | .markMapSaved name utcNow fault =>
    some ((markMapSaved settings utcNow fault root name).map id .metadata)
  | .loadMap name => some (root, .path (loadMap settings root name))
  | .mapExists name => some (root, .known (mapExists root name))
  | .listMaps order =>
    if order.Nodup ∧ order.toFinset = root.keys then
      some (root, .maps (listMaps settings root order))
    else none
  | .mapFileAppears name file =>
    match directory? root name with
    | some files =>
      if mapExists root name then
        some (root.insert name (.directory (Function.update files "map.pcd" (some file))), .nothing)
      else none
    | none => none

/-- The roots that sequences of calls lead to from an empty one, with the calls and their replies,
latest first. -/
inductive Runs (settings : Settings) : Root → List (Call × Reply) → Prop
  | empty : Runs settings ∅ []
  | call {root root' : Root} {history : List (Call × Reply)} {call : Call} {reply : Reply}
    (hbefore : Runs settings root history) (hstep : step settings root call = some (root', reply)) :
    Runs settings root' ((call, reply) :: history)

/-! ## The store as a finite map -/

/-- What the store keeps under a name. -/
structure Record where
  metadata : MapMetadata
  mapFile : Option FileEntry

abbrev Maps := String → Option Record

def record (settings : Settings) (name : String) (files : Directory) : Option Record :=
  match readMetadata settings name files with
  | .error _ => none
  | .ok metadata => some ⟨metadata, files "map.pcd"⟩

/-- The finite map a root stands for. -/
def contents (settings : Settings) (root : Root) : Maps := fun name ↦
  (directory? root name).bind (record settings name)

/-- Every entry of the root is the directory of a map with valid metadata that names it. -/
def Represented (settings : Settings) (root : Root) : Prop :=
  ∀ name entry, root.lookup name = some entry →
    isValidMapName name = true ∧ ∃ files, entry = .directory files ∧
      (record settings name files).isSome = true

/-- What a finite map keyed by name answers to a call, and what it is afterwards. -/
def Answers (mapFrame : String) (maps maps' : Maps) : Call → Reply → Prop
  | .createMap name utcNow fault, .metadata result =>
    if isValidMapName name = true ∧ maps name = none ∧ fault.isNone = true then
      result = .ok (newMetadata mapFrame name utcNow) ∧
        maps' = Function.update maps name (some ⟨newMetadata mapFrame name utcNow, none⟩)
    else result.isOk = false ∧ maps' = maps
  | .deleteMap name removeError, .deleted result =>
    if (maps name).isSome = true ∧ removeError = none then
      result = .ok () ∧ maps' = Function.update maps name none
    else result.isOk = false ∧ maps' = maps
  | .markMapSaved name utcNow fault, .metadata result =>
    (∃ stored, maps name = some stored ∧ fault.isNone = true ∧
      (regularBytes stored.mapFile).getD [] ≠ [] ∧
      result = .ok { stored.metadata with updatedAt := utcNow } ∧
      maps' = Function.update maps name
        (some { stored with metadata := { stored.metadata with updatedAt := utcNow } })) ∨
    ((fault.isSome = true ∨
        ((maps name).bind (regularBytes ∘ Record.mapFile)).getD [] = []) ∧
      result.isOk = false ∧ maps' = maps)
  | .loadMap name, .path result =>
    result.isOk = ((maps name).any fun stored ↦ (regularBytes stored.mapFile).isSome) ∧
      maps' = maps
  | .mapExists name, .known known => known = (maps name).isSome ∧ maps' = maps
  | .listMaps _, .maps result =>
    (∃ listed, result = .ok listed ∧ (listed.map MapMetadata.name).Pairwise (· < ·) ∧
      ∀ name metadata, metadata ∈ listed ∧ metadata.name = name ↔
        (maps name).map Record.metadata = some metadata) ∧
      maps' = maps
  | .mapFileAppears name file, .nothing =>
    ∃ stored, maps name = some stored ∧
      maps' = Function.update maps name (some { stored with mapFile := some file })
  | _, _ => False

/-- The names that calls have created and not deleted since; the latest call comes first. -/
def live : List (Call × Reply) → String → Bool
  | [] => fun _ ↦ false
  | (.createMap name _ _, .metadata (.ok _)) :: history => Function.update (live history) name true
  | (.deleteMap name _, .deleted (.ok ())) :: history => Function.update (live history) name false
  | _ :: history => live history

/-- The name a call is about. -/
def Call.name? : Call → Option String
  | .createMap name _ _ => some name
  | .deleteMap name _ => some name
  | .markMapSaved name _ _ => some name
  | .loadMap name => some name
  | .mapExists name => some name
  | .listMaps _ => none
  | .mapFileAppears name _ => some name

/-! ## Metadata that is read and written -/

theorem temporaryName_ne {pid : ℕ} {file : String} (h : file.toList.head? ≠ some '.') :
    temporaryName pid ≠ file := by
  have hdot : (temporaryName pid).toList.head? = some '.' := by
    have hliteral : ".metadata.yaml.tmp.".toList = '.' :: "metadata.yaml.tmp.".toList := by decide
    unfold temporaryName
    rw [String.toList_append, hliteral]
    rfl
  rintro rfl
  exact h hdot

theorem requiredKey_of_lookup {name key value : String} {entries : List (String × String)}
    (h : entries.lookup key = some value) : requiredKey name entries key = .ok value := by
  simp [requiredKey, h]

/-- The library reads back what it has written. -/
theorem parseMetadata_document (name : String) (bytes : List UInt8) (metadata : MapMetadata) :
    parseMetadata name ⟨bytes, .ok (document metadata)⟩ = .ok metadata := by
  have hlookups : (document metadata).lookup "name" = some metadata.name ∧
      (document metadata).lookup "created_at" = some metadata.createdAt ∧
      (document metadata).lookup "updated_at" = some metadata.updatedAt ∧
      (document metadata).lookup "map_file" = some metadata.mapFile ∧
      (document metadata).lookup "frame_id" = some metadata.frameId := by
    simp [document, List.lookup_cons]
  obtain ⟨hname, hcreated, hupdated, hfile, hframe⟩ := hlookups
  simp only [parseMetadata, requiredKey_of_lookup hname, requiredKey_of_lookup hcreated,
    requiredKey_of_lookup hupdated, requiredKey_of_lookup hfile, requiredKey_of_lookup hframe]
  rfl

theorem readMetadata_congr {settings : Settings} {name : String} {files files' : Directory}
    (h : files' "metadata.yaml" = files "metadata.yaml") :
    readMetadata settings name files' = readMetadata settings name files := by
  simp [readMetadata, MapManager.readMetadata, view, h]

/-- What `readMetadata` has checked when it accepts. -/
theorem readMetadata_eq_ok {settings : Settings} {name : String} {files : Directory}
    {metadata : MapMetadata} (h : readMetadata settings name files = .ok metadata) :
    (regularBytes (files "metadata.yaml")).isSome = true ∧ metadata.name = name ∧
      isValidMapName name = true ∧ metadata.mapFile = "map.pcd" ∧ metadata.frameId ≠ "" := by
  have hfile : (regularBytes (files "metadata.yaml")).isSome = true := by
    have hsome := metadata_of_readMetadata h
    revert hsome
    simp only [view]
    cases files "metadata.yaml" with
    | none => simp
    | some file => cases file <;> simp [regularBytes]
  refine ⟨hfile, ?_⟩
  unfold readMetadata MapManager.readMetadata at h
  split at h
  · cases h
  · cases h
  · split_ifs at h with hname hmap hframe
    cases h
    rw [not_or, not_not, Bool.not_eq_false] at hname
    exact ⟨hname.1, hname.1 ▸ hname.2, not_not.mp hmap, hframe⟩

/-- Written metadata is accepted again. -/
theorem readMetadata_of_document {settings : Settings} {files : Directory} {bytes : List UInt8}
    (metadata : MapMetadata)
    (hwritten : files "metadata.yaml" = some (.regular ⟨bytes, .ok (document metadata)⟩))
    (hvalid : isValidMapName metadata.name = true) (hfile : metadata.mapFile = "map.pcd")
    (hframe : metadata.frameId ≠ "") :
    readMetadata settings metadata.name files = .ok metadata := by
  simp [readMetadata, MapManager.readMetadata, view, hwritten, parseMetadata_document, hvalid,
    hfile, hframe]

/-- A write either installs the document or leaves the metadata as it was; the other files that
are read stay. -/
theorem writeMetadata_cases (settings : Settings) (name : String) (fault : Option WriteFault)
    (files : Directory) (metadata : MapMetadata) :
    (∀ file : String, file.toList.head? ≠ some '.' → file ≠ "metadata.yaml" →
      (writeMetadata settings name fault files metadata).1 file = files file) ∧
    (fault.isNone = true ∧ (writeMetadata settings name fault files metadata).2 = .ok () ∧
        (writeMetadata settings name fault files metadata).1 "metadata.yaml" =
          some (.regular ⟨settings.emit (document metadata), .ok (document metadata)⟩) ∨
      fault.isSome = true ∧
        (∃ what, (writeMetadata settings name fault files metadata).2 = .error what) ∧
        (writeMetadata settings name fault files metadata).1 "metadata.yaml" =
          files "metadata.yaml") := by
  have hyaml : temporaryName settings.pid ≠ "metadata.yaml" := temporaryName_ne (by decide)
  constructor
  · intro file hdot hother
    have htemporary : file ≠ temporaryName settings.pid := (temporaryName_ne hdot).symm
    unfold writeMetadata
    cases fault with
    | none => simp [htemporary, hother]
    | some fault => cases fault <;> simp [htemporary]
  · cases fault with
    | none =>
      left
      simp [writeMetadata, hyaml.symm]
    | some fault =>
      right
      cases fault <;> simp [writeMetadata, hyaml.symm]

/-! ## The map under each name -/

theorem record_eq_some {settings : Settings} {name : String} {files : Directory} {stored : Record} :
    record settings name files = some stored ↔
      readMetadata settings name files = .ok stored.metadata ∧
        files "map.pcd" = stored.mapFile := by
  unfold record
  cases hread : readMetadata settings name files with
  | error what => simp
  | ok metadata =>
    constructor
    · rintro ⟨⟩
      exact ⟨rfl, rfl⟩
    · rintro ⟨hmetadata, hfile⟩
      cases hmetadata
      rw [hfile]

theorem directory?_insert (root : Root) (name other : String) (files : Directory) :
    directory? (root.insert name (.directory files)) other =
      if other = name then some files else directory? root other := by
  unfold directory?
  by_cases hsame : other = name
  · subst hsame
    simp
  · simp [hsame]

theorem directory?_erase (root : Root) (name other : String) :
    directory? (root.erase name) other =
      if other = name then none else directory? root other := by
  unfold directory?
  by_cases hsame : other = name
  · subst hsame
    simp
  · simp [hsame]

theorem contents_insert (settings : Settings) (root : Root) (name : String) (files : Directory) :
    contents settings (root.insert name (.directory files)) =
      Function.update (contents settings root) name (record settings name files) := by
  funext other
  unfold contents
  rw [directory?_insert]
  by_cases hsame : other = name
  · subst hsame
    simp
  · simp [hsame]

theorem contents_erase (settings : Settings) (root : Root) (name : String) :
    contents settings (root.erase name) = Function.update (contents settings root) name none := by
  funext other
  unfold contents
  rw [directory?_erase]
  by_cases hsame : other = name
  · subst hsame
    simp
  · simp [hsame]

theorem erase_insert_of_notMem {root : Root} {name : String} (h : name ∉ root) (entry : Entry) :
    (root.insert name entry).erase name = root := by
  apply Finmap.ext_lookup
  intro other
  by_cases hsame : other = name
  · subst hsame
    simp [Finmap.lookup_eq_none.mpr h]
  · simp [hsame]

section Represented

variable {settings : Settings} {root : Root}

theorem Represented.insert (hroot : Represented settings root) {name : String} {files : Directory}
    (hvalid : isValidMapName name = true) (hrecord : (record settings name files).isSome = true) :
    Represented settings (root.insert name (.directory files)) := by
  intro other entry hentry
  by_cases hsame : other = name
  · subst hsame
    rw [Finmap.lookup_insert, Option.some_inj] at hentry
    exact ⟨hvalid, files, hentry.symm, hrecord⟩
  · rw [Finmap.lookup_insert_of_ne root hsame] at hentry
    exact hroot other entry hentry

theorem Represented.erase (hroot : Represented settings root) (name : String) :
    Represented settings (root.erase name) := by
  intro other entry hentry
  by_cases hsame : other = name
  · subst hsame
    rw [Finmap.lookup_erase] at hentry
    cases hentry
  · rw [Finmap.lookup_erase_ne hsame] at hentry
    exact hroot other entry hentry

theorem contents_eq_some {name : String} {stored : Record} :
    contents settings root name = some stored ↔
      ∃ files, root.lookup name = some (.directory files) ∧
        record settings name files = some stored := by
  unfold contents directory?
  cases hlookup : root.lookup name with
  | none => simp
  | some entry => cases entry <;> simp

/-- An entry of the root is a map. -/
theorem Represented.contents_isSome (hroot : Represented settings root) (name : String) :
    (contents settings root name).isSome = true ↔ name ∈ root := by
  constructor
  · intro hsome
    obtain ⟨stored, hstored⟩ := Option.isSome_iff_exists.mp hsome
    obtain ⟨files, hlookup, _⟩ := contents_eq_some.mp hstored
    exact Finmap.mem_of_lookup_eq_some hlookup
  · intro hmem
    obtain ⟨entry, hentry⟩ := Finmap.mem_iff.mp hmem
    obtain ⟨_, files, rfl, hrecord⟩ := hroot name entry hentry
    simp [contents, directory?, hentry, hrecord]

theorem Represented.valid (hroot : Represented settings root) {name : String}
    (hmem : name ∈ root) : isValidMapName name = true := by
  obtain ⟨entry, hentry⟩ := Finmap.mem_iff.mp hmem
  exact (hroot name entry hentry).1

/-- The files of a map and its record. -/
theorem Represented.files (hroot : Represented settings root) {name : String}
    (hmem : name ∈ root) :
    ∃ files stored, directory? root name = some files ∧
      record settings name files = some stored ∧ contents settings root name = some stored := by
  obtain ⟨stored, hstored⟩ := Option.isSome_iff_exists.mp ((hroot.contents_isSome name).mpr hmem)
  obtain ⟨files, hlookup, hrecord⟩ := contents_eq_some.mp hstored
  exact ⟨files, stored, by simp [directory?, hlookup], hrecord, hstored⟩

theorem Represented.directory?_eq_none (hroot : Represented settings root) {name : String} :
    directory? root name = none ↔ name ∉ root := by
  constructor
  · intro hnone hmem
    obtain ⟨files, _, hfiles, _⟩ := hroot.files hmem
    rw [hnone] at hfiles
    cases hfiles
  · intro hnot
    simp [directory?, Finmap.lookup_eq_none.mpr hnot]

/-- `mapExists` tells the names in use. -/
theorem Represented.mapExists_eq (hroot : Represented settings root) (name : String) :
    mapExists root name = (contents settings root name).isSome := by
  by_cases hmem : name ∈ root
  · obtain ⟨files, stored, hfiles, hrecord, hstored⟩ := hroot.files hmem
    have hread := (record_eq_some.mp hrecord).1
    simp [mapExists, hroot.valid hmem, hfiles, (readMetadata_eq_ok hread).1, hstored]
  · have hnone : contents settings root name = none := by
      rw [← Option.not_isSome_iff_eq_none, hroot.contents_isSome name]
      exact hmem
    simp [mapExists, hroot.directory?_eq_none.mpr hmem, hnone]

theorem Represented.contents_eq_none (hroot : Represented settings root) {name : String} :
    contents settings root name = none ↔ name ∉ root := by
  rw [← Option.not_isSome_iff_eq_none, hroot.contents_isSome name]

end Represented

/-! ## The operations over the finite map -/

section Operations

variable {settings : Settings} {root : Root}

/-- A created map is kept with its metadata and no map file. -/
theorem record_created {name utcNow : String} {files : Directory} {bytes : List UInt8}
    (hvalid : isValidMapName name = true)
    (hwritten : files "metadata.yaml" =
      some (.regular ⟨bytes, .ok (document (newMetadata settings.mapFrame name utcNow))⟩))
    (hmap : files "map.pcd" = none) :
    record settings name files = some ⟨newMetadata settings.mapFrame name utcNow, none⟩ := by
  have hread : readMetadata settings (newMetadata settings.mapFrame name utcNow).name files =
      .ok (newMetadata settings.mapFrame name utcNow) :=
    readMetadata_of_document _ hwritten hvalid rfl settings.mapFrame_ne
  exact record_eq_some.mpr ⟨hread, hmap⟩

theorem createMap_refines (hroot : Represented settings root) {root' : Root} {name utcNow : String}
    {fault : Option WriteFault} {result : Except String MapMetadata}
    (h : createMap settings utcNow fault root name = (root', result)) :
    Represented settings root' ∧
      Answers settings.mapFrame (contents settings root) (contents settings root')
        (.createMap name utcNow fault) (.metadata result) ∧
      ∀ other, other ≠ name → root'.lookup other = root.lookup other := by
  have hunchanged : ∀ what : String, (root', result) = (root, .error what) →
      ¬(isValidMapName name = true ∧ contents settings root name = none ∧ fault.isNone = true) →
      Represented settings root' ∧
        Answers settings.mapFrame (contents settings root) (contents settings root')
          (.createMap name utcNow fault) (.metadata result) ∧
        ∀ other, other ≠ name → root'.lookup other = root.lookup other := by
    rintro what ⟨⟩ hnot
    refine ⟨hroot, ?_, fun _ _ ↦ rfl⟩
    rw [Answers, if_neg hnot]
    exact ⟨rfl, rfl⟩
  unfold createMap mapDirectory at h
  by_cases hvalid : isValidMapName name = true
  · simp only [hvalid, if_true] at h
    by_cases hmem : name ∈ root
    · rw [if_pos hmem] at h
      exact hunchanged _ h.symm fun hunused ↦ hroot.contents_eq_none.mp hunused.2.1 hmem
    · rw [if_neg hmem] at h
      obtain ⟨hothers, hwrite⟩ := writeMetadata_cases settings name fault (fun _ ↦ none)
        (newMetadata settings.mapFrame name utcNow)
      generalize hgen : writeMetadata settings name fault (fun _ ↦ none)
        (newMetadata settings.mapFrame name utcNow) = written at h hothers hwrite
      obtain ⟨files, outcome⟩ := written
      obtain ⟨hnone, hok, hyaml⟩ | ⟨hsome, ⟨what, herror⟩, _⟩ := hwrite
      · -- the document is installed
        simp only at hok hothers hyaml
        subst hok
        cases h
        have hrecord := record_created hvalid hyaml (hothers "map.pcd" (by decide) (by decide))
        refine ⟨hroot.insert hvalid (by rw [hrecord]; rfl), ?_,
          fun other hother ↦ Finmap.lookup_insert_of_ne root hother⟩
        rw [Answers, if_pos ⟨hvalid, hroot.contents_eq_none.mpr hmem, hnone⟩, contents_insert,
          hrecord]
        exact ⟨rfl, rfl⟩
      · -- the directory is removed again
        simp only at herror
        subst herror
        simp only [erase_insert_of_notMem hmem] at h
        apply hunchanged what h.symm
        intro hcreated
        rw [Option.isNone_iff_eq_none.mp hcreated.2.2] at hsome
        cases hsome
  · simp only [hvalid] at h
    exact hunchanged _ h.symm fun hunused ↦ hvalid hunused.1

theorem deleteMap_refines (hroot : Represented settings root) {root' : Root} {name : String}
    {removeError : Option String} {result : Except String Unit}
    (h : deleteMap removeError root name = (root', result)) :
    Represented settings root' ∧
      Answers settings.mapFrame (contents settings root) (contents settings root')
        (.deleteMap name removeError) (.deleted result) ∧
      ∀ other, other ≠ name → root'.lookup other = root.lookup other := by
  have hunchanged : ∀ what : String, (root', result) = (root, .error what) →
      ¬((contents settings root name).isSome = true ∧ removeError = none) →
      Represented settings root' ∧
        Answers settings.mapFrame (contents settings root) (contents settings root')
          (.deleteMap name removeError) (.deleted result) ∧
        ∀ other, other ≠ name → root'.lookup other = root.lookup other := by
    rintro what ⟨⟩ hnot
    refine ⟨hroot, ?_, fun _ _ ↦ rfl⟩
    rw [Answers, if_neg hnot]
    exact ⟨rfl, rfl⟩
  unfold deleteMap mapDirectory at h
  by_cases hvalid : isValidMapName name = true
  · simp only [hvalid, if_true] at h
    by_cases hmem : name ∈ root
    · obtain ⟨files, stored, hfiles, _, hstored⟩ := hroot.files hmem
      simp only [hfiles] at h
      cases removeError with
      | some what => exact hunchanged _ h.symm (by simp)
      | none =>
        cases h
        refine ⟨hroot.erase name, ?_, fun other hother ↦ Finmap.lookup_erase_ne hother⟩
        rw [Answers, if_pos ⟨by rw [hstored]; rfl, rfl⟩, contents_erase]
        exact ⟨rfl, rfl⟩
    · simp only [hroot.directory?_eq_none.mpr hmem] at h
      exact hunchanged _ h.symm fun hlisted ↦ hmem ((hroot.contents_isSome name).mp hlisted.1)
  · simp only [hvalid] at h
    exact hunchanged _ h.symm fun hlisted ↦
      hvalid (hroot.valid ((hroot.contents_isSome name).mp hlisted.1))

/-- Without a map there is no metadata to read. -/
theorem readMetadata_empty (settings : Settings) (name : String) :
    ∃ what, readMetadata settings name (fun _ ↦ none) = .error what :=
  ⟨_, rfl⟩

theorem markMapSaved_refines (hroot : Represented settings root) {root' : Root}
    {name utcNow : String} {fault : Option WriteFault} {result : Except String MapMetadata}
    (h : markMapSaved settings utcNow fault root name = (root', result)) :
    Represented settings root' ∧
      Answers settings.mapFrame (contents settings root) (contents settings root')
        (.markMapSaved name utcNow fault) (.metadata result) ∧
      ∀ other, other ≠ name → root'.lookup other = root.lookup other := by
  unfold markMapSaved mapDirectory at h
  by_cases hvalid : isValidMapName name = true
  · simp only [hvalid, if_true] at h
    by_cases hmem : name ∈ root
    · obtain ⟨files, stored, hfiles, hrecord, hstored⟩ := hroot.files hmem
      obtain ⟨hread, hmapFile⟩ := record_eq_some.mp hrecord
      obtain ⟨_, hname, _, hpcd, hframe⟩ := readMetadata_eq_ok hread
      have hstoredFile : files stored.metadata.mapFile = stored.mapFile := by rw [hpcd, hmapFile]
      simp only [hfiles, Option.getD_some, hread, hstoredFile] at h
      by_cases hempty : (regularBytes stored.mapFile).getD [] = []
      · simp only [hempty, if_true] at h
        cases h
        exact ⟨hroot, Or.inr ⟨Or.inr (by simpa [hstored] using hempty), rfl, rfl⟩,
          fun _ _ ↦ rfl⟩
      · rw [if_neg hempty] at h
        obtain ⟨hothers, hwrite⟩ := writeMetadata_cases settings name fault files
          { stored.metadata with updatedAt := utcNow }
        generalize hgen : writeMetadata settings name fault files
          { stored.metadata with updatedAt := utcNow } = written at h hothers hwrite
        obtain ⟨files', outcome⟩ := written
        have hmap : files' "map.pcd" = stored.mapFile :=
          (hothers "map.pcd" (by decide) (by decide)).trans hmapFile
        obtain ⟨hnone, hok, hyaml⟩ | ⟨hsome, ⟨what, herror⟩, hyaml⟩ := hwrite
        · simp only at hok hyaml
          subst hok
          have hrecord' : record settings name files' =
              some ⟨{ stored.metadata with updatedAt := utcNow }, stored.mapFile⟩ := by
            apply record_eq_some.mpr
            refine ⟨?_, hmap⟩
            rw [← hname]
            exact readMetadata_of_document _ hyaml (hname.symm ▸ hvalid) hpcd hframe
          cases h
          refine ⟨hroot.insert hvalid (by rw [hrecord']; rfl), Or.inl ⟨stored, hstored, hnone,
            hempty, ?_, ?_⟩, fun other hother ↦ Finmap.lookup_insert_of_ne root hother⟩
          · rfl
          · rw [contents_insert, hrecord']
        · -- what the failed write has left is no file of the map
          simp only at herror hyaml
          subst herror
          have hrecord' : record settings name files' = some stored :=
            record_eq_some.mpr ⟨(readMetadata_congr hyaml).trans hread, hmap⟩
          cases h
          refine ⟨hroot.insert hvalid (by rw [hrecord']; rfl), Or.inr ⟨Or.inl hsome, rfl, ?_⟩,
            fun other hother ↦ Finmap.lookup_insert_of_ne root hother⟩
          rw [contents_insert, hrecord', ← hstored, Function.update_eq_self]
    · obtain ⟨what, hread⟩ := readMetadata_empty settings name
      simp only [hroot.directory?_eq_none.mpr hmem, Option.getD_none, hread] at h
      cases h
      exact ⟨hroot, Or.inr ⟨Or.inr (by simp [hroot.contents_eq_none.mpr hmem]), rfl, rfl⟩,
        fun _ _ ↦ rfl⟩
  · simp only [hvalid] at h
    cases h
    have hnone : contents settings root name = none :=
      hroot.contents_eq_none.mpr fun hmem ↦ hvalid (hroot.valid hmem)
    exact ⟨hroot, Or.inr ⟨Or.inr (by simp [hnone]), rfl, rfl⟩, fun _ _ ↦ rfl⟩

theorem loadMap_isOk (hroot : Represented settings root) (name : String) :
    (loadMap settings root name).isOk =
      (contents settings root name).any fun stored ↦ (regularBytes stored.mapFile).isSome := by
  unfold loadMap mapDirectory
  by_cases hmem : name ∈ root
  · obtain ⟨files, stored, hfiles, hrecord, hstored⟩ := hroot.files hmem
    obtain ⟨hread, hmapFile⟩ := record_eq_some.mp hrecord
    obtain ⟨hyaml, _, _, hpcd, _⟩ := readMetadata_eq_ok hread
    simp only [hroot.valid hmem, if_true, Bind.bind, Except.bind, hfiles, Option.getD_some, hyaml,
      hread, hpcd, hmapFile, hstored, Option.any_some]
    cases (regularBytes stored.mapFile).isSome <;> rfl
  · have hnone : contents settings root name = none := hroot.contents_eq_none.mpr hmem
    by_cases hvalid : isValidMapName name = true
    · simp only [hvalid, if_true, Bind.bind, Except.bind, hroot.directory?_eq_none.mpr hmem,
        Option.getD_none, hnone]
      rfl
    · simp only [hvalid, Bind.bind, Except.bind, hnone]
      rfl

/-- An entry whose status can be read, and the `metadata.yaml` in it as far as it is asked for. -/
structure ScanFaults.Answered (faults : ScanFaults) (root : Root) (name : String) : Prop where
  isDirectory : faults.isDirectory name = none
  isRegularFile : (directory? root name).isSome = true → isValidMapName name = true →
    faults.isRegularFile name = none

/-- The scan passes over an entry that is no map. -/
theorem scanEntry_of_unknown {faults : ScanFaults} {name : String}
    (hanswered : faults.Answered root name) (hunknown : mapExists root name = false) :
    scanEntry settings faults root name = .ok none := by
  unfold scanEntry
  rw [hanswered.isDirectory]
  cases hfiles : directory? root name with
  | none => rfl
  | some files =>
    by_cases hvalid : isValidMapName name = true
    · have hfile : (regularBytes (files "metadata.yaml")).isSome = false := by
        simpa [mapExists, hvalid, hfiles] using hunknown
      simp [hvalid, hanswered.isRegularFile (by simp [hfiles]) hvalid, hfile]
    · simp [hvalid]

theorem scanEntry_of_known {faults : ScanFaults} {name : String}
    (hanswered : faults.Answered root name) (hknown : mapExists root name = true) :
    scanEntry settings faults root name =
      (readMetadata settings name ((directory? root name).getD fun _ ↦ none)).map some := by
  obtain ⟨hvalid, hany⟩ := Bool.and_eq_true_iff.mp hknown
  obtain ⟨files, hfiles, hfile⟩ := (Option.any_eq_true _ _).mp hany
  simp [scanEntry, hanswered.isDirectory, hfiles, hvalid,
    hanswered.isRegularFile (by simp [hfiles]) hvalid, hfile]

/-- A scan succeeds where every map it meets has a record. -/
theorem mapM_scanEntry {faults : ScanFaults} {order : List String} {stored : String → Record}
    (hanswered : ∀ name ∈ order, faults.Answered root name)
    (hstored : ∀ name ∈ order, mapExists root name = true →
      contents settings root name = some (stored name)) :
    ∃ maps, order.mapM (scanEntry settings faults root) = .ok maps ∧
      maps.reduceOption =
        (order.filter (mapExists root)).map fun name ↦ (stored name).metadata := by
  induction order with
  | nil => exact ⟨[], rfl, rfl⟩
  | cons name order ih =>
    obtain ⟨maps, hscan, hmaps⟩ := ih (fun other hother ↦ hanswered other (by simp [hother]))
      fun other hother ↦ hstored other (by simp [hother])
    by_cases hknown : mapExists root name = true
    · obtain ⟨files, hlookup, hrecord⟩ := contents_eq_some.mp (hstored name (by simp) hknown)
      have hfiles : directory? root name = some files := by simp [directory?, hlookup]
      refine ⟨some (stored name).metadata :: maps, ?_, ?_⟩
      · rw [List.mapM_cons, scanEntry_of_known (hanswered name (by simp)) hknown, hfiles,
          Option.getD_some, (record_eq_some.mp hrecord).1, hscan]
        rfl
      · rw [List.filter_cons_of_pos hknown, List.map_cons, List.reduceOption_cons_of_some, hmaps]
    · refine ⟨none :: maps, ?_, ?_⟩
      · rw [List.mapM_cons, scanEntry_of_unknown (hanswered name (by simp))
          (by simpa using hknown), hscan]
        rfl
      · rw [List.filter_cons_of_neg hknown, List.reduceOption_cons_of_none, hmaps]

/-- The sorted list has every map once. -/
theorem listMaps_eq_ok (hknown : ∀ name, mapExists root name = (contents settings root name).isSome)
    {order : List String} {faults : ScanFaults}
    (hanswered : ∀ name ∈ order, faults.Answered root name)
    (hiteration : faults.iteration = none) (hnodup : order.Nodup)
    (hall : order.toFinset = root.keys) :
    ∃ listed, listMaps settings root order faults = .ok listed ∧
      (listed.map MapMetadata.name).Pairwise (· < ·) ∧
      ∀ name metadata, metadata ∈ listed ∧ metadata.name = name ↔
        (contents settings root name).map Record.metadata = some metadata := by
  let names := order.filter (mapExists root)
  have hmem : ∀ name, name ∈ names ↔ (contents settings root name).isSome = true := by
    intro name
    rw [List.mem_filter, hknown name, and_iff_right_iff_imp]
    intro hsome
    obtain ⟨stored, hstored⟩ := Option.isSome_iff_exists.mp hsome
    obtain ⟨files, hlookup, _⟩ := contents_eq_some.mp hstored
    rw [← List.mem_toFinset, hall, Finmap.mem_keys]
    exact Finmap.mem_of_lookup_eq_some hlookup
  have hchoice : ∀ name, ∃ stored, name ∈ names → contents settings root name = some stored := by
    intro name
    by_cases hname : name ∈ names
    · obtain ⟨stored, hstored⟩ := Option.isSome_iff_exists.mp ((hmem name).mp hname)
      exact ⟨stored, fun _ ↦ hstored⟩
    · exact ⟨⟨newMetadata "" "" "", none⟩, fun h ↦ absurd h hname⟩
  choose stored hstored using hchoice
  have hname : ∀ name ∈ names, (stored name).metadata.name = name := by
    intro name hname
    obtain ⟨files, _, hrecord⟩ := contents_eq_some.mp (hstored name hname)
    exact (readMetadata_eq_ok (record_eq_some.mp hrecord).1).2.1
  have hnames : (names.map fun name ↦ (stored name).metadata).map MapMetadata.name = names := by
    rw [List.map_map]
    calc
      names.map (MapMetadata.name ∘ fun name ↦ (stored name).metadata) = names.map id :=
        List.map_congr_left hname
      _ = names := List.map_id names
  let sorted := (names.map fun name ↦ (stored name).metadata).mergeSort
    fun left right ↦ decide (left.name ≤ right.name)
  have hperm : sorted.Perm (names.map fun name ↦ (stored name).metadata) := List.mergeSort_perm _ _
  refine ⟨sorted, ?_, ?_, ?_⟩
  · obtain ⟨maps, hscan, hmaps⟩ := mapM_scanEntry hanswered fun name horder hmap ↦
      hstored name (List.mem_filter.mpr ⟨horder, hmap⟩)
    simp only [listMaps, hscan, hiteration, Bind.bind, Except.bind, hmaps]
    rfl
  · have hle : sorted.Pairwise fun left right ↦ decide (left.name ≤ right.name) = true :=
      List.pairwise_mergeSort
        (fun first second third hfirst hsecond ↦ by
          simp only [decide_eq_true_eq] at hfirst hsecond ⊢
          exact hfirst.trans hsecond)
        (fun first second ↦ by
          simp only [Bool.or_eq_true, decide_eq_true_eq]
          exact le_total first.name second.name) _
    have hdistinct : (sorted.map MapMetadata.name).Nodup := by
      rw [(hperm.map MapMetadata.name).nodup_iff, hnames]
      exact hnodup.filter _
    rw [List.pairwise_map]
    rw [List.Nodup, List.pairwise_map] at hdistinct
    apply (hle.and hdistinct).imp
    intro left right hboth
    exact lt_of_le_of_ne (by simpa using hboth.1) hboth.2
  · intro name metadata
    rw [hperm.mem_iff, List.mem_map]
    constructor
    · rintro ⟨⟨other, hother, rfl⟩, rfl⟩
      rw [hname other hother, hstored other hother]
      rfl
    · intro hmap
      obtain ⟨kept, hkept, rfl⟩ := Option.map_eq_some_iff.mp hmap
      have horder : name ∈ names := (hmem name).mpr (by rw [hkept]; rfl)
      have hsame : stored name = kept := by
        rw [hstored name horder, Option.some_inj] at hkept
        exact hkept
      rw [← hsame]
      exact ⟨⟨name, horder, rfl⟩, hname name horder⟩

end Operations

/-! ## Every sequence of calls -/

/-- One call refines the finite map and leaves the entries of all other names as they are. -/
theorem step_refines {settings : Settings} {root root' : Root} {call : Call} {reply : Reply}
    (hroot : Represented settings root) (h : step settings root call = some (root', reply)) :
    Represented settings root' ∧
      Answers settings.mapFrame (contents settings root) (contents settings root') call reply ∧
      ∀ other, call.name? ≠ some other → root'.lookup other = root.lookup other := by
  have hothers : ∀ {name : String}, (∀ other, other ≠ name →
      root'.lookup other = root.lookup other) →
      ∀ other, some name ≠ some other → root'.lookup other = root.lookup other :=
    fun hkept other hother ↦ hkept other fun hsame ↦ hother (congrArg some hsame.symm)
  cases call with
  | createMap name utcNow fault =>
    cases h
    obtain ⟨hkept, hanswer, hrest⟩ := createMap_refines hroot (Prod.mk.eta).symm
    exact ⟨hkept, hanswer, hothers hrest⟩
  | deleteMap name removeError =>
    cases h
    obtain ⟨hkept, hanswer, hrest⟩ := deleteMap_refines hroot (Prod.mk.eta).symm
    exact ⟨hkept, hanswer, hothers hrest⟩
  | markMapSaved name utcNow fault =>
    cases h
    obtain ⟨hkept, hanswer, hrest⟩ := markMapSaved_refines hroot (Prod.mk.eta).symm
    exact ⟨hkept, hanswer, hothers hrest⟩
  | loadMap name =>
    cases h
    exact ⟨hroot, ⟨loadMap_isOk hroot name, rfl⟩, fun _ _ ↦ rfl⟩
  | mapExists name =>
    cases h
    exact ⟨hroot, ⟨hroot.mapExists_eq name, rfl⟩, fun _ _ ↦ rfl⟩
  | listMaps order =>
    simp only [step] at h
    split_ifs at h with horder
    cases h
    exact ⟨hroot, ⟨listMaps_eq_ok hroot.mapExists_eq (fun _ _ ↦ ⟨rfl, fun _ _ ↦ rfl⟩) rfl horder.1
      horder.2, rfl⟩, fun _ _ ↦ rfl⟩
  | mapFileAppears name file =>
    simp only [step] at h
    cases hfiles : directory? root name with
    | none => simp [hfiles] at h
    | some files =>
      simp only [hfiles] at h
      split_ifs at h with hexists
      cases h
      rw [hroot.mapExists_eq, hroot.contents_isSome] at hexists
      obtain ⟨files', stored, hfiles', hrecord, hstored⟩ := hroot.files hexists
      cases hfiles.symm.trans hfiles'
      have hread := (record_eq_some.mp hrecord).1
      have hrecord' : record settings name (Function.update files "map.pcd" (some file)) =
          some { stored with mapFile := some file } := by
        apply record_eq_some.mpr
        refine ⟨(readMetadata_congr ?_).trans hread, by simp⟩
        simp
      refine ⟨hroot.insert (hroot.valid hexists) (by rw [hrecord']; rfl), ⟨stored, hstored, ?_⟩,
        hothers fun other hother ↦ Finmap.lookup_insert_of_ne root hother⟩
      rw [contents_insert, hrecord']

/-- A call creates or deletes a name exactly when it adds it to or takes it from the finite map. -/
theorem live_of_answers {mapFrame : String} {maps maps' : Maps} {call : Call} {reply : Reply}
    {history : List (Call × Reply)} (h : Answers mapFrame maps maps' call reply)
    (hlive : live history = fun name ↦ (maps name).isSome) :
    live ((call, reply) :: history) = fun name ↦ (maps' name).isSome := by
  have hupdate : ∀ (name : String) (kept : Option Record),
      maps' = Function.update maps name kept →
      (fun other ↦ (maps' other).isSome) = Function.update (live history) name kept.isSome := by
    rintro name kept rfl
    rw [hlive]
    funext other
    by_cases hsame : other = name
    · subst hsame
      simp
    · simp [hsame]
  have hkept : maps' = maps → live history = fun name ↦ (maps' name).isSome := by
    rintro rfl
    exact hlive
  have hreplaced : ∀ (name : String) (stored kept : Record), maps name = some stored →
      maps' = Function.update maps name (some kept) →
      live history = fun other ↦ (maps' other).isSome := by
    intro name stored kept hstored hmaps
    rw [hupdate name _ hmaps, eq_comm, Function.update_eq_self_iff, hlive]
    simp [hstored]
  cases call <;> cases reply <;> try exact h.elim
  case createMap.metadata name utcNow fault result =>
    rw [Answers] at h
    split_ifs at h with hcreates
    · obtain ⟨rfl, hmaps⟩ := h
      exact (hupdate name _ hmaps).symm
    · cases result with
      | ok metadata => cases h.1
      | error what => exact hkept h.2
  case deleteMap.deleted name removeError result =>
    rw [Answers] at h
    split_ifs at h with hdeletes
    · obtain ⟨rfl, hmaps⟩ := h
      exact (hupdate name none hmaps).symm
    · cases result with
      | ok => cases h.1
      | error what => exact hkept h.2
  case markMapSaved.metadata name utcNow fault result =>
    obtain ⟨stored, hstored, _, _, _, hmaps⟩ | ⟨_, _, hmaps⟩ := h
    · exact hreplaced name stored _ hstored hmaps
    · exact hkept hmaps
  case loadMap.path name result => exact hkept h.2
  case mapExists.known name known => exact hkept h.2
  case listMaps.maps order result => exact hkept h.2
  case mapFileAppears.nothing name file =>
    obtain ⟨stored, hstored, hmaps⟩ := h
    exact hreplaced name stored _ hstored hmaps

theorem represented_of_runs {settings : Settings} {root : Root} {history : List (Call × Reply)}
    (hruns : Runs settings root history) :
    Represented settings root ∧ live history = fun name ↦ (contents settings root name).isSome := by
  induction hruns with
  | empty =>
    constructor
    · intro name entry hentry
      simp at hentry
    · funext name
      simp [live, contents, directory?]
  | call hbefore hstep ih =>
    obtain ⟨hroot, hanswer, _⟩ := step_refines ih.1 hstep
    exact ⟨hroot, live_of_answers hanswer ih.2⟩

/-- Over every sequence of calls the store behaves as a finite map keyed by name: the names in it
are those created and not deleted since, every further call is answered from it, and a call about
one name changes nothing under another. -/
theorem runs_refine {settings : Settings} {root : Root} {history : List (Call × Reply)}
    (hruns : Runs settings root history) :
    (∀ name, live history name = (contents settings root name).isSome) ∧
      ∀ (call : Call) (root' : Root) (reply : Reply),
        step settings root call = some (root', reply) →
        Answers settings.mapFrame (contents settings root) (contents settings root') call reply ∧
        ∀ other, call.name? ≠ some other → root'.lookup other = root.lookup other := by
  obtain ⟨hroot, hlive⟩ := represented_of_runs hruns
  refine ⟨fun name ↦ congrFun hlive name, ?_⟩
  intro call root' reply hstep
  obtain ⟨_, hanswer, hothers⟩ := step_refines hroot hstep
  exact ⟨hanswer, hothers⟩

/-- A map is created, its file appears, saving it fails once and then succeeds. -/
theorem runs_refine_saved :
    ∃ root history, Runs {} root history ∧
      (∀ name, live history name = (contents {} root name).isSome) ∧
      ∀ (call : Call) (root' : Root) (reply : Reply), step {} root call = some (root', reply) →
        Answers "map" (contents {} root) (contents {} root') call reply ∧
        ∀ other, call.name? ≠ some other → root'.lookup other = root.lookup other := by
  have hcreated : Runs {} _ _ := .call .empty
    (rfl : step {} ∅ (.createMap "lab" "2024-01-01T00:00:00Z" none) = some (_, _))
  have happeared : Runs {} _ _ := .call hcreated
    (rfl : step {} _ (.mapFileAppears "lab" (.regular ⟨[1], .error "bad file"⟩)) = some (_, _))
  have hfailed : Runs {} _ _ := .call happeared
    (rfl : step {} _ (.markMapSaved "lab" "2024-01-01T00:00:01Z"
      (some (.rename "Read-only file system"))) = some (_, _))
  have hsaved : Runs {} _ _ := .call hfailed
    (rfl : step {} _ (.markMapSaved "lab" "2024-01-01T00:00:02Z" none) = some (_, _))
  exact ⟨_, _, hsaved, runs_refine hsaved⟩

end SlamSystemManager.MapFiles
