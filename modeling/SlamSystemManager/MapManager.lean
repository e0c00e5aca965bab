import Mathlib.Data.Finmap
import SlamSystemManager.Messages

/-!
# The map store

`MapManager` over the entries of its root directory. What a directory holds is limited to the
files the manager reads or writes: `metadata.yaml`, `map.pcd` and `last_pose.yaml`. An operation
of the file system that may fail takes its error text as an argument, `none` meaning success;
`create_directory` and `rename` either happen completely or not at all, and a `remove_all` that
fails may have removed any of the files before.
-/

open Numeric

namespace SlamSystemManager

/-- The contents of `metadata.yaml`. -/
structure MapMetadata where
  name : String
  createdAt : String
  updatedAt : String
  mapFile : String := "map.pcd"
  frameId : String
  deriving DecidableEq

/-- The contents of `last_pose.yaml`. -/
structure LastPoseFile where
  frameId : String
  pose : Pose Double
  deriving DecidableEq

/-- A directory of the root. A YAML file is absent, unreadable with an error text, or read. -/
structure MapDirectory where
  metadata : Option (Except String MapMetadata) := none
  mapPcd : Option (List UInt8) := none
  lastPose : Option (Except String LastPoseFile) := none

inductive RootEntry where
  | directory (contents : MapDirectory)
  | other

abbrev MapStore := Finmap fun _ : String ↦ RootEntry

namespace MapManager

/-- One character of `[A-Za-z0-9]`. -/
def isNameHead (c : Char) : Bool := c.isAlphanum

/-- One character of `[A-Za-z0-9_-]`. -/
def isNameTail (c : Char) : Bool := c.isAlphanum || c = '_' || c = '-'

/-- `^[A-Za-z0-9][A-Za-z0-9_-]{0,63}$`. -/
def isValidMapName (name : String) : Bool :=
  match name.toList with
  | [] => false
  | head :: tail => isNameHead head && decide (tail.length ≤ 63) && tail.all isNameTail

def invalidNameMessage : String :=
  "Invalid map name. Use 1-64 ASCII letters, digits, '_' or '-', starting with a letter or digit"

/-- `mapDirectory` as the key of the directory: a valid name has no separator, so its directory
lies in the root. -/
def mapDirectory (name : String) : Except String String :=
  if isValidMapName name then .ok name else .error invalidNameMessage

/-- The path of a directory of the root, which is canonical. -/
def directoryPath (root name : String) : String :=
  (if root = "/" then "" else root) ++ "/" ++ name

def filePath (root name file : String) : String := directoryPath root name ++ "/" ++ file

/-- The directory stored under a name, if there is one. -/
def directory? (store : MapStore) (name : String) : Option MapDirectory :=
  match store.lookup name with
  | some (.directory contents) => some contents
  | _ => none

/-- `readMetadata`. -/
def readMetadata (root name : String) (contents : MapDirectory) : Except String MapMetadata :=
  match contents.metadata with
  | none => .error ("Unable to read map metadata for '" ++ name ++ "': bad file: " ++
      filePath root name "metadata.yaml")
  | some (.error what) => .error what
  | some (.ok metadata) =>
    if metadata.name ≠ name ∨ isValidMapName metadata.name = false then
      .error ("Map metadata name does not match its directory: " ++ name)
    else if metadata.mapFile ≠ "map.pcd" then
      .error ("Map metadata contains unsupported map_file: " ++ metadata.mapFile)
    else if metadata.frameId = "" then
      .error ("Map metadata frame_id must not be empty: " ++ metadata.name)
    else .ok metadata

/-- `getMapPath`. -/
def getMapPath (root name : String) : Except String String := do
  let directory ← mapDirectory name
  return filePath root directory "map.pcd"

def mapExists (store : MapStore) (name : String) : Bool :=
  isValidMapName name && (directory? store name).any fun contents ↦ contents.metadata.isSome

/-- What a new directory holds. -/
def newDirectory (mapFrame name utcNow : String) : MapDirectory :=
  { metadata := some (.ok
      { name := name, createdAt := utcNow, updatedAt := utcNow, frameId := mapFrame }) }

/-- `createMap`; a failed write removes the directory again. -/
def createMap (mapFrame utcNow : String) (createError writeError : Option String)
    (store : MapStore) (name : String) : MapStore × Except String Unit :=
  match mapDirectory name with
  | .error what => (store, .error what)
  | .ok directory =>
    if directory ∈ store then (store, .error ("Map already exists: " ++ name))
    else match createError with
      | some what => (store, .error ("Unable to create map directory: " ++ what))
      | none =>
        match writeError with
        | some what => (store, .error what)
        | none => (store.insert directory (.directory (newDirectory mapFrame name utcNow)), .ok ())

/-- Replaces the contents of a directory that exists. -/
def updateDirectory (store : MapStore) (name : String) (change : MapDirectory → MapDirectory) :
    MapStore :=
  match directory? store name with
  | none => store
  | some contents => store.insert name (.directory (change contents))

/-- The files that a failing `remove_all` has removed. -/
structure Removed where
  metadata : Bool := false
  mapPcd : Bool := false
  lastPose : Bool := false

def Removed.leave (removed : Removed) (contents : MapDirectory) : MapDirectory :=
  { metadata := if removed.metadata then none else contents.metadata
    mapPcd := if removed.mapPcd then none else contents.mapPcd
    lastPose := if removed.lastPose then none else contents.lastPose }

/-- `deleteMap`. -/
def deleteMap (removed : Removed) (removeError : Option String) (store : MapStore)
    (name : String) : MapStore × Except String Unit :=
  match mapDirectory name with
  | .error what => (store, .error what)
  | .ok directory =>
    match directory? store directory with
    | none => (store, .error ("Map not found: " ++ name))
    | some _ =>
      match removeError with
      | some what =>
        (updateDirectory store directory removed.leave,
          .error ("Unable to delete map '" ++ name ++ "': " ++ what))
      | none => (store.erase directory, .ok ())

/-- `loadMap`. -/
def loadMap (root : String) (store : MapStore) (name : String) : Except String String := do
  let directory ← mapDirectory name
  match directory? store directory with
  | none => throw ("Map metadata not found: " ++ name)
  | some contents =>
    if contents.metadata.isNone then throw ("Map metadata not found: " ++ name)
    let metadata ← readMetadata root directory contents
    if contents.mapPcd.isNone then
      throw ("Map PCD file not found: " ++ filePath root directory metadata.mapFile)
    return filePath root directory metadata.mapFile

/-- `markMapSaved`. -/
def markMapSaved (root utcNow : String) (writeError : Option String) (store : MapStore)
    (name : String) : MapStore × Except String Unit :=
  let result : Except String (String × MapDirectory × MapMetadata) := do
    let directory ← mapDirectory name
    let contents := (directory? store directory).getD {}
    let metadata ← readMetadata root directory contents
    if contents.mapPcd.getD [] = [] then
      throw ("Saved map PCD is missing or empty: " ++ filePath root directory metadata.mapFile)
    match writeError with
    | some what => throw what
    | none => return (directory, contents, { metadata with updatedAt := utcNow })
  match result with
  | .error what => (store, .error what)
  | .ok (directory, contents, metadata) =>
    (store.insert directory (.directory { contents with metadata := some (.ok metadata) }), .ok ())

/-- The map file stored under a name, if there is one. -/
def output? (store : MapStore) (name : String) : Option (List UInt8) :=
  (directory? store name).bind MapDirectory.mapPcd

/-! ## What the operations do to the directories -/

theorem directory?_insert (store : MapStore) (name other : String) (contents : MapDirectory) :
    directory? (store.insert name (.directory contents)) other =
      if other = name then some contents else directory? store other := by
  unfold directory?
  by_cases hsame : other = name
  · subst hsame
    simp
  · simp [hsame]

theorem directory?_erase (store : MapStore) (name other : String) :
    directory? (store.erase name) other =
      if other = name then none else directory? store other := by
  unfold directory?
  by_cases hsame : other = name
  · subst hsame
    simp
  · simp [hsame]

theorem directory?_updateDirectory (store : MapStore) (name other : String)
    (change : MapDirectory → MapDirectory) :
    directory? (updateDirectory store name change) other =
      if other = name then (directory? store name).map change else directory? store other := by
  unfold updateDirectory
  cases hname : directory? store name with
  | none =>
    by_cases hsame : other = name
    · simp [hsame, hname]
    · simp [hsame]
  | some contents =>
    rw [directory?_insert]
    rfl

theorem directory?_none_of_notMem {store : MapStore} {name : String} (h : name ∉ store) :
    directory? store name = none := by
  simp [directory?, Finmap.lookup_eq_none.mpr h]

theorem mapExists_insert (store : MapStore) {name : String} {contents : MapDirectory}
    (hvalid : isValidMapName name = true) (hmetadata : contents.metadata.isSome = true) :
    mapExists (store.insert name (.directory contents)) =
      Function.update (mapExists store) name true := by
  funext other
  unfold mapExists
  rw [directory?_insert]
  by_cases hsame : other = name
  · subst hsame
    simp [hvalid, hmetadata]
  · simp [hsame]

theorem mapExists_erase (store : MapStore) (name : String) :
    mapExists (store.erase name) = Function.update (mapExists store) name false := by
  funext other
  unfold mapExists
  rw [directory?_erase]
  by_cases hsame : other = name
  · subst hsame
    simp
  · simp [hsame]

/-- No other map is known after a change of one directory. -/
theorem mapExists_updateDirectory_of_ne (store : MapStore) {name other : String}
    (change : MapDirectory → MapDirectory) (hother : other ≠ name) :
    mapExists (updateDirectory store name change) other = mapExists store other := by
  unfold mapExists
  rw [directory?_updateDirectory, if_neg hother]

theorem updateDirectory_leave_nothing (store : MapStore) (name : String) :
    updateDirectory store name ({} : Removed).leave = store := by
  unfold updateDirectory directory?
  cases hlookup : store.lookup name with
  | none => rfl
  | some entry =>
    cases entry with
    | other => rfl
    | directory contents =>
      apply Finmap.ext_lookup
      intro other
      by_cases hsame : other = name
      · subst hsame
        rw [Finmap.lookup_insert, hlookup]
        rfl
      · rw [Finmap.lookup_insert_of_ne _ hsame]

/-- A part of a directory is a map only if the directory was. -/
theorem mapExists_leave (store : MapStore) (name : String) (removed : Removed) :
    mapExists (updateDirectory store name removed.leave) = mapExists store ∨
      mapExists (updateDirectory store name removed.leave) =
        Function.update (mapExists store) name false := by
  cases hmetadata : removed.metadata with
  | false =>
    left
    funext other
    unfold mapExists
    rw [directory?_updateDirectory]
    by_cases hsame : other = name
    · subst hsame
      cases directory? store other <;> simp [Removed.leave, hmetadata]
    · simp [hsame]
  | true =>
    right
    funext other
    by_cases hsame : other = name
    · subst hsame
      rw [Function.update_self, mapExists, directory?_updateDirectory, if_pos rfl]
      cases directory? store other <;> simp [Removed.leave, hmetadata]
    · rw [Function.update_of_ne hsame, mapExists_updateDirectory_of_ne _ _ hsame]

/-- A map is known by its metadata alone. -/
theorem mapExists_updateDirectory (store : MapStore) (name : String)
    {change : MapDirectory → MapDirectory}
    (hkeeps : ∀ contents, (change contents).metadata.isSome = contents.metadata.isSome) :
    mapExists (updateDirectory store name change) = mapExists store := by
  funext other
  unfold mapExists
  rw [directory?_updateDirectory]
  by_cases hsame : other = name
  · subst hsame
    cases directory? store other <;> simp [hkeeps]
  · simp [hsame]

theorem createMap_cases {mapFrame utcNow : String} {createError writeError : Option String}
    {store store' : MapStore} {name : String} {result : Except String Unit}
    (h : createMap mapFrame utcNow createError writeError store name = (store', result)) :
    (store' = store ∧ ∃ what, result = .error what) ∨
      (result = .ok () ∧ isValidMapName name = true ∧ name ∉ store ∧
        store' = store.insert name (.directory (newDirectory mapFrame name utcNow))) := by
  unfold createMap mapDirectory at h
  by_cases hvalid : isValidMapName name = true
  · simp only [hvalid, if_true] at h
    split_ifs at h with hexists
    · cases h
      exact Or.inl ⟨rfl, _, rfl⟩
    · repeat' split at h
      all_goals cases h
      · exact Or.inl ⟨rfl, _, rfl⟩
      · exact Or.inl ⟨rfl, _, rfl⟩
      · exact Or.inr ⟨rfl, hvalid, hexists, rfl⟩
  · simp only [hvalid] at h
    cases h
    exact Or.inl ⟨rfl, _, rfl⟩

/-- A deletion that fails leaves the store, or a part of the directory. -/
theorem deleteMap_cases {removed : Removed} {removeError : Option String} {store store' : MapStore}
    {name : String} {result : Except String Unit}
    (h : deleteMap removed removeError store name = (store', result)) :
    ((store' = store ∨ store' = updateDirectory store name removed.leave) ∧
        ∃ what, result = .error what) ∨
      (result = .ok () ∧ (directory? store name).isSome = true ∧ store' = store.erase name) := by
  unfold deleteMap mapDirectory at h
  by_cases hvalid : isValidMapName name = true
  · simp only [hvalid, if_true] at h
    repeat' split at h
    all_goals cases h
    · exact Or.inl ⟨Or.inl rfl, _, rfl⟩
    · exact Or.inl ⟨Or.inr rfl, _, rfl⟩
    · rename_i hsome _
      exact Or.inr ⟨rfl, by rw [hsome]; rfl, rfl⟩
  · simp only [hvalid] at h
    cases h
    exact Or.inl ⟨Or.inl rfl, _, rfl⟩

theorem metadata_of_readMetadata {root name : String} {contents : MapDirectory}
    {metadata : MapMetadata} (h : readMetadata root name contents = .ok metadata) :
    contents.metadata.isSome = true := by
  cases hmetadata : contents.metadata with
  | none =>
    simp only [readMetadata, hmetadata] at h
    cases h
  | some => rfl

/-- Metadata that is accepted names the one map file the manager supports. -/
theorem mapFile_of_readMetadata {root name : String} {contents : MapDirectory}
    {metadata : MapMetadata} (h : readMetadata root name contents = .ok metadata) :
    metadata.mapFile = "map.pcd" := by
  unfold readMetadata at h
  split at h
  · cases h
  · cases h
  · split_ifs at h with hname hfile hframe
    cases h
    exact not_not.mp hfile

theorem markMapSaved_cases {root utcNow : String} {writeError : Option String}
    {store store' : MapStore} {name : String} {result : Except String Unit}
    (h : markMapSaved root utcNow writeError store name = (store', result)) :
    (store' = store ∧ ∃ what, result = .error what) ∨
      (result = .ok () ∧ mapExists store name = true ∧
        ∃ contents metadata, directory? store name = some contents ∧
        contents.mapPcd.getD [] ≠ [] ∧
        store' = store.insert name
          (.directory { contents with metadata := some (.ok metadata) })) := by
  unfold markMapSaved mapDirectory at h
  by_cases hvalid : isValidMapName name = true
  · cases hdirectory : directory? store name with
    | none =>
      simp only [hvalid, if_true, Bind.bind, Except.bind, hdirectory, Option.getD_none,
        readMetadata]
        at h
      cases h
      exact Or.inl ⟨rfl, _, rfl⟩
    | some contents =>
      simp only [hvalid, if_true, Bind.bind, Except.bind, hdirectory, Option.getD_some] at h
      cases hmetadata : readMetadata root name contents with
      | error what =>
        simp only [hmetadata] at h
        cases h
        exact Or.inl ⟨rfl, _, rfl⟩
      | ok metadata =>
        simp only [hmetadata] at h
        by_cases hempty : contents.mapPcd.getD [] = []
        · simp only [hempty, if_true] at h
          cases h
          exact Or.inl ⟨rfl, _, rfl⟩
        · simp only [hempty, if_false] at h
          cases writeError with
          | some what =>
            cases h
            exact Or.inl ⟨rfl, _, rfl⟩
          | none =>
            cases h
            have hknown : mapExists store name = true := by
              simp [mapExists, hvalid, hdirectory, metadata_of_readMetadata hmetadata]
            exact Or.inr ⟨rfl, hknown, contents, _, rfl, hempty, rfl⟩
  · simp only [hvalid, Bind.bind, Except.bind] at h
    cases h
    exact Or.inl ⟨rfl, _, rfl⟩

theorem getMapPath_of_valid {root name : String} (h : isValidMapName name = true) :
    getMapPath root name = .ok (filePath root name "map.pcd") := by
  simp [getMapPath, mapDirectory, h, Bind.bind, Except.bind, pure, Except.pure]

theorem ne_empty_of_isValidMapName {name : String} (h : isValidMapName name = true) :
    name ≠ "" := by
  rintro rfl
  revert h
  decide

theorem valid_of_loadMap {root : String} {store : MapStore} {name path : String}
    (h : loadMap root store name = .ok path) : isValidMapName name = true := by
  by_contra hinvalid
  simp [loadMap, mapDirectory, hinvalid, Bind.bind, Except.bind] at h

end MapManager

end SlamSystemManager
