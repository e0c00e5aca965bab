import SlamSystemManager.MapFiles

/-!
# Listing maps whose metadata may be bad

Any root, not only one that calls have filled: `listMaps` passes over the entries `mapExists` does
not know and reads the metadata of every other. The exception of one that is not accepted leaves
the scan, the service and the constructor, and so does that of a status that cannot be read, which
may be the status of an entry that is no map.
-/

namespace SlamSystemManager.MapFiles

open MapManager

structure GetMapListResponse where
  success : Bool := false
  mapNames : List String := []
  message : String
  deriving DecidableEq

/-- `handleGetMapList`. -/
def handleGetMapList (maps : Except String (List MapMetadata)) : GetMapListResponse :=
  match maps with
  | .ok maps =>
    { success := true
      mapNames := maps.map MapMetadata.name
      message := "Found " ++ toString maps.length ++ " map(s)" }
  | .error what => { message := what }

/-- The constructor after its first scan: it goes on, or leaves the error fields and rethrows. -/
inductive StartUp where
  | found (maps : ℕ)
  | aborted (errorCode errorMessage : String)
  deriving DecidableEq

def startUp (maps : Except String (List MapMetadata)) : StartUp :=
  match maps with
  | .ok maps => .found maps.length
  | .error what => .aborted "MAP_ROOT_INIT_FAILED" what

/-- The metadata of every map the root knows is accepted. -/
def Consistent (settings : Settings) (root : Root) : Prop :=
  ∀ name, mapExists root name = true → (contents settings root name).isSome = true

/-- The maps with accepted metadata, each once and in the order of their names; a name is listed
when `mapExists` knows it. -/
structure Lists (settings : Settings) (root : Root) (listed : List MapMetadata) : Prop where
  increasing : (listed.map MapMetadata.name).Pairwise (· < ·)
  mem_iff : ∀ name metadata, metadata ∈ listed ∧ metadata.name = name ↔
    (contents settings root name).map Record.metadata = some metadata
  known_iff : ∀ name, mapExists root name = true ↔ name ∈ listed.map MapMetadata.name

/-- The iteration goes through, and every status it asks for can be read. -/
structure Readable (faults : ScanFaults) (root : Root) : Prop where
  answered : ∀ name ∈ root, faults.Answered root name
  iteration : faults.iteration = none

/-- What an entry makes the scan throw: its own status cannot be read, or, in a directory with a
valid name, that of the metadata, or the metadata is not accepted. -/
inductive Throws (settings : Settings) (faults : ScanFaults) (root : Root) (name : String) :
    String → Prop
  | isDirectory {what : String} (hstatus : faults.isDirectory name = some what) :
    Throws settings faults root name what
  | isRegularFile {what : String} (hdirectory : faults.isDirectory name = none)
    (hfiles : (directory? root name).isSome = true) (hvalid : isValidMapName name = true)
    (hstatus : faults.isRegularFile name = some what) : Throws settings faults root name what
  | metadata {what : String} {files : Directory} (hanswered : faults.Answered root name)
    (hknown : mapExists root name = true) (hfiles : directory? root name = some files)
    (hread : readMetadata settings name files = .error what) :
    Throws settings faults root name what

/-- The first exception of a scan: that of the first entry that has one, or of the iteration. -/
def FirstThrown (settings : Settings) (faults : ScanFaults) (root : Root) (order : List String)
    (what : String) : Prop :=
  (∃ earlier name later, order = earlier ++ name :: later ∧
    (∀ other ∈ earlier, ∀ text, ¬ Throws settings faults root other text) ∧
    Throws settings faults root name what) ∨
  ((∀ other ∈ order, ∀ text, ¬ Throws settings faults root other text) ∧
    ∃ text, faults.iteration = some text ∧ what = "Unable to scan map root: " ++ text)

section Listing

variable {settings : Settings} {faults : ScanFaults} {root : Root}

/-- Accepted metadata makes the map known. -/
theorem mapExists_of_contents {name : String} (h : (contents settings root name).isSome = true) :
    mapExists root name = true := by
  obtain ⟨stored, hstored⟩ := Option.isSome_iff_exists.mp h
  obtain ⟨files, hlookup, hrecord⟩ := contents_eq_some.mp hstored
  obtain ⟨hfile, _, hvalid, _⟩ := readMetadata_eq_ok (record_eq_some.mp hrecord).1
  simp [mapExists, directory?, hlookup, hvalid, hfile]

theorem Consistent.mapExists_eq (h : Consistent settings root) (name : String) :
    mapExists root name = (contents settings root name).isSome := by
  rw [Bool.eq_iff_iff]
  exact ⟨h name, mapExists_of_contents⟩

/-- A map that is known has files, and its metadata is accepted or rejected with a text. -/
theorem files_of_mapExists (settings : Settings) {name : String} (h : mapExists root name = true) :
    ∃ files, directory? root name = some files ∧
      ((∃ metadata, readMetadata settings name files = .ok metadata) ∨
        contents settings root name = none ∧
          ∃ what, readMetadata settings name files = .error what) := by
  unfold mapExists at h
  rw [Bool.and_eq_true, Option.any_eq_true] at h
  obtain ⟨_, files, hfiles, _⟩ := h
  refine ⟨files, hfiles, ?_⟩
  cases hread : readMetadata settings name files with
  | ok metadata => exact Or.inl ⟨metadata, rfl⟩
  | error what =>
    right
    refine ⟨?_, what, rfl⟩
    simp [contents, hfiles, record, hread]

theorem lists_of_consistent (h : Consistent settings root) (hreadable : Readable faults root)
    {order : List String} (hnodup : order.Nodup) (hall : order.toFinset = root.keys) :
    ∃ listed, listMaps settings root order faults = .ok listed ∧ Lists settings root listed := by
  have hanswered : ∀ name ∈ order, faults.Answered root name := by
    intro name horder
    rw [← List.mem_toFinset, hall, Finmap.mem_keys] at horder
    exact hreadable.answered name horder
  obtain ⟨listed, hlisted, hsorted, hmem⟩ :=
    listMaps_eq_ok h.mapExists_eq hanswered hreadable.iteration hnodup hall
  refine ⟨listed, hlisted, hsorted, hmem, ?_⟩
  intro name
  rw [h.mapExists_eq name, Option.isSome_iff_exists, List.mem_map]
  constructor
  · rintro ⟨stored, hstored⟩
    exact ⟨stored.metadata, (hmem name stored.metadata).mpr (by rw [hstored]; rfl)⟩
  · rintro ⟨metadata, hmetadata⟩
    obtain ⟨stored, hstored, _⟩ := Option.map_eq_some_iff.mp ((hmem name metadata).mp hmetadata)
    exact ⟨stored, hstored⟩

/-- An entry whose status calls are answered is passed over, or its metadata is read. -/
theorem answered_or_throws (settings : Settings) (faults : ScanFaults) (root : Root)
    (name : String) :
    faults.Answered root name ∨ ∃ what, Throws settings faults root name what ∧
      scanEntry settings faults root name = .error what := by
  cases hstatus : faults.isDirectory name with
  | some what => exact Or.inr ⟨what, .isDirectory hstatus, by simp [scanEntry, hstatus]⟩
  | none =>
    by_cases hasked : (directory? root name).isSome = true ∧ isValidMapName name = true
    · obtain ⟨hfiles, hvalid⟩ := hasked
      cases hmetadata : faults.isRegularFile name with
      | none => exact Or.inl ⟨hstatus, fun _ _ ↦ hmetadata⟩
      | some what =>
        obtain ⟨files, hsome⟩ := Option.isSome_iff_exists.mp hfiles
        exact Or.inr ⟨what, .isRegularFile hstatus hfiles hvalid hmetadata,
          by simp [scanEntry, hstatus, hsome, hvalid, hmetadata]⟩
    · exact Or.inl ⟨hstatus, fun hfiles hvalid ↦ absurd ⟨hfiles, hvalid⟩ hasked⟩

/-- The body of the loop passes an entry, or throws what the entry makes it throw. -/
theorem scanEntry_cases (settings : Settings) (faults : ScanFaults) (root : Root) (name : String) :
    ((∃ metadata, scanEntry settings faults root name = .ok metadata) ∧
        ∀ what, ¬ Throws settings faults root name what) ∨
      ∃ what, Throws settings faults root name what ∧
        scanEntry settings faults root name = .error what := by
  rcases answered_or_throws settings faults root name with hanswered | hthrows
  · have hmetadata {what : String} (h : Throws settings faults root name what) :
        mapExists root name = true ∧ ∃ files, directory? root name = some files ∧
          readMetadata settings name files = .error what := by
      cases h with
      | isDirectory hstatus => simp [hanswered.isDirectory] at hstatus
      | isRegularFile _ hfiles hvalid hstatus =>
        simp [hanswered.isRegularFile hfiles hvalid] at hstatus
      | metadata _ hknown hfiles hread => exact ⟨hknown, _, hfiles, hread⟩
    by_cases hknown : mapExists root name = true
    · obtain ⟨files, hfiles, ⟨metadata, hread⟩ | ⟨-, what, hread⟩⟩ :=
        files_of_mapExists settings hknown
      · refine Or.inl ⟨⟨some metadata, ?_⟩, fun what hthrows ↦ ?_⟩
        · rw [scanEntry_of_known hanswered hknown, hfiles, Option.getD_some, hread]
          rfl
        · obtain ⟨-, others, hother, herror⟩ := hmetadata hthrows
          rw [hfiles, Option.some_inj] at hother
          rw [← hother, hread] at herror
          cases herror
      · refine Or.inr ⟨what, .metadata hanswered hknown hfiles hread, ?_⟩
        rw [scanEntry_of_known hanswered hknown, hfiles, Option.getD_some, hread]
        rfl
    · exact Or.inl ⟨⟨none, scanEntry_of_unknown hanswered (by simpa using hknown)⟩,
        fun what hthrows ↦ hknown (hmetadata hthrows).1⟩
  · exact Or.inr hthrows

/-- The loop goes through where no entry throws, and ends with the first one that does. -/
theorem mapM_scanEntry_cases (settings : Settings) (faults : ScanFaults) (root : Root)
    (order : List String) :
    ((∃ maps, order.mapM (scanEntry settings faults root) = .ok maps) ∧
        ∀ other ∈ order, ∀ text, ¬ Throws settings faults root other text) ∨
      ∃ earlier name later what, order = earlier ++ name :: later ∧
        (∀ other ∈ earlier, ∀ text, ¬ Throws settings faults root other text) ∧
        Throws settings faults root name what ∧
        order.mapM (scanEntry settings faults root) = .error what := by
  induction order with
  | nil => exact Or.inl ⟨⟨[], rfl⟩, by simp⟩
  | cons first order ih =>
    rcases scanEntry_cases settings faults root first with
      ⟨⟨metadata, hfirst⟩, hpasses⟩ | ⟨what, hthrows, hfirst⟩
    · have hbefore {others : List String}
          (hothers : ∀ other ∈ others, ∀ text, ¬ Throws settings faults root other text) :
          ∀ other ∈ first :: others, ∀ text, ¬ Throws settings faults root other text := by
        intro other hmem
        rcases List.mem_cons.mp hmem with rfl | hmem
        · exact hpasses
        · exact hothers other hmem
      rcases ih with ⟨⟨maps, hscan⟩, hothers⟩ | ⟨earlier, name, later, what, rfl, hearlier,
        hthrows, hscan⟩
      · refine Or.inl ⟨⟨metadata :: maps, ?_⟩, hbefore hothers⟩
        rw [List.mapM_cons, hfirst, hscan]
        rfl
      · refine Or.inr ⟨first :: earlier, name, later, what, rfl, hbefore hearlier, hthrows, ?_⟩
        rw [List.mapM_cons, hfirst, hscan]
        rfl
    · refine Or.inr ⟨[], first, order, what, rfl, by simp, hthrows, ?_⟩
      rw [List.mapM_cons, hfirst]
      rfl

/-- A status that cannot be read and metadata that is not accepted make the scan throw. -/
theorem exists_throws {order : List String} (hall : order.toFinset = root.keys)
    (hiteration : faults.iteration = none)
    (h : ¬ (Readable faults root ∧ Consistent settings root)) :
    ∃ name ∈ order, ∃ what, Throws settings faults root name what := by
  by_contra hnone
  push Not at hnone
  have hpasses (name : String) (hmem : name ∈ root) : faults.Answered root name ∧
      ∀ what, ¬ Throws settings faults root name what := by
    have horder : name ∈ order := by rwa [← List.mem_toFinset, hall, Finmap.mem_keys]
    rcases answered_or_throws settings faults root name with hanswered | ⟨what, hthrows, -⟩
    · exact ⟨hanswered, hnone name horder⟩
    · exact absurd hthrows (hnone name horder what)
  refine h ⟨⟨fun name hmem ↦ (hpasses name hmem).1, hiteration⟩, fun name hknown ↦ ?_⟩
  obtain ⟨files, hfiles, ⟨metadata, hread⟩ | ⟨-, what, hread⟩⟩ :=
    files_of_mapExists settings hknown
  · simp [contents, hfiles, record, hread]
  · have hmem : name ∈ root := by
      rw [← Finmap.lookup_isSome]
      revert hfiles
      unfold directory?
      cases root.lookup name <;> simp
    obtain ⟨hanswered, hthrows⟩ := hpasses name hmem
    exact absurd (.metadata hanswered hknown hfiles hread) (hthrows what)

/-- `listMaps` throws the first exception of its scan. -/
theorem listMaps_of_thrown {order : List String}
    (hall : faults.iteration = none → order.toFinset = root.keys)
    (h : ¬ (Readable faults root ∧ Consistent settings root)) :
    ∃ what, FirstThrown settings faults root order what ∧
      listMaps settings root order faults = .error what := by
  rcases mapM_scanEntry_cases settings faults root order with
    ⟨⟨maps, hscan⟩, hpasses⟩ | ⟨earlier, name, later, what, horder, hearlier, hthrows, hscan⟩
  · cases hiteration : faults.iteration with
    | none =>
      obtain ⟨name, hmem, what, hthrows⟩ := exists_throws (hall hiteration) hiteration h
      exact absurd hthrows (hpasses name hmem what)
    | some text =>
      refine ⟨_, Or.inr ⟨hpasses, text, hiteration, rfl⟩, ?_⟩
      simp only [listMaps, hscan, hiteration, Bind.bind, Except.bind]
      rfl
  · refine ⟨what, Or.inl ⟨earlier, name, later, horder, hearlier, hthrows⟩, ?_⟩
    simp only [listMaps, hscan, Bind.bind, Except.bind]

end Listing

/-- For every content of the root, every order of the iteration and all file-system calls that fail:
where every status can be read and the metadata of every map is accepted the maps are listed, and
what is no map does not matter; otherwise the first exception fails the service and the start. -/
theorem maps_listed (settings : Settings) (faults : ScanFaults) (root : Root) (order : List String)
    (hnodup : order.Nodup) (hall : faults.iteration = none → order.toFinset = root.keys) :
    ((Readable faults root ∧ Consistent settings root) ∧
        ∃ listed, listMaps settings root order faults = .ok listed ∧ Lists settings root listed ∧
        handleGetMapList (listMaps settings root order faults) =
          { success := true, mapNames := listed.map MapMetadata.name,
            message := "Found " ++ toString listed.length ++ " map(s)" } ∧
        startUp (listMaps settings root order faults) = .found listed.length) ∨
      (¬ (Readable faults root ∧ Consistent settings root) ∧
        ∃ what, FirstThrown settings faults root order what ∧
        listMaps settings root order faults = .error what ∧
        handleGetMapList (listMaps settings root order faults) =
          { success := false, mapNames := [], message := what } ∧
        startUp (listMaps settings root order faults) = .aborted "MAP_ROOT_INIT_FAILED" what) := by
  by_cases hgood : Readable faults root ∧ Consistent settings root
  · obtain ⟨listed, hlisted, hlists⟩ :=
      lists_of_consistent hgood.2 hgood.1 hnodup (hall hgood.1.iteration)
    refine Or.inl ⟨hgood, listed, hlisted, hlists, ?_, ?_⟩
    · rw [hlisted]
      rfl
    · rw [hlisted]
      rfl
  · obtain ⟨what, hfirst, herror⟩ := listMaps_of_thrown hall hgood
    refine Or.inr ⟨hgood, what, hfirst, herror, ?_, ?_⟩
    · rw [herror]
      rfl
    · rw [herror]
      rfl

/-- The files of a map that has been created. -/
def labFiles : Directory := fun file ↦
  if file = "metadata.yaml" then
    some (.regular ⟨[0], .ok (document (newMetadata "map" "lab" "2024-01-01T00:00:00Z"))⟩)
  else none

/-- A map directory beside a plain file and a directory without metadata. -/
def mixedRoot : Root :=
  ((∅ : Root).insert "lab" (.directory labFiles)).insert "notes.txt" .other
    |>.insert "unmanaged" (.directory fun _ ↦ none)

theorem contents_labFiles {root : Root} (h : directory? root "lab" = some labFiles) :
    (contents {} root "lab").isSome = true := by
  have hread : readMetadata {} "lab" labFiles =
      .ok (newMetadata "map" "lab" "2024-01-01T00:00:00Z") :=
    readMetadata_of_document (newMetadata "map" "lab" "2024-01-01T00:00:00Z") (if_pos rfl)
      (by decide) rfl (by decide)
  simp [contents, h, record, hread]

theorem consistent_mixedRoot : Consistent {} mixedRoot := by
  intro name hknown
  obtain ⟨files, hfiles, _⟩ := files_of_mapExists {} hknown
  by_cases hlab : name = "lab"
  · subst hlab
    exact contents_labFiles (by simp [directory?, mixedRoot])
  · exfalso
    revert hknown
    unfold mixedRoot mapExists
    rw [directory?_insert]
    by_cases hunmanaged : name = "unmanaged"
    · simp [hunmanaged, regularBytes]
    · by_cases hnotes : name = "notes.txt"
      · subst hnotes
        simp [directory?]
      · simp [hunmanaged, hnotes, hlab, directory?]

/-- The one map of the mixed root is listed. -/
theorem maps_listed_mixedRoot :
    Consistent {} mixedRoot ∧ ∃ listed,
      listMaps {} mixedRoot ["unmanaged", "notes.txt", "lab"] = .ok listed ∧
        Lists {} mixedRoot listed ∧
        startUp (listMaps {} mixedRoot ["unmanaged", "notes.txt", "lab"]) =
          .found listed.length := by
  have hreadable : Readable {} mixedRoot := ⟨fun _ _ ↦ ⟨rfl, fun _ _ ↦ rfl⟩, rfl⟩
  refine ⟨consistent_mixedRoot, ?_⟩
  rcases maps_listed {} {} mixedRoot ["unmanaged", "notes.txt", "lab"] (by decide)
    (fun _ ↦ by ext name; simp [mixedRoot, Finmap.mem_keys, Finmap.notMem_empty]) with
    ⟨-, listed, hlisted, hlists, -, hstart⟩ | ⟨hbad, -⟩
  · exact ⟨listed, hlisted, hlists, hstart⟩
  · exact absurd ⟨hreadable, consistent_mixedRoot⟩ hbad

/-- A link to itself beside the map: its status is asked for before its name. -/
example : listMaps {} (mixedRoot.insert "loop" .other) ["lab", "loop"]
    { isDirectory := fun name ↦
        if name = "loop" then some "Too many levels of symbolic links" else none } =
      .error "Too many levels of symbolic links" := rfl

/-- A map beside one whose metadata the library cannot parse. -/
def corruptRoot : Root :=
  ((∅ : Root).insert "old" (.directory fun file ↦
      if file = "metadata.yaml" then some (.regular ⟨[58], .error "bad conversion"⟩) else none))
    |>.insert "lab" (.directory labFiles)

/-- The metadata of the one map is accepted, and yet nothing is listed: the service fails and the
constructor gives up. -/
theorem maps_hidden :
    (contents {} corruptRoot "lab").isSome = true ∧ mapExists corruptRoot "lab" = true ∧
      (¬ ∃ listed, listMaps {} corruptRoot ["lab", "old"] = .ok listed ∧
        Lists {} corruptRoot listed) ∧
      (handleGetMapList (listMaps {} corruptRoot ["lab", "old"])).success = false ∧
      startUp (listMaps {} corruptRoot ["lab", "old"]) =
        .aborted "MAP_ROOT_INIT_FAILED"
          "Unable to read map metadata for 'old': bad conversion" := by
  have hlab : (contents {} corruptRoot "lab").isSome = true :=
    contents_labFiles (by simp [directory?, corruptRoot])
  have hscan : listMaps {} corruptRoot ["lab", "old"] =
      .error "Unable to read map metadata for 'old': bad conversion" := rfl
  refine ⟨hlab, mapExists_of_contents hlab, ?_, ?_, ?_⟩
  · rintro ⟨listed, hlisted, _⟩
    rw [hscan] at hlisted
    cases hlisted
  · rw [hscan]
    rfl
  · rw [hscan]
    rfl

end SlamSystemManager.MapFiles
