import SlamSystemManager.MapFiles

/-!
# The store of directories and the directory tree

The services run over `MapStore`, where the files of a directory are already read. Every operation
of the store is the operation on the tree, seen through `view`; a write fails in the one when it
fails in the other.
-/

namespace SlamSystemManager.MapFiles

open MapManager

def viewEntry (readPose : Option FileEntry → Option (Except String LastPoseFile)) (name : String) :
    Entry → RootEntry
  | .directory files => .directory (view readPose name files)
  | .other => .other

/-- The store is the tree with its files read. -/
def Views (readPose : Option FileEntry → Option (Except String LastPoseFile)) (root : Root)
    (store : MapStore) : Prop :=
  ∀ name, store.lookup name = (root.lookup name).map (viewEntry readPose name)

section Views

variable {settings : Settings} {root : Root} {store : MapStore}
  {readPose : Option FileEntry → Option (Except String LastPoseFile)}

theorem Views.mem_iff (h : Views readPose root store) (name : String) :
    name ∈ store ↔ name ∈ root := by
  rw [← Finmap.lookup_isSome, ← Finmap.lookup_isSome, h name, Option.isSome_map]

theorem Views.directory?_eq (h : Views readPose root store) (name : String) :
    MapManager.directory? store name = (directory? root name).map (view readPose name) := by
  unfold MapManager.directory? directory?
  rw [h name]
  cases root.lookup name with
  | none => rfl
  | some entry => cases entry <;> rfl

theorem Views.insert (h : Views readPose root store) (name : String) (files : Directory) :
    Views readPose (root.insert name (.directory files))
      (store.insert name (.directory (view readPose name files))) := by
  intro other
  by_cases hsame : other = name
  · subst hsame
    simp [viewEntry]
  · rw [Finmap.lookup_insert_of_ne _ hsame, Finmap.lookup_insert_of_ne _ hsame]
    exact h other

/-- Files the store does not read may change. -/
theorem Views.insert_of_view (h : Views readPose root store) {name : String}
    {files files' : Directory} (hfiles : directory? root name = some files)
    (hview : view readPose name files' = view readPose name files) :
    Views readPose (root.insert name (.directory files')) store := by
  intro other
  by_cases hsame : other = name
  · subst hsame
    have hlookup : root.lookup other = some (.directory files) := by
      revert hfiles
      unfold directory?
      cases root.lookup other with
      | none => simp
      | some entry => cases entry <;> simp
    rw [h other, hlookup, Finmap.lookup_insert]
    simp only [Option.map_some, viewEntry, hview]
  · rw [Finmap.lookup_insert_of_ne _ hsame]
    exact h other

theorem Views.erase (h : Views readPose root store) (name : String) :
    Views readPose (root.erase name) (store.erase name) := by
  intro other
  by_cases hsame : other = name
  · subst hsame
    simp
  · rw [Finmap.lookup_erase_ne hsame, Finmap.lookup_erase_ne hsame]
    exact h other

theorem readMetadata_view (settings : Settings) (name : String) (files : Directory) :
    MapManager.readMetadata settings.root name (view readPose name files) =
      readMetadata settings name files :=
  rfl

theorem view_eq_of_documents {name : String} {files files' : Directory}
    (hyaml : files' "metadata.yaml" = files "metadata.yaml")
    (hmap : files' "map.pcd" = files "map.pcd")
    (hpose : files' "last_pose.yaml" = files "last_pose.yaml") :
    view readPose name files' = view readPose name files := by
  simp [view, hyaml, hmap, hpose]

theorem createMap_views (h : Views readPose root store) (hpose : readPose none = none)
    (utcNow name : String) (fault : Option WriteFault) :
    ∃ writeError : Option String, writeError.isSome = fault.isSome ∧
      Views readPose (createMap settings utcNow fault root name).1
        (MapManager.createMap settings.mapFrame utcNow none writeError store name).1 ∧
      (MapManager.createMap settings.mapFrame utcNow none writeError store name).2 =
        (createMap settings utcNow fault root name).2.map fun _ ↦ () := by
  obtain ⟨hothers, hwrite⟩ := writeMetadata_cases settings name fault (fun _ ↦ none)
    (newMetadata settings.mapFrame name utcNow)
  generalize hwritten : writeMetadata settings name fault (fun _ ↦ none)
    (newMetadata settings.mapFrame name utcNow) = written at hothers hwrite
  obtain ⟨files, outcome⟩ := written
  by_cases hrefused : isValidMapName name = false ∨ name ∈ root
  · -- nothing is written
    refine ⟨fault.map fun _ ↦ "", by simp, ?_⟩
    unfold createMap MapManager.createMap mapDirectory
    by_cases hvalid : isValidMapName name = true
    · have hmem : name ∈ root := hrefused.resolve_left (by simp [hvalid])
      simp only [hvalid, if_true, hmem, (h.mem_iff name).mpr hmem]
      exact ⟨h, rfl⟩
    · simp only [hvalid]
      exact ⟨h, rfl⟩
  · rw [not_or, Bool.not_eq_false] at hrefused
    obtain ⟨hvalid, hmem⟩ := hrefused
    have hstore : name ∉ store := fun hmember ↦ hmem ((h.mem_iff name).mp hmember)
    obtain ⟨hnone, hok, hyaml⟩ | ⟨hsome, ⟨what, herror⟩, _⟩ := hwrite
    · simp only at hok hothers hyaml
      subst hok
      have hview : view readPose name files =
          newDirectory settings.mapFrame name utcNow := by
        simp only [view, hyaml, hothers "map.pcd" (by decide) (by decide),
          hothers "last_pose.yaml" (by decide) (by decide), parseMetadata_document, hpose]
        rfl
      refine ⟨none, by rw [Option.isNone_iff_eq_none.mp hnone]; rfl, ?_⟩
      unfold createMap MapManager.createMap mapDirectory
      simp only [hvalid, if_true, hmem, hstore, if_false, hwritten]
      rw [← hview]
      exact ⟨h.insert name files, rfl⟩
    · simp only at herror
      subst herror
      refine ⟨some what, by rw [hsome]; rfl, ?_⟩
      unfold createMap MapManager.createMap mapDirectory
      simp only [hvalid, if_true, hmem, hstore, if_false, hwritten, erase_insert_of_notMem hmem]
      exact ⟨h, rfl⟩

/-- A deletion that fails before it has removed anything. -/
theorem deleteMap_views (h : Views readPose root store) (removeError : Option String)
    (name : String) :
    Views readPose (deleteMap removeError root name).1
        (MapManager.deleteMap {} removeError store name).1 ∧
      (MapManager.deleteMap {} removeError store name).2 = (deleteMap removeError root name).2 := by
  unfold deleteMap MapManager.deleteMap mapDirectory
  by_cases hvalid : isValidMapName name = true
  · simp only [hvalid, if_true, h.directory?_eq]
    cases directory? root name with
    | none => exact ⟨h, rfl⟩
    | some files =>
      cases removeError with
      | some what => exact ⟨by rwa [MapManager.updateDirectory_leave_nothing], rfl⟩
      | none => exact ⟨h.erase name, rfl⟩
  · simp only [hvalid]
    exact ⟨h, rfl⟩

theorem mapExists_views (h : Views readPose root store) (name : String) :
    MapManager.mapExists store name = mapExists root name := by
  unfold MapManager.mapExists mapExists
  rw [h.directory?_eq]
  cases directory? root name with
  | none => rfl
  | some files =>
    simp only [Option.map_some, Option.any_some, view]
    cases files "metadata.yaml" with
    | none => rfl
    | some file => cases file <;> rfl

theorem loadMap_views (h : Views readPose root store) (name : String) :
    MapManager.loadMap settings.root store name = loadMap settings root name := by
  unfold MapManager.loadMap loadMap mapDirectory
  by_cases hvalid : isValidMapName name = true
  · simp only [hvalid, if_true, Bind.bind, Except.bind, h.directory?_eq]
    cases directory? root name with
    | none => rfl
    | some files =>
      have hyaml : (view readPose name files).metadata.isNone =
          !(regularBytes (files "metadata.yaml")).isSome := by
        simp only [view]
        cases files "metadata.yaml" with
        | none => rfl
        | some file => cases file <;> rfl
      have hpcd : (view readPose name files).mapPcd.isNone =
          !(regularBytes (files "map.pcd")).isSome := by
        simp only [view]
        cases files "map.pcd" with
        | none => rfl
        | some file => cases file <;> rfl
      simp only [Option.map_some, Option.getD_some, readMetadata_view settings, hyaml, hpcd]
      cases (regularBytes (files "metadata.yaml")).isSome with
      | false => rfl
      | true =>
        cases hread : readMetadata settings name files with
        | error what => rfl
        | ok metadata =>
          simp only [(readMetadata_eq_ok hread).2.2.2.1]
          cases (regularBytes (files "map.pcd")).isSome <;> rfl
  · simp only [hvalid]
    rfl

theorem markMapSaved_views (h : Views readPose root store) (utcNow name : String)
    (fault : Option WriteFault) :
    ∃ writeError : Option String, writeError.isSome = fault.isSome ∧
      Views readPose (markMapSaved settings utcNow fault root name).1
        (MapManager.markMapSaved settings.root utcNow writeError store name).1 ∧
      (MapManager.markMapSaved settings.root utcNow writeError store name).2 =
        (markMapSaved settings utcNow fault root name).2.map fun _ ↦ () := by
  by_cases hvalid : isValidMapName name = true
  · cases hfiles : directory? root name with
    | none =>
      refine ⟨fault.map fun _ ↦ "", by simp, ?_⟩
      obtain ⟨what, hread⟩ := readMetadata_empty settings name
      have hreadAbove : MapManager.readMetadata settings.root name {} = .error what := hread
      unfold markMapSaved MapManager.markMapSaved mapDirectory
      simp only [hvalid, if_true, Bind.bind, Except.bind, h.directory?_eq, hfiles,
        Option.map_none, Option.getD_none, hread, hreadAbove]
      exact ⟨h, rfl⟩
    | some files =>
      cases hread : readMetadata settings name files with
      | error what =>
        refine ⟨fault.map fun _ ↦ "", by simp, ?_⟩
        unfold markMapSaved MapManager.markMapSaved mapDirectory
        simp only [hvalid, if_true, Bind.bind, Except.bind, h.directory?_eq, hfiles,
          Option.map_some, Option.getD_some, readMetadata_view, hread]
        exact ⟨h, rfl⟩
      | ok metadata =>
        have hpcd : files metadata.mapFile = files "map.pcd" := by
          rw [(readMetadata_eq_ok hread).2.2.2.1]
        have hbytes : (view readPose name files).mapPcd = regularBytes (files "map.pcd") := by
          simp only [view]
          cases files "map.pcd" with
          | none => rfl
          | some file => cases file <;> rfl
        by_cases hempty : (regularBytes (files "map.pcd")).getD [] = []
        · refine ⟨fault.map fun _ ↦ "", by simp, ?_⟩
          unfold markMapSaved MapManager.markMapSaved mapDirectory
          simp only [hvalid, if_true, Bind.bind, Except.bind, h.directory?_eq, hfiles,
            Option.map_some, Option.getD_some, readMetadata_view, hread, hpcd, hbytes, hempty]
          exact ⟨h, rfl⟩
        · obtain ⟨hothers, hwrite⟩ := writeMetadata_cases settings name fault files
            { metadata with updatedAt := utcNow }
          generalize hwritten : writeMetadata settings name fault files
            { metadata with updatedAt := utcNow } = written at hothers hwrite
          obtain ⟨files', outcome⟩ := written
          have hmap : files' "map.pcd" = files "map.pcd" := hothers _ (by decide) (by decide)
          have hpose : files' "last_pose.yaml" = files "last_pose.yaml" :=
            hothers _ (by decide) (by decide)
          obtain ⟨hnone, hok, hyaml⟩ | ⟨hsome, ⟨what, herror⟩, hyaml⟩ := hwrite
          · simp only at hok hyaml hmap hpose
            subst hok
            have hview : view readPose name files' =
                { view readPose name files with
                  metadata := some (.ok { metadata with updatedAt := utcNow }) } := by
              simp only [view, hyaml, hmap, hpose, parseMetadata_document]
            refine ⟨none, by rw [Option.isNone_iff_eq_none.mp hnone]; rfl, ?_⟩
            unfold markMapSaved MapManager.markMapSaved mapDirectory
            simp only [hvalid, if_true, Bind.bind, Except.bind, h.directory?_eq, hfiles,
              Option.map_some, Option.getD_some, readMetadata_view, hread, hpcd, hbytes, hempty,
              if_false, hwritten]
            have hstored := h.insert name files'
            rw [hview] at hstored
            exact ⟨hstored, rfl⟩
          · simp only at herror hyaml hmap hpose
            subst herror
            have hview : view readPose name files' = view readPose name files :=
              view_eq_of_documents hyaml hmap hpose
            refine ⟨some what, by rw [hsome]; rfl, ?_⟩
            unfold markMapSaved MapManager.markMapSaved mapDirectory
            simp only [hvalid, if_true, Bind.bind, Except.bind, h.directory?_eq, hfiles,
              Option.map_some, Option.getD_some, readMetadata_view, hread, hpcd, hbytes, hempty,
              if_false, hwritten]
            exact ⟨h.insert_of_view hfiles hview, rfl⟩
  · refine ⟨fault.map fun _ ↦ "", by simp, ?_⟩
    unfold markMapSaved MapManager.markMapSaved mapDirectory
    simp only [hvalid]
    exact ⟨h, rfl⟩

end Views

end SlamSystemManager.MapFiles
