import SlamSystemManager.Manager.MapInUse
import SlamSystemManager.Manager.Writes

/-!
# What a step does to the map store

The store is changed in few places: two handlers create a directory, two remove one, a start of
mapping that fails removes the one it has created, a save clears and then marks its output, the
mapping leader writes `map.pcd` and the save worker `last_pose.yaml`. Everything the later modules
say about the files of a map is derived from this inversion.
-/

open TransitionSystem

namespace SlamSystemManager.Manager

open MapManager

/-- The map whose directory a step of a handler may create. -/
def Handler.creates : Handler → Option String
  | .createMap name .create => some name
  | .startMapping name .create => some name
  | _ => none

/-- The map whose directory a step of a handler may remove. -/
def Handler.removes : Handler → Option String
  | .deleteMap name .remove => some name
  | .startMapping name .cleanup => some name
  | _ => none

theorem maps_transitionTo (s : Shared) (next : SystemState) :
    (s.transitionTo next).maps = s.maps := by
  unfold Shared.transitionTo
  split <;> rfl

/-- A footprint without the store leaves it alone. -/
theorem Writes.sameMaps {may : Write → Prop} {s s' : Shared} (h : Writes may s s')
    (hmay : ∀ maps, ¬ may (.maps maps)) : s'.maps = s.maps := by
  apply h.keeps Shared.maps
  intro write hwrite s
  cases write with
  | maps store => exact absurd hwrite (hmay store)
  | _ => rfl

/-- What a step of a handler does to the store. -/
inductive HandlerStore (config : Config) (handler : Handler) (before after : MapStore) : Prop
  | same (hsame : after = before)
  | create (name utcNow : String) (hcreates : handler.creates = some name)
    (hvalid : isValidMapName name = true) (hnew : name ∉ before)
    (hafter : after = before.insert name (.directory (newDirectory config.mapFrame name utcNow)))
  | remove (name : String) (hremoves : handler.removes = some name)
    (hexists : (directory? before name).isSome = true) (hafter : after = before.erase name)
  | leave (name : String) (removed : Removed) (hremoves : handler.removes = some name)
    (hafter : after = updateDirectory before name removed.leave)

theorem Handler.store (config : Config) (env : Env) (s : Shared) (handler : Handler) :
    HandlerStore config handler s.maps (handler.step config env s).1.maps := by
  by_cases hwrites : handler.writesMaps = true
  · have hcreated : ∀ (name : String) (maps : MapStore) (result : Except String Unit),
        handler.creates = some name →
        MapManager.createMap config.mapFrame env.text env.failure env.secondFailure s.maps name =
          (maps, result) → HandlerStore config handler s.maps maps := by
      intro name maps result hcreates hcreate
      rcases createMap_cases hcreate with ⟨rfl, -⟩ | ⟨-, hvalid, hnew, rfl⟩
      · exact .same rfl
      · exact .create name env.text hcreates hvalid hnew rfl
    have hremoved : ∀ (name : String) (maps : MapStore) (result : Except String Unit),
        handler.removes = some name →
        MapManager.deleteMap env.removed env.failure s.maps name = (maps, result) →
        HandlerStore config handler s.maps maps := by
      intro name maps result hremoves hdelete
      rcases deleteMap_cases hdelete with ⟨rfl | rfl, -⟩ | ⟨-, hexists, rfl⟩
      · exact .same rfl
      · exact .leave name env.removed hremoves rfl
      · exact .remove name hremoves hexists rfl
    cases handler with
    | createMap name pc =>
      cases pc with
      | acquire => cases hwrites
      | create =>
        simp only [Handler.step, CreateMap.step]
        split <;> exact hcreated name _ _ rfl ‹_›
    | deleteMap name pc =>
      cases pc with
      | acquire => cases hwrites
      | remove =>
        simp only [Handler.step, DeleteMap.step]
        split <;> exact hremoved name _ _ rfl ‹_›
    | startMapping name pc =>
      cases pc with
      | create =>
        simp only [Handler.step, StartMappingRequest.step]
        split <;> exact hcreated name _ _ rfl ‹_›
      | cleanup => exact hremoved name _ _ rfl rfl
      | _ => cases hwrites
    | _ => cases hwrites
  · exact .same ((handler.writes config env s).sameMaps fun _ hmay ↦ hwrites hmay)

/-- `fs::remove` of the map file. -/
def clearOutput (contents : MapDirectory) : MapDirectory := { contents with mapPcd := none }

/-- What a step of the operation thread does to the store. -/
inductive OperationStore (operation : Operation) (before after : MapStore) : Prop
  | same (hsame : after = before)
  | remove (name : String) (created shouldTransition : Bool)
    (hoperation : operation = .startMapping name created (.cleanup shouldTransition))
    (hexists : (directory? before name).isSome = true) (hafter : after = before.erase name)
  | leave (name : String) (removed : Removed) (created shouldTransition : Bool)
    (hoperation : operation = .startMapping name created (.cleanup shouldTransition))
    (hafter : after = updateDirectory before name removed.leave)
  | clear (name : String) (hoperation : operation = .saveMap name .removeOutput)
    (hafter : after = updateDirectory before name clearOutput)
  | markSaved (name : String) (contents : MapDirectory) (metadata : MapMetadata)
    (hoperation : operation = .saveMap name .markSaved) (hknown : mapExists before name = true)
    (hexists : directory? before name = some contents) (hsaved : contents.mapPcd.getD [] ≠ [])
    (hafter : after =
      before.insert name (.directory { contents with metadata := some (.ok metadata) }))

theorem maps_stopStep {env : Env} {leader : Leader} {s s' : Shared} {stage : StopStage}
    {next : StopStage ⊕ StopResult} (h : stopStep env leader s stage = (s', next)) :
    s'.maps = s.maps := by
  rcases stopStep_cases h with rfl | ⟨-, rfl, -⟩ <;> rfl

/-- Only a start of mapping and a save change the store. -/
theorem Operation.store (config : Config) (env : Env) (s : Shared) (operation : Operation) :
    OperationStore operation s.maps (operation.step config env s).1.maps := by
  by_cases hwrites : operation.writesMaps = true
  · rcases operation.step_cases config env s with ⟨hrun, -⟩ | ⟨-, -, code, what, hthrow⟩
    · rw [hrun]
      cases operation with
      | startMapping map created pc =>
        cases pc with
        | cleanup shouldTransition =>
          simp only [Operation.run, StartMapping.step, Prod.map]
          rcases hdelete : MapManager.deleteMap env.removed env.failure s.maps map
            with ⟨maps, result⟩
          rcases deleteMap_cases hdelete with ⟨rfl | rfl, -⟩ | ⟨-, hexists, rfl⟩
          · exact .same rfl
          · exact .leave map env.removed created shouldTransition rfl rfl
          · exact .remove map created shouldTransition rfl hexists rfl
        | _ => cases hwrites
      | saveMap map pc =>
        cases pc with
        | removeOutput =>
          simp only [Operation.run, SaveMap.step, Prod.map]
          split
          · exact .same rfl
          · exact .clear map rfl rfl
        | markSaved =>
          simp only [Operation.run, SaveMap.step, Prod.map]
          rcases hmark : MapManager.markMapSaved config.mapRoot env.text env.failure s.maps map
            with ⟨maps, result⟩
          rcases markMapSaved_cases hmark with
            ⟨rfl, what, rfl⟩ | ⟨rfl, hknown, contents, metadata, hexists, hsaved, rfl⟩
          · exact .same rfl
          · exact .markSaved map contents metadata rfl hknown hexists hsaved rfl
        | _ => cases hwrites
      | _ => cases hwrites
    · rw [hthrow]
      exact .same rfl
  · exact .same ((operation.writes config env s).sameMaps fun _ hmay ↦ hwrites hmay)

/-! ## Steps of the system -/

/-- What the mapping leader writes. -/
def writeOutput (bytes : List UInt8) (contents : MapDirectory) : MapDirectory :=
  { contents with mapPcd := some bytes }

/-- What the save worker writes. -/
def storeLastPose (request : SaveRequest) (contents : MapDirectory) : MapDirectory :=
  { contents with lastPose := some (.ok (RelocalizationAdapter.lastPoseFile request)) }

/-- What a step of the system does to the store. -/
inductive StoreMove (config : Config) (s : Sys) (a : Action) (after : MapStore) : Prop
  | same (hsame : after = s.shared.maps)
  | create (env : Env) (handler : Handler) (name utcNow : String) (haction : a = .handler env)
    (hhandler : s.handler = some handler) (hcreates : handler.creates = some name)
    (hvalid : isValidMapName name = true) (hnew : name ∉ s.shared.maps)
    (hafter : after =
      s.shared.maps.insert name (.directory (newDirectory config.mapFrame name utcNow)))
  | remove (name : String) (hremoves : s.removes a = some name)
    (hexists : (directory? s.shared.maps name).isSome = true)
    (hafter : after = s.shared.maps.erase name)
  | leave (name : String) (removed : Removed) (hremoves : s.removes a = some name)
    (hafter : after = updateDirectory s.shared.maps name removed.leave)
  | clear (env : Env) (name : String) (haction : a = .operation env)
    (hoperation : s.operation = some (.saveMap name .removeOutput))
    (hafter : after = updateDirectory s.shared.maps name clearOutput)
  | markSaved (env : Env) (name : String) (contents : MapDirectory) (metadata : MapMetadata)
    (haction : a = .operation env) (hoperation : s.operation = some (.saveMap name .markSaved))
    (hknown : mapExists s.shared.maps name = true)
    (hexists : directory? s.shared.maps name = some contents)
    (hsaved : contents.mapPcd.getD [] ≠ [])
    (hafter : after =
      s.shared.maps.insert name (.directory { contents with metadata := some (.ok metadata) }))
  | output (bytes : List UInt8) (haction : a = .writeMap bytes)
    (hrunning : s.shared.isRunning .mapping = true)
    (hafter : after = updateDirectory s.shared.maps (s.shared.processes .mapping).mapName
      (writeOutput bytes))
  | lastPose (request : SaveRequest) (haction : a = .writeSave none)
    (hsaving : s.shared.adapter.saving = some request)
    (hafter : after = updateDirectory s.shared.maps request.map (storeLastPose request))

theorem Sys.removes_handler {s : Sys} {env : Env} {handler : Handler} {name : String}
    (hhandler : s.handler = some handler) (hremoves : handler.removes = some name) :
    s.removes (.handler env) = some name := by
  unfold Handler.removes at hremoves
  split at hremoves <;> cases hremoves <;> simp [Sys.removes, hhandler]

theorem StoreMove.of_handler (config : Config) (env : Env) {s : Sys} {handler : Handler}
    (hhandler : s.handler = some handler) :
    StoreMove config s (.handler env) (handler.step config env s.shared).1.maps := by
  cases handler.store config env s.shared with
  | same hsame => exact .same hsame
  | create name utcNow hcreates hvalid hnew hafter =>
    exact .create env handler name utcNow rfl hhandler hcreates hvalid hnew hafter
  | remove name hremoves hexists hafter =>
    exact .remove name (Sys.removes_handler hhandler hremoves) hexists hafter
  | leave name removed hremoves hafter =>
    exact .leave name removed (Sys.removes_handler hhandler hremoves) hafter

theorem storeMove_of_step {config : Config} {s s' : Sys} {a : Action}
    (h : s.step config a = some s') : StoreMove config s a s'.shared.maps := by
  cases a with
  | call request =>
    obtain ⟨-, rfl⟩ := Sys.call_of_step h
    exact .same rfl
  | handler env =>
    obtain ⟨handler, hhandler, hnext⟩ := Option.bind_eq_some_iff.mp h
    rw [Sys.shared_afterHandler hnext]
    exact .of_handler config env hhandler
  | operation env =>
    obtain ⟨operation, hoperation, rfl⟩ := Option.map_eq_some_iff.mp h
    cases operation.store config env s.shared with
    | same hsame => exact .same hsame
    | remove name created shouldTransition hcleanup hexists hafter =>
      subst hcleanup
      exact .remove name (by simp [Sys.removes, hoperation]) hexists hafter
    | leave name removed created shouldTransition hcleanup hafter =>
      subst hcleanup
      exact .leave name removed (by simp [Sys.removes, hoperation]) hafter
    | clear name hremove hafter =>
      subst hremove
      exact .clear env name rfl hoperation hafter
    | markSaved name contents metadata hmark hknown hexists hsaved hafter =>
      subst hmark
      exact .markSaved env name contents metadata rfl hoperation hknown hexists hsaved hafter
  | deliver id message =>
    simp only [Sys.step] at h
    split at h
    · cases h
    · cases h
      exact .same rfl
  | callback id env =>
    obtain ⟨callback, hcallback, rfl⟩ := Option.map_eq_some_iff.mp h
    exact .same ((callback.writes config env s.shared).sameMaps fun _ hmay ↦ hmay)
  | observe observation | exit leader exitCode =>
    simp only [Sys.step] at h
    split at h <;> cases h
    exact .same rfl
  | writeMap bytes =>
    simp only [Sys.step] at h
    split at h
    · rename_i hrunning
      cases h
      exact .output bytes rfl hrunning rfl
    · cases h
  | takeSave =>
    simp only [Sys.step] at h
    split at h <;> cases h
    exact .same rfl
  | writeSave error =>
    obtain ⟨request, hsaving, rfl⟩ := Option.map_eq_some_iff.mp h
    cases error with
    | none => exact .lastPose request rfl hsaving rfl
    | some what => exact .same rfl

theorem Handler.holdsToken_of_creates {handler : Handler} {name : String}
    (h : handler.creates = some name) : handler.holdsToken = true := by
  unfold Handler.creates at h
  split at h <;> first | rfl | cases h

theorem Handler.holdsToken_of_removes {handler : Handler} {name : String}
    (h : handler.removes = some name) : handler.holdsToken = true := by
  unfold Handler.removes at h
  split at h <;> first | rfl | cases h

/-! ## Known maps -/

/-- The maps that are known stay, gain the one created or lose the one removed. -/
theorem StoreMove.mapExists_cases {config : Config} {s : Sys} {a : Action} {after : MapStore}
    (h : StoreMove config s a after) :
    mapExists after = mapExists s.shared.maps ∨
      (∃ env handler name, a = .handler env ∧ s.handler = some handler ∧
        handler.creates = some name ∧
        mapExists after = Function.update (mapExists s.shared.maps) name true) ∨
      ∃ name, s.removes a = some name ∧
        mapExists after = Function.update (mapExists s.shared.maps) name false := by
  cases h with
  | same hsame => exact Or.inl (by rw [hsame])
  | create env handler name utcNow haction hhandler hcreates hvalid _ hafter =>
    refine Or.inr (Or.inl ⟨env, handler, name, haction, hhandler, hcreates, ?_⟩)
    rw [hafter]
    exact mapExists_insert _ hvalid rfl
  | remove name hremoves _ hafter =>
    refine Or.inr (Or.inr ⟨name, hremoves, ?_⟩)
    rw [hafter]
    exact mapExists_erase _ _
  | leave name removed hremoves hafter =>
    rw [hafter]
    rcases mapExists_leave s.shared.maps name removed with hsame | hforgotten
    · exact Or.inl hsame
    · exact Or.inr (Or.inr ⟨name, hremoves, hforgotten⟩)
  | clear env name _ _ hafter =>
    rw [hafter]
    exact Or.inl (mapExists_updateDirectory _ _ fun _ ↦ rfl)
  | markSaved env name contents metadata _ _ hknown _ _ hafter =>
    have hvalid : isValidMapName name = true := (Bool.and_eq_true_iff.mp hknown).1
    rw [hafter, mapExists_insert _ hvalid rfl]
    exact Or.inl (Function.update_eq_self_iff.mpr hknown.symm)
  | output bytes _ _ hafter =>
    rw [hafter]
    exact Or.inl (mapExists_updateDirectory _ _ fun _ ↦ rfl)
  | lastPose request _ _ hafter =>
    rw [hafter]
    exact Or.inl (mapExists_updateDirectory _ _ fun _ ↦ rfl)

/-- Apart from a creation and a removal, the maps that are known stay. -/
theorem StoreMove.mapExists {config : Config} {s : Sys} {a : Action} {after : MapStore}
    (h : StoreMove config s a after) (hremoves : s.removes a = none)
    (hcreates : ∀ env handler, a = .handler env → s.handler = some handler →
      handler.creates = none) :
    MapManager.mapExists after = MapManager.mapExists s.shared.maps := by
  rcases h.mapExists_cases with
    hsame | ⟨env, handler, name, haction, hhandler, hcreated, -⟩ | ⟨name, hremoved, -⟩
  · exact hsame
  · rw [hcreates env handler haction hhandler] at hcreated
    cases hcreated
  · rw [hremoves] at hremoved
    cases hremoved

/-- A map stays known until its directory is removed. -/
theorem mapExists_kept {config : Config} {s s' : Sys} {a : Action} {name : String}
    (hstep : s.step config a = some s') (hremoves : s.removes a ≠ some name)
    (h : mapExists s.shared.maps name = true) : mapExists s'.shared.maps name = true := by
  rcases (storeMove_of_step hstep).mapExists_cases with
    hsame | ⟨_, _, created, _, _, _, hafter⟩ | ⟨removed, hremoved, hafter⟩
  · rwa [hsame]
  · rw [hafter]
    by_cases hsame : name = created
    · simp [hsame]
    · simpa [hsame] using h
  · have hother : name ≠ removed := by
      rintro rfl
      exact hremoves hremoved
    rw [hafter]
    simpa [hother] using h

/-! ## Map files -/

/-- Where the map file of a name comes from. -/
inductive OutputMove (s : Sys) (a : Action) (name : String) (after : Option (List UInt8)) : Prop
  | same (hsame : after = output? s.shared.maps name)
  | created (env : Env) (handler : Handler) (haction : a = .handler env)
    (hhandler : s.handler = some handler) (hcreates : handler.creates = some name)
    (hnew : directory? s.shared.maps name = none) (hnone : after = none)
  | removed (hremoves : s.removes a = some name) (hnone : after = none)
  | cleared (env : Env) (haction : a = .operation env)
    (hoperation : s.operation = some (.saveMap name .removeOutput)) (hnone : after = none)
  | written (bytes : List UInt8) (haction : a = .writeMap bytes)
    (hrunning : s.shared.isRunning .mapping = true)
    (hname : (s.shared.processes .mapping).mapName = name)
    (hexists : (directory? s.shared.maps name).isSome = true) (hwritten : after = some bytes)

theorem outputMove_of_step {config : Config} {s s' : Sys} {a : Action}
    (hstep : s.step config a = some s') (name : String) :
    OutputMove s a name (output? s'.shared.maps name) := by
  cases storeMove_of_step hstep with
  | same hsame => exact .same (by rw [hsame])
  | create env handler other utcNow haction hhandler hcreates _ hnew hafter =>
    rw [hafter, output?, directory?_insert]
    split
    · rename_i hsame
      subst hsame
      exact .created env handler haction hhandler hcreates (directory?_none_of_notMem hnew) rfl
    · exact .same rfl
  | remove other hremoves _ hafter =>
    rw [hafter, output?, directory?_erase]
    split
    · rename_i hsame
      subst hsame
      exact .removed hremoves rfl
    · exact .same rfl
  | leave other removed hremoves hafter =>
    rw [hafter, output?, directory?_updateDirectory]
    split
    · rename_i hsame
      subst hsame
      cases hpcd : removed.mapPcd with
      | false =>
        refine .same ?_
        cases hexists : directory? s.shared.maps name <;>
          simp [output?, hexists, Removed.leave, hpcd]
      | true =>
        refine .removed hremoves ?_
        cases directory? s.shared.maps name <;> simp [Removed.leave, hpcd]
    · exact .same rfl
  | clear env other haction hoperation hafter =>
    rw [hafter, output?, directory?_updateDirectory]
    split
    · rename_i hsame
      subst hsame
      refine .cleared env haction hoperation ?_
      cases directory? s.shared.maps name <;> rfl
    · exact .same rfl
  | markSaved env other before metadata _ _ _ hexists _ hafter =>
    rw [hafter, output?, directory?_insert]
    split
    · rename_i hsame
      subst hsame
      exact .same (by simp [output?, hexists])
    · exact .same rfl
  | output bytes haction hrunning hafter =>
    rw [hafter, output?, directory?_updateDirectory]
    split
    · rename_i hsame
      cases hexists : directory? s.shared.maps name with
      | none =>
        rw [← hsame, hexists]
        exact .same (by simp [output?, hexists])
      | some before =>
        rw [← hsame, hexists]
        exact .written bytes haction hrunning hsame.symm (by simp [hexists]) rfl
    · exact .same rfl
  | lastPose request _ _ hafter =>
    rw [hafter, output?, directory?_updateDirectory]
    split
    · rename_i hsame
      subst hsame
      refine .same ?_
      cases hexists : directory? s.shared.maps request.map <;>
        simp [output?, hexists, storeLastPose]
    · exact .same rfl

/-- Outside the steps of the handlers and of the operation thread map files are written by the
mapping leader only. -/
theorem output?_of_quiet {config : Config} {s s' : Sys} {a : Action}
    (hquiet : ModeExclusion.Quiet s.shared) (hstep : s.step config a = some s')
    (hhandler : ∀ env, a ≠ .handler env) (hoperation : ∀ env, a ≠ .operation env) (name : String) :
    output? s'.shared.maps name = output? s.shared.maps name := by
  cases outputMove_of_step hstep name with
  | same hsame => exact hsame
  | created env handler haction => exact absurd haction (hhandler env)
  | removed hremoves =>
    cases a with
    | handler env => exact absurd rfl (hhandler env)
    | operation env => exact absurd rfl (hoperation env)
    | _ => cases hremoves
  | cleared env haction => exact absurd haction (hoperation env)
  | written bytes haction hrunning =>
    rw [hquiet .mapping] at hrunning
    cases hrunning

/-! ## Last poses -/

/-- Where the last pose of a directory comes from. -/
inductive LastPoseMove (s : Sys) (a : Action) (name : String) (contents : MapDirectory) : Prop
  | same (before : MapDirectory) (hbefore : directory? s.shared.maps name = some before)
    (hsame : contents.lastPose = before.lastPose)
  | none (hnone : contents.lastPose = none)
  | written (request : SaveRequest) (before : MapDirectory) (haction : a = .writeSave none)
    (hsaving : s.shared.adapter.saving = some request) (hname : request.map = name)
    (hbefore : directory? s.shared.maps name = some before)
    (hwritten : contents.lastPose = some (.ok (RelocalizationAdapter.lastPoseFile request)))

theorem LastPoseMove.of_update {s : Sys} {a : Action} {name other : String}
    {contents : MapDirectory} {change : MapDirectory → MapDirectory}
    (h : directory? (updateDirectory s.shared.maps other change) name = some contents)
    (hkeeps : ∀ before, (change before).lastPose = before.lastPose) :
    LastPoseMove s a name contents := by
  rw [directory?_updateDirectory] at h
  split at h
  · rename_i hsame
    subst hsame
    obtain ⟨before, hbefore, rfl⟩ := Option.map_eq_some_iff.mp h
    exact .same before hbefore (hkeeps before)
  · exact .same contents h rfl

theorem lastPoseMove_of_step {config : Config} {s s' : Sys} {a : Action}
    (hstep : s.step config a = some s') {name : String} {contents : MapDirectory}
    (h : directory? s'.shared.maps name = some contents) : LastPoseMove s a name contents := by
  cases storeMove_of_step hstep with
  | same hsame => exact .same contents (hsame ▸ h) rfl
  | create env handler other utcNow _ _ _ _ _ hafter =>
    rw [hafter, directory?_insert] at h
    split at h
    · cases h
      exact .none rfl
    · exact .same contents h rfl
  | remove other _ _ hafter =>
    rw [hafter, directory?_erase] at h
    split at h
    · cases h
    · exact .same contents h rfl
  | leave other removed _ hafter =>
    rw [hafter, directory?_updateDirectory] at h
    split at h
    · rename_i hsame
      subst hsame
      obtain ⟨before, hbefore, rfl⟩ := Option.map_eq_some_iff.mp h
      cases hpose : removed.lastPose with
      | false => exact .same before hbefore (by simp [Removed.leave, hpose])
      | true => exact .none (by simp [Removed.leave, hpose])
    · exact .same contents h rfl
  | clear env other _ _ hafter =>
    rw [hafter] at h
    exact .of_update h fun _ ↦ rfl
  | markSaved env other before metadata _ _ _ hexists _ hafter =>
    rw [hafter, directory?_insert] at h
    split at h
    · rename_i hsame
      cases h
      exact .same before (hsame ▸ hexists) rfl
    · exact .same contents h rfl
  | output bytes _ _ hafter =>
    rw [hafter] at h
    exact .of_update h fun _ ↦ rfl
  | lastPose request haction hsaving hafter =>
    rw [hafter, directory?_updateDirectory] at h
    split at h
    · rename_i hsame
      subst hsame
      obtain ⟨before, hbefore, rfl⟩ := Option.map_eq_some_iff.mp h
      exact .written request before haction hsaving rfl hbefore rfl
    · exact .same contents h rfl

end SlamSystemManager.Manager
