import SlamSystemManager.Manager.Return
import SlamSystemManager.Manager.Store

/-!
# Missions

What the manager is for: a map is recorded and saved, and the robot is localized in a map. However a
run has gone so far, both can be done. The manager is brought back to WAIT_MODE, and from there the
requests, the two leaders and the messages of the localization lead to the end of the mission.
-/

open TransitionSystem

namespace SlamSystemManager.Manager

/-! ## Operators -/

/-- What an operator of missions does beside what assists the manager: requests for a map, the
leaders at work and the corrections of the localization. No leader fails. -/
def Operates (_ : Sys) : Action → Prop
  | .call request => request ≠ .lastPoseTimer
  | .handler _ | .operation _ | .writeMap _ | .callback _ _ => True
  | .deliver _ message => ∃ correction, message = .correction correction
  | _ => False

theorem operates_of_assists (s : Sys) (a : Action) (h : Assists s a) : Operates s a := by
  cases a with
  | call request =>
    rintro rfl
    simp [Assists] at h
  | handler | operation => trivial
  | _ => exact h.elim

namespace Mission

variable {config : Config}

/-- No other node offers the save service. -/
def handlerEnv : Handler → Env
  | .startMapping _ .saveService | .startLocalization _ .saveService => absentEnv
  | _ => readyEnv

/-- Nothing fails, and no node takes up the last pose. -/
def operationEnv : Operation → Env
  | .startMapping _ _ .saveService | .startLocalization _ (.waitConsumer _) => absentEnv
  | .startLocalization _ (.poll _) | .startLocalization _ (.window _ _) => calmEnv
  | _ => readyEnv

theorem looksAgain_operationEnv (o : Operation) : o.looksAgain (operationEnv o) = false := by
  unfold Operation.looksAgain
  split <;> rfl

theorem step_operationEnv (s : Shared) (o : Operation) :
    o.step config (operationEnv o) s = o.run config (operationEnv o) s := by
  have hthrows : (operationEnv o).throws = none := by
    unfold operationEnv
    split <;> rfl
  simp only [Operation.step, hthrows]

theorem operates_handler (s : Sys) (h : Handler) : Operates s (.handler (handlerEnv h)) := trivial

theorem operates_operation (s : Sys) (o : Operation) :
    Operates s (.operation (operationEnv o)) := trivial

/-! ## Maps -/

/-- A map directory in which nothing has been recorded. -/
def Blank (config : Config) (map : String) (maps : MapStore) : Prop :=
  ∃ contents metadata, MapManager.directory? maps map = some contents ∧
    MapManager.readMetadata config.mapRoot map contents = .ok metadata ∧ contents.mapPcd = none

/-- A map that can be loaded and is not empty. -/
def Recorded (config : Config) (map : String) (maps : MapStore) : Prop :=
  ∃ contents metadata bytes, MapManager.directory? maps map = some contents ∧
    MapManager.readMetadata config.mapRoot map contents = .ok metadata ∧
    contents.mapPcd = some bytes ∧ bytes ≠ []

/-- A name under which a map can be recorded. -/
def Recordable (config : Config) (map : String) (maps : MapStore) : Prop :=
  MapManager.isValidMapName map = true ∧ (map ∉ maps ∨ Blank config map maps)

/-! ## At rest -/

/-- The manager waits, free and without leaders. -/
structure Waits (s : Shared) : Prop where
  state : s.currentState = .waitMode
  free : s.operationInProgress = false
  dead : ∀ leader, s.isRunning leader = false

/-- The manager waits with sensors that it knows to be ready. -/
structure Ready (maps : MapStore) (s : Shared) : Prop extends Waits s where
  sensors : s.sensorStatus.sensorReady = true
  maps : s.maps = maps

def Refreshes (maps : MapStore) (s : Shared) : Handler → Prop
  | .sensorTick .readStatus => Waits s ∧ s.maps = maps
  | .sensorTick (.snapshot status _) => Waits s ∧ s.maps = maps ∧ status.sensorReady = true
  | _ => False

theorem refreshes_step (maps : MapStore) (s : Shared) (h : Handler) (hs : Refreshes maps s h) :
    Leads (Refreshes maps) (fun s' o ↦ o = none ∧ Ready maps s')
      (h.step config (handlerEnv h) s) := by
  cases h with
  | sensorTick pc =>
    cases pc with
    | readStatus => exact ⟨hs.1, hs.2, rfl⟩
    | snapshot status now =>
      obtain ⟨hwaits, hmaps, hready⟩ : Waits s ∧ s.maps = maps ∧ status.sensorReady = true := hs
      change Leads _ _ (sensorSnapshot config status now s)
      rw [sensorSnapshot, if_pos hready, if_neg (by simp [hwaits.state]),
        if_neg (by simp [hwaits.state])]
      exact ⟨rfl, ⟨hwaits.state, hwaits.free, hwaits.dead⟩, hready, hmaps⟩
    | _ => exact hs.elim
  | _ => exact hs.elim

/-- A tick of the sensor timer leaves a waiting manager ready. -/
theorem ready_of_waits {s : Sys} (hrest : s.Resting) (hwaits : Waits s.shared) :
    CanReach (Sys.step config) Operates
      (fun s' ↦ s'.Resting ∧ s'.callbacks = s.callbacks ∧ Ready s.shared.maps s'.shared) s := by
  have htimer : Request.sensorTimer ≠ .lastPoseTimer := by simp
  refine .head (a := .call .sensorTimer) htimer (call_of_resting hrest htimer) ?_
  refine (handler_runs handlerEnv operates_handler (Refreshes s.shared.maps) _
    (refreshes_step s.shared.maps) (s := { s with handler := some (Request.handler .sensorTimer) })
    hrest.operation rfl ⟨hwaits, rfl⟩).mono ?_
  rintro s' ⟨hhandler, hcallbacks, hended, hready⟩
  exact ⟨⟨hhandler, hended⟩, hcallbacks, hready⟩

/-! ## Mapping -/

/-- A manager in a mapping state for a map without output. -/
structure Maps (config : Config) (map : String) (state : SystemState) (s : Shared) : Prop where
  state : s.currentState = state
  selected : s.currentMap = map
  blank : Blank config map s.maps

/-- The mapping process runs for the map. -/
def Works (map : String) (s : Shared) : Prop :=
  s.isRunning .mapping = true ∧ (s.processes .mapping).mapName = map

def TakesMapping (config : Config) (map : String) (s : Shared) : Handler → Prop
  | .startMapping name .findMap => name = map ∧ s.currentState = .waitMode ∧
      (∀ leader, s.isRunning leader = false) ∧ Recordable config map s.maps
  | .startMapping name .create => name = map ∧ s.currentState = .waitMode ∧
      (∀ leader, s.isRunning leader = false) ∧ MapManager.isValidMapName map = true ∧ map ∉ s.maps
  | .startMapping name (.checkOutput _) | .startMapping name (.select _) => name = map ∧
      s.currentState = .waitMode ∧ (∀ leader, s.isRunning leader = false) ∧
      MapManager.isValidMapName map = true ∧ Blank config map s.maps
  | .startMapping name (.transition _) => name = map ∧
      (∀ leader, s.isRunning leader = false) ∧ Maps config map .waitMode s
  | .startMapping _ .unselect | .startMapping _ .cleanup => False
  | .startMapping name _ => name = map ∧ (∃ maps, Ready maps s) ∧ Recordable config map s.maps
  | .launch (.startMapping name _ .checkRunning) _ => name = map ∧
      s.isRunning .mapping = false ∧ Maps config map .mappingStarting s
  | _ => False

theorem createMap_of_notMem (utcNow : String) {map : String} {store : MapStore}
    (hvalid : MapManager.isValidMapName map = true) (hnew : map ∉ store) :
    MapManager.createMap config.mapFrame utcNow none none store map =
      (store.insert map (.directory (MapManager.newDirectory config.mapFrame map utcNow)),
        .ok ()) := by
  simp [MapManager.createMap, MapManager.mapDirectory, hvalid, hnew]

/-- A new directory is one in which a map can be recorded. -/
theorem blank_newDirectory (hframe : config.mapFrame ≠ "") {map : String}
    (hvalid : MapManager.isValidMapName map = true) (store : MapStore) (utcNow : String) :
    Blank config map (store.insert map
      (.directory (MapManager.newDirectory config.mapFrame map utcNow))) := by
  refine ⟨MapManager.newDirectory config.mapFrame map utcNow,
    ⟨map, utcNow, utcNow, "map.pcd", config.mapFrame⟩, ?_, ?_, rfl⟩
  · rw [MapManager.directory?_insert, if_pos rfl]
  · simp [MapManager.readMetadata, MapManager.newDirectory, hvalid, hframe]

theorem takesMapping_step (hframe : config.mapFrame ≠ "") (map : String) (s : Shared) (h : Handler)
    (hs : TakesMapping config map s h) :
    Leads (TakesMapping config map)
      (fun s' o ↦ (∃ created, o = some (.startMapping map created .checkRunning)) ∧
        s'.isRunning .mapping = false ∧ Maps config map .mappingStarting s')
      (h.step config (handlerEnv h) s) := by
  cases h with
  | startMapping name pc =>
    cases pc with
    | checkLocalization =>
      obtain ⟨rfl, ⟨maps, hready⟩, hrecordable⟩ := hs
      simp only [Handler.step, StartMappingRequest.step, hrecordable.1, hready.dead]
      exact ⟨rfl, ⟨maps, hready⟩, hrecordable⟩
    | checkMapping =>
      obtain ⟨rfl, ⟨maps, hready⟩, hrecordable⟩ := hs
      simp only [Handler.step, StartMappingRequest.step, hready.dead]
      exact ⟨rfl, ⟨maps, hready⟩, hrecordable⟩
    | saveService => exact hs
    | acquire =>
      obtain ⟨rfl, ⟨maps, hready⟩, hrecordable⟩ := hs
      simp only [Handler.step, StartMappingRequest.step]
      rw [acquireForStart, if_neg (by simp [hready.state, hready.sensors]),
        if_neg (by simp [hready.free])]
      exact ⟨rfl, hready.state, hready.dead, hrecordable⟩
    | findMap =>
      obtain ⟨rfl, hstate, hdead, hvalid, hnew | hblank⟩ := hs
      · have hexists : MapManager.mapExists s.maps name = false := by
          simp [MapManager.mapExists, MapManager.directory?_none_of_notMem hnew]
        simp only [Handler.step, StartMappingRequest.step, hexists]
        exact ⟨rfl, hstate, hdead, hvalid, hnew⟩
      · obtain ⟨contents, metadata, hdirectory, hmetadata, -⟩ := id hblank
        have hexists : MapManager.mapExists s.maps name = true := by
          simp [MapManager.mapExists, hvalid, hdirectory,
            MapManager.metadata_of_readMetadata hmetadata]
        simp only [Handler.step, StartMappingRequest.step, hexists, if_true]
        exact ⟨rfl, hstate, hdead, hvalid, hblank⟩
    | create =>
      obtain ⟨rfl, hstate, hdead, hvalid, hnew⟩ := hs
      have hmade : MapManager.createMap config.mapFrame readyEnv.text readyEnv.failure
          readyEnv.secondFailure s.maps name = _ := createMap_of_notMem readyEnv.text hvalid hnew
      simp only [Handler.step, StartMappingRequest.step, handlerEnv, hmade]
      exact ⟨rfl, hstate, hdead, hvalid, blank_newDirectory hframe hvalid s.maps _⟩
    | checkOutput created =>
      obtain ⟨rfl, hstate, hdead, hvalid, hblank⟩ := hs
      obtain ⟨contents, metadata, hdirectory, -, hpcd⟩ := id hblank
      simp only [Handler.step, StartMappingRequest.step, MapManager.getMapPath_of_valid hvalid,
        hdirectory, Option.bind_some, hpcd]
      exact ⟨rfl, hstate, hdead, hvalid, hblank⟩
    | select created =>
      obtain ⟨rfl, hstate, hdead, hvalid, hblank⟩ := hs
      exact ⟨rfl, hdead, hstate, rfl, hblank⟩
    | transition created =>
      obtain ⟨rfl, hdead, hstate, hselected, hblank⟩ := hs
      have hcan : s.currentState.canTransition .mappingStarting = true := by
        rw [hstate]
        rfl
      simp only [Handler.step, StartMappingRequest.step, hcan, if_true]
      refine ⟨rfl, ?_, currentState_transitionTo_of hcan, ?_, ?_⟩
      · simpa [Shared.isRunning] using hdead .mapping
      · simpa using hselected
      · rwa [maps_transitionTo]
    | cleanup | unselect => exact hs.elim
  | launch o reply =>
    cases o with
    | startMapping name created pc =>
      cases pc with
      | checkRunning =>
        obtain ⟨rfl, hdead, hmaps⟩ := hs
        exact ⟨⟨created, rfl⟩, hdead, hmaps⟩
      | _ => exact hs.elim
    | _ => exact hs.elim
  | _ => exact hs.elim

/-- The start of mapping on its way. -/
def EntersMapping (config : Config) (map : String) (s : Shared) : Operation → Prop
  | .startMapping name _ .waitService | .startMapping name _ .checkAlive
  | .startMapping name _ .started => name = map ∧ Maps config map .mappingStarting s ∧ Works map s
  | .startMapping name _ .checkRunning | .startMapping name _ .saveService
  | .startMapping name _ .prepareConfig | .startMapping name _ .startProcess =>
    name = map ∧ Maps config map .mappingStarting s ∧ s.isRunning .mapping = false
  | .finish => Maps config map .mapping s ∧ Works map s
  | _ => False

theorem Maps.transitionTo {map : String} {state next : SystemState} {s : Shared}
    (h : Maps config map state s) (hcan : state.canTransition next = true) :
    Maps config map next (s.transitionTo next) where
  state := currentState_transitionTo_of (h.state ▸ hcan)
  selected := (currentMap_transitionTo s next).trans h.selected
  blank := (maps_transitionTo s next).symm ▸ h.blank

theorem works_transitionTo {map : String} {s : Shared} (next : SystemState) (h : Works map s) :
    Works map (s.transitionTo next) := by
  rw [Works, Shared.isRunning, processes_transitionTo]
  exact h

theorem works_fork (map : String) (s : Shared) : Works map (s.fork .mapping map) := by
  simp [Works, Shared.isRunning, Shared.fork, Shared.setProcess]

theorem entersMapping_step (map : String) (s : Shared) (o : Operation)
    (h : EntersMapping config map s o) (next : Operation)
    (hnext : (o.step config (operationEnv o) s).2 = some next) :
    EntersMapping config map (o.step config (operationEnv o) s).1 next := by
  rw [step_operationEnv] at hnext ⊢
  cases o with
  | startMapping name created pc =>
    cases hnext
    change EntersMapping config map
      (pc.step config (operationEnv (.startMapping name created pc)) name created s).1
      (pc.step config (operationEnv (.startMapping name created pc)) name created s).2
    cases pc with
    | checkRunning =>
      simp only [StartMapping.step, h.2.2]
      exact h
    | saveService => exact h
    | prepareConfig =>
      obtain ⟨rfl, hmaps, hdead⟩ := h
      obtain ⟨contents, metadata, hdirectory, -⟩ := hmaps.blank
      have hfound : (MapManager.directory? s.maps name).isSome = true := by
        rw [hdirectory]
        rfl
      change EntersMapping config name s (.startMapping name created
        (if (MapManager.directory? s.maps name).isSome then .startProcess else .failed _))
      rw [if_pos hfound]
      exact ⟨rfl, hmaps, hdead⟩
    | startProcess =>
      obtain ⟨rfl, hmaps, hdead⟩ := h
      simp only [StartMapping.step, hdead]
      exact ⟨rfl, ⟨hmaps.state, hmaps.selected, hmaps.blank⟩, works_fork name s⟩
    | waitService => exact h
    | checkAlive =>
      simp only [StartMapping.step, h.2.2.1, if_true]
      exact h
    | started =>
      obtain ⟨rfl, hmaps, hworks⟩ := h
      have hcan : s.currentState.canTransition .mapping = true := by
        rw [hmaps.state]
        rfl
      simp only [StartMapping.step, hcan, if_true]
      exact ⟨hmaps.transitionTo rfl, works_transitionTo .mapping hworks⟩
    | _ => exact h.elim
  | finish => cases hnext
  | _ => exact h.elim

/-- A map comes to be recorded, by a mapping process that works for it. -/
def Records (config : Config) (map : String) (s : Shared) : Prop :=
  s.operationInProgress = false ∧ Maps config map .mapping s ∧ Works map s

theorem records_of_ready (hframe : config.mapFrame ≠ "") {map : String} {maps : MapStore} {s : Sys}
    (hrest : s.Resting) (hready : Ready maps s.shared)
    (hrecordable : Recordable config map s.shared.maps) :
    CanReach (Sys.step config) Operates (fun s' ↦ s'.Resting ∧ Records config map s'.shared) s := by
  have htimer : Request.startMapping map ≠ .lastPoseTimer := by simp
  refine .head (a := .call (.startMapping map)) htimer (call_of_resting hrest htimer) ?_
  refine (handler_runs handlerEnv operates_handler (TakesMapping config map) _
    (takesMapping_step hframe map)
    (s := { s with handler := some (Request.handler (.startMapping map)) }) hrest.operation rfl
    ⟨rfl, ⟨maps, hready⟩, hrecordable⟩).bind ?_
  rintro launched - ⟨hhandler, -, ⟨created, hoperation⟩, hdead, hmaps⟩
  refine (operation_runs operationEnv operates_operation looksAgain_operationEnv
    (EntersMapping config map) (Records config map) (entersMapping_step map)
    (fun s h ↦ ⟨rfl, ⟨h.1.state, h.1.selected, h.1.blank⟩, h.2⟩) hoperation
    ⟨rfl, hmaps, hdead⟩).mono ?_
  rintro s' ⟨hsame, -, hended, hrecords⟩
  exact ⟨⟨hsame.trans hhandler, hended⟩, hrecords⟩

/-! ## Saving -/

/-- What the metadata of a map have been accepted for. -/
theorem readMetadata_eq_ok {root map : String} {contents : MapDirectory} {metadata : MapMetadata} :
    MapManager.readMetadata root map contents = .ok metadata ↔
      contents.metadata = some (.ok metadata) ∧ metadata.name = map ∧
        MapManager.isValidMapName metadata.name = true ∧ metadata.mapFile = "map.pcd" ∧
        metadata.frameId ≠ "" := by
  unfold MapManager.readMetadata
  cases hfile : contents.metadata with
  | none => simp
  | some result =>
    cases result with
    | error what => simp
    | ok found =>
      simp only [Option.some.injEq, Except.ok.injEq]
      split_ifs with hname hfile hframe
      · refine ⟨fun h ↦ (nomatch h), ?_⟩
        rintro ⟨rfl, hsame, hvalid, -⟩
        exact absurd hname (not_or.mpr ⟨not_not.mpr hsame, by simp [hvalid]⟩)
      · refine ⟨fun h ↦ (nomatch h), ?_⟩
        rintro ⟨rfl, -, -, hsame, -⟩
        exact absurd hsame hfile
      · refine ⟨fun h ↦ (nomatch h), ?_⟩
        rintro ⟨rfl, -, -, -, hsome⟩
        exact absurd hframe hsome
      · simp only [not_or, ne_eq, not_not, Bool.not_eq_false] at hname
        refine ⟨?_, fun h ↦ congrArg _ h.1⟩
        intro h
        cases h
        exact ⟨rfl, hname.1, hname.2, not_not.mp hfile, hframe⟩

theorem valid_of_readMetadata {root map : String} {contents : MapDirectory}
    {metadata : MapMetadata} (h : MapManager.readMetadata root map contents = .ok metadata) :
    MapManager.isValidMapName map = true := by
  obtain ⟨-, hname, hvalid, -⟩ := readMetadata_eq_ok.mp h
  rwa [hname] at hvalid

theorem valid_of_blank {map : String} {store : MapStore} (h : Blank config map store) :
    MapManager.isValidMapName map = true := by
  obtain ⟨contents, metadata, -, hmetadata, -⟩ := h
  exact valid_of_readMetadata hmetadata

def TakesSave (config : Config) (map : String) (s : Shared) : Handler → Prop
  | .saveMap .acquire => Records config map s
  | .saveMap (.transition name) => name = map ∧ Maps config map .mapping s ∧ Works map s
  | .saveMap (.path name) => name = map ∧ Maps config map .mapSaving s ∧ Works map s
  | .launch (.saveMap name .checkRunning) _ =>
    name = map ∧ Maps config map .mapSaving s ∧ Works map s
  | _ => False

theorem takesSave_step (map : String) (s : Shared) (h : Handler) (hs : TakesSave config map s h) :
    Leads (TakesSave config map)
      (fun s' o ↦ o = some (.saveMap map .checkRunning) ∧ Maps config map .mapSaving s' ∧
        Works map s') (h.step config (handlerEnv h) s) := by
  cases h with
  | saveMap pc =>
    cases pc with
    | acquire =>
      obtain ⟨hfree, hmaps, hworks⟩ := hs
      simp only [Handler.step, SaveMapRequest.step]
      rw [if_neg (not_not.mpr hmaps.state), if_neg (by simp [hfree])]
      exact ⟨hmaps.selected, ⟨hmaps.state, hmaps.selected, hmaps.blank⟩, hworks⟩
    | transition name =>
      obtain ⟨rfl, hmaps, hworks⟩ := hs
      have hcan : s.currentState.canTransition .mapSaving = true := by
        rw [hmaps.state]
        rfl
      simp only [Handler.step, SaveMapRequest.step, hcan, if_true]
      exact ⟨rfl, hmaps.transitionTo rfl, works_transitionTo .mapSaving hworks⟩
    | path name =>
      obtain ⟨rfl, hmaps, hworks⟩ := hs
      simp only [Handler.step, SaveMapRequest.step,
        MapManager.getMapPath_of_valid (valid_of_blank hmaps.blank)]
      exact ⟨rfl, hmaps, hworks⟩
  | launch o reply =>
    cases o with
    | saveMap name pc =>
      cases pc with
      | checkRunning =>
        obtain ⟨rfl, hmaps, hworks⟩ := hs
        exact ⟨rfl, hmaps, hworks⟩
      | _ => exact hs.elim
    | _ => exact hs.elim
  | _ => exact hs.elim

/-- The save on its way, once the mapping process has written its map. -/
def Saves (config : Config) (map : String) (s : Shared) : Operation → Prop
  | .saveMap name .request | .saveMap name .checkOutput | .saveMap name .markSaved =>
    name = map ∧ s.currentState = .mapSaving ∧ Recorded config map s.maps ∧
      s.isRunning .mapping = true
  | .saveMap name (.stop saved saveError _) => name = map ∧ saved = true ∧ saveError = "" ∧
      s.currentState = .mapSaving ∧ Recorded config map s.maps ∧ s.isRunning .mapping = true
  | .saveMap name (.report saved saveError stopped) => name = map ∧ saved = true ∧
      saveError = "" ∧ stopped = .ok () ∧ s.currentState = .mapSaving ∧
      Recorded config map s.maps
  | .saveMap name (.checkState succeeded) => name = map ∧ succeeded = true ∧
      s.currentState = .mapSaving ∧ Recorded config map s.maps
  | .saveMap name .toWait => name = map ∧ s.currentState = .mapSaving ∧
      Recorded config map s.maps
  | .finish => s.currentState = .waitMode ∧ Recorded config map s.maps
  | _ => False

theorem markMapSaved_of_recorded {map : String} {store : MapStore} (utcNow : String)
    (hrecorded : Recorded config map store) :
    ∃ store', MapManager.markMapSaved config.mapRoot utcNow none store map = (store', .ok ()) ∧
      Recorded config map store' := by
  obtain ⟨contents, metadata, bytes, hdirectory, hmetadata, hbytes, hsome⟩ := hrecorded
  have hvalid := valid_of_readMetadata hmetadata
  have hmap : MapManager.mapDirectory map = .ok map := by simp [MapManager.mapDirectory, hvalid]
  refine ⟨store.insert map (.directory
    { contents with metadata := some (.ok { metadata with updatedAt := utcNow }) }), ?_, ?_⟩
  · simp only [MapManager.markMapSaved, hmap, hdirectory, Option.getD_some, hmetadata, hbytes,
      Bind.bind, Except.bind, pure, Except.pure, hsome, if_false]
  · refine ⟨_, { metadata with updatedAt := utcNow }, bytes,
      (MapManager.directory?_insert ..).trans (if_pos rfl), ?_, hbytes, hsome⟩
    obtain ⟨-, hname, haccepted, hfile, hframe⟩ := readMetadata_eq_ok.mp hmetadata
    exact readMetadata_eq_ok.mpr ⟨rfl, hname, haccepted, hfile, hframe⟩

theorem saves_step (map : String) (s : Shared) (o : Operation) (h : Saves config map s o)
    (next : Operation) (hnext : (o.step config (operationEnv o) s).2 = some next) :
    Saves config map (o.step config (operationEnv o) s).1 next := by
  rw [step_operationEnv] at hnext ⊢
  cases o with
  | saveMap name pc =>
    cases hnext
    change Saves config map (pc.step config readyEnv name s).1 (pc.step config readyEnv name s).2
    cases pc with
    | request => exact h
    | checkOutput =>
      obtain ⟨rfl, hstate, hrecorded, halive⟩ := h
      obtain ⟨contents, metadata, bytes, hdirectory, -, hbytes, hsome⟩ := id hrecorded
      have hempty : bytes.isEmpty = false := by simpa using hsome
      simp only [SaveMap.step, hdirectory, Option.bind_some, hbytes, hempty]
      exact ⟨rfl, hstate, hrecorded, halive⟩
    | markSaved =>
      obtain ⟨rfl, hstate, hrecorded, halive⟩ := h
      obtain ⟨store, hmarked, hkept⟩ := markMapSaved_of_recorded "" hrecorded
      have hstep : SaveMap.step config readyEnv name s .markSaved =
          ({ s with maps := store }, .saveMap name (.stop true "" .check)) := by
        rw [SaveMap.step, show readyEnv.text = "" from rfl, show readyEnv.failure = none from rfl,
          hmarked]
      rw [hstep]
      exact ⟨rfl, rfl, rfl, hstate, hkept, halive⟩
    | stop saved saveError stage =>
      obtain ⟨rfl, rfl, rfl, hstate, hrecorded, halive⟩ := h
      cases stage with
      | check | lookup =>
        simp only [SaveMap.step, stopStep, halive, if_true]
        exact ⟨rfl, rfl, rfl, hstate, hrecorded, halive⟩
      | wait =>
        simp only [SaveMap.step, stopStep, halive, if_true]
        exact ⟨rfl, rfl, rfl, rfl, hstate, hrecorded⟩
    | report saved saveError stopped =>
      obtain ⟨rfl, rfl, rfl, rfl, hstate, hrecorded⟩ := h
      exact ⟨rfl, rfl, hstate, hrecorded⟩
    | checkState succeeded =>
      obtain ⟨rfl, rfl, hstate, hrecorded⟩ := h
      simp only [SaveMap.step, hstate, if_true]
      exact ⟨rfl, hstate, hrecorded⟩
    | toWait =>
      obtain ⟨rfl, hstate, hrecorded⟩ := h
      refine ⟨currentState_transitionTo_of (by rw [hstate]; rfl), ?_⟩
      change Recorded config name (s.transitionTo .waitMode).maps
      rwa [maps_transitionTo]
    | _ => exact h.elim
  | finish => cases hnext
  | _ => exact h.elim

/-- A step of the operation thread that goes on. -/
theorem operation_next {goal : Sys → Prop} {s : Sys} {o : Operation} (env : Env) (shared : Shared)
    (next : Operation) (hsome : s.operation = some o)
    (hstep : o.step config env s.shared = (shared, some next))
    (h : CanReach (Sys.step config) Operates goal
      { s with shared := shared, operation := some next }) :
    CanReach (Sys.step config) Operates goal s := by
  refine .head (a := .operation env) trivial ?_ h
  simp only [Sys.step, hsome, Option.map_some, hstep]

/-- The mapping process writes its output. -/
theorem recorded_of_works {map : String} {s : Shared} (hworks : Works map s)
    (hblank : Blank config map s.maps) (bytes : List UInt8) (hsome : bytes ≠ []) :
    Recorded config map (MapManager.updateDirectory s.maps (s.processes .mapping).mapName
      fun contents ↦ { contents with mapPcd := some bytes }) := by
  obtain ⟨contents, metadata, hdirectory, hmetadata, -⟩ := hblank
  rw [hworks.2]
  refine ⟨{ contents with mapPcd := some bytes }, metadata, bytes, ?_, hmetadata, rfl, hsome⟩
  rw [MapManager.directory?_updateDirectory, if_pos rfl, hdirectory]
  rfl

/-- The output of before is removed, which there is none of. -/
theorem blank_of_removed {map : String} {store : MapStore} (h : Blank config map store) :
    Blank config map (MapManager.updateDirectory store map
      fun contents ↦ { contents with mapPcd := none }) := by
  obtain ⟨contents, metadata, hdirectory, hmetadata, -⟩ := h
  refine ⟨{ contents with mapPcd := none }, metadata, ?_, hmetadata, rfl⟩
  rw [MapManager.directory?_updateDirectory, if_pos rfl, hdirectory]
  rfl

theorem saved_of_records {map : String} {s : Sys} (hrest : s.Resting)
    (hrecords : Records config map s.shared) :
    CanReach (Sys.step config) Operates
      (fun s' ↦ s'.Resting ∧ s'.shared.currentState = .waitMode ∧
        Recorded config map s'.shared.maps) s := by
  have htimer : Request.saveMap ≠ .lastPoseTimer := by simp
  refine .head (a := .call .saveMap) htimer (call_of_resting hrest htimer) ?_
  refine (handler_runs handlerEnv operates_handler (TakesSave config map) _ (takesSave_step map)
    (s := { s with handler := some (Request.handler .saveMap) }) hrest.operation rfl
    hrecords).bind ?_
  rintro launched - ⟨hhandler, -, hoperation, hmaps, hworks⟩
  -- as far as the request to the mapping process, which then writes
  apply operation_next readyEnv launched.shared (.saveMap map .serviceReady) hoperation
  · simp [Operation.step, readyEnv, Operation.run, SaveMap.step, hworks.1]
  apply operation_next readyEnv launched.shared (.saveMap map .removeOutput) rfl
  · rfl
  let removed : Shared := { launched.shared with
    maps := MapManager.updateDirectory launched.shared.maps map
      fun contents ↦ { contents with mapPcd := none } }
  apply operation_next readyEnv removed (.saveMap map .request) rfl
  · rfl
  have hremoved : Works map removed := hworks
  have hrecorded := recorded_of_works hremoved (blank_of_removed hmaps.blank) [0] (by simp)
  let written : Shared := { removed with
    maps := MapManager.updateDirectory removed.maps (removed.processes .mapping).mapName
      fun contents ↦ { contents with mapPcd := some [0] } }
  have hwrite : Sys.step config
      { launched with shared := removed, operation := some (.saveMap map .request) }
      (.writeMap [0]) =
      some { launched with shared := written, operation := some (.saveMap map .request) } := by
    simp only [Sys.step, show removed.isRunning .mapping = true from hworks.1, if_true]
    rfl
  refine .head (a := .writeMap [0]) trivial hwrite ?_
  refine (operation_runs operationEnv operates_operation looksAgain_operationEnv
    (Saves config map) (fun s ↦ s.currentState = .waitMode ∧ Recorded config map s.maps)
    (saves_step map) (fun _ h ↦ h)
    (s := { launched with shared := written, operation := some (.saveMap map .request) }) rfl
    ⟨rfl, hmaps.state, hrecorded, hworks.1⟩).mono ?_
  rintro s' ⟨hsame, -, hended, hsaved⟩
  exact ⟨⟨hsame.trans hhandler, hended⟩, hsaved⟩

/-! ## Localization -/

/-- A session in which no correction has arrived. -/
def Fresh (s : Shared) : Prop :=
  s.adapter.correctionAvailable = false ∧ s.adapter.relocalizationStartedAt = 0

/-- A manager in a localization state for a recorded map. -/
structure Localizes (config : Config) (map : String) (state : SystemState) (s : Shared) :
    Prop where
  state : s.currentState = state
  selected : s.currentMap = map
  recorded : Recorded config map s.maps
  fresh : Fresh s

theorem Localizes.transitionTo {map : String} {state next : SystemState} {s : Shared}
    (h : Localizes config map state s) (hcan : state.canTransition next = true) :
    Localizes config map next (s.transitionTo next) where
  state := currentState_transitionTo_of (h.state ▸ hcan)
  selected := (currentMap_transitionTo s next).trans h.selected
  recorded := (maps_transitionTo s next).symm ▸ h.recorded
  fresh := by
    rw [Fresh, adapter_transitionTo]
    exact h.fresh

def TakesLocalization (config : Config) (map : String) (s : Shared) : Handler → Prop
  | .startLocalization name .load | .startLocalization name .select =>
    name = map ∧ s.currentState = .waitMode ∧ s.isRunning .localization = false ∧
      Recorded config map s.maps
  | .startLocalization name .resetSession => name = map ∧ s.currentState = .waitMode ∧
      s.isRunning .localization = false ∧ Recorded config map s.maps ∧ s.currentMap = map
  | .startLocalization name .resetQuality | .startLocalization name .transition =>
    name = map ∧ s.isRunning .localization = false ∧ Localizes config map .waitMode s
  | .startLocalization _ .unselect => False
  | .startLocalization name _ => name = map ∧ (∃ maps, Ready maps s) ∧ Recorded config map s.maps
  | .launch (.startLocalization name .checkRunning) _ => name = map ∧
      s.isRunning .localization = false ∧ Localizes config map .localizationStarting s
  | _ => False

theorem loadMap_of_recorded {map : String} {store : MapStore} (h : Recorded config map store) :
    ∃ path, MapManager.loadMap config.mapRoot store map = .ok path := by
  obtain ⟨contents, metadata, bytes, hdirectory, hmetadata, hbytes, -⟩ := h
  have hmap : MapManager.mapDirectory map = .ok map := by
    simp [MapManager.mapDirectory, valid_of_readMetadata hmetadata]
  have hsome := (readMetadata_eq_ok.mp hmetadata).1
  exact ⟨MapManager.filePath config.mapRoot map metadata.mapFile, by
    simp [MapManager.loadMap, hmap, hdirectory, hsome, hmetadata, hbytes, Bind.bind, Except.bind,
      pure, Except.pure]⟩

theorem takesLocalization_step (map : String) (s : Shared) (h : Handler)
    (hs : TakesLocalization config map s h) :
    Leads (TakesLocalization config map)
      (fun s' o ↦ o = some (.startLocalization map .checkRunning) ∧
        s'.isRunning .localization = false ∧ Localizes config map .localizationStarting s')
      (h.step config (handlerEnv h) s) := by
  cases h with
  | startLocalization name pc =>
    cases pc with
    | checkMapping =>
      obtain ⟨rfl, ⟨maps, hready⟩, hrecorded⟩ := hs
      obtain ⟨contents, metadata, bytes, -, hmetadata, -⟩ := id hrecorded
      simp only [Handler.step, StartLocalizationRequest.step, hready.dead,
        valid_of_readMetadata hmetadata]
      exact ⟨rfl, ⟨maps, hready⟩, hrecorded⟩
    | saveService => exact hs
    | checkLocalization =>
      obtain ⟨rfl, ⟨maps, hready⟩, hrecorded⟩ := hs
      simp only [Handler.step, StartLocalizationRequest.step, hready.dead]
      exact ⟨rfl, ⟨maps, hready⟩, hrecorded⟩
    | acquire =>
      obtain ⟨rfl, ⟨maps, hready⟩, hrecorded⟩ := hs
      simp only [Handler.step, StartLocalizationRequest.step]
      rw [acquireForStart, if_neg (by simp [hready.state, hready.sensors]),
        if_neg (by simp [hready.free])]
      exact ⟨rfl, hready.state, hready.dead .localization, hrecorded⟩
    | load =>
      obtain ⟨rfl, hstate, hdead, hrecorded⟩ := hs
      obtain ⟨path, hloaded⟩ := loadMap_of_recorded hrecorded
      simp only [Handler.step, StartLocalizationRequest.step, hloaded]
      exact ⟨rfl, hstate, hdead, hrecorded⟩
    | select =>
      obtain ⟨rfl, hstate, hdead, hrecorded⟩ := hs
      exact ⟨rfl, hstate, hdead, hrecorded, rfl⟩
    | resetSession =>
      obtain ⟨rfl, hstate, hdead, hrecorded, hselected⟩ := hs
      exact ⟨rfl, hdead, hstate, hselected, hrecorded, rfl, rfl⟩
    | resetQuality =>
      obtain ⟨rfl, hdead, hstate, hselected, hrecorded, hfresh⟩ := hs
      exact ⟨rfl, hdead, hstate, hselected, hrecorded, hfresh⟩
    | transition =>
      obtain ⟨rfl, hdead, hlocalizes⟩ := hs
      have hcan : s.currentState.canTransition .localizationStarting = true := by
        rw [hlocalizes.state]
        rfl
      simp only [Handler.step, StartLocalizationRequest.step, hcan, if_true]
      refine ⟨rfl, ?_, hlocalizes.transitionTo rfl⟩
      simpa [Shared.isRunning] using hdead
    | unselect => exact hs.elim
  | launch o reply =>
    cases o with
    | startLocalization name pc =>
      cases pc with
      | checkRunning =>
        obtain ⟨rfl, hdead, hlocalizes⟩ := hs
        exact ⟨rfl, hdead, hlocalizes⟩
      | _ => exact hs.elim
    | _ => exact hs.elim
  | _ => exact hs.elim

/-- Localization runs and waits for a correction. -/
def Relocalizes (config : Config) (map : String) (s : Shared) : Prop :=
  Localizes config map .relocalizing s ∧ s.isRunning .localization = true

/-- The last pose, which nobody takes up. -/
def SkipsLastPose (config : Config) (map : String) (s : Shared) : Operation → Prop
  | .startLocalization _ .loadLastPose | .startLocalization _ (.waitConsumer _) | .finish =>
    Relocalizes config map s
  | _ => False

theorem skipsLastPose_step (map : String) (s : Shared) (o : Operation)
    (h : SkipsLastPose config map s o) (next : Operation)
    (hnext : (o.step config (operationEnv o) s).2 = some next) :
    SkipsLastPose config map (o.step config (operationEnv o) s).1 next := by
  rw [step_operationEnv] at hnext ⊢
  cases o with
  | startLocalization name pc =>
    cases hnext
    cases pc with
    | loadLastPose =>
      simp only [Operation.run, StartLocalization.step]
      split <;> exact h
    | waitConsumer pose => exact h
    | _ => exact h.elim
  | finish => cases hnext
  | _ => exact h.elim

theorem relocalizes_of_ready {map : String} {maps : MapStore} {s : Sys} (hrest : s.Resting)
    (hready : Ready maps s.shared) (hrecorded : Recorded config map s.shared.maps) :
    CanReach (Sys.step config) Operates (fun s' ↦ Relocalizes config map s'.shared) s := by
  have htimer : Request.startLocalization map ≠ .lastPoseTimer := by simp
  refine .head (a := .call (.startLocalization map)) htimer (call_of_resting hrest htimer) ?_
  refine (handler_runs handlerEnv operates_handler (TakesLocalization config map) _
    (takesLocalization_step map)
    (s := { s with handler := some (Request.handler (.startLocalization map)) }) hrest.operation
    rfl ⟨rfl, ⟨maps, hready⟩, hrecorded⟩).bind ?_
  rintro launched - ⟨-, -, hoperation, hdead, hlocalizes⟩
  obtain ⟨contents, metadata, bytes, hdirectory, -, hbytes, hsome⟩ := id hlocalizes.recorded
  have hempty : bytes.isEmpty = false := by simpa using hsome
  -- as far as the transition to RELOCALIZING, by one look at the topics
  apply operation_next readyEnv launched.shared (.startLocalization map .checkFile) hoperation
  · simp [Operation.step, readyEnv, Operation.run, StartLocalization.step, hdead]
  apply operation_next readyEnv launched.shared (.startLocalization map .startProcess) rfl
  · simp [Operation.step, readyEnv, Operation.run, StartLocalization.step, hdirectory, hbytes,
      hempty]
  let forked := launched.shared.fork .localization map
  have halive : forked.isRunning .localization = true := by
    simp [forked, Shared.isRunning, Shared.fork, Shared.setProcess]
  have hforked : Localizes config map .localizationStarting forked :=
    ⟨hlocalizes.state, hlocalizes.selected, hlocalizes.recorded, hlocalizes.fresh⟩
  apply operation_next readyEnv forked (.startLocalization map (.poll "")) rfl
  · simp [Operation.step, readyEnv, Operation.run, StartLocalization.step, hdead, forked]
  apply operation_next readyEnv forked (.startLocalization map .pollAlive) rfl
  · rfl
  apply operation_next readyEnv forked (.startLocalization map .pollTopics) rfl
  · simp [Operation.step, readyEnv, Operation.run, StartLocalization.step, halive]
  apply operation_next readyEnv forked (.startLocalization map .started) rfl
  · rfl
  have hcan : forked.currentState.canTransition .relocalizing = true := by
    rw [hforked.state]
    rfl
  have hafter : Relocalizes config map (forked.transitionTo .relocalizing) := by
    refine ⟨hforked.transitionTo rfl, ?_⟩
    rwa [Shared.isRunning, processes_transitionTo]
  let next : Operation :=
    if config.lastPoseEnable then .startLocalization map .loadLastPose else .finish
  apply operation_next readyEnv (forked.transitionTo .relocalizing) next rfl
  · simp [Operation.step, readyEnv, Operation.run, StartLocalization.step, hcan, next]
  have hnext : SkipsLastPose config map (forked.transitionTo .relocalizing) next := by
    simp only [next]
    split <;> exact hafter
  refine (operation_runs operationEnv operates_operation looksAgain_operationEnv
    (SkipsLastPose config map) (Relocalizes config map) (skipsLastPose_step map)
    (fun s h ↦ ⟨⟨h.1.state, h.1.selected, h.1.recorded, h.1.fresh⟩, h.2⟩)
    (s := { launched with shared := forked.transitionTo .relocalizing, operation := some next })
    rfl hnext).mono ?_
  rintro s' ⟨-, -, -, hrelocalizes⟩
  exact hrelocalizes

/-! ## Confirmation -/

/-- Some callback of the reentrant group can always be started. -/
theorem free_callback {s : Sys} (h : Reachable config s) : ∃ id, s.callbacks id = none := by
  suffices hbound : ∃ bound, ∀ id, bound ≤ id → s.callbacks id = none by
    obtain ⟨bound, hfree⟩ := hbound
    exact ⟨bound, hfree bound le_rfl⟩
  refine h.invariant (P := fun s : Sys ↦ ∃ bound, ∀ id, bound ≤ id → s.callbacks id = none)
    (fun s hinit ↦ ⟨0, fun id _ ↦ by rw [hinit.callbacks]⟩) fun s a s' hs _ hstep ↦ ?_
  obtain ⟨bound, hfree⟩ := hs
  have hset (id : ℕ) (callback : Option Callback) :
      ∃ bound, ∀ other, bound ≤ other →
        Function.update s.callbacks id callback other = none := by
    refine ⟨max bound (id + 1), fun other hother ↦ ?_⟩
    rw [Function.update_of_ne (by omega)]
    exact hfree other (by omega)
  cases Sys.move_of_step hstep with
  | deliver hnone => exact hset _ _
  | callback hsome => exact hset _ _
  | _ => exact ⟨bound, hfree⟩

/-- The robot is localized in a map. -/
structure Localized (map : String) (s : Shared) : Prop where
  state : s.currentState = .localized
  selected : s.currentMap = map
  alive : s.isRunning .localization = true
  adapter : s.adapter.localized = true

theorem callback_next {goal : Sys → Prop} {s : Sys} (id : ℕ) {callback : Callback}
    (shared : Shared) (next : Option Callback) (hsome : s.callbacks id = some callback)
    (hstep : callback.step config {} s.shared = (shared, next))
    (h : CanReach (Sys.step config) Operates goal
      { s with shared := shared, callbacks := Function.update s.callbacks id next }) :
    CanReach (Sys.step config) Operates goal s := by
  refine .head (a := .callback id {}) trivial ?_ h
  simp only [Sys.step, hsome, Option.map_some, hstep]

/-- The first correction of a session confirms the localization. -/
theorem localized_of_relocalizes {map : String} {message validated : StampedPose}
    (hvalid : RelocalizationAdapter.validatePose config.math config.mapFrame message =
      .ok validated) (hstamp : 0 < message.stamp) {s : Sys} (hreach : Reachable config s)
    (h : Relocalizes config map s.shared) :
    CanReach (Sys.step config) Operates (fun s' ↦ Localized map s'.shared) s := by
  obtain ⟨⟨hstate, hselected, -, hnone, hstart⟩, halive⟩ := h
  obtain ⟨id, hfree⟩ := free_callback hreach
  have hdeliver : s.step config (.deliver id (.correction message)) =
      some (s.setCallback id (some (.correction message))) := by
    simp only [Sys.step, hfree]
    rfl
  refine .head (a := .deliver id (.correction message)) ⟨message, rfl⟩ hdeliver ?_
  let accepted : Shared := { s.shared with
    adapter := (s.shared.adapter.acceptCorrection message validated).1 }
  have haccepts : (s.shared.adapter.acceptCorrection message validated).2 = true := by
    simp [RelocalizationAdapter.acceptCorrection, hnone, hstart, hstamp.ne']
  apply callback_next id accepted (some .confirmState) (Function.update_self ..)
  · simp only [Callback.step, Sys.setCallback, hvalid, haccepts, if_true]
    rfl
  apply callback_next id accepted (some .confirmRunning) (Function.update_self ..)
  · simp only [Callback.step, show accepted.currentState = .relocalizing from hstate, if_true]
  apply callback_next id accepted (some .confirmTransition) (Function.update_self ..)
  · simp only [Callback.step, show accepted.isRunning .localization = true from halive, if_true]
  have hcan : accepted.currentState.canTransition .localized = true := by
    rw [show accepted.currentState = .relocalizing from hstate]
    rfl
  apply callback_next id (accepted.transitionTo .localized) (some .setLocalized)
    (Function.update_self ..)
  · simp only [Callback.step, hcan, if_true]
  let confirmed : Shared := { accepted.transitionTo .localized with
    adapter := (accepted.transitionTo .localized).adapter.setLocalized true }
  apply callback_next id confirmed none (Function.update_self ..)
  · rfl
  refine .refl ⟨currentState_transitionTo_of hcan, ?_, ?_, rfl⟩
  · exact (currentMap_transitionTo accepted .localized).trans hselected
  · change ((accepted.transitionTo .localized).processes .localization).alive = true
    rw [processes_transitionTo]
    exact halive

theorem reachable_operated {s s' : Sys} (h : ReachableUnstarted config s)
    (hsteps : Steps (Sys.step config) Operates s s') : ReachableUnstarted config s' :=
  Reaches.steps h (hsteps.mono fun _ _ _ ↦ trivial)

/-- A manager that rests in WAIT_MODE is free and has no leaders. -/
theorem waits_of_home {s : Sys} (hreach : ReachableUnstarted config s) (hrest : s.Resting)
    (hstate : s.shared.currentState = .waitMode) : Waits s.shared :=
  ⟨hstate, hreach.reachable.free hrest, quiet_of_wait hreach hstate⟩

theorem localized_of_home {map : String} {message validated : StampedPose}
    (hvalid : RelocalizationAdapter.validatePose config.math config.mapFrame message =
      .ok validated) (hstamp : 0 < message.stamp) {s : Sys} (hreach : ReachableUnstarted config s)
    (hrest : s.Resting) (hstate : s.shared.currentState = .waitMode)
    (hrecorded : Recorded config map s.shared.maps) :
    CanReach (Sys.step config) Operates (fun s' ↦ Localized map s'.shared) s := by
  refine (ready_of_waits hrest (waits_of_home hreach hrest hstate)).bind ?_
  rintro ready hticks ⟨hresting, -, hready⟩
  refine (relocalizes_of_ready hresting hready (hready.maps ▸ hrecorded)).bind ?_
  intro relocalizing hstarts hrelocalizes
  have hready := reachable_operated hreach hticks
  exact localized_of_relocalizes hvalid hstamp (reachable_operated hready hstarts).reachable
    hrelocalizes

/-- A map comes to be recorded and saved. -/
theorem saved_of_home (hframe : config.mapFrame ≠ "") {map : String} {s : Sys}
    (hreach : ReachableUnstarted config s) (hrest : s.Resting)
    (hstate : s.shared.currentState = .waitMode)
    (hrecordable : Recordable config map s.shared.maps) :
    CanReach (Sys.step config) Operates
      (fun s' ↦ s'.Resting ∧ s'.shared.currentState = .waitMode ∧
        Recorded config map s'.shared.maps) s := by
  refine (ready_of_waits hrest (waits_of_home hreach hrest hstate)).bind ?_
  rintro ready - ⟨hresting, -, hready⟩
  refine (records_of_ready hframe hresting hready (hready.maps ▸ hrecordable)).bind ?_
  rintro recording - ⟨hmapping, hrecords⟩
  exact saved_of_records hmapping hrecords

end Mission

end SlamSystemManager.Manager
