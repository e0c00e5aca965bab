import SlamSystemManager.Manager.Store

/-!
# The selected map

`current_map_` is written in nine places and the directories of the store are created and removed
in six. A map is selected only after the store has been asked for it, and both happen under the
operation token. A directory is removed under the token as well: `delete_map` has compared its map
with the selection, a start of mapping that fails on the operation thread has cleared the selection
first, and the one place that removes before it clears is inside a handler.
-/

open TransitionSystem

namespace SlamSystemManager.Manager

open MapManager

namespace Selection

/-! ## Assertions -/

/-- What a handler that is about to select or to remove a map has established. -/
def handler (s : Shared) : Handler → Prop
  | .deleteMap name .remove => s.currentMap ≠ name
  | .loadMap name (.select _) => mapExists s.maps name = true
  | .startMapping name (.checkOutput _) | .startMapping name (.select _) =>
    mapExists s.maps name = true
  | .startLocalization name .select => mapExists s.maps name = true
  | .launch (.startMapping _ _ (.cleanup _)) _ => False
  | _ => True

/-- The failed start of mapping whose directory is gone before the selection is cleared. -/
def clearing : Option Handler → Bool
  | some (.startMapping _ .unselect) => true
  | _ => false

/-- The selected map is one the store knows, now and when the threads have moved on. -/
structure Sound (s : Sys) : Prop where
  selected : s.shared.currentMap ≠ "" → clearing s.handler = false →
    mapExists s.shared.maps s.shared.currentMap = true
  handler : ∀ running, s.handler = some running → handler s.shared running
  cleanup : ∀ map created shouldTransition,
    s.operation = some (.startMapping map created (.cleanup shouldTransition)) →
    s.shared.currentMap = ""

/-! ## What the assertions rest on -/

theorem handler_of_idle (s : Shared) {running : Handler} (hidle : running.holdsToken = false) :
    handler s running := by
  cases running with
  | deleteMap name pc => cases pc <;> trivial
  | loadMap name pc => cases pc <;> trivial
  | startMapping name pc => cases pc <;> trivial
  | startLocalization name pc => cases pc <;> trivial
  | _ => trivial

/-- An assertion survives what leaves the selection and the known maps alone. -/
theorem handler_kept {s s' : Shared} (hmap : s'.currentMap = s.currentMap)
    (hexists : mapExists s'.maps = mapExists s.maps) {running : Handler}
    (h : handler s running) : handler s' running := by
  unfold handler at h ⊢
  split <;> simp_all

/-- A loaded map is known to the store. -/
theorem mapExists_of_loadMap {root : String} {store : MapStore} {name path : String}
    (h : loadMap root store name = .ok path) : mapExists store name = true := by
  have hvalid := valid_of_loadMap h
  simp only [loadMap, mapDirectory, hvalid, if_true, Bind.bind, Except.bind] at h
  cases hdirectory : directory? store name with
  | none =>
    simp only [hdirectory] at h
    cases h
  | some contents =>
    have hmetadata : contents.metadata.isSome = true := by
      by_contra hnone
      have hisNone : contents.metadata.isNone = true := by simpa using hnone
      simp only [hdirectory, hisNone, if_true] at h
      cases h
    simp [mapExists, hvalid, hdirectory, hmetadata]

theorem mapExists_of_createMap {mapFrame utcNow : String} {createError writeError : Option String}
    {store store' : MapStore} {name : String}
    (h : createMap mapFrame utcNow createError writeError store name = (store', .ok ())) :
    mapExists store' name = true := by
  rcases createMap_cases h with ⟨-, what, hwhat⟩ | ⟨-, hvalid, -, rfl⟩
  · cases hwhat
  · have hmetadata : (newDirectory mapFrame name utcNow).metadata.isSome = true := rfl
    simp [mapExists_insert store hvalid hmetadata]

/-! ## Handlers -/

/-- The assertions of the handlers alone, for the rules about what a handler continues with. -/
def outline : ProofOutline := ⟨fun _ _ ↦ True, handler⟩

theorem deleteMap_continues (env : Env) (name : String) (s : Shared) (pc : DeleteMap) :
    outline.Continues (pc.step env name s) := by
  cases pc with
  | acquire =>
    simp only [DeleteMap.step]
    split_ifs with hactive hselected
    · trivial
    · trivial
    · exact Ne.symm hselected
  | remove =>
    simp only [DeleteMap.step]
    split <;> trivial

theorem loadMap_continues (config : Config) (env : Env) (name : String) (s : Shared)
    (pc : LoadMap) :
    outline.Continues (pc.step config env name s) := by
  cases pc with
  | acquire =>
    simp only [LoadMap.step]
    split <;> trivial
  | load =>
    simp only [LoadMap.step]
    repeat' split
    · trivial
    · trivial
    · rename_i path hload
      exact mapExists_of_loadMap hload
  | select path => trivial

theorem startMapping_continues (config : Config) (env : Env) (name : String) (s : Shared)
    (pc : StartMappingRequest) (h : handler s (.startMapping name pc)) :
    outline.Continues (pc.step config env name s) := by
  cases pc with
  | findMap =>
    simp only [StartMappingRequest.step]
    repeat' split
    · trivial
    · rename_i hexists
      exact hexists
    · trivial
  | create =>
    simp only [StartMappingRequest.step]
    split
    · trivial
    · rename_i hcreate
      exact mapExists_of_createMap hcreate
  | checkOutput created =>
    simp only [StartMappingRequest.step]
    repeat' split
    · trivial
    · trivial
    · trivial
    · exact h
  | transition created =>
    simp only [StartMappingRequest.step]
    split
    · trivial
    · cases created <;> trivial
  | checkLocalization | checkMapping | saveService | acquire | select | cleanup | unselect =>
    simp only [StartMappingRequest.step, acquireForStart]
    repeat' split
    all_goals trivial

theorem startLocalization_continues (config : Config) (env : Env) (name : String) (s : Shared)
    (pc : StartLocalizationRequest) : outline.Continues (pc.step config env name s) := by
  cases pc with
  | load =>
    simp only [StartLocalizationRequest.step]
    repeat' split
    · trivial
    · trivial
    · rename_i path hload
      exact mapExists_of_loadMap hload
  | checkMapping | saveService | checkLocalization | acquire | select | resetSession | resetQuality
  | transition | unselect =>
    simp only [StartLocalizationRequest.step, acquireForStart]
    repeat' split
    all_goals trivial

/-- What a handler continues with meets its assertion. -/
theorem handler_continues (config : Config) (env : Env) {s : Shared} {running : Handler}
    (h : handler s running) : outline.Continues (running.step config env s) := by
  cases running with
  | deleteMap name pc => exact deleteMap_continues env name s pc
  | loadMap name pc => exact loadMap_continues config env name s pc
  | startMapping name pc => exact startMapping_continues config env name s pc h
  | startLocalization name pc => exact startLocalization_continues config env name s pc
  | launch operation reply => trivial
  | _ =>
    refine ProofOutline.continues_of_follows (Handler.follows config env _ _) ?_ (by simp)
    intro next hnext
    cases hnext <;> trivial

/-- A selection by a handler is of a known map. -/
theorem selected_handler (config : Config) (env : Env) {s : Sys} {running : Handler}
    (hsound : Sound s) (hhandler : s.handler = some running)
    (hmap : (running.step config env s.shared).1.currentMap ≠ "") :
    mapExists s.shared.maps (running.step config env s.shared).1.currentMap = true := by
  have hassertion := hsound.handler running hhandler
  rcases (running.effect config env s.shared).map with hsame | hwritten
  · rw [hsame] at hmap ⊢
    refine hsound.selected hmap ?_
    by_contra hclearing
    -- the step of a clearing handler writes the empty name
    rw [hhandler, Bool.not_eq_false] at hclearing
    unfold clearing at hclearing
    split at hclearing
    · rename_i name heq
      cases heq
      rw [← hsame] at hmap
      exact hmap rfl
    · cases hclearing
  · generalize (running.step config env s.shared).1.currentMap = selected at hmap hwritten ⊢
    cases running with
    | loadMap name pc =>
      cases pc with
      | select path =>
        cases hwritten
        exact hassertion
      | acquire | load => cases hwritten
    | startMapping name pc =>
      cases pc with
      | select created =>
        cases hwritten
        exact hassertion
      | unselect =>
        cases hwritten
        exact absurd rfl hmap
      | _ => cases hwritten
    | startLocalization name pc =>
      cases pc with
      | select =>
        cases hwritten
        exact hassertion
      | unselect =>
        cases hwritten
        exact absurd rfl hmap
      | _ => cases hwritten
    | _ => cases hwritten

/-- A handler that removes the selected map clears the selection next. -/
theorem not_removes_selected {config : Config} {env : Env} {s s' : Sys} {running : Handler}
    {r : HandlerNext} (hsound : Sound s) (hhandler : s.handler = some running)
    (hr : running.step config env s.shared = (s'.shared, r)) (hmove : s.HandlerMove s' running r)
    (hclearing : clearing s'.handler = false) :
    s.removes (.handler env) ≠ some s'.shared.currentMap := by
  intro hremoves
  have hassertion := hsound.handler running hhandler
  rcases MapInUse.removes_cases hremoves with
    ⟨_, other, -, hother, rfl | rfl⟩ | ⟨_, _, _, haction, -⟩
  · cases hhandler.symm.trans hother
    have hmap : s'.shared.currentMap = s.shared.currentMap := by
      rcases (Handler.effect_of_step hr).map with hsame | hwritten
      · exact hsame
      · cases hwritten
    exact hassertion hmap.symm
  · cases hhandler.symm.trans hother
    simp only [Handler.step, StartMappingRequest.step, Prod.mk.injEq] at hr
    obtain ⟨-, rfl⟩ := hr
    cases hmove with
    | next hnext =>
      rw [hnext] at hclearing
      cases hclearing
    | ended hnone => exact hnone _ rfl
  · cases haction

theorem Sound.handler_step {config : Config} {env : Env} {s s' : Sys} (hsound : Sound s)
    (htoken : s.Exclusive) (hstep : s.step config (.handler env) = some s') : Sound s' := by
  obtain ⟨running, r, hhandler, hr, hmove⟩ := Sys.handlerMove_of_step hstep
  have hcontinues := handler_continues config env (hsound.handler running hhandler)
  rw [hr] at hcontinues
  refine ⟨fun hmap hclearing ↦ ?_, fun next hnext ↦ ?_, fun map created target hcleanup ↦ ?_⟩
  · have hknown := selected_handler config env hsound hhandler (by rw [hr]; exact hmap)
    rw [hr] at hknown
    exact mapExists_kept hstep (not_removes_selected hsound hhandler hr hmove hclearing) hknown
  · cases hmove with
    | next hsome =>
      cases hsome.symm.trans hnext
      exact hcontinues
    | ended _ _ hnone => simp [hnone] at hnext
    | launched _ _ hnone => simp [hnone] at hnext
  · -- the operation thread runs, so the handler does not own the token
    have hkept {running' : Operation} (hoperation : s.operation = some running') :
        s'.shared.currentMap = s.shared.currentMap := by
      rcases (Handler.effect_of_step hr).map with hsame | hwritten
      · exact hsame
      · have hidle := htoken.of_operation hoperation
        simp [Sys.handlerHolds, hhandler, Handler.holdsToken_of_mapWritten hwritten] at hidle
    cases hmove with
    | next _ hsame | ended _ _ _ hsame =>
      rw [hsame] at hcleanup
      rw [hkept hcleanup]
      exact hsound.cleanup map created target hcleanup
    | launched hlaunch _ _ hoperation =>
      rw [hoperation] at hcleanup
      cases hcleanup
      subst hlaunch
      exact (hsound.handler _ hhandler).elim

/-! ## The operation thread -/

/-- A start of mapping is about to remove a directory when it has just cleared the selection. -/
theorem currentMap_of_cleanup {config : Config} {env : Env} {s : Shared} {running : Operation}
    {map : String} {created shouldTransition : Bool}
    (h : (running.step config env s).2 =
      some (.startMapping map created (.cleanup shouldTransition))) :
    (running.step config env s).1.currentMap = "" := by
  rcases running.step_cases config env s with ⟨hrun, -⟩ | ⟨-, -, code, what, hthrow⟩
  · rw [hrun] at h ⊢
    by_cases hlast : running = .finish
    · subst hlast
      cases h
    · obtain ⟨shared, next, hnext, hcontinues⟩ := Operation.run_effect config env s hlast
      have hfollows := hcontinues.follows
      have hcleanup := h
      rw [hnext] at hcleanup
      cases hcleanup
      cases hfollows with
      | startMapping _ _ pc =>
        cases pc with
        | unselect => rfl
        | stopTimedOut stage | stopAborted stage =>
          simp only [Operation.run, StartMapping.step, Prod.map] at h
          split at h <;> cases h
        | _ =>
          simp only [Operation.run, StartMapping.step, Prod.map, errorOrFinish] at h
          repeat' split at h
          all_goals simp_all
  · rw [hthrow] at h
    cases h

theorem Sound.operation_step {config : Config} {env : Env} {s s' : Sys} (hsound : Sound s)
    (htoken : s.Exclusive) (hstep : s.step config (.operation env) = some s') : Sound s' := by
  obtain ⟨running, hoperation, hafter⟩ := Option.map_eq_some_iff.mp hstep
  obtain ⟨hr, hhandler⟩ := Sys.step_operation hoperation hstep
  have hidle := htoken.of_operation hoperation
  have hmap : s'.shared.currentMap = s.shared.currentMap ∨ s'.shared.currentMap = "" := by
    rcases running.effect config env s.shared with ⟨-, hend⟩ | ⟨-, shared, next, hnext, hcontinues⟩
    · rw [hend] at hr
      rw [← (Prod.mk.inj hr).1]
      exact Or.inl rfl
    · rw [hnext] at hr
      rw [← (Prod.mk.inj hr).1]
      rcases hcontinues.effect.map with hsame | ⟨-, hcleared⟩
      · exact Or.inl hsame
      · exact Or.inr hcleared
  refine ⟨fun hne hclearing ↦ ?_, fun next hnext ↦ ?_, fun map created target hcleanup ↦ ?_⟩
  · rcases hmap with hsame | hcleared
    · rw [hsame] at hne ⊢
      refine mapExists_kept hstep (fun hremoves ↦ ?_) (hsound.selected hne (hhandler ▸ hclearing))
      rcases MapInUse.removes_cases hremoves with ⟨_, _, haction, -⟩ | ⟨_, _, _, -, hcleanup⟩
      · cases haction
      · exact hne (hsound.cleanup _ _ _ hcleanup)
    · exact absurd hcleared hne
  · rw [hhandler] at hnext
    refine handler_of_idle _ ?_
    simpa [Sys.handlerHolds, hnext] using hidle
  · have hcleared := @currentMap_of_cleanup config env s.shared running map created target
    rw [hr] at hcleared
    exact hcleared hcleanup

/-! ## Runs -/

theorem Sound.step {config : Config} {s s' : Sys} {a : Action} (hsound : Sound s)
    (htoken : s.Exclusive) (hstep : s.step config a = some s') : Sound s' := by
  cases a with
  | handler env => exact hsound.handler_step htoken hstep
  | operation env => exact hsound.operation_step htoken hstep
  | call request =>
    obtain ⟨hnone, rfl⟩ := Sys.call_of_step hstep
    refine ⟨fun hmap _ ↦ hsound.selected hmap (by rw [hnone]; rfl), fun running hrunning ↦ ?_,
      hsound.cleanup⟩
    cases hrunning
    exact handler_of_idle _ request.holdsToken_handler
  | deliver | callback | observe | exit | writeMap | takeSave | writeSave =>
    have hother := bystander_of_step hstep (by simp) (by simp) (by simp)
    have hmap := hother.interference.map
    have hexists := (storeMove_of_step hstep).mapExists rfl (by simp)
    refine ⟨?_, fun running hrunning ↦ ?_, ?_⟩
    · rw [hmap, hother.handler, hexists]
      exact hsound.selected
    · rw [hother.handler] at hrunning
      exact handler_kept hmap hexists (hsound.handler running hrunning)
    · rw [hmap, hother.operation]
      exact hsound.cleanup

theorem sound_of_reachable {config : Config} {s : Sys} (h : Reachable config s) : Sound s := by
  refine Reaches.invariant_of (fun s hs ↦ Reachable.exclusive hs) (fun s hinit ↦ ?_)
    (fun s a s' htoken hsound _ hstep ↦ hsound.step htoken hstep) h
  exact ⟨by simp [hinit.map], by simp [hinit.handler], by simp [hinit.operation]⟩

end Selection

/-- Whenever no handler is midway, and wherever the operation thread stands, a map that is selected
has a valid name and its directory with metadata is in the store. -/
theorem selected_map_exists (config : Config) (s : Sys) (h : Reachable config s)
    (hhandler : s.handler = none) (hmap : s.shared.currentMap ≠ "") :
    isValidMapName s.shared.currentMap = true ∧
      ∃ contents, directory? s.shared.maps s.shared.currentMap = some contents ∧
        contents.metadata.isSome = true := by
  have hknown := (Selection.sound_of_reachable h).selected hmap (by rw [hhandler]; rfl)
  obtain ⟨hvalid, hdirectory⟩ := Bool.and_eq_true_iff.mp hknown
  obtain ⟨contents, hcontents, hmetadata⟩ := (Option.any_eq_true _ _).mp hdirectory
  exact ⟨hvalid, contents, hcontents, hmetadata⟩

/-- In MAPPING the map that the start has created is selected. -/
theorem selected_map_exists_mapping :
    ∃ s, Reachable {} s ∧ s.shared.currentMap = "m" ∧
      ∃ contents, directory? s.shared.maps s.shared.currentMap = some contents ∧
        contents.metadata.isSome = true := by
  obtain ⟨s, hreach, htest⟩ := exists_of_exec {} ∅ (toWaitMode ++ launchMapping "m" ++ enterMapping)
    (fun s ↦ s.handler.isNone && decide (s.shared.currentMap = "m")) (by decide +kernel)
  simp only [Bool.and_eq_true, Option.isNone_iff_eq_none, decide_eq_true_eq] at htest
  obtain ⟨hhandler, hmap⟩ := htest
  exact ⟨s, hreach, hmap, (selected_map_exists {} s hreach hhandler (by simp [hmap])).2⟩

end SlamSystemManager.Manager
