import Mathlib.Data.Finset.Option
import SlamSystemManager.Manager.SessionMap
import SlamSystemManager.Manager.Store

/-!
# Saved maps

`saveMap` of the adapter removes the file it is about to ask for, whatever is in it. What keeps a
saved map from being removed is a chain of facts in different places: a start of mapping is refused
when its map has a file, no leader is alive between that check and the fork, the map selected in
MAPPING is the one the leader was started with, and a map is marked as saved in the session that has
written it only.
-/

open TransitionSystem

namespace SlamSystemManager.Manager

open MapManager

/-! ## The lives of the manager -/

inductive LifeAction where
  | run (a : Action)
  /-- The manager ends and is constructed anew; an automatic start may fail, and either leader may
  be started automatically. -/
  | restart (autoStartFailed : Bool) (processes : Leader → Process := fun _ ↦ {})

/-- The manager over its restarts. `stopAll` has ended the leaders of one life before the next, and
the constructor leaves the maps it finds as they are. -/
def Sys.live (config : Config) (s : Sys) : LifeAction → Option Sys
  | .run a => s.step config a
  | .restart autoStartFailed processes =>
    if s.shared.isRunning .mapping || s.shared.isRunning .localization then none
    else
      some (if autoStartFailed then Sys.failedStart s.shared.maps processes
        else Sys.initial s.shared.maps processes)

/-! ## The history of the maps -/

/-- The map a step marks as saved. -/
def Sys.marksSaved (config : Config) (s : Sys) : LifeAction → Option String
  | .run (.operation env) =>
    match s.operation with
    | some (.saveMap map .markSaved) =>
      if env.throws.isNone && (MapManager.markMapSaved config.mapRoot env.text env.failure
          s.shared.maps map).2.isOk then some map
      else none
    | _ => none
  | _ => none

/-- The map whose deletion a request executes; one that fails may have removed a part of it. -/
def Sys.deletes (s : Sys) : LifeAction → Option String
  | .run (.handler _) =>
    match s.handler with
    | some (.deleteMap map .remove) => some map
    | _ => none
  | _ => none

/-- The map whose session of mapping a step accepts. -/
def Sys.acceptsMapping (s : Sys) : LifeAction → Option String
  | .run (.handler _) =>
    match s.handler with
    | some (.startMapping map (.transition _)) =>
      if s.shared.currentState.canTransition .mappingStarting then some map else none
    | _ => none
  | _ => none

structure MapHistory where
  /-- The maps marked as saved whose deletion has not been executed since. -/
  saved : Finset String := ∅
  /-- The map of the session of mapping accepted last, with the file it had then. -/
  session : Option (String × Option (List UInt8)) := none

def MapHistory.note (config : Config) (h : MapHistory) (s : Sys) (a : LifeAction) (_ : Sys) :
    MapHistory :=
  { saved := (h.saved ∪ (s.marksSaved config a).toFinset) \ (s.deletes a).toFinset
    session :=
      (s.acceptsMapping a).elim h.session fun map ↦ some (map, output? s.shared.maps map) }

/-- The manager over its restarts beside the history of its maps. -/
abbrev mapStep (config : Config) : Sys × MapHistory → LifeAction → Option (Sys × MapHistory) :=
  noting (Sys.live config) (MapHistory.note config)

/-! ## Assertions -/

/-- The session accepted last is that of the map, which had no file then and has not been saved
since. -/
structure MapHistory.Fresh (h : MapHistory) (map : String) : Prop where
  session : h.session = some (map, none)
  unsaved : map ∉ h.saved

namespace SavedMaps

/-- A start and a save are for the map of the session, a save until it has marked the map. -/
def operation (h : MapHistory) : Operation → Prop
  | .saveMap _ (.stop _ _ _) | .saveMap _ (.report _ _ _) | .saveMap _ (.checkState _)
  | .saveMap _ .toWait => True
  | .startMapping map _ _ | .saveMap map _ => h.Fresh map
  | _ => True

def handler (h : MapHistory) (s : Shared) : Handler → Prop
  | .startMapping name (.select _) | .startMapping name (.transition _)
  | .startMapping name .cleanup => output? s.maps name = none
  | .saveMap (.transition map) | .saveMap (.path map) => h.Fresh map
  | .launch launched _ => operation h launched
  | _ => True

structure Guarded (s : Sys) (h : MapHistory) : Prop where
  kept : ∀ name ∈ h.saved, (output? s.shared.maps name).isSome = true
  mapping : s.shared.currentState = .mapping → h.Fresh (s.shared.processes .mapping).mapName
  operation : ∀ running, s.operation = some running → operation h running
  handler : ∀ running, s.handler = some running → handler h s.shared running

/-! ## What is noted -/

theorem marksSaved_eq_some {config : Config} {s : Sys} {a : LifeAction} {map : String}
    (h : s.marksSaved config a = some map) :
    ∃ env, a = .run (.operation env) ∧ s.operation = some (.saveMap map .markSaved) ∧
      env.throws = none ∧
      (MapManager.markMapSaved config.mapRoot env.text env.failure s.shared.maps map).2.isOk =
        true := by
  unfold Sys.marksSaved at h
  split at h
  · split at h
    · rename_i env _ other hoperation
      simp only [Option.ite_none_right_eq_some, Bool.and_eq_true, Option.isNone_iff_eq_none,
        Option.some.injEq] at h
      obtain ⟨⟨hthrows, hok⟩, rfl⟩ := h
      exact ⟨env, rfl, hoperation, hthrows, hok⟩
    · cases h
  · cases h

theorem acceptsMapping_eq_some {s : Sys} {a : LifeAction} {map : String}
    (h : s.acceptsMapping a = some map) :
    ∃ env created, a = .run (.handler env) ∧
      s.handler = some (.startMapping map (.transition created)) ∧
      s.shared.currentState.canTransition .mappingStarting = true := by
  unfold Sys.acceptsMapping at h
  split at h
  · split at h
    · rename_i env _ other created hhandler
      simp only [Option.ite_none_right_eq_some, Option.some.injEq] at h
      obtain ⟨hcan, rfl⟩ := h
      exact ⟨env, created, rfl, hhandler, hcan⟩
    · cases h
  · cases h

theorem mem_saved_note {config : Config} {h : MapHistory} {s s' : Sys} {a : LifeAction}
    {name : String} : name ∈ (h.note config s a s').saved ↔
      (name ∈ h.saved ∨ s.marksSaved config a = some name) ∧ s.deletes a ≠ some name := by
  simp [MapHistory.note]

/-- Only the acceptance of another session and the save of a map make it stale. -/
theorem fresh_note {config : Config} {h : MapHistory} {s : Sys} {a : LifeAction} {map : String}
    (hfresh : h.Fresh map) (haccepts : s.acceptsMapping a = none)
    (hmarks : s.marksSaved config a ≠ some map) (s' : Sys) :
    (h.note config s a s').Fresh map := by
  refine ⟨?_, fun hsaved ↦ ?_⟩
  · simp [MapHistory.note, haccepts, hfresh.session]
  · rcases (mem_saved_note.mp hsaved).1 with hbefore | hmarked
    · exact hfresh.unsaved hbefore
    · exact hmarks hmarked

theorem note_eq_self {config : Config} {h : MapHistory} {s : Sys} {a : LifeAction}
    (hmarks : s.marksSaved config a = none) (hdeletes : s.deletes a = none)
    (haccepts : s.acceptsMapping a = none) (s' : Sys) : h.note config s a s' = h := by
  simp [MapHistory.note, hmarks, hdeletes, haccepts]

/-! ## The file of a saved map -/

theorem output?_of_fresh {s : Sys} {h : MapHistory} (hguarded : Guarded s h) {name : String}
    (hnone : output? s.shared.maps name = none) : name ∉ h.saved := by
  intro hsaved
  have hkept := hguarded.kept name hsaved
  simp [hnone] at hkept

/-- Apart from the mapping leader nothing touches the file of a saved map that is not deleted. -/
theorem output?_step {config : Config} {s s' : Sys} {h : MapHistory} {a : Action} {name : String}
    (hguarded : Guarded s h) (hstep : s.step config a = some s') (hsaved : name ∈ h.saved)
    (hdeletes : s.deletes (.run a) ≠ some name) :
    output? s'.shared.maps name = output? s.shared.maps name ∨
      ∃ bytes, a = .writeMap bytes ∧ output? s'.shared.maps name = some bytes := by
  have hkept := hguarded.kept name hsaved
  cases outputMove_of_step hstep name with
  | same hsame => exact Or.inl hsame
  | created env running _ _ _ hnew =>
    simp [output?, hnew] at hkept
  | removed hremoves =>
    rcases MapInUse.removes_cases hremoves with
      ⟨env, running, rfl, hhandler, rfl | rfl⟩ | ⟨env, created, target, rfl, hoperation⟩
    · exact absurd (by simp [Sys.deletes, hhandler]) hdeletes
    · have hnone : output? s.shared.maps name = none := hguarded.handler _ hhandler
      simp [hnone] at hkept
    · have hfresh : h.Fresh name := hguarded.operation _ hoperation
      exact absurd hsaved hfresh.unsaved
  | cleared env _ hoperation =>
    have hfresh : h.Fresh name := hguarded.operation _ hoperation
    exact absurd hsaved hfresh.unsaved
  | written bytes haction _ _ _ hwritten => exact Or.inr ⟨bytes, haction, hwritten⟩

/-- A map that is marked as saved has a file. -/
theorem output?_of_marksSaved {config : Config} {s s' : Sys} {a : Action} {name : String}
    (hstep : s.step config a = some s') (hmarks : s.marksSaved config (.run a) = some name) :
    (output? s'.shared.maps name).isSome = true := by
  obtain ⟨env, haction, hoperation, -, hok⟩ := marksSaved_eq_some hmarks
  cases haction
  have hbefore : (output? s.shared.maps name).isSome = true := by
    rcases hmark : MapManager.markMapSaved config.mapRoot env.text env.failure s.shared.maps name
      with ⟨maps, result⟩
    rw [hmark] at hok
    rcases markMapSaved_cases hmark with ⟨-, what, rfl⟩ | ⟨-, -, contents, -, hexists, hsaved, -⟩
    · cases hok
    · cases hpcd : contents.mapPcd with
      | none => simp [hpcd] at hsaved
      | some bytes => simp [output?, hexists, hpcd]
  cases outputMove_of_step hstep name with
  | same hsame => rwa [hsame]
  | removed hremoves => simp [Sys.removes, hoperation] at hremoves
  | cleared _ _ hclears => simp [hoperation] at hclears
  | created _ _ haction => cases haction
  | written _ haction => cases haction

theorem Guarded.kept_step {config : Config} {s s' : Sys} {h : MapHistory} {a : Action}
    (hguarded : Guarded s h) (hstep : s.step config a = some s') {name : String}
    (hsaved : name ∈ (h.note config s (.run a) s').saved) :
    (output? s'.shared.maps name).isSome = true := by
  obtain ⟨hbefore | hmarks, hdeletes⟩ := mem_saved_note.mp hsaved
  · rcases output?_step hguarded hstep hbefore hdeletes with hsame | ⟨bytes, -, hwritten⟩
    · rw [hsame]
      exact hguarded.kept name hbefore
    · simp [hwritten]
  · exact output?_of_marksSaved hstep hmarks

/-! ## The operation thread -/

theorem saveMap_step (config : Config) (env : Env) {h : MapHistory} {map : String} {s : Shared}
    {pc : SaveMap} (hassertion : operation h (.saveMap map pc)) :
    operation h (pc.step config env map s).2 := by
  cases pc with
  | checkRunning | serviceReady | removeOutput | request | checkOutput =>
    simp only [SaveMap.step]
    repeat' split
    all_goals first | exact hassertion | trivial
  | markSaved | stop | report | checkState | toWait =>
    simp only [SaveMap.step]
    repeat' split
    all_goals trivial

theorem operation_next (config : Config) (env : Env) {h : MapHistory} {s : Shared}
    {running next : Operation} (hassertion : operation h running)
    (hnext : (running.step config env s).2 = some next) : operation h next := by
  have hkept := running.step_rule (P := fun _ after ↦ ∀ next, after = some next → operation h next)
    config env s (fun _ _ _ hfail ↦ by cases hfail; trivial) (by simp)
    fun s' next hrun _ hcontinues other hsome ↦ ?_
  · exact hkept next hnext
  · cases hsome
    cases hcontinues.follows with
    | startMapping map created pc pc' => exact hassertion
    | saveMap map pc pc' =>
      have hstep : operation h (pc.step config env map s).2 := saveMap_step config env hassertion
      have hnext : (pc.step config env map s).2 = .saveMap map pc' :=
        Option.some.inj (congrArg Prod.snd hrun)
      rwa [hnext] at hstep
    | _ => trivial

/-- Nothing is asserted about a save that has marked its map. -/
theorem operation_marked (config : Config) (env : Env) (h : MapHistory) {map : String} {s : Shared}
    {next : Operation}
    (hnext : (Operation.step config env s (.saveMap map .markSaved)).2 = some next) :
    operation h next := by
  cases hthrows : env.throws with
  | some what =>
    simp only [Operation.step, hthrows, Operation.isBody, if_true, Option.some.injEq] at hnext
    subst hnext
    trivial
  | none =>
    simp only [Operation.step, hthrows, Operation.run, SaveMap.step, Prod.map] at hnext
    split at hnext <;> cases hnext <;> trivial

theorem state_marked (config : Config) (env : Env) (s : Shared) (map : String) :
    (Operation.step config env s (.saveMap map .markSaved)).1.currentState = s.currentState := by
  refine Operation.step_rule (P := fun s' _ ↦ s'.currentState = s.currentState) config env s _
    (fun _ _ ↦ rfl) (fun hfinish ↦ by cases hfinish) fun s' next _ _ hcontinues ↦ ?_
  rcases hcontinues.effect.state with hsame | ⟨htarget, -⟩
  · exact hsame
  · cases htarget

/-- Only the owner of the token has anything asserted about it. -/
theorem handler_of_idle {h : MapHistory} {s : Shared} {hd : Handler}
    (hidle : hd.holdsToken = false) : handler h s hd := by
  cases hd with
  | startMapping name pc => cases pc <;> trivial
  | saveMap pc => cases pc <;> trivial
  | launch => cases hidle
  | _ => trivial

/-- In MAPPING no operation forks a leader. -/
theorem forks_of_mapping {running : Operation} {state : SystemState}
    (hphase : Phase.operation running state = true) (hstate : state = .mapping) :
    running.forks = none := by
  subst hstate
  cases running with
  | startMapping map created pc => cases pc <;> cases hphase
  | startLocalization map pc => cases hphase
  | _ => rfl

/-- MAPPING is entered by a start for the map of its leader. -/
theorem mapping_operation (config : Config) (env : Env) {h : MapHistory} {s : Sys}
    {running : Operation} (hreach : Reachable config s) (hguarded : Guarded s h)
    (hrunning : s.operation = some running)
    (hafter : (running.step config env s.shared).1.currentState = .mapping) :
    h.Fresh (((running.step config env s.shared).1.processes .mapping).mapName) := by
  have hassertion := hguarded.operation running hrunning
  have hphase := hreach.phase.operation running hrunning
  refine running.step_rule (P := fun s' _ ↦ s'.currentState = .mapping →
      h.Fresh ((s'.processes .mapping).mapName)) config env s.shared
    (fun _ _ ↦ hguarded.mapping) (fun _ ↦ hguarded.mapping)
    (fun s' next _ _ hcontinues hstate ↦ ?_) hafter
  rcases hcontinues.effect.state with hsame | ⟨htarget, -⟩
  · have hbefore : s.shared.currentState = .mapping := hsame.symm.trans hstate
    have hforks := forks_of_mapping hphase hbefore
    rw [SessionMap.mapName_of_effect (hforks ▸ hcontinues.effect.process)]
    exact hguarded.mapping hbefore
  · rw [hstate] at htarget
    cases running with
    | startMapping map created pc =>
      cases pc <;> cases htarget
      have hsession := hreach.mappingSession.running
      rw [SessionMap.underWay_of_idle (hreach.exclusive.of_operation hrunning), hrunning]
        at hsession
      rw [SessionMap.mapName_of_effect hcontinues.effect.process]
      exact hsession ▸ hassertion
    | startLocalization map pc => cases pc <;> cases htarget
    | stopMapping pc => cases pc <;> cases htarget
    | saveMap map pc => cases pc <;> cases htarget
    | stopLocalization pc => cases pc <;> cases htarget
    | recovery pc =>
      have hmode := hreach.modeExclusion.operation.2
      rw [hrunning] at hmode
      cases pc with
      | resume target =>
        cases htarget
        cases hmode.2
      | _ => cases htarget
    | _ => cases htarget

theorem Guarded.operation_step {config : Config} {env : Env} {s s' : Sys} {h : MapHistory}
    (hguarded : Guarded s h) (hreach : Reachable config s)
    (hstep : s.step config (.operation env) = some s') :
    Guarded s' (h.note config s (.run (.operation env)) s') := by
  obtain ⟨running, hrunning, -⟩ := Option.map_eq_some_iff.mp hstep
  obtain ⟨hnext, hsame⟩ := Sys.step_operation hrunning hstep
  have hassertion := hguarded.operation running hrunning
  have hidle := hreach.exclusive.of_operation hrunning
  refine ⟨fun name ↦ hguarded.kept_step hstep, fun hstate ↦ ?_, fun next hsome ↦ ?_,
    fun hd hhandler ↦ ?_⟩
  · cases hmarks : s.marksSaved config (.run (.operation env)) with
    | none =>
      have hfresh := mapping_operation config env hreach hguarded hrunning
      rw [hnext] at hfresh
      rw [note_eq_self hmarks rfl rfl]
      exact hfresh hstate
    | some map =>
      obtain ⟨_, -, hsaves, -⟩ := marksSaved_eq_some hmarks
      cases hrunning.symm.trans hsaves
      have hphase := hreach.phase.operation _ hrunning
      have hbefore := state_marked config env s.shared map
      rw [hnext, hstate] at hbefore
      rw [← hbefore] at hphase
      cases hphase
  · cases hmarks : s.marksSaved config (.run (.operation env)) with
    | none =>
      rw [note_eq_self hmarks rfl rfl]
      exact operation_next config env hassertion (hsome ▸ congrArg Prod.snd hnext)
    | some map =>
      obtain ⟨_, -, hsaves, -⟩ := marksSaved_eq_some hmarks
      cases hrunning.symm.trans hsaves
      exact operation_marked config env _ (hsome ▸ congrArg Prod.snd hnext)
  · rw [hsame] at hhandler
    exact handler_of_idle (by simpa [Sys.handlerHolds, hhandler] using hidle)

/-! ## Handlers -/

/-- An assertion about an operation survives the steps of the handlers that accept no session. -/
theorem operation_note {config : Config} {env : Env} {h : MapHistory} {s : Sys}
    {running : Operation} (hassertion : operation h running)
    (haccepts : s.acceptsMapping (.run (.handler env)) = none) (s' : Sys) :
    operation (h.note config s (.run (.handler env)) s') running := by
  have hfresh {map : String} (hmap : h.Fresh map) :
      (h.note config s (.run (.handler env)) s').Fresh map :=
    fresh_note hmap haccepts (by simp [Sys.marksSaved]) s'
  cases running with
  | startMapping map created pc => exact hfresh hassertion
  | saveMap map pc => cases pc <;> first | trivial | exact hfresh hassertion
  | _ => trivial

/-- The handler that goes on with a start of mapping has found no file. -/
theorem startMapping_continues {config : Config} {env : Env} {h h' : MapHistory} {s s' : Shared}
    {name : String} {pc pc' : StartMappingRequest}
    (hassertion : handler h s (.startMapping name pc))
    (hstep : Handler.step config env s (.startMapping name pc) =
      (s', .next (.startMapping name pc'))) : handler h' s' (.startMapping name pc') := by
  cases pc with
  | checkLocalization | checkMapping | saveService | acquire | findMap | create =>
    simp only [Handler.step, StartMappingRequest.step, acquireForStart] at hstep
    repeat' split at hstep
    all_goals cases hstep; try trivial
  | checkOutput created =>
    simp only [Handler.step, StartMappingRequest.step] at hstep
    split at hstep
    · cases hstep
    · repeat' split at hstep
      all_goals cases hstep
      rename_i hnone
      simpa [handler, output?] using hnone
  | select created =>
    cases hstep
    exact hassertion
  | transition created =>
    simp only [Handler.step, StartMappingRequest.step, Prod.mk.injEq] at hstep
    obtain ⟨rfl, hgoes⟩ := hstep
    split at hgoes <;> cases hgoes
    split
    · exact (congrArg (output? · name) (maps_transitionTo s _)).trans hassertion
    · trivial
  | cleanup | unselect =>
    cases hstep
    try trivial

/-- A save is requested in MAPPING, for the map the leader was started with. -/
theorem fresh_of_acquire {config : Config} {s : Sys} {h : MapHistory}
    (hreach : Reachable config s) (hguarded : Guarded s h)
    (hhandler : s.handler = some (.saveMap .acquire)) (hstate : s.shared.currentState = .mapping)
    (hfree : s.shared.operationInProgress = false) : h.Fresh s.shared.currentMap := by
  have hsession := hreach.mappingSession.running
  rw [SessionMap.underWay_of_ne (by simp [hhandler]), (hreach.exclusive.free hfree).2] at hsession
  rw [(hsession.map .mapping rfl (by rw [hstate]; rfl)).1]
  exact hguarded.mapping hstate

theorem saveMap_continues {config : Config} {env : Env} {s : Sys} {h : MapHistory} {s' : Shared}
    {pc pc' : SaveMapRequest} (hreach : Reachable config s) (hguarded : Guarded s h)
    (hhandler : s.handler = some (.saveMap pc))
    (hstep : Handler.step config env s.shared (.saveMap pc) = (s', .next (.saveMap pc'))) :
    handler h s' (.saveMap pc') := by
  have hassertion := hguarded.handler _ hhandler
  cases pc with
  | acquire =>
    simp only [Handler.step, SaveMapRequest.step] at hstep
    split_ifs at hstep with hstate hfree
    · cases hstep
    · cases hstep
    · cases hstep
      exact fresh_of_acquire hreach hguarded hhandler (not_not.mp hstate) (by simpa using hfree)
  | transition map =>
    simp only [Handler.step, SaveMapRequest.step, Prod.mk.injEq] at hstep
    obtain ⟨rfl, hgoes⟩ := hstep
    split at hgoes <;> cases hgoes
    exact hassertion
  | path map =>
    simp only [Handler.step, SaveMapRequest.step] at hstep
    split at hstep <;> cases hstep

/-- A session that is accepted is that of a map without a file. -/
theorem fresh_of_accepted {config : Config} {s : Sys} {h : MapHistory} {env : Env} {name : String}
    {created : Bool} (hguarded : Guarded s h)
    (hhandler : s.handler = some (.startMapping name (.transition created)))
    (hcan : s.shared.currentState.canTransition .mappingStarting = true) (s' : Sys) :
    (h.note config s (.run (.handler env)) s').Fresh name := by
  have hnone : output? s.shared.maps name = none := hguarded.handler _ hhandler
  refine ⟨?_, fun hsaved ↦ output?_of_fresh hguarded hnone ?_⟩
  · simp [MapHistory.note, Sys.acceptsMapping, hhandler, hcan, hnone]
  · simpa [Sys.marksSaved] using (mem_saved_note.mp hsaved).1

theorem launch_continues {config : Config} {env : Env} {s : Sys} {h : MapHistory} {shared : Shared}
    {hd : Handler} {launched : Operation} {reply : Option Reply} (hguarded : Guarded s h)
    (hhandler : s.handler = some hd)
    (hstep : hd.step config env s.shared = (shared, .next (.launch launched reply))) (s' : Sys) :
    operation (h.note config s (.run (.handler env)) s') launched := by
  have hfollows := Handler.follows_of_step hstep
  cases hfollows with
  | launchStartMapping name created reply =>
    simp only [Handler.step, StartMappingRequest.step, Prod.mk.injEq] at hstep
    split at hstep
    · rename_i hcan
      exact fresh_of_accepted hguarded hhandler hcan s'
    · cases hstep.2
  | launchSaveMap map reply =>
    have hfresh : h.Fresh map := hguarded.handler _ hhandler
    exact fresh_note hfresh (by simp [Sys.acceptsMapping, hhandler]) (by simp [Sys.marksSaved]) s'
  | _ => trivial

theorem handler_continues {config : Config} {env : Env} {s : Sys} {h : MapHistory}
    {shared : Shared} {hd next : Handler} (hreach : Reachable config s) (hguarded : Guarded s h)
    (hhandler : s.handler = some hd) (hstep : hd.step config env s.shared = (shared, .next next))
    (s' : Sys) : handler (h.note config s (.run (.handler env)) s') shared next := by
  have hassertion := hguarded.handler hd hhandler
  have hfollows := Handler.follows_of_step hstep
  cases hfollows with
  | startMapping name pc pc' => exact startMapping_continues hassertion hstep
  | saveMap pc pc' =>
    rw [note_eq_self rfl (by simp [Sys.deletes, hhandler]) (by simp [Sys.acceptsMapping, hhandler])]
    exact saveMap_continues hreach hguarded hhandler hstep
  | launchStartMapping | launchStartLocalization | launchStopMapping | launchSaveMap
  | launchStopLocalization | launchStopAfterFailure | launchRecovery =>
    exact launch_continues hguarded hhandler hstep s'
  | _ => trivial

/-- Outside the acceptance of a session MAPPING and its leader are as they were. -/
theorem mapping_handler {config : Config} {env : Env} {s s' : Sys} {h : MapHistory} {hd : Handler}
    (hguarded : Guarded s h) (hshared : s'.shared = (hd.step config env s.shared).1)
    (hstate : s'.shared.currentState = .mapping) :
    (h.note config s (.run (.handler env)) s').Fresh (s'.shared.processes .mapping).mapName := by
  have heffect := hd.effect config env s.shared
  rw [hshared] at hstate ⊢
  have hbefore : s.shared.currentState = .mapping := by
    rcases heffect.state with hsame | ⟨htarget, -⟩
    · exact hsame.symm.trans hstate
    · rw [hstate] at htarget
      unfold Handler.target at htarget
      split at htarget <;> cases htarget
  have haccepts : s.acceptsMapping (.run (.handler env)) = none := by
    cases haccepts : s.acceptsMapping (.run (.handler env)) with
    | none => rfl
    | some map =>
      obtain ⟨_, _, -, -, hcan⟩ := acceptsMapping_eq_some haccepts
      rw [hbefore] at hcan
      cases hcan
  rw [heffect.processes]
  exact fresh_note (hguarded.mapping hbefore) haccepts (by simp [Sys.marksSaved]) s'

/-- While an operation runs no session is accepted. -/
theorem acceptsMapping_of_operation {config : Config} {s : Sys} {running : Operation} {env : Env}
    (hreach : Reachable config s) (hrunning : s.operation = some running) :
    s.acceptsMapping (.run (.handler env)) = none := by
  cases haccepts : s.acceptsMapping (.run (.handler env)) with
  | none => rfl
  | some map =>
    obtain ⟨_, created, -, hhandler, -⟩ := acceptsMapping_eq_some haccepts
    have hended := hreach.exclusive.alone
      (by simp [Sys.handlerHolds, hhandler, Handler.holdsToken])
    rw [hrunning] at hended
    cases hended

theorem Guarded.handler_step {config : Config} {env : Env} {s s' : Sys} {h : MapHistory}
    (hguarded : Guarded s h) (hreach : Reachable config s)
    (hstep : s.step config (.handler env) = some s') :
    Guarded s' (h.note config s (.run (.handler env)) s') := by
  obtain ⟨hd, r, hhandler, hr, hmove⟩ := Sys.handlerMove_of_step hstep
  have hsaved (name : String)
      (hname : name ∈ (h.note config s (.run (.handler env)) s').saved) :
      (output? s'.shared.maps name).isSome = true := hguarded.kept_step hstep hname
  have hmapping : s'.shared.currentState = .mapping →
      (h.note config s (.run (.handler env)) s').Fresh (s'.shared.processes .mapping).mapName :=
    mapping_handler hguarded (by rw [hr])
  have hkept (running : Operation) (hrunning : s.operation = some running) :
      SavedMaps.operation (h.note config s (.run (.handler env)) s') running :=
    operation_note (hguarded.operation running hrunning)
      (acceptsMapping_of_operation hreach hrunning) s'
  cases hmove with
  | next hafter hsame =>
    refine ⟨hsaved, hmapping, hsame ▸ hkept, fun other hother ↦ ?_⟩
    cases hafter.symm.trans hother
    exact handler_continues hreach hguarded hhandler hr s'
  | ended _ _ hafter hsame => exact ⟨hsaved, hmapping, hsame ▸ hkept, by simp [hafter]⟩
  | launched hlaunch _ hafter hoperation =>
    subst hlaunch
    refine ⟨hsaved, hmapping, fun running hrunning ↦ ?_, by simp [hafter]⟩
    cases hoperation.symm.trans hrunning
    exact operation_note (hguarded.handler _ hhandler) (by simp [Sys.acceptsMapping, hhandler]) s'

/-! ## Runs -/

/-- Without a step of its owner the map of a start gets no file. -/
theorem handler_kept {config : Config} {s s' : Sys} {h : MapHistory} {a : Action} {hd : Handler}
    (hreach : Reachable config s) (hhandler : s.handler = some hd)
    (hstep : s.step config a = some s') (hother : ∀ env, a ≠ .handler env)
    (hoperation : ∀ env, a ≠ .operation env) (hassertion : handler h s.shared hd) :
    handler h s'.shared hd := by
  have hmode := hreach.modeExclusion.handler hd hhandler
  cases hd with
  | startMapping name pc =>
    cases pc with
    | select | transition | cleanup =>
      exact (output?_of_quiet hmode hstep hother hoperation name).trans hassertion
    | _ => trivial
  | saveMap pc => cases pc <;> exact hassertion
  | _ => exact hassertion

theorem Guarded.step {config : Config} {s s' : Sys} {h : MapHistory} {a : Action}
    (hguarded : Guarded s h) (hreach : Reachable config s) (hstep : s.step config a = some s') :
    Guarded s' (h.note config s (.run a) s') := by
  cases a with
  | handler env => exact hguarded.handler_step hreach hstep
  | operation env => exact hguarded.operation_step hreach hstep
  | call request =>
    have hsaved : ∀ name ∈ (h.note config s _ s').saved,
        (output? s'.shared.maps name).isSome = true := fun _ ↦ hguarded.kept_step hstep
    rw [note_eq_self rfl rfl rfl] at hsaved ⊢
    obtain ⟨-, rfl⟩ := Sys.call_of_step hstep
    refine ⟨hsaved, hguarded.mapping, hguarded.operation, fun hd hhandler ↦ ?_⟩
    cases hhandler
    cases request <;> trivial
  | deliver | callback | observe | exit | writeMap | takeSave | writeSave =>
    have hsaved : ∀ name ∈ (h.note config s _ s').saved,
        (output? s'.shared.maps name).isSome = true := fun _ ↦ hguarded.kept_step hstep
    rw [note_eq_self rfl rfl rfl] at hsaved ⊢
    have hother := bystander_of_step hstep (by simp) (by simp) (by simp)
    refine ⟨hsaved, fun hstate ↦ ?_, fun running hrunning ↦ ?_, fun hd hhandler ↦ ?_⟩
    · rw [(SessionMap.stable_of_interference hother.interference).mapName]
      rcases hother.interference.state with hsame | ⟨-, hlocalization⟩
      · exact hguarded.mapping (hsame.symm.trans hstate)
      · simp [hstate] at hlocalization
    · exact hguarded.operation running (hother.operation ▸ hrunning)
    · rw [hother.handler] at hhandler
      exact handler_kept hreach hhandler hstep (by simp) (by simp) (hguarded.handler hd hhandler)

theorem guarded_of_initial {s : Sys} {h : MapHistory} (hinit : s.Initial)
    (hkept : ∀ name ∈ h.saved, (output? s.shared.maps name).isSome = true) : Guarded s h := by
  refine ⟨hkept, fun hstate ↦ ?_, by simp [hinit.operation], by simp [hinit.handler]⟩
  rcases hinit.state with hbefore | ⟨hbefore, -⟩ <;> rw [hstate] at hbefore <;> cases hbefore

/-- A manager that is constructed anew finds the maps of the one before. -/
theorem initial_of_restart {config : Config} {s s' : Sys} {autoStartFailed : Bool}
    {processes : Leader → Process}
    (h : s.live config (.restart autoStartFailed processes) = some s') :
    s'.Initial ∧ s'.shared.maps = s.shared.maps := by
  simp only [Sys.live] at h
  split at h <;> cases h
  cases autoStartFailed with
  | true => exact ⟨failedStart_initial _ processes, rfl⟩
  | false => exact ⟨initial_initial _ processes, rfl⟩

theorem guarded_of_reaches {config : Config} {s : Sys} {h : MapHistory}
    (hreach : Reaches (mapStep config) anyAction (fun s ↦ s.1.Initial ∧ s.2 = {}) (s, h)) :
    Reachable config s ∧ Guarded s h := by
  refine Reaches.invariant
    (P := fun s : Sys × MapHistory ↦ Reachable config s.1 ∧ Guarded s.1 s.2)
    (fun s hinit ↦ ?_) (fun s a s' hs _ hstep ↦ ?_) hreach
  · obtain ⟨hinit, hnone⟩ := hinit
    exact ⟨.start hinit, guarded_of_initial hinit (by simp [hnone])⟩
  · obtain ⟨hreachable, hguarded⟩ := hs
    obtain ⟨hnext, hnote⟩ := noting_eq_some hstep
    rw [hnote]
    cases a with
    | run a => exact ⟨hreachable.tail trivial hnext, hguarded.step hreachable hnext⟩
    | restart autoStartFailed processes =>
      obtain ⟨hinit, hmaps⟩ := initial_of_restart hnext
      rw [note_eq_self rfl rfl rfl]
      exact ⟨.start hinit, guarded_of_initial hinit (hmaps ▸ hguarded.kept)⟩

end SavedMaps

open SavedMaps in
/-- From its save until a request to delete it is executed a map has its file, and no step of the
manager changes it; the file that is removed before a save is one that was not there when the
session was accepted. -/
theorem saved_map_kept (config : Config) (s s' : Sys) (h : MapHistory) (a : LifeAction)
    (hreach : Reaches (mapStep config) anyAction (fun s ↦ s.1.Initial ∧ s.2 = {}) (s, h))
    (hstep : s.live config a = some s') :
    (∀ name ∈ h.saved, s.deletes a ≠ some name →
      (output? s'.shared.maps name).isSome = true ∧
        ((∀ bytes, a ≠ .run (.writeMap bytes)) →
          output? s'.shared.maps name = output? s.shared.maps name)) ∧
    (∀ name, s.operation = some (.saveMap name .removeOutput) → h.session = some (name, none)) := by
  obtain ⟨-, hguarded⟩ := guarded_of_reaches hreach
  refine ⟨fun name hsaved hdeletes ↦ ?_, fun name hoperation ↦ ?_⟩
  · have hkept := hguarded.kept name hsaved
    cases a with
    | run a =>
      rcases output?_step hguarded hstep hsaved hdeletes with hsame | ⟨bytes, rfl, hwritten⟩
      · exact ⟨by rwa [hsame], fun _ ↦ hsame⟩
      · exact ⟨by simp [hwritten], fun hother ↦ absurd rfl (hother bytes)⟩
    | restart autoStartFailed processes =>
      rw [(initial_of_restart hstep).2]
      exact ⟨hkept, fun _ ↦ rfl⟩
  · have hfresh : h.Fresh name := hguarded.operation _ hoperation
    exact hfresh.session

/-! ## Replays -/

/-- A save from MAPPING, whose output the mapping node writes. -/
def saveOutput : List Action :=
  .call .saveMap :: List.replicate 4 (.handler {}) ++ List.replicate 3 (.operation {}) ++
    [.writeMap [1]] ++ List.replicate 10 (.operation {})

/-- A new map is mapped and saved, and found by the manager that is started next. -/
theorem saved_map_kept_restart :
    ∃ s s' h, Sys.live {} s (.restart false) = some s' ∧ "m" ∈ MapHistory.saved h ∧
      output? s.shared.maps "m" = some [1] ∧ output? s'.shared.maps "m" = some [1] := by
  have hrun : ((exec (mapStep {}) (Sys.initial ∅, {})
      ((toWaitMode ++ launchMapping "m" ++ enterMapping ++ saveOutput).map .run)).any
        fun s ↦ decide ("m" ∈ s.2.saved) && decide (output? s.1.shared.maps "m" = some [1]) &&
          !(s.1.shared.isRunning .mapping || s.1.shared.isRunning .localization)) = true := by
    decide +kernel
  have hstart : Reaches (mapStep {}) anyAction (fun s ↦ s.1.Initial ∧ s.2 = {})
      (Sys.initial ∅, {}) := .start ⟨initial_initial ∅, rfl⟩
  obtain ⟨⟨s, h⟩, hreach, htest⟩ := hstart.exists_of_exec hrun
  simp only [Bool.and_eq_true, decide_eq_true_eq, Bool.not_eq_true'] at htest
  obtain ⟨⟨hsaved, houtput⟩, hdead⟩ := htest
  have hlive : Sys.live {} s (.restart false) = some (Sys.initial s.shared.maps) := by
    simp [Sys.live, hdead]
  have hkept := ((saved_map_kept {} s _ h _ hreach hlive).1 "m" hsaved (by simp [Sys.deletes])).2
  exact ⟨s, _, h, hlive, hsaved, houtput, (hkept (by simp)).trans houtput⟩

end SlamSystemManager.Manager
