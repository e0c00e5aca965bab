import SlamSystemManager.Manager.Exclusion

/-!
# Maps in use

`handleDeleteMap` protects the selected map, not the map of a leader. The two are the same map as
long as `load_map` selects no other map beside a leader that has survived its mode, and a start that
has timed out can stop the leader before it clears the selection; then no directory is removed while
a leader that was started for it is alive.
-/

open TransitionSystem

namespace SlamSystemManager.Manager

/-! ## Removals and the condition -/

/-- The map whose directory an action removes: `delete_map`, and a start of mapping that undoes the
directory it has created. -/
def Sys.removes (s : Sys) : Action → Option String
  | .handler _ =>
    match s.handler with
    | some (.deleteMap map .remove) | some (.startMapping map .cleanup) => some map
    | _ => none
  | .operation _ =>
    match s.operation with
    | some (.startMapping map _ (.cleanup _)) => some map
    | _ => none
  | _ => none

/-- A leader that was started for a map is alive. -/
def Shared.uses (s : Shared) (map : String) : Prop :=
  ∃ leader, s.isRunning leader = true ∧ (s.processes leader).mapName = map

/-- The leader whose end a start that has timed out waits for. -/
def Operation.stopsTimedOut : Operation → Option Leader
  | .startMapping _ _ (.stopTimedOut .wait) => some .mapping
  | .startLocalization _ (.stopTimedOut _ .wait) => some .localization
  | _ => none

/-- A run in which `load_map` selects no other map than that of a leader alive, and in which the
stop of a start that has timed out does not fail. -/
def keepsSelection (s : Sys) : Action → Prop
  | .handler _ => ∀ name path, s.handler = some (.loadMap name (.select path)) →
      ∀ leader, s.shared.isRunning leader = true → (s.shared.processes leader).mapName = name
  | .operation env => ∀ operation leader, s.operation = some operation →
      operation.stopsTimedOut = some leader → s.shared.isRunning leader = true →
      env.throws = none → env.available = true
  | _ => True

namespace MapInUse

/-! ## Assertions -/

/-- A leader alive was started for the selected map. -/
def Selected (s : Shared) : Prop :=
  ∀ leader, s.isRunning leader = true → (s.processes leader).mapName = s.currentMap

def operation (s : Shared) : Option Operation → Prop
  | some (.startMapping map _ pc) =>
    match pc with
    | .checkRunning | .saveService | .prepareConfig | .startProcess => s.currentMap = map
    | .readExitCode | .failed _ | .unselect | .cleanup _ => s.isRunning .mapping = false
    | _ => True
  | some (.startLocalization map pc) =>
    match pc with
    | .checkRunning | .checkFile | .startProcess => s.currentMap = map
    | .readExitCode | .failed _ | .unselect => s.isRunning .localization = false
    | _ => True
  | _ => True

def handler (s : Shared) : Handler → Prop
  | .deleteMap name .remove => s.currentMap ≠ name
  | .startMapping name (.transition _) => s.currentMap = name
  | .startLocalization name .resetSession | .startLocalization name .resetQuality
  | .startLocalization name .transition => s.currentMap = name
  | .launch launched _ => operation s (some launched)
  | _ => True

def outline : ProofOutline :=
  { operation := fun s o ↦ Selected s ∧ operation s o
    handler := handler }

/-! ## Stability -/

/-- Leaders only end, and the map they were started for stays. -/
def Keeps (s s' : Shared) : Prop :=
  ∀ leader, s'.isRunning leader = true →
    s.isRunning leader = true ∧ (s'.processes leader).mapName = (s.processes leader).mapName

theorem Keeps.of_processes {s s' : Shared} (h : s'.processes = s.processes) : Keeps s s' := by
  intro leader hrunning
  rw [Shared.isRunning, h] at hrunning
  exact ⟨hrunning, by rw [h]⟩

theorem Keeps.of_reap {s s' : Shared} {leader : Leader} {exitCode : ℤ}
    (h : s'.processes = (s.reap leader exitCode).processes) : Keeps s s' := by
  intro other hrunning
  refine ⟨Wanes.of_reap h other hrunning, ?_⟩
  rw [h]
  by_cases hsame : other = leader
  · subst hsame
    simp [Shared.reap, Shared.setProcess]
  · simp [Shared.reap, Shared.setProcess, hsame]

theorem Keeps.of_effect {s s' : Shared} (h : ProcessEffect none s s') : Keeps s s' := by
  rcases h with hsame | ⟨leader, map, hforks, -⟩ | ⟨leader, exitCode, hreap⟩
  · exact .of_processes hsame
  · cases hforks
  · exact .of_reap hreap

theorem Keeps.wanes {s s' : Shared} (h : Keeps s s') : Wanes s s' :=
  fun leader hrunning ↦ (h leader hrunning).1

theorem Keeps.uses {s s' : Shared} (h : Keeps s s') {map : String} (hs : ¬ s.uses map) :
    ¬ s'.uses map := by
  rintro ⟨leader, hrunning, hmap⟩
  obtain ⟨hbefore, hkept⟩ := h leader hrunning
  exact hs ⟨leader, hbefore, by rw [← hkept, hmap]⟩

/-- The change of the shared state that every assertion survives. -/
structure Stable (s s' : Shared) : Prop where
  map : s'.currentMap = s.currentMap
  keeps : Keeps s s'

theorem Stable.selected {s s' : Shared} (h : Stable s s') (hs : Selected s) : Selected s' := by
  intro leader hrunning
  obtain ⟨hbefore, hkept⟩ := h.keeps leader hrunning
  rw [hkept, h.map]
  exact hs leader hbefore

theorem selected_of_quiet {s : Shared} (h : ModeExclusion.Quiet s) : Selected s := by
  intro leader hrunning
  rw [h leader] at hrunning
  cases hrunning

theorem operation_stable {s s' : Shared} (h : Stable s s') (o : Option Operation)
    (ho : operation s o) : operation s' o := by
  have hmap := h.map
  have hdead {leader : Leader} (hs : s.isRunning leader = false) := h.keeps.wanes.dead hs
  unfold operation at ho ⊢
  split <;> try trivial
  all_goals split <;> simp_all

theorem handler_stable {s s' : Shared} (h : Stable s s') (hd : Handler)
    (hassertion : handler s hd) : handler s' hd := by
  have hmap := h.map
  have hlaunch := operation_stable h
  unfold handler at hassertion ⊢
  split <;> simp_all

/-! ## The operation thread -/

/-- The selection is cleared when no leader is alive. -/
theorem quiet_of_clearsMap {s : Shared} {op : Operation}
    (hmodes : ModeExclusion.operation s (some op)) (h : operation s (some op))
    (hclears : op.clearsMap s.currentState = true) : ModeExclusion.Quiet s := by
  cases op with
  | startMapping map created pc =>
    cases pc with
    | unselect => exact .of_dead h hmodes.1
    | _ => cases hclears
  | startLocalization map pc =>
    cases pc with
    | unselect => exact .of_dead hmodes.1 h
    | _ => cases hclears
  | stopMapping pc =>
    cases pc with
    | unselect => exact hmodes
    | _ => cases hclears
  | stopLocalization pc =>
    cases pc with
    | unselect => exact hmodes
    | _ => cases hclears
  | recovery pc =>
    cases pc with
    | clear status => exact hmodes
    | _ => cases hclears
  | _ => cases hclears

/-- What an operation forks is started for the selected map, beside no other leader. -/
theorem selected_of_forks {s : Shared} {op : Operation} {leader : Leader} {map : String}
    (hmodes : ModeExclusion.operation s (some op)) (h : operation s (some op))
    (hforks : op.forks = some (leader, map)) : ModeExclusion.Quiet s ∧ s.currentMap = map := by
  cases op with
  | startMapping name created pc =>
    cases pc with
    | startProcess =>
      cases hforks
      exact ⟨.of_dead hmodes.2.1 hmodes.1, h⟩
    | _ => cases hforks
  | startLocalization name pc =>
    cases pc with
    | startProcess =>
      cases hforks
      exact ⟨.of_dead hmodes.1 hmodes.2.1, h⟩
    | _ => cases hforks
  | _ => cases hforks

theorem clearsMap_of_forks {op : Operation} {state : SystemState} {started : Leader × String}
    (h : op.forks = some started) : op.clearsMap state = false := by
  cases op with
  | startMapping map created pc => cases pc <;> first | rfl | cases h
  | startLocalization map pc => cases pc <;> first | rfl | cases h
  | _ => cases h

theorem selected_operation {env : Env} {s s' : Shared} {op next : Operation}
    (hmodes : ModeExclusion.operation s (some op)) (h : operation s (some op)) (hs : Selected s)
    (heffect : OperationEffect env op s (s', next)) : Selected s' := by
  cases hforks : op.forks with
  | none =>
    have hkeeps : Keeps s s' := .of_effect (hforks ▸ heffect.process)
    rcases heffect.map with hsame | ⟨hclears, -⟩
    · exact Stable.selected ⟨hsame, hkeeps⟩ hs
    · exact selected_of_quiet fun leader ↦
        hkeeps.wanes.dead (quiet_of_clearsMap hmodes h hclears leader)
  | some started =>
    obtain ⟨leader, map⟩ := started
    obtain ⟨hquiet, hcurrent⟩ := selected_of_forks hmodes h hforks
    have hsame : s'.currentMap = s.currentMap := by
      rcases heffect.map with hsame | ⟨hclears, -⟩
      · exact hsame
      · rw [clearsMap_of_forks hforks] at hclears
        cases hclears
    rcases heffect.process with
      hkept | ⟨forked, name, hstarted, -, hafter⟩ | ⟨other, exitCode, hreap⟩
    · exact Stable.selected ⟨hsame, .of_processes hkept⟩ hs
    · rw [hforks] at hstarted
      cases hstarted
      intro other hrunning
      have hrunning' : (s.fork leader map).isRunning other = true := by
        rwa [Shared.isRunning, hafter] at hrunning
      rw [isRunning_fork] at hrunning'
      split_ifs at hrunning' with hother
      · subst hother
        rw [hafter, hsame, hcurrent]
        simp [Shared.fork, Shared.setProcess]
      · rw [hquiet other] at hrunning'
        cases hrunning'
    · exact Stable.selected ⟨hsame, .of_reap hreap⟩ hs

theorem startMapping_step (config : Config) {env : Env} {map : String} {created : Bool}
    {s : Shared} {pc : StartMapping}
    (hmodes : ModeExclusion.operation s (some (.startMapping map created pc)))
    (h : operation s (some (.startMapping map created pc)))
    (hstop : pc = .stopTimedOut .wait → s.isRunning .mapping = true → env.available = true) :
    operation (pc.step config env map created s).1
      (some (pc.step config env map created s).2) := by
  cases pc with
  | checkRunning =>
    simp only [StartMapping.step, hmodes.2.1]
    exact h
  | saveService =>
    simp only [StartMapping.step]
    split
    · exact hmodes.2.1
    · exact h
  | prepareConfig =>
    simp only [StartMapping.step]
    repeat' split
    · exact hmodes.2.1
    · exact h
    · exact hmodes.2.1
  | startProcess =>
    simp only [StartMapping.step, hmodes.2.1, Bool.false_eq_true, if_false]
    split
    · exact hmodes.2.1
    · trivial
  | stopTimedOut stage =>
    simp only [StartMapping.step]
    split
    · trivial
    · rename_i hended
      exact dead_of_stopStep_end hended fun hwait ↦ hstop (by rw [hwait])
  | checkAlive =>
    simp only [StartMapping.step]
    split
    · trivial
    · rename_i hdead
      exact (by simpa using hdead : s.isRunning .mapping = false)
  | readExitCode | failed error => exact h
  | unselect =>
    simp only [StartMapping.step, errorOrFinish]
    repeat' split
    · exact h
    · trivial
    · trivial
  | cleanup shouldTransition =>
    simp only [StartMapping.step, errorOrFinish]
    split <;> trivial
  | waitService | started | stopAborted =>
    simp only [StartMapping.step]
    split <;> trivial

theorem startLocalization_step (config : Config) {env : Env} {map : String} {s : Shared}
    {pc : StartLocalization} (hmodes : ModeExclusion.operation s (some (.startLocalization map pc)))
    (h : operation s (some (.startLocalization map pc)))
    (hstop : ∀ missing, pc = .stopTimedOut missing .wait →
      s.isRunning .localization = true → env.available = true) :
    operation (pc.step config env map s).1 (some (pc.step config env map s).2) := by
  cases pc with
  | checkRunning =>
    simp only [StartLocalization.step, hmodes.2.1]
    exact h
  | checkFile =>
    simp only [StartLocalization.step]
    split
    · exact hmodes.2.1
    · split
      · exact hmodes.2.1
      · exact h
  | startProcess =>
    simp only [StartLocalization.step, hmodes.2.1, Bool.false_eq_true, if_false]
    split
    · exact hmodes.2.1
    · trivial
  | stopTimedOut missing stage =>
    simp only [StartLocalization.step]
    split
    · trivial
    · rename_i hended
      exact dead_of_stopStep_end hended fun hwait ↦ hstop missing (by rw [hwait])
  | pollAlive =>
    simp only [StartLocalization.step]
    split
    · trivial
    · rename_i hdead
      exact (by simpa using hdead : s.isRunning .localization = false)
  | readExitCode | failed error => exact h
  | unselect =>
    simp only [StartLocalization.step, errorOrFinish]
    split <;> trivial
  | poll | pollTopics | started | stopAborted | loadLastPose | waitConsumer | publish | window =>
    simp only [StartLocalization.step]
    repeat' split
    all_goals trivial

theorem operation_step {config : Config} {env : Env} {s : Shared} {op : Operation}
    (hmodes : ModeExclusion.operation s (some op)) (h : operation s (some op)) (hs : Selected s)
    (hstop : ∀ leader, op.stopsTimedOut = some leader → s.isRunning leader = true →
      env.throws = none → env.available = true) :
    outline.operation (op.step config env s).1 (op.step config env s).2 := by
  refine op.step_rule config env s (fun _ _ ↦ ⟨hs, trivial⟩) (fun _ ↦ ⟨hs, trivial⟩)
    fun s' next hnext hthrows hcontinues ↦
      ⟨selected_operation hmodes h hs hcontinues.effect, ?_⟩
  cases hcontinues.follows with
  | startMapping map created pc pc' =>
    have hassertion := startMapping_step config hmodes h fun hwait hrunning ↦
      hstop .mapping (by rw [hwait]; rfl) hrunning (hthrows rfl)
    obtain ⟨hshared, hpc⟩ := Prod.mk.inj hnext
    rw [← hshared, ← hpc]
    exact hassertion
  | startLocalization map pc pc' =>
    have hassertion := startLocalization_step config hmodes h fun missing hwait hrunning ↦
      hstop .localization (by rw [hwait]; rfl) hrunning (hthrows rfl)
    obtain ⟨hshared, hpc⟩ := Prod.mk.inj hnext
    rw [← hshared, ← hpc]
    exact hassertion
  | _ => trivial

/-! ## Handlers -/

/-- A handler selects a map when no leader is alive, `load_map` apart. -/
theorem selected_handler (config : Config) (env : Env) {s : Shared} {h : Handler}
    (hmodes : ModeExclusion.handler s h) (hs : Selected s)
    (hselect : ∀ name path, h = .loadMap name (.select path) →
      ∀ leader, s.isRunning leader = true → (s.processes leader).mapName = name) :
    Selected (h.step config env s).1 := by
  have heffect := h.effect config env s
  have hkeeps : Keeps s (h.step config env s).1 := .of_processes heffect.processes
  have hquiet (hs : ModeExclusion.Quiet s) : Selected (h.step config env s).1 :=
    selected_of_quiet fun leader ↦ hkeeps.wanes.dead (hs leader)
  rcases heffect.map with hsame | hwritten
  · exact Stable.selected ⟨hsame, hkeeps⟩ hs
  · cases h with
    | loadMap name pc =>
      cases pc with
      | select path => exact hselect name path rfl
      | acquire | load => cases hwritten
    | startMapping name pc =>
      cases pc with
      | select created => exact hquiet hmodes
      | unselect => exact hquiet hmodes
      | _ => cases hwritten
    | startLocalization name pc =>
      cases pc with
      | select => exact hquiet hmodes
      | unselect => exact hquiet hmodes
      | _ => cases hwritten
    | _ => cases hwritten

/-- A running operation sees no selection by a handler. -/
theorem operation_handler {config : Config} {env : Env} {s : Sys} {h : Handler}
    (htoken : s.Exclusive) (hholds : outline.Holds s) (hsome : s.handler = some h) :
    operation (h.step config env s.shared).1 s.operation := by
  have heffect := h.effect config env s.shared
  rcases heffect.map with hsame | hwritten
  · exact operation_stable ⟨hsame, .of_processes heffect.processes⟩ _ hholds.operation.2
  · rw [htoken.alone (by simp [Sys.handlerHolds, hsome, Handler.holdsToken_of_mapWritten hwritten])]
    trivial

theorem startMapping_continues (config : Config) (env : Env) (name : String) (s : Shared)
    (pc : StartMappingRequest) (h : handler s (.startMapping name pc)) :
    outline.Continues (pc.step config env name s) := by
  cases pc with
  | transition created =>
    simp only [StartMappingRequest.step]
    split
    · exact (currentMap_transitionTo s _).trans h
    · cases created <;> trivial
  | select created => exact rfl
  | checkLocalization | checkMapping | saveService | acquire | findMap | create | checkOutput
  | cleanup | unselect =>
    simp only [StartMappingRequest.step, acquireForStart]
    repeat' split
    all_goals trivial

theorem startLocalization_continues (config : Config) (env : Env) (name : String) (s : Shared)
    (pc : StartLocalizationRequest) (h : handler s (.startLocalization name pc)) :
    outline.Continues (pc.step config env name s) := by
  cases pc with
  | transition =>
    simp only [StartLocalizationRequest.step]
    split
    · exact (currentMap_transitionTo s _).trans h
    · trivial
  | select => exact rfl
  | resetSession | resetQuality => exact h
  | checkMapping | saveService | checkLocalization | acquire | load | unselect =>
    simp only [StartLocalizationRequest.step, acquireForStart]
    repeat' split
    all_goals trivial

theorem deleteMap_continues (env : Env) (name : String) (s : Shared) (pc : DeleteMap) :
    outline.Continues (pc.step env name s) := by
  cases pc with
  | acquire =>
    simp only [DeleteMap.step]
    split_ifs with hactive hselected
    · trivial
    · trivial
    · exact Ne.symm hselected
  | remove =>
    simp only [DeleteMap.step]
    split <;> trivial

theorem handler_continues {config : Config} {env : Env} {s : Sys} {h : Handler}
    (hholds : outline.Holds s) (hassertion : handler s.shared h) :
    outline.Continues (h.step config env s.shared) := by
  cases h with
  | deleteMap name pc => exact deleteMap_continues env name s.shared pc
  | startMapping name pc => exact startMapping_continues config env name s.shared pc hassertion
  | startLocalization name pc =>
    exact startLocalization_continues config env name s.shared pc hassertion
  | launch operation reply => exact ⟨hholds.operation.1, hassertion⟩
  | _ =>
    refine ProofOutline.continues_of_follows (Handler.follows config env _ _) ?_ (by simp)
    intro next hnext
    cases hnext <;> trivial

/-- Only the owner of the token has an assertion. -/
theorem handler_of_idle (s : Shared) {h : Handler} (hidle : h.holdsToken = false) :
    handler s h := by
  cases h with
  | deleteMap name pc => cases pc <;> trivial
  | startMapping name pc => cases pc <;> trivial
  | startLocalization name pc => cases pc <;> trivial
  | launch operation reply => cases hidle
  | _ => trivial

theorem stable_of_interference {s s' : Shared} (h : Interference s s') : Stable s s' := by
  refine ⟨h.map, ?_⟩
  rcases h.processes with hsame | ⟨leader, exitCode, hreap⟩
  · exact .of_processes hsame
  · exact .of_reap hreap

theorem valid (config : Config) :
    outline.Valid config fun s a ↦ keepsSelection s a ∧ ModeExclusion.outline.Holds s where
  begins s request := by cases request <;> trivial
  handler s env h hok htoken hholds hsome :=
    have hassertion := hholds.handler h hsome
    ProofOutline.afterHandler_of
      ⟨selected_handler config env (hok.2.handler h hsome) hholds.operation.1
        fun name path hselect ↦ hok.1 name path (hsome.trans (by rw [hselect])),
        operation_handler htoken hholds hsome⟩
      (handler_continues hholds hassertion)
  operation s env op hok _ hholds hsome := by
    obtain ⟨hselected, hoperation⟩ := hholds.operation
    have hmodes := hok.2.operation.2
    rw [hsome] at hoperation hmodes
    exact operation_step hmodes hoperation hselected fun leader ↦ hok.1 op leader hsome
  handlerKept s env op h _ htoken hholds hsome hhandler := by
    have hidle := htoken.of_operation hsome
    simp only [Sys.handlerHolds, hhandler, Option.any_some] at hidle
    exact handler_of_idle _ hidle
  interference s s' hinterference :=
    have hstable := stable_of_interference hinterference
    ⟨fun o ho ↦ ⟨hstable.selected ho.1, operation_stable hstable o ho.2⟩,
      handler_stable hstable⟩

theorem holds_of_reaches {config : Config} {s : Sys}
    (h : Reaches (Sys.step config) keepsSelection Sys.Unstarted s) : outline.Holds s := by
  have hmodes := h.strengthen
    fun s (hs : Reaches (Sys.step config) keepsSelection Sys.Unstarted s) ↦
      (ReachableUnstarted.reachable (hs.mono fun _ _ _ ↦ trivial)).modeExclusion
  refine (valid config).reaches_from (fun _ hinit ↦ hinit.toInitial)
    (fun s hinit ↦ ⟨selected_of_quiet fun leader ↦ ?_, trivial⟩) hmodes
  simp [Shared.isRunning, hinit.processes]

/-! ## Removals -/

theorem removes_cases {s : Sys} {a : Action} {map : String} (h : s.removes a = some map) :
    (∃ env handler, a = .handler env ∧ s.handler = some handler ∧
        (handler = .deleteMap map .remove ∨ handler = .startMapping map .cleanup)) ∨
      ∃ env created shouldTransition, a = .operation env ∧
        s.operation = some (.startMapping map created (.cleanup shouldTransition)) := by
  unfold Sys.removes at h
  split at h
  · split at h
    · rename_i hsome
      cases h
      exact Or.inl ⟨_, _, rfl, hsome, Or.inl rfl⟩
    · rename_i hsome
      cases h
      exact Or.inl ⟨_, _, rfl, hsome, Or.inr rfl⟩
    · cases h
  · split at h
    · rename_i hsome
      cases h
      exact Or.inr ⟨_, _, _, rfl, hsome⟩
    · cases h
  · cases h

theorem operation_none_of_removes {s : Sys} {h : Handler} {map : String} (htoken : s.Exclusive)
    (hsome : s.handler = some h) (hremoving : h = .deleteMap map .remove ∨
      h = .startMapping map .cleanup) : s.operation = none := by
  apply htoken.alone
  rcases hremoving with rfl | rfl <;> simp [Sys.handlerHolds, hsome, Handler.holdsToken]

/-- A directory is removed under the token, when no leader alive was started for its map. -/
theorem not_uses_of_removes {s : Sys} {a : Action} {map : String}
    (hmodes : ModeExclusion.outline.Holds s) (hholds : outline.Holds s)
    (hremoves : s.removes a = some map) : ¬ s.shared.uses map := by
  rintro ⟨leader, hrunning, hmap⟩
  have hselected := hholds.operation.1 leader hrunning
  rcases removes_cases hremoves with
    ⟨env, h, -, hsome, rfl | rfl⟩ | ⟨env, created, shouldTransition, -, hsome⟩
  · have hother : s.shared.currentMap ≠ map := hholds.handler _ hsome
    exact hother (hselected.symm.trans hmap)
  · have hquiet : ModeExclusion.Quiet s.shared := hmodes.handler _ hsome
    rw [hquiet leader] at hrunning
    cases hrunning
  · have hassertion := hholds.operation.2
    have hmode := hmodes.operation.2
    rw [hsome] at hassertion hmode
    have hquiet : ModeExclusion.Quiet s.shared := .of_dead hassertion hmode.1
    rw [hquiet leader] at hrunning
    cases hrunning

/-- Without a fork of the operation thread leaders only end. -/
theorem keeps_of_step {config : Config} {s s' : Sys} {a : Action}
    (hforks : ∀ op, s.operation = some op → op.forks = none)
    (hstep : s.step config a = some s') : Keeps s.shared s'.shared := by
  have hhandler {env : Env} {h : Handler} {shared : Shared} {next : HandlerNext}
      (hnext : h.step config env s.shared = (shared, next)) : Keeps s.shared shared := by
    exact .of_processes (Handler.effect_of_step hnext).processes
  cases Sys.move_of_step hstep with
  | handlerNext hsome hnext => exact hhandler hnext
  | handlerDone hsome hnext => exact hhandler hnext
  | handlerLaunch hsome hnext hended => exact hhandler hnext
  | handlerEscape hsome hnext => exact hhandler hnext
  | @operation env op hsome =>
    rcases op.effect config env s.shared with ⟨-, hend⟩ | ⟨-, shared, next, hnext, hcontinues⟩
    · rw [hend]
      exact .of_processes rfl
    · rw [hnext]
      exact .of_effect (hforks op hsome ▸ hcontinues.effect.process)
  | @callback id env callback hsome =>
    exact .of_processes (callback.effect config env s.shared).processes
  | environment heffect =>
    rcases heffect.processes with hsame | ⟨leader, exitCode, hreap⟩
    · exact .of_processes hsame
    · exact .of_reap hreap
  | call | deliver => exact .of_processes rfl

/-- The operation thread has ended or is about to. -/
def Ending : Option Operation → Prop
  | none | some (.fail _ _) | some .enterError | some .finish => True
  | _ => False

theorem forks_of_ending {o : Option Operation} (h : Ending o) (op : Operation)
    (hsome : o = some op) : op.forks = none := by
  subst hsome
  cases op <;> first | rfl | cases h

theorem ending_operation (config : Config) (env : Env) (s : Shared) {op : Operation}
    (h : Ending (some op)) : Ending (op.step config env s).2 := by
  rcases op.effect config env s with ⟨-, hend⟩ | ⟨-, s', next, hnext, hcontinues⟩
  · rw [hend]
    trivial
  · rw [hnext]
    cases hcontinues.follows <;> trivial

theorem ending_cleanup (config : Config) (env : Env) (s : Shared) (map : String)
    (created shouldTransition : Bool) :
    Ending ((Operation.startMapping map created (.cleanup shouldTransition)).step
      config env s).2 := by
  rcases Operation.step_cases config env s
    (.startMapping map created (.cleanup shouldTransition)) with
      ⟨hrun, -⟩ | ⟨-, -, code, what, hthrow⟩
  · rw [hrun]
    cases shouldTransition <;> trivial
  · rw [hthrow]
    trivial

theorem ending_of_removes {config : Config} {s s' : Sys} {a : Action} {map : String}
    (htoken : s.Exclusive) (hremoves : s.removes a = some map)
    (hstep : s.step config a = some s') : Ending s'.operation := by
  rcases removes_cases hremoves with
    ⟨env, h, rfl, hsome, hremoving⟩ | ⟨env, created, shouldTransition, rfl, hsome⟩
  · have hended := operation_none_of_removes htoken hsome hremoving
    have hfollows := h.follows config env s.shared
    obtain ⟨handler, hhandler, hnext⟩ := Option.bind_eq_some_iff.mp hstep
    cases hsome.symm.trans hhandler
    cases Sys.afterHandler_move hhandler hnext with
    | handlerLaunch hsome' hlaunch hended' =>
      cases hsome.symm.trans hsome'
      rw [hlaunch] at hfollows
      cases hfollows
      rcases hremoving with hremoving | hremoving <;> cases hremoving
    | _ =>
      rw [hended]
      trivial
  · obtain ⟨op, hop, rfl⟩ := Option.map_eq_some_iff.mp hstep
    cases hsome.symm.trans hop
    exact ending_cleanup config env s.shared map created shouldTransition

/-- The actions of a run in which the handler makes no step. -/
def beforeHandler (_ : Sys) : Action → Prop
  | .handler _ => False
  | _ => True

/-- No leader is started until the handler moves on. -/
theorem not_uses_step {config : Config} {s s' : Sys} {a : Action} {map : String}
    (h : Ending s.operation ∧ ¬ s.shared.uses map) (hok : beforeHandler s a)
    (hstep : s.step config a = some s') : Ending s'.operation ∧ ¬ s'.shared.uses map := by
  refine ⟨?_, (keeps_of_step (forks_of_ending h.1) hstep).uses h.2⟩
  have hending := h.1
  cases Sys.move_of_step hstep with
  | handlerLaunch => cases hok
  | @operation env op hsome =>
    rw [hsome] at hending
    exact ending_operation config env s.shared hending
  | _ => exact hending

end MapInUse

/-- A map in use is never deleted, in a run that keeps the selection: from the moment a directory is
removed until the handler that has removed it moves on to its answer, no leader that was started
for this map is alive. -/
theorem removed_map_not_in_use (config : Config) (s s' s'' : Sys) (a : Action) (map : String)
    (h : Reaches (Sys.step config) keepsSelection Sys.Unstarted s)
    (hremoves : s.removes a = some map) (hstep : s.step config a = some s')
    (hrun : Steps (Sys.step config) MapInUse.beforeHandler s' s'') :
    ¬ s.shared.uses map ∧ ¬ s''.shared.uses map := by
  have hreach : Reachable config s :=
    ReachableUnstarted.reachable (h.mono fun _ _ _ ↦ trivial)
  have hbefore := MapInUse.not_uses_of_removes hreach.modeExclusion
    (MapInUse.holds_of_reaches h) hremoves
  have hforks (op : Operation) (hsome : s.operation = some op) : op.forks = none := by
    rcases MapInUse.removes_cases hremoves with
      ⟨env, handler, -, hhandler, hremoving⟩ | ⟨env, created, shouldTransition, -, hcleanup⟩
    · have hended := MapInUse.operation_none_of_removes hreach.exclusive hhandler hremoving
      cases hended.symm.trans hsome
    · cases hcleanup.symm.trans hsome
      rfl
  have hafter := MapInUse.ending_of_removes hreach.exclusive hremoves hstep
  exact ⟨hbefore, (hrun.invariant (fun _ _ _ ↦ MapInUse.not_uses_step)
    ⟨hafter, (MapInUse.keeps_of_step hforks hstep).uses hbefore⟩).2⟩

/-- Whether an action is one that the condition on the selection is about. -/
def Sys.selectsOrStops (s : Sys) : Action → Bool
  | .handler _ =>
    match s.handler with
    | some (.loadMap _ (.select _)) => true
    | _ => false
  | .operation _ => s.operation.any fun operation ↦ operation.stopsTimedOut.isSome
  | _ => false

theorem keepsSelection_of_not_selectsOrStops {s : Sys} {a : Action}
    (h : s.selectsOrStops a = false) : keepsSelection s a := by
  cases a with
  | handler env =>
    intro name path hsome
    simp [Sys.selectsOrStops, hsome] at h
  | operation env =>
    intro operation leader hsome hstops
    simp [Sys.selectsOrStops, hsome, hstops] at h
  | _ => trivial

/-- A deletion of another map beside a leader that has survived its mode. -/
theorem removed_map_not_in_use_error :
    ∃ s s' : Sys, s.shared.isRunning .localization = true ∧
      s.removes (.handler {}) = some "m2" ∧ s.step {} (.handler {}) = some s' ∧
      ¬ s'.shared.uses "m2" := by
  obtain ⟨s, hreach, htest⟩ :=
    exists_unstarted_of_execWith {} (storedMaps ["m", "m2"]) keepsSelection
    (fun s a ↦ !s.selectsOrStops a)
    (fun s a hpasses ↦ keepsSelection_of_not_selectsOrStops (by simpa using hpasses))
    (loseSensorsRelocalizing ++ [.call (.deleteMap "m2"), .handler {}])
    (fun s ↦ s.shared.isRunning .localization &&
      decide (s.removes (.handler {}) = some "m2") && (s.step {} (.handler {})).isSome)
    (by decide +kernel)
  simp only [Bool.and_eq_true, decide_eq_true_eq, Option.isSome_iff_exists] at htest
  obtain ⟨⟨hrunning, hremoves⟩, s', hstep⟩ := htest
  exact ⟨s, s', hrunning, hremoves, hstep,
    (removed_map_not_in_use {} s s' s' _ "m2" hreach hremoves hstep .refl).2⟩

/-- A leader that has survived its mode in ERROR loses its map: `load_map` selects another one, and
`delete_map` succeeds. -/
theorem deleted_map_in_use :
    ∃ s s' s'' : Sys, ReachableUnstarted {} s ∧ s.removes (.handler {}) = some "m" ∧
      s.step {} (.handler {}) = some s' ∧ s'.step {} (.handler {}) = some s'' ∧
      s''.lastReply = some (accept "Map deleted") ∧ s''.shared.uses "m" := by
  obtain ⟨s, hreach, htest⟩ := exists_unstarted_of_exec {} (storedMaps ["m", "m2"])
    (loseSensorsRelocalizing ++ (.call (.loadMap "m2") :: List.replicate 4 (.handler {})) ++
      [.call (.deleteMap "m"), .handler {}])
    (fun s ↦ decide (s.removes (.handler {}) = some "m") &&
      (s.step {} (.handler {})).any fun s' : Sys ↦ (s'.step {} (.handler {})).any fun s'' : Sys ↦
        decide (s''.lastReply = some (accept "Map deleted")) &&
          s''.shared.isRunning .localization &&
            decide ((s''.shared.processes .localization).mapName = "m"))
    (by decide +kernel)
  simp only [Bool.and_eq_true, decide_eq_true_eq, Option.any_eq_true] at htest
  obtain ⟨hremoves, s', hstep, s'', hanswer, ⟨hreply, hrunning⟩, hmap⟩ := htest
  exact ⟨s, s', s'', hreach, hremoves, hstep, hanswer, hreply, .localization, hrunning, hmap⟩

end SlamSystemManager.Manager
