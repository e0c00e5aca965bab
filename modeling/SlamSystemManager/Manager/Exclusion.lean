import SlamSystemManager.Manager.Token

/-!
# Exclusion of the two modes

In the states of a mode the leader of the other one is dead: a start of a mode has found both dead
before it is accepted, and the operation that owns the token keeps it so for the leader it does not
manage. Where neither leader is started automatically more is true: a leader is alive only in the
states of its mode, in ERROR and in RECOVERING, and the two are never both alive.
-/

open TransitionSystem

namespace SlamSystemManager.Manager

namespace ModeExclusion

/-! ## Assertions -/

/-- The states in which the mapping leader may be alive. -/
def ownsMapping (state : SystemState) : Bool :=
  state.isMappingState || state = .error || state = .recovering

/-- The states in which the localization leader may be alive. -/
def ownsLocalization (state : SystemState) : Bool :=
  state.isLocalizationState || state = .error || state = .recovering

structure Exclusive (s : Shared) : Prop where
  alone : s.isRunning .mapping = false ∨ s.isRunning .localization = false
  mapping : s.isRunning .mapping = true → ownsMapping s.currentState = true
  localization : s.isRunning .localization = true → ownsLocalization s.currentState = true

/-- In the states of a mode the leader of the other one is dead. -/
structure Separate (s : Shared) : Prop where
  mapping : s.currentState.isMappingState = true → s.isRunning .localization = false
  localization : s.currentState.isLocalizationState = true → s.isRunning .mapping = false

/-- Neither leader is alive. -/
def Quiet (s : Shared) : Prop := ∀ leader, s.isRunning leader = false

/-- A leader that a start has found dead comes to life in the states of its mode or ERROR only. -/
def FoundDead (leader : Leader) (s : Shared) : Prop :=
  s.currentState.isIdle = true → s.isRunning leader = false

def operation (s : Shared) : Option Operation → Prop
  | some (.startMapping _ _ pc) =>
    s.isRunning .localization = false ∧
      match pc with
      | .checkRunning | .saveService | .prepareConfig | .startProcess =>
        s.isRunning .mapping = false ∧
          (s.currentState = .mappingStarting ∨ s.currentState = .error)
      | _ => True
  | some (.startLocalization _ pc) =>
    s.isRunning .mapping = false ∧
      match pc with
      | .checkRunning | .checkFile | .startProcess =>
        s.isRunning .localization = false ∧
          (s.currentState.isLocalizationState = true ∨ s.currentState = .error)
      | _ => True
  | some (.stopMapping (.stop _)) => s.isRunning .localization = false
  | some (.stopMapping _) => Quiet s
  | some (.saveMap _ (.report _ _ (.ok ()))) | some (.saveMap _ (.checkState true))
  | some (.saveMap _ .toWait) => Quiet s
  | some (.saveMap _ _) => s.isRunning .localization = false
  | some (.stopLocalization (.save _)) | some (.stopLocalization (.stop _)) =>
    s.isRunning .mapping = false
  | some (.stopLocalization _) => Quiet s
  | some (.recovery (.checkRunning .localization errors))
  | some (.recovery (.stop .localization errors _))
  | some (.recovery (.recheck .localization errors _)) =>
    errors = [] → s.isRunning .mapping = false
  | some (.recovery (.checkRunning .mapping _)) | some (.recovery (.stop .mapping _ _))
  | some (.recovery (.recheck .mapping _ _)) => True
  | some (.recovery (.resume target)) => Quiet s ∧ target.isIdle = true
  | some (.recovery _) => Quiet s
  | _ => True

/-- The states between which the ticks of the sensor timer move outside the modes. -/
def restOrError (state : SystemState) : Bool := state.isIdle || state = .error

def handler (s : Shared) : Handler → Prop
  | .startMapping _ .checkLocalization => True
  | .startMapping _ .checkMapping => FoundDead .localization s
  | .startMapping _ .saveService | .startMapping _ .acquire =>
    FoundDead .mapping s ∧ FoundDead .localization s
  | .startMapping _ _ => Quiet s
  | .startLocalization _ .checkMapping => True
  | .startLocalization _ .saveService | .startLocalization _ .checkLocalization =>
    FoundDead .mapping s
  | .startLocalization _ .acquire => FoundDead .mapping s ∧ FoundDead .localization s
  | .startLocalization _ _ => Quiet s
  | .saveMap .acquire => True
  | .saveMap _ => s.isRunning .localization = false
  | .sensorTick .clearError | .sensorTick .toReady | .sensorTick .toWait
  | .sensorTick (.restart _) => restOrError s.currentState = true
  | .launch launched _ => operation s (some launched)
  | _ => True

def outline : ProofOutline :=
  { operation := fun s o ↦ Separate s ∧ operation s o
    handler := handler }

/-! ## Drift -/

/-- How the state moves outside the steps of the owner of the token. -/
def Drift (before after : SystemState) : Prop :=
  after = before ∨ after = .error ∨
    (before.isLocalizationState = true ∧ after.isLocalizationState = true) ∨
    (before.isIdle = true ∧ after.isIdle = true)

structure Stable (s s' : Shared) : Prop where
  drift : Drift s.currentState s'.currentState
  wanes : Wanes s s'

theorem Stable.quiet {s s' : Shared} (h : Stable s s') (hs : Quiet s) : Quiet s' :=
  fun leader ↦ h.wanes.dead (hs leader)

theorem ownsMapping_drift {before after : SystemState} (h : Drift before after)
    (hs : ownsMapping before = true) : ownsMapping after = true := by
  rcases h with rfl | rfl | ⟨hbefore, -⟩ | ⟨hbefore, -⟩
  · exact hs
  · rfl
  · cases before <;> cases hs <;> cases hbefore
  · cases before <;> cases hs <;> cases hbefore

theorem ownsLocalization_drift {before after : SystemState} (h : Drift before after)
    (hs : ownsLocalization before = true) : ownsLocalization after = true := by
  rcases h with rfl | rfl | ⟨-, hafter⟩ | ⟨hbefore, -⟩
  · exact hs
  · rfl
  · simp [ownsLocalization, hafter]
  · cases before <;> cases hs <;> cases hbefore

theorem Stable.foundDead {s s' : Shared} (h : Stable s s') {leader : Leader}
    (hs : FoundDead leader s) : FoundDead leader s' := by
  intro hafter
  apply h.wanes.dead
  rcases h.drift with hsame | herror | ⟨-, hlocalization⟩ | ⟨hbefore, -⟩
  · exact hs (hsame ▸ hafter)
  · rw [herror] at hafter
    cases hafter
  · cases hstate : s'.currentState <;> rw [hstate] at hafter hlocalization <;>
      cases hafter <;> cases hlocalization
  · exact hs hbefore

theorem Stable.separate {s s' : Shared} (h : Stable s s') (hs : Separate s) : Separate s' := by
  refine ⟨fun hmapping ↦ h.wanes.dead ?_, fun hlocalization ↦ h.wanes.dead ?_⟩
  · rcases h.drift with hsame | herror | ⟨-, hafter⟩ | ⟨-, hafter⟩
    · exact hs.mapping (hsame ▸ hmapping)
    · rw [herror] at hmapping
      cases hmapping
    · cases hstate : s'.currentState <;> rw [hstate] at hafter hmapping <;>
        cases hafter <;> cases hmapping
    · cases hstate : s'.currentState <;> rw [hstate] at hafter hmapping <;>
        cases hafter <;> cases hmapping
  · rcases h.drift with hsame | herror | ⟨hbefore, -⟩ | ⟨-, hafter⟩
    · exact hs.localization (hsame ▸ hlocalization)
    · rw [herror] at hlocalization
      cases hlocalization
    · exact hs.localization hbefore
    · cases hstate : s'.currentState <;> rw [hstate] at hafter hlocalization <;>
        cases hafter <;> cases hlocalization

theorem Stable.exclusive {s s' : Shared} (h : Stable s s') (hs : Exclusive s) : Exclusive s' := by
  refine ⟨?_, fun hrunning ↦ ?_, fun hrunning ↦ ?_⟩
  · rcases hs.alone with hdead | hdead
    · exact Or.inl (h.wanes.dead hdead)
    · exact Or.inr (h.wanes.dead hdead)
  · exact ownsMapping_drift h.drift (hs.mapping (h.wanes _ hrunning))
  · exact ownsLocalization_drift h.drift (hs.localization (h.wanes _ hrunning))

theorem mappingStarting_drift {before after : SystemState} (h : Drift before after)
    (hs : before = .mappingStarting ∨ before = .error) :
    after = .mappingStarting ∨ after = .error := by
  rcases h with rfl | rfl | ⟨hbefore, -⟩ | ⟨hbefore, -⟩
  · exact hs
  · exact Or.inr rfl
  · rcases hs with rfl | rfl <;> cases hbefore
  · rcases hs with rfl | rfl <;> cases hbefore

theorem localizationState_drift {before after : SystemState} (h : Drift before after)
    (hs : before.isLocalizationState = true ∨ before = .error) :
    after.isLocalizationState = true ∨ after = .error := by
  rcases h with rfl | rfl | ⟨-, hafter⟩ | ⟨hbefore, -⟩
  · exact hs
  · exact Or.inr rfl
  · exact Or.inl hafter
  · rcases hs with hs | rfl
    · cases before <;> cases hs <;> cases hbefore
    · cases hbefore

theorem operation_stable {s s' : Shared} (h : Stable s s') (o : Option Operation)
    (ho : operation s o) : operation s' o := by
  have hdead {leader : Leader} (hs : s.isRunning leader = false) := h.wanes.dead hs
  have hquiet := h.quiet
  have hmapping := mappingStarting_drift h.drift
  have hlocalization := localizationState_drift h.drift
  unfold operation at ho ⊢
  split <;> try simp_all
  · split <;> simp_all
  · split <;> simp_all

/-! ## The operation thread -/

theorem Quiet.of_dead {s : Shared} (hmapping : s.isRunning .mapping = false)
    (hlocalization : s.isRunning .localization = false) : Quiet s := by
  intro leader
  cases leader
  · exact hmapping
  · exact hlocalization

theorem stable_of_stopStep {env : Env} {leader : Leader} {s s' : Shared} {stage : StopStage}
    {next : StopStage ⊕ StopResult} (h : stopStep env leader s stage = (s', next)) :
    Stable s s' := by
  refine ⟨Or.inl ?_, wanes_stopStep h⟩
  rcases stopStep_cases h with rfl | ⟨-, rfl, -⟩ <;> rfl

/-- A step that neither attempts a transition nor starts a leader. -/
theorem stable_of_effect {env : Env} {op next : Operation} {s s' : Shared}
    (h : OperationEffect env op s (s', next)) (htarget : op.target = none)
    (hforks : op.forks = none) : Stable s s' := by
  refine ⟨Or.inl ?_, .of_effect (hforks ▸ h.process)⟩
  rcases h.state with hsame | ⟨hafter, -⟩
  · exact hsame
  · rw [htarget] at hafter
    cases hafter

/-- The assertions after a step of the operation thread. -/
def After (r : Shared × Operation) : Prop := Separate r.1 ∧ operation r.1 (some r.2)

@[simp] theorem isRunning_transitionTo (s : Shared) (next : SystemState) (leader : Leader) :
    (s.transitionTo next).isRunning leader = s.isRunning leader := by
  simp [Shared.isRunning]

theorem separate_transitionTo {s : Shared} {next : SystemState} (hs : Separate s)
    (hmapping : next.isMappingState = true → s.isRunning .localization = false)
    (hlocalization : next.isLocalizationState = true → s.isRunning .mapping = false) :
    Separate (s.transitionTo next) := by
  refine ⟨fun hafter ↦ ?_, fun hafter ↦ ?_⟩
  all_goals
    rw [currentState_transitionTo] at hafter
    rw [isRunning_transitionTo]
    split at hafter
  · exact hmapping hafter
  · exact hs.mapping hafter
  · exact hlocalization hafter
  · exact hs.localization hafter

/-- A state without a mode asks nothing of the leaders. -/
theorem separate_of_modeless {s : Shared} {next : SystemState} (hs : Separate s)
    (hmapping : next.isMappingState = false) (hlocalization : next.isLocalizationState = false) :
    Separate (s.transitionTo next) :=
  separate_transitionTo hs (by simp [hmapping]) (by simp [hlocalization])

theorem startMapping_step (config : Config) (env : Env) (map : String) (created : Bool)
    (s : Shared) (pc : StartMapping) (hs : Separate s)
    (h : operation s (some (.startMapping map created pc))) :
    After (pc.step config env map created s) := by
  have heffect := StartMapping.effect config env map created s pc
  cases pc with
  | checkRunning =>
    simp only [StartMapping.step]
    split
    · exact ⟨hs, h.1, trivial⟩
    · exact ⟨hs, h⟩
  | saveService =>
    simp only [StartMapping.step]
    split
    · exact ⟨hs, h.1, trivial⟩
    · exact ⟨hs, h⟩
  | prepareConfig =>
    simp only [StartMapping.step]
    repeat' split
    · exact ⟨hs, h.1, trivial⟩
    · exact ⟨hs, h⟩
    · exact ⟨hs, h.1, trivial⟩
  | startProcess =>
    obtain ⟨hlocalization, hmapping, hstate⟩ := h
    simp only [StartMapping.step]
    repeat' split
    · exact ⟨hs, hlocalization, trivial⟩
    · exact ⟨hs, hlocalization, trivial⟩
    · have hdead : (s.fork .mapping map).isRunning .localization = false := by
        simpa [isRunning_fork] using hlocalization
      refine ⟨⟨fun _ ↦ hdead, fun hafter ↦ ?_⟩, hdead, trivial⟩
      have hbefore : s.currentState.isLocalizationState = true := hafter
      rcases hstate with hstate | hstate <;> rw [hstate] at hbefore <;> cases hbefore
  | stopTimedOut stage =>
    simp only [StartMapping.step]
    split
    all_goals
      rename_i hstop
      have hstable := stable_of_stopStep hstop
      exact ⟨hstable.separate hs, hstable.wanes.dead h.1, trivial⟩
  | stopAborted stage =>
    simp only [StartMapping.step]
    split
    · rename_i hstop
      have hstable := stable_of_stopStep hstop
      exact ⟨hstable.separate hs, hstable.wanes.dead h.1, trivial⟩
    · rename_i hstop
      exact ⟨(stable_of_stopStep hstop).separate hs, trivial⟩
  | waitService | checkAlive =>
    simp only [StartMapping.step]
    split <;> exact ⟨hs, h.1, trivial⟩
  | readExitCode => exact ⟨hs, h.1, trivial⟩
  | failed error => exact ⟨(stable_of_effect heffect rfl rfl).separate hs, h.1, trivial⟩
  | started =>
    have hseparate : Separate (s.transitionTo .mapping) :=
      separate_transitionTo hs (fun _ ↦ h.1) (by simp [SystemState.isLocalizationState])
    simp only [StartMapping.step]
    split
    · exact ⟨hseparate, trivial⟩
    · exact ⟨hseparate, by simpa using h.1, trivial⟩
  | unselect =>
    refine ⟨(stable_of_effect heffect rfl rfl).separate hs, ?_⟩
    simp only [StartMapping.step, errorOrFinish]
    repeat' split
    · exact ⟨h.1, trivial⟩
    · trivial
    · trivial
  | cleanup shouldTransition =>
    refine ⟨(stable_of_effect heffect rfl rfl).separate hs, ?_⟩
    simp only [StartMapping.step, errorOrFinish]
    split <;> trivial

theorem startLocalization_step (config : Config) (env : Env) (map : String) (s : Shared)
    (pc : StartLocalization) (hs : Separate s)
    (h : operation s (some (.startLocalization map pc))) : After (pc.step config env map s) := by
  have heffect := StartLocalization.effect config env map s pc
  have hdead := h.1
  cases pc with
  | checkRunning =>
    simp only [StartLocalization.step]
    split
    · exact ⟨hs, hdead, trivial⟩
    · exact ⟨hs, h⟩
  | checkFile =>
    simp only [StartLocalization.step]
    split
    · exact ⟨hs, hdead, trivial⟩
    · split
      · exact ⟨hs, hdead, trivial⟩
      · exact ⟨hs, h⟩
  | startProcess =>
    obtain ⟨hmapping, hlocalization, hstate⟩ := h
    simp only [StartLocalization.step]
    repeat' split
    · exact ⟨hs, hdead, trivial⟩
    · exact ⟨hs, hdead, trivial⟩
    · have hdead : (s.fork .localization map).isRunning .mapping = false := by
        simpa [isRunning_fork] using hmapping
      refine ⟨⟨fun hafter ↦ ?_, fun _ ↦ hdead⟩, hdead, trivial⟩
      have hbefore : s.currentState.isMappingState = true := hafter
      rcases hstate with hstate | hstate
      · cases hs : s.currentState <;> rw [hs] at hstate hbefore <;> cases hstate <;> cases hbefore
      · rw [hstate] at hbefore
        cases hbefore
  | started =>
    have hseparate : Separate (s.transitionTo .relocalizing) :=
      separate_transitionTo hs (by simp [SystemState.isMappingState]) fun _ ↦ hdead
    refine ⟨hseparate, ?_⟩
    simp only [StartLocalization.step]
    repeat' split
    · exact ⟨by simpa using hdead, trivial⟩
    · trivial
    · exact ⟨by simpa using hdead, trivial⟩
  | stopTimedOut missing stage =>
    simp only [StartLocalization.step]
    split
    all_goals
      rename_i hstop
      have hstable := stable_of_stopStep hstop
      exact ⟨hstable.separate hs, hstable.wanes.dead hdead, trivial⟩
  | stopAborted stage =>
    simp only [StartLocalization.step]
    split
    · rename_i hstop
      have hstable := stable_of_stopStep hstop
      exact ⟨hstable.separate hs, hstable.wanes.dead hdead, trivial⟩
    · rename_i hstop
      exact ⟨(stable_of_stopStep hstop).separate hs, trivial⟩
  | publish pose attempt =>
    refine ⟨(stable_of_effect heffect rfl rfl).separate hs, ?_⟩
    simp only [StartLocalization.step]
    split
    · trivial
    · rename_i hpublished
      obtain ⟨published, rfl⟩ := publishInitialPose_eq_ok hpublished
      exact ⟨hdead, trivial⟩
  | unselect =>
    refine ⟨(stable_of_effect heffect rfl rfl).separate hs, ?_⟩
    simp only [StartLocalization.step, errorOrFinish]
    split <;> trivial
  | failed error => exact ⟨(stable_of_effect heffect rfl rfl).separate hs, hdead, trivial⟩
  | poll | pollAlive | pollTopics | readExitCode | loadLastPose | waitConsumer | window =>
    refine ⟨(stable_of_effect heffect rfl rfl).separate hs, ?_⟩
    simp only [StartLocalization.step]
    repeat' split
    all_goals trivial

theorem stopMapping_step (env : Env) (s : Shared) (pc : StopMapping) (hs : Separate s)
    (h : operation s (some (.stopMapping pc))) : After (pc.step env s) := by
  have heffect := StopMapping.effect env s pc
  cases pc with
  | stop stage =>
    simp only [StopMapping.step]
    split
    · rename_i hstop
      have hstable := stable_of_stopStep hstop
      exact ⟨hstable.separate hs, hstable.wanes.dead h⟩
    · rename_i hstop
      exact ⟨(stable_of_stopStep hstop).separate hs, trivial⟩
    · rename_i hstop
      have hstable := stable_of_stopStep hstop
      exact ⟨hstable.separate hs, .of_dead (dead_of_stopStep hstop) (hstable.wanes.dead h)⟩
  | unselect =>
    have hstable := stable_of_effect heffect rfl rfl
    refine ⟨hstable.separate hs, ?_⟩
    simp only [StopMapping.step]
    split
    · exact hstable.quiet h
    · trivial
  | toWait =>
    exact ⟨separate_of_modeless hs rfl rfl, trivial⟩

theorem saveMap_step (config : Config) (env : Env) (map : String) (s : Shared) (pc : SaveMap)
    (hs : Separate s) (h : operation s (some (.saveMap map pc))) :
    After (pc.step config env map s) := by
  have heffect := SaveMap.effect config env map s pc
  cases pc with
  | stop saved saveError stage =>
    simp only [SaveMap.step]
    split
    · rename_i hstop
      have hstable := stable_of_stopStep hstop
      exact ⟨hstable.separate hs, hstable.wanes.dead h⟩
    · rename_i stopped hstop
      have hstable := stable_of_stopStep hstop
      refine ⟨hstable.separate hs, ?_⟩
      cases stopped with
      | error what => exact hstable.wanes.dead h
      | ok => exact .of_dead (dead_of_stopStep hstop) (hstable.wanes.dead h)
  | report saved saveError stopped =>
    have hstable := stable_of_effect heffect rfl rfl
    refine ⟨hstable.separate hs, ?_⟩
    have hdead : s.isRunning .localization = false := by
      cases stopped with
      | error what => exact h
      | ok => exact h .localization
    simp only [SaveMap.step]
    repeat' split
    · exact hdead
    · exact hdead
    · exact h
  | checkState succeeded =>
    refine ⟨hs, ?_⟩
    simp only [SaveMap.step]
    repeat' split
    · rename_i hsucceeded
      subst hsucceeded
      exact h
    · trivial
    · trivial
  | toWait =>
    exact ⟨separate_of_modeless hs rfl rfl, trivial⟩
  | checkRunning | serviceReady | removeOutput | request | checkOutput | markSaved =>
    refine ⟨(stable_of_effect heffect rfl rfl).separate hs, ?_⟩
    simp only [SaveMap.step]
    repeat' split
    all_goals exact h

theorem stopLocalization_step (config : Config) (env : Env) (s : Shared) (pc : StopLocalization)
    (hs : Separate s) (h : operation s (some (.stopLocalization pc))) :
    After (pc.step config env s) := by
  have heffect := StopLocalization.effect config env s pc
  cases pc with
  | save pc =>
    have hstable := stable_of_effect heffect rfl rfl
    refine ⟨hstable.separate hs, ?_⟩
    have hdead := hstable.wanes.dead h
    simp only [StopLocalization.step] at hdead ⊢
    split at hdead
    · exact hdead
    · exact hdead
    · trivial
  | stop stage =>
    simp only [StopLocalization.step]
    split
    · rename_i hstop
      have hstable := stable_of_stopStep hstop
      exact ⟨hstable.separate hs, hstable.wanes.dead h⟩
    · rename_i hstop
      exact ⟨(stable_of_stopStep hstop).separate hs, trivial⟩
    · rename_i hstop
      have hstable := stable_of_stopStep hstop
      exact ⟨hstable.separate hs, .of_dead (hstable.wanes.dead h) (dead_of_stopStep hstop)⟩
  | unselect =>
    have hstable := stable_of_effect heffect rfl rfl
    refine ⟨hstable.separate hs, ?_⟩
    simp only [StopLocalization.step]
    split <;> exact hstable.quiet h
  | toWait =>
    refine ⟨separate_of_modeless hs rfl rfl, ?_⟩
    exact fun leader ↦ by simpa [StopLocalization.step] using h leader
  | resetSession =>
    have hstable := stable_of_effect heffect rfl rfl
    exact ⟨hstable.separate hs, hstable.quiet h⟩
  | resetQuality => exact ⟨(stable_of_effect heffect rfl rfl).separate hs, trivial⟩

theorem afterLeader_operation {s : Shared} {leader : Leader} {errors : List String}
    (hdead : errors = [] → s.isRunning leader = false)
    (hmapping : leader = .localization → errors = [] → s.isRunning .mapping = false) :
    operation s (some (Recovery.afterLeader leader errors)) := by
  cases leader with
  | mapping => exact hdead
  | localization =>
    simp only [Recovery.afterLeader]
    split
    · rename_i hnone
      exact Quiet.of_dead (hmapping rfl hnone) (hdead hnone)
    · trivial

theorem recovery_step (env : Env) (s : Shared) (pc : Recovery) (hs : Separate s)
    (h : operation s (some (.recovery pc))) : After (pc.step env s) := by
  have heffect := Recovery.effect env s pc
  cases pc with
  | checkRunning leader errors =>
    refine ⟨hs, ?_⟩
    simp only [Recovery.step]
    split_ifs with hrunning
    · cases leader
      · trivial
      · exact h
    · refine afterLeader_operation (fun _ ↦ by simpa using hrunning) fun hleader ↦ ?_
      subst hleader
      exact h
  | stop leader errors stage =>
    simp only [Recovery.step]
    split
    all_goals
      rename_i hstop
      have hstable := stable_of_stopStep hstop
      refine ⟨hstable.separate hs, ?_⟩
    · cases leader
      · trivial
      · exact fun hnone ↦ hstable.wanes.dead (h hnone)
    · cases leader
      · trivial
      · exact fun hnone ↦ hstable.wanes.dead (h hnone)
    · refine afterLeader_operation (fun _ ↦ dead_of_stopStep hstop) fun hleader hnone ↦ ?_
      subst hleader
      exact hstable.wanes.dead (h hnone)
  | recheck leader errors error =>
    refine ⟨hs, afterLeader_operation (fun hnone ↦ ?_) fun hleader hnone ↦ ?_⟩
    · split_ifs at hnone with hrunning
      · simp at hnone
      · have hdead : s.isRunning leader = false := by simpa using hrunning
        exact hdead
    · subst hleader
      split_ifs at hnone
      · simp at hnone
      · exact h hnone
  | clear status =>
    have hstable := stable_of_effect heffect rfl rfl
    refine ⟨hstable.separate hs, ?_⟩
    simp only [Recovery.step]
    split
    · trivial
    · refine ⟨fun leader ↦ h leader, ?_⟩
      split <;> rfl
  | resume target =>
    refine ⟨separate_transitionTo hs (fun _ ↦ h.1 _) (fun _ ↦ h.1 _), ?_⟩
    simp only [Recovery.step]
    split <;> trivial
  | resetSession | resetQuality | readSensors =>
    have hstable := stable_of_effect heffect rfl rfl
    exact ⟨hstable.separate hs, hstable.quiet h⟩

theorem stopAfterFailure_step (env : Env) (s : Shared) (pc : StopAfterFailure)
    (hs : Separate s) : After (pc.step env s) := by
  cases pc with
  | stopMapping localizationRunning stage =>
    simp only [StopAfterFailure.step]
    split
    all_goals
      rename_i hstop
      refine ⟨(stable_of_stopStep hstop).separate hs, ?_⟩
    · trivial
    · split <;> trivial
  | stopLocalization stage =>
    simp only [StopAfterFailure.step]
    split
    all_goals
      rename_i hstop
      exact ⟨(stable_of_stopStep hstop).separate hs, trivial⟩

theorem operation_step (config : Config) (env : Env) (s : Shared) (op : Operation)
    (hs : Separate s) (h : operation s (some op)) :
    outline.operation (op.step config env s).1 (op.step config env s).2 := by
  rcases op.step_cases config env s with ⟨hrun, -⟩ | ⟨-, -, code, what, hthrow⟩
  · rw [hrun]
    cases op with
    | startMapping map created pc => exact startMapping_step config env map created s pc hs h
    | startLocalization map pc => exact startLocalization_step config env map s pc hs h
    | stopMapping pc => exact stopMapping_step env s pc hs h
    | saveMap map pc => exact saveMap_step config env map s pc hs h
    | stopLocalization pc => exact stopLocalization_step config env s pc hs h
    | stopAfterFailure pc => exact stopAfterFailure_step env s pc hs
    | recovery pc => exact recovery_step env s pc hs h
    | fail code message =>
      exact ⟨⟨hs.mapping, hs.localization⟩, trivial⟩
    | enterError => exact ⟨separate_of_modeless hs rfl rfl, trivial⟩
    | finish => exact ⟨⟨hs.mapping, hs.localization⟩, trivial⟩
  · rw [hthrow]
    exact ⟨hs, trivial⟩

/-! ## Handlers -/

/-- A tick of the sensor timer between the idle states. -/
theorem drift_of_rest {target before after : SystemState} (htarget : target.isIdle = true)
    (h : StateEffect (some target) before after) (hrest : restOrError before = true) :
    Drift before after := by
  rcases h with hsame | ⟨hafter, hcan⟩
  · exact Or.inl hsame
  · cases hafter
    simp only [restOrError, Bool.or_eq_true, decide_eq_true_eq] at hrest
    rcases hrest with hidle | rfl
    · exact Or.inr (Or.inr (Or.inr ⟨hidle, htarget⟩))
    · cases target <;> cases hcan <;> cases htarget

theorem drift_of_effect {target : Option SystemState} {before after : SystemState}
    (htarget : target = none ∨ target = some .error) (h : StateEffect target before after) :
    Drift before after := by
  rcases h with hsame | ⟨hafter, -⟩
  · exact Or.inl hsame
  · rcases htarget with hnone | herror
    · rw [hnone] at hafter
      cases hafter
    · rw [herror] at hafter
      exact Or.inr (Or.inl (Option.some.inj hafter).symm)

/-- The handlers that enter a mode or RECOVERING. -/
def entersMode : Handler → Bool
  | .recover | .startMapping _ (.transition _) | .saveMap (.transition _)
  | .startLocalization _ .transition => true
  | _ => false

/-- The handlers that enter a mode own the token, the one that takes it in the same step aside. -/
theorem recover_or_holdsToken {handler : Handler} (h : entersMode handler = true) :
    handler = .recover ∨ handler.holdsToken = true := by
  unfold entersMode at h
  split at h
  · exact Or.inl rfl
  · exact Or.inr rfl
  · exact Or.inr rfl
  · exact Or.inr rfl
  · cases h

theorem target_cases (h : Handler) :
    h.target = none ∨ h.target = some .error ∨ entersMode h = true ∨
      ∃ target, h.target = some target ∧ target.isIdle = true ∧
        ∀ s, handler s h → restOrError s.currentState = true := by
  unfold Handler.target
  split
  all_goals
    first
    | exact Or.inl rfl
    | exact Or.inr (Or.inl rfl)
    | exact Or.inr (Or.inr (Or.inl rfl))
    | exact Or.inr (Or.inr (Or.inr ⟨_, rfl, rfl, fun _ hs ↦ hs⟩))

theorem stable_of_handler (config : Config) (env : Env) {s : Shared} {h : Handler}
    (hassertion : handler s h) (hmode : entersMode h = false) :
    Stable s (h.step config env s).1 := by
  have heffect := h.effect config env s
  have hstate := heffect.state
  refine ⟨?_, .of_processes heffect.processes⟩
  rcases target_cases h with htarget | htarget | hmode' | ⟨target, htarget, hidle, hrest⟩
  · exact drift_of_effect (Or.inl htarget) hstate
  · exact drift_of_effect (Or.inr htarget) hstate
  · rw [hmode] at hmode'
    cases hmode'
  · rw [htarget] at hstate
    exact drift_of_rest hidle hstate (hrest s hassertion)

theorem handler_stable {s s' : Shared} (h : Stable s s') (hd : Handler)
    (hassertion : handler s hd) : handler s' hd := by
  have hdead {leader : Leader} (hs : s.isRunning leader = false) := h.wanes.dead hs
  have hquiet := h.quiet
  have hfound {leader : Leader} (hs : FoundDead leader s) : FoundDead leader s' := h.foundDead hs
  have hlaunch := operation_stable h
  have hrest (hs : restOrError s.currentState = true) : restOrError s'.currentState = true := by
    rcases h.drift with hsame | herror | ⟨hbefore, -⟩ | ⟨-, hafter⟩
    · rwa [hsame]
    · rw [herror]
      rfl
    · cases hstate : s.currentState <;> rw [hstate] at hs hbefore <;> cases hs <;> cases hbefore
    · simp [restOrError, hafter]
  unfold handler at hassertion ⊢
  split <;> simp_all

theorem startMapping_continues (config : Config) (env : Env) (name : String) (s : Shared)
    (pc : StartMappingRequest) (h : handler s (.startMapping name pc)) :
    outline.Continues (pc.step config env name s) := by
  cases pc with
  | checkLocalization =>
    simp only [StartMappingRequest.step]
    split_ifs with hvalid hrunning
    · trivial
    · trivial
    · exact fun _ ↦ by simpa using hrunning
  | checkMapping =>
    simp only [StartMappingRequest.step]
    split_ifs with hrunning
    · trivial
    · exact ⟨fun _ ↦ by simpa using hrunning, h⟩
  | saveService =>
    simp only [StartMappingRequest.step]
    split_ifs
    · trivial
    · exact h
  | acquire =>
    exact ProofOutline.continues_acquireForStart fun hidle ↦ .of_dead (h.1 hidle) (h.2 hidle)
  | findMap =>
    simp only [StartMappingRequest.step]
    repeat' split
    · trivial
    · exact h
    · exact h
  | create =>
    simp only [StartMappingRequest.step]
    split
    · trivial
    · exact h
  | checkOutput created =>
    simp only [StartMappingRequest.step]
    repeat' split
    · trivial
    · trivial
    · trivial
    · exact h
  | select created | cleanup => exact h
  | transition created =>
    have hquiet : Quiet (s.transitionTo .mappingStarting) := fun leader ↦ by simpa using h leader
    simp only [StartMappingRequest.step]
    split
    · rename_i hcan
      refine ⟨hquiet .localization, hquiet .mapping, Or.inl ?_⟩
      rw [currentState_transitionTo, if_pos hcan]
    · cases created <;> exact hquiet
  | unselect => trivial

theorem startLocalization_continues (config : Config) (env : Env) (name : String) (s : Shared)
    (pc : StartLocalizationRequest) (h : handler s (.startLocalization name pc)) :
    outline.Continues (pc.step config env name s) := by
  cases pc with
  | checkMapping =>
    simp only [StartLocalizationRequest.step]
    split_ifs with hvalid hrunning
    · trivial
    · trivial
    · exact fun _ ↦ by simpa using hrunning
  | saveService =>
    simp only [StartLocalizationRequest.step]
    split_ifs
    · trivial
    · exact h
  | checkLocalization =>
    simp only [StartLocalizationRequest.step]
    split_ifs with hrunning
    · trivial
    · exact ⟨h, fun _ ↦ by simpa using hrunning⟩
  | acquire =>
    exact ProofOutline.continues_acquireForStart fun hidle ↦ .of_dead (h.1 hidle) (h.2 hidle)
  | load =>
    simp only [StartLocalizationRequest.step]
    repeat' split
    · trivial
    · trivial
    · exact h
  | select | resetSession | resetQuality => exact h
  | transition =>
    have hquiet : Quiet (s.transitionTo .localizationStarting) :=
      fun leader ↦ by simpa using h leader
    simp only [StartLocalizationRequest.step]
    split
    · rename_i hcan
      refine ⟨hquiet .mapping, hquiet .localization, Or.inl ?_⟩
      rw [currentState_transitionTo, if_pos hcan]
      rfl
    · exact hquiet
  | unselect => trivial

theorem restOrError_transitionTo (s : Shared) {target : SystemState}
    (htarget : target.isIdle = true) (hrest : restOrError s.currentState = true) :
    restOrError (s.transitionTo target).currentState = true := by
  rw [currentState_transitionTo]
  split
  · simp [restOrError, htarget]
  · exact hrest

theorem sensorTick_continues (config : Config) (env : Env) (s : Shared) (pc : SensorTick)
    (h : handler s (.sensorTick pc)) :
    outline.Continues (pc.step config env s) := by
  cases pc with
  | snapshot status now =>
    have hrest (hidle : s.currentState.isIdle = true) : restOrError s.currentState = true := by
      simp [restOrError, hidle]
    simp only [SensorTick.step, sensorSnapshot]
    split_ifs with hready hstarting hsensor hactive hgrace hidle hwaiting
    · exact hrest (by rw [hstarting]; rfl)
    · exact hrest (by rw [hsensor]; rfl)
    · trivial
    · trivial
    · trivial
    · exact hrest (by rcases hidle with hidle | hidle <;> rw [hidle] <;> rfl)
    · trivial
    · trivial
  | clearError => exact h
  | toReady => exact restOrError_transitionTo s rfl h
  | claim mapping localization =>
    simp only [SensorTick.step]
    split_ifs <;> trivial
  | restart | reportWaiting =>
    simp only [SensorTick.step]
    split <;> trivial
  | _ => trivial

theorem handler_continues (config : Config) (env : Env) (s : Shared) (h : Handler)
    (hs : Separate s) (hassertion : handler s h) :
    outline.Continues (h.step config env s) := by
  cases h with
  | startMapping name pc => exact startMapping_continues config env name s pc hassertion
  | startLocalization name pc =>
    exact startLocalization_continues config env name s pc hassertion
  | stopMapping =>
    simp only [Handler.step, stopMappingStep]
    split_ifs with hstate htoken
    · trivial
    · trivial
    · have hmapping : s.currentState = .mapping := by simpa using hstate
      have hdead := hs.mapping (by rw [hmapping]; rfl)
      exact hdead
  | saveMap pc =>
    cases pc with
    | acquire =>
      simp only [Handler.step, SaveMapRequest.step]
      split_ifs with hstate htoken
      · trivial
      · trivial
      · have hmapping : s.currentState = .mapping := by simpa using hstate
        have hdead := hs.mapping (by rw [hmapping]; rfl)
        exact hdead
    | transition map =>
      have hdead : s.isRunning .localization = false := hassertion
      simp only [Handler.step, SaveMapRequest.step]
      split
      · rw [← isRunning_transitionTo s .mapSaving] at hdead
        exact hdead
      · trivial
    | path map =>
      simp only [Handler.step, SaveMapRequest.step]
      split
      · trivial
      · exact hassertion
  | stopLocalization =>
    simp only [Handler.step, stopLocalizationStep]
    split_ifs with hstate htoken
    · trivial
    · trivial
    · have hdead := hs.localization (by simpa using hstate)
      exact hdead
  | sensorTick pc => exact sensorTick_continues config env s pc hassertion
  | launch operation reply => exact ⟨hs, hassertion⟩
  | _ =>
    refine ProofOutline.continues_of_follows (Handler.follows config env s _) ?_ (by simp)
    intro next hnext
    cases hnext <;> trivial

/-- The steps that enter a mode find the operation thread ended. -/
theorem operation_entersMode {config : Config} {env : Env} {s : Sys} {h : Handler}
    (htoken : s.Exclusive) (hholds : outline.Holds s) (hsome : s.handler = some h)
    (hmode : entersMode h = true) :
    outline.operation (h.step config env s.shared).1 s.operation := by
  obtain ⟨hs, hoperation⟩ := hholds.operation
  have hassertion := hholds.handler h hsome
  have hended (howns : h.holdsToken = true) : s.operation = none :=
    htoken.alone (by simpa [Sys.handlerHolds, hsome] using howns)
  cases h with
  | recover =>
    simp only [Handler.step, recoverStep]
    split_ifs with hstate hbusy hcan
    · exact ⟨hs, hoperation⟩
    · exact ⟨hs, hoperation⟩
    · exact ⟨hs, hoperation⟩
    · rw [(htoken.free (by simpa using hbusy)).2]
      have hrecovering : Separate (s.shared.transitionTo .recovering) :=
        separate_of_modeless hs rfl rfl
      exact ⟨⟨hrecovering.mapping, hrecovering.localization⟩, trivial⟩
  | startMapping name pc =>
    cases pc with
    | transition created =>
      rw [hended rfl]
      exact ⟨separate_transitionTo hs (fun _ ↦ hassertion .localization)
        (by simp [SystemState.isLocalizationState]), trivial⟩
    | _ => cases hmode
  | saveMap pc =>
    cases pc with
    | transition map =>
      have hdead : s.shared.isRunning .localization = false := hassertion
      rw [hended rfl]
      exact ⟨separate_transitionTo hs (fun _ ↦ hdead) (by simp [SystemState.isLocalizationState]),
        trivial⟩
    | _ => cases hmode
  | startLocalization name pc =>
    cases pc with
    | transition =>
      rw [hended rfl]
      exact ⟨separate_transitionTo hs (by simp [SystemState.isMappingState])
        fun _ ↦ hassertion .mapping, trivial⟩
    | _ => cases hmode
  | _ => cases hmode

theorem not_canTransition_of_rest {state : SystemState} (h : restOrError state = true) :
    ¬ state.canTransition .mapping = true ∧ ¬ state.canTransition .relocalizing = true := by
  revert h
  cases state <;> decide

/-- An operation leads from the idle states and ERROR to one of them. -/
theorem restOrError_operation {config : Config} {env : Env} {s : Shared} {op : Operation}
    (hassertion : operation s (some op)) (hrest : restOrError s.currentState = true) :
    restOrError (op.step config env s).1.currentState = true := by
  rcases op.effect config env s with ⟨-, hend⟩ | ⟨-, s', next, hnext, hcontinues⟩
  · rw [hend]
    exact hrest
  · rw [hnext]
    rcases hcontinues.effect.state with hsame | ⟨htarget, hcan⟩
    · exact (congrArg restOrError hsame).trans hrest
    · have hafter : s'.currentState.isIdle = true ∨ s'.currentState = .error ∨
          s'.currentState = .mapping ∨ s'.currentState = .relocalizing := by
        unfold Operation.target at htarget
        split at htarget
        all_goals simp only [Option.some.injEq, reduceCtorEq] at htarget
        case h_6 => exact Or.inl (htarget ▸ hassertion.2)
        all_goals simp [← htarget, SystemState.isIdle]
      rcases hafter with hidle | herror | hmapping | hrelocalizing
      · simp [restOrError, hidle]
      · simp [restOrError, herror]
      · exact absurd (hmapping ▸ hcan) (not_canTransition_of_rest hrest).1
      · exact absurd (hrelocalizing ▸ hcan) (not_canTransition_of_rest hrest).2

theorem forks_of_target {op : Operation} {target : SystemState} (h : op.target = some target) :
    op.forks = none := by
  unfold Operation.target at h
  split at h <;> first | rfl | cases h

theorem forks_of_idle {s : Shared} {op : Operation} (h : operation s (some op))
    (hidle : s.currentState.isIdle = true) : op.forks = none := by
  cases hforks : op.forks with
  | none => rfl
  | some forked =>
    unfold Operation.forks at hforks
    split at hforks
    · rcases h.2.2 with hstate | hstate <;> rw [hstate] at hidle <;> cases hidle
    · rcases h.2.2 with hstate | hstate
      · cases hs : s.currentState <;> rw [hs] at hstate hidle <;> cases hstate <;> cases hidle
      · rw [hstate] at hidle
        cases hidle
    · cases hforks

/-- An operation enters an idle state when it has stopped the leaders. -/
theorem quiet_of_target {s : Shared} {op : Operation} {target : SystemState}
    (h : operation s (some op)) (htarget : op.target = some target)
    (hidle : target.isIdle = true) : Quiet s := by
  unfold Operation.target at htarget
  split at htarget <;> cases htarget
  · cases hidle
  · cases hidle
  · exact h
  · exact h
  · exact h
  · exact h.1
  · cases hidle

theorem foundDead_operation {config : Config} {env : Env} {s : Shared} {op : Operation}
    {leader : Leader} (hassertion : operation s (some op)) (hfound : FoundDead leader s) :
    FoundDead leader (op.step config env s).1 := by
  intro hidle
  rcases op.effect config env s with ⟨-, hend⟩ | ⟨-, s', next, hnext, hcontinues⟩
  · rw [hend] at hidle ⊢
    exact hfound hidle
  · rw [hnext] at hidle ⊢
    have heffect := hcontinues.effect
    rcases heffect.state with hsame | ⟨htarget, -⟩
    · have hbefore : s.currentState.isIdle = true := hsame ▸ hidle
      have hforks := forks_of_idle hassertion hbefore
      exact (Wanes.of_effect (hforks ▸ heffect.process)).dead (hfound hbefore)
    · have hquiet := quiet_of_target hassertion htarget hidle
      have hforks := forks_of_target htarget
      exact (Wanes.of_effect (hforks ▸ heffect.process)).dead (hquiet leader)

theorem handler_kept {config : Config} {env : Env} {s : Shared} {op : Operation} {h : Handler}
    (hop : operation s (some op)) (hidle : h.holdsToken = false) (hassertion : handler s h) :
    handler (op.step config env s).1 h := by
  cases h with
  | startMapping name pc =>
    cases pc with
    | checkLocalization => trivial
    | checkMapping => exact foundDead_operation hop hassertion
    | saveService | acquire =>
      exact ⟨foundDead_operation hop hassertion.1, foundDead_operation hop hassertion.2⟩
    | _ => cases hidle
  | startLocalization name pc =>
    cases pc with
    | checkMapping => trivial
    | saveService | checkLocalization => exact foundDead_operation hop hassertion
    | acquire =>
      exact ⟨foundDead_operation hop hassertion.1, foundDead_operation hop hassertion.2⟩
    | _ => cases hidle
  | saveMap pc => cases pc <;> trivial
  | sensorTick pc =>
    cases pc with
    | clearError | toReady | toWait | restart => exact restOrError_operation hop hassertion
    | _ => trivial
  | launch operation reply => cases hidle
  | _ => trivial

theorem stable_of_interference {s s' : Shared} (h : Interference s s') : Stable s s' := by
  constructor
  · rcases h.state with hsame | ⟨hcan, hafter⟩
    · exact Or.inl hsame
    · have hlocalization : s'.currentState.isLocalizationState = true := by
        rcases hafter with hafter | hafter <;> rw [hafter] <;> rfl
      have hbefore := SystemState.isLocalizationState_of_canTransition hcan hlocalization
        (by rcases hafter with hafter | hafter <;> simp [hafter])
      exact Or.inr (Or.inr (Or.inl ⟨hbefore, hlocalization⟩))
  · rcases h.processes with hsame | ⟨leader, exitCode, hreap⟩
    · exact .of_processes hsame
    · exact .of_reap hreap

theorem valid (config : Config) : outline.Valid config anyAction where
  begins s request := by cases request <;> trivial
  handler s env h _ htoken hholds hsome := by
    refine ProofOutline.afterHandler_of ?_
      (handler_continues config env s.shared h hholds.operation.1 (hholds.handler h hsome))
    by_cases hmode : entersMode h = true
    · exact operation_entersMode htoken hholds hsome hmode
    · have hstable := stable_of_handler config env (hholds.handler h hsome) (by simpa using hmode)
      exact ⟨hstable.separate hholds.operation.1, operation_stable hstable _ hholds.operation.2⟩
  operation s env op _ _ hholds hsome := by
    obtain ⟨hs, hoperation⟩ := hholds.operation
    rw [hsome] at hoperation
    exact operation_step config env s.shared op hs hoperation
  handlerKept s env op h _ htoken hholds hsome hhandler := by
    have hidle := htoken.of_operation hsome
    simp only [Sys.handlerHolds, hhandler, Option.any_some] at hidle
    have hoperation := hholds.operation.2
    rw [hsome] at hoperation
    exact handler_kept hoperation hidle (hholds.handler h hhandler)
  interference s s' hinterference :=
    ⟨fun o ho ↦ ⟨(stable_of_interference hinterference).separate ho.1,
        operation_stable (stable_of_interference hinterference) o ho.2⟩,
      handler_stable (stable_of_interference hinterference)⟩

theorem separate_of_rest {s : Shared} (h : restOrError s.currentState = true) : Separate s := by
  refine ⟨fun hafter ↦ ?_, fun hafter ↦ ?_⟩ <;>
    cases hstate : s.currentState <;> rw [hstate] at h hafter <;> cases h <;> cases hafter

end ModeExclusion

theorem Sys.Initial.restOrError {s : Sys} (h : s.Initial) :
    ModeExclusion.restOrError s.shared.currentState = true := by
  rcases h.state with hstate | ⟨hstate, -⟩ <;> rw [hstate] <;> rfl

theorem Reachable.modeExclusion {config : Config} {s : Sys} (h : Reachable config s) :
    ModeExclusion.outline.Holds s :=
  (ModeExclusion.valid config).reaches
    (fun _ hinit ↦ ⟨ModeExclusion.separate_of_rest hinit.restOrError, trivial⟩) h

/-! ## Runs without automatic starts -/

namespace ModeExclusion

theorem Exclusive.of_quiet {s : Shared} (h : Quiet s) : Exclusive s :=
  ⟨Or.inl (h .mapping), by simp [h .mapping], by simp [h .localization]⟩

/-- Where no leader comes to life, the state alone has to be one of a leader that is alive. -/
theorem Exclusive.enter {s s' : Shared} (hs : Exclusive s) (hwanes : Wanes s s')
    (hmapping : s.isRunning .mapping = true → ownsMapping s'.currentState = true)
    (hlocalization : s.isRunning .localization = true → ownsLocalization s'.currentState = true) :
    Exclusive s' := by
  refine ⟨?_, fun hrunning ↦ hmapping (hwanes _ hrunning),
    fun hrunning ↦ hlocalization (hwanes _ hrunning)⟩
  rcases hs.alone with hdead | hdead
  · exact Or.inl (hwanes.dead hdead)
  · exact Or.inr (hwanes.dead hdead)

/-- The idle states have no leader. -/
theorem quiet_of_idle {s : Shared} (hs : Exclusive s) (hidle : s.currentState.isIdle = true) :
    Quiet s := by
  refine .of_dead ?_ ?_
  · by_contra hrunning
    have howns := hs.mapping (by simpa using hrunning)
    cases hstate : s.currentState <;> rw [hstate] at howns hidle <;> cases howns <;> cases hidle
  · by_contra hrunning
    have howns := hs.localization (by simpa using hrunning)
    cases hstate : s.currentState <;> rw [hstate] at howns hidle <;> cases howns <;> cases hidle

/-- A fork is one of the leader of the mode, beside a dead one. -/
theorem exclusive_fork {s s' : Shared} {op : Operation} {forked : Leader × String}
    (hs : Exclusive s) (h : operation s (some op)) (hforks : op.forks = some forked)
    (hstate : s'.currentState = s.currentState) (heffect : ProcessEffect op.forks s s') :
    Exclusive s' := by
  rcases heffect with hsame | ⟨leader, map, hleader, -, hfork⟩ | ⟨leader, exitCode, hreap⟩
  · exact hs.enter (.of_processes hsame) (fun hrunning ↦ hstate ▸ hs.mapping hrunning)
      fun hrunning ↦ hstate ▸ hs.localization hrunning
  · have hother (other : Leader) (hne : other ≠ leader) :
        s'.isRunning other = s.isRunning other := by
      simp [Shared.isRunning, hfork, Shared.fork, Shared.setProcess, Function.update_of_ne hne]
    unfold Operation.forks at hleader
    split at hleader <;> cases hleader
    · have hdead : s'.isRunning .localization = false :=
        (hother .localization (by decide)).trans h.1
      refine ⟨Or.inr hdead, fun _ ↦ ?_, by simp [hdead]⟩
      rw [hstate]
      rcases h.2.2 with hstate | hstate <;> rw [hstate] <;> rfl
    · have hdead : s'.isRunning .mapping = false := (hother .mapping (by decide)).trans h.1
      refine ⟨Or.inl hdead, by simp [hdead], fun _ ↦ ?_⟩
      rw [hstate]
      rcases h.2.2 with hstate | hstate <;> simp [ownsLocalization, hstate]
  · exact hs.enter (.of_reap hreap) (fun hrunning ↦ hstate ▸ hs.mapping hrunning)
      fun hrunning ↦ hstate ▸ hs.localization hrunning

/-- The state an operation enters is one of the leaders it has left alive. -/
theorem owns_of_operation {s : Shared} {op : Operation} {target : SystemState}
    (h : operation s (some op)) (htarget : op.target = some target) :
    (s.isRunning .mapping = true → ownsMapping target = true) ∧
      (s.isRunning .localization = true → ownsLocalization target = true) := by
  by_cases hidle : target.isIdle = true
  · have hquiet := quiet_of_target h htarget hidle
    simp [hquiet .mapping, hquiet .localization]
  · unfold Operation.target at htarget
    split at htarget <;> cases htarget
    · exact ⟨fun _ ↦ rfl, by simp [h.1]⟩
    · exact ⟨by simp [h.1], fun _ ↦ rfl⟩
    · exact absurd rfl hidle
    · exact absurd rfl hidle
    · exact absurd rfl hidle
    · exact absurd h.2 hidle
    · exact ⟨fun _ ↦ rfl, fun _ ↦ rfl⟩

theorem exclusive_operation (config : Config) (env : Env) {s : Shared} {op : Operation}
    (hs : Exclusive s) (h : operation s (some op)) : Exclusive (op.step config env s).1 := by
  rcases op.effect config env s with ⟨-, hend⟩ | ⟨-, s', next, hnext, hcontinues⟩
  · rw [hend]
    exact ⟨hs.alone, hs.mapping, hs.localization⟩
  · rw [hnext]
    have heffect := hcontinues.effect
    rcases heffect.state with hsame | ⟨htarget, -⟩
    · cases hforks : op.forks with
      | none =>
        exact hs.enter (.of_effect (hforks ▸ heffect.process))
          (fun hrunning ↦ hsame ▸ hs.mapping hrunning)
          fun hrunning ↦ hsame ▸ hs.localization hrunning
      | some forked => exact exclusive_fork hs h hforks hsame heffect.process
    · obtain ⟨hmapping, hlocalization⟩ := owns_of_operation h htarget
      exact hs.enter (.of_effect (forks_of_target htarget ▸ heffect.process)) hmapping
        hlocalization

/-- The mode a handler enters is that of the leader that is alive, if one is. -/
theorem owns_of_entersMode {s : Shared} {h : Handler} {target : SystemState}
    (hassertion : handler s h) (hmode : entersMode h = true) (htarget : h.target = some target) :
    (s.isRunning .mapping = true → ownsMapping target = true) ∧
      (s.isRunning .localization = true → ownsLocalization target = true) := by
  unfold entersMode at hmode
  split at hmode
  · cases htarget
    exact ⟨fun _ ↦ rfl, fun _ ↦ rfl⟩
  · cases htarget
    have hdead : s.isRunning .localization = false := hassertion .localization
    exact ⟨fun _ ↦ rfl, by simp [hdead]⟩
  · cases htarget
    have hdead : s.isRunning .localization = false := hassertion
    exact ⟨fun _ ↦ rfl, by simp [hdead]⟩
  · cases htarget
    have hdead : s.isRunning .mapping = false := hassertion .mapping
    exact ⟨by simp [hdead], fun _ ↦ rfl⟩
  · cases hmode

theorem exclusive_handler (config : Config) (env : Env) {s : Shared} {h : Handler}
    (hs : Exclusive s) (hassertion : handler s h) : Exclusive (h.step config env s).1 := by
  cases hmode : entersMode h with
  | false => exact (stable_of_handler config env hassertion hmode).exclusive hs
  | true =>
    have heffect := h.effect config env s
    have hwanes : Wanes s (h.step config env s).1 := .of_processes heffect.processes
    rcases heffect.state with hsame | ⟨htarget, -⟩
    · exact hs.enter hwanes (fun hrunning ↦ hsame ▸ hs.mapping hrunning)
        fun hrunning ↦ hsame ▸ hs.localization hrunning
    · obtain ⟨hmapping, hlocalization⟩ := owns_of_entersMode hassertion hmode htarget
      exact hs.enter hwanes hmapping hlocalization

theorem Exclusive.step {config : Config} {s s' : Sys} {a : Action} (hs : Exclusive s.shared)
    (hholds : outline.Holds s) (hstep : s.step config a = some s') : Exclusive s'.shared := by
  cases a with
  | handler env =>
    obtain ⟨h, hhandler, hnext⟩ := Option.bind_eq_some_iff.mp hstep
    rw [Sys.shared_afterHandler hnext]
    exact exclusive_handler config env hs (hholds.handler h hhandler)
  | operation env =>
    obtain ⟨op, hsome, rfl⟩ := Option.map_eq_some_iff.mp hstep
    have hoperation := hholds.operation.2
    rw [hsome] at hoperation
    exact exclusive_operation config env hs hoperation
  | call request =>
    obtain ⟨-, rfl⟩ := Sys.call_of_step hstep
    exact hs
  | deliver | callback | observe | exit | writeMap | takeSave | writeSave =>
    have hother := bystander_of_step hstep (by simp) (by simp) (by simp)
    exact (stable_of_interference hother.interference).exclusive hs

end ModeExclusion

theorem ReachableUnstarted.exclusiveModes {config : Config} {s : Sys}
    (h : ReachableUnstarted config s) : ModeExclusion.Exclusive s.shared := by
  refine Reaches.invariant_of (P := fun s : Sys ↦ ModeExclusion.Exclusive s.shared)
    (fun s (hs : ReachableUnstarted config s) ↦ hs.reachable.modeExclusion)
    (fun s hinit ↦ .of_quiet fun leader ↦ ?_) (fun s a s' hholds hs _ ↦ hs.step hholds) h
  simp [Shared.isRunning, hinit.processes]

/-- Mode exclusion: the two leaders are never both alive, and while no operation is in progress
neither is alive in the states that wait for the sensors or for a mode. -/
theorem mode_exclusion (config : Config) (s : Sys) (h : ReachableUnstarted config s) :
    ¬ (s.shared.isRunning .mapping = true ∧ s.shared.isRunning .localization = true) ∧
      (s.shared.operationInProgress = false → s.shared.currentState.isIdle = true →
        s.shared.isRunning .mapping = false ∧ s.shared.isRunning .localization = false) := by
  have hexclusive := h.exclusiveModes
  refine ⟨fun ⟨hmapping, hlocalization⟩ ↦ ?_, fun _ hidle ↦ ?_⟩
  · rcases hexclusive.alone with hdead | hdead
    · rw [hmapping] at hdead
      cases hdead
    · rw [hlocalization] at hdead
      cases hdead
  · have hquiet := ModeExclusion.quiet_of_idle hexclusive hidle
    exact ⟨hquiet .mapping, hquiet .localization⟩

/-- The run that starts mapping. -/
theorem mode_exclusion_mapping :
    ∃ s, exec (Sys.step {}) (Sys.initial ∅) (toWaitMode ++ launchMapping "m" ++ enterMapping) =
        some s ∧
      s.shared.isRunning .mapping = true ∧ s.shared.isRunning .localization = false := by
  obtain ⟨s, hs, hrunning⟩ : ∃ s, exec (Sys.step {}) (Sys.initial ∅)
      (toWaitMode ++ launchMapping "m" ++ enterMapping) = some s ∧
      s.shared.isRunning .mapping = true :=
    Option.map_eq_some_iff.mp (by decide +kernel : (exec (Sys.step {}) (Sys.initial ∅)
      (toWaitMode ++ launchMapping "m" ++ enterMapping)).map
        (fun s ↦ s.shared.isRunning .mapping) = some true)
  refine ⟨s, hs, hrunning, ?_⟩
  by_contra hlocalization
  exact (mode_exclusion {} s (unstarted_of_exec hs)).1 ⟨hrunning, by simpa using hlocalization⟩

end SlamSystemManager.Manager
