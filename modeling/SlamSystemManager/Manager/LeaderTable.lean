import SlamSystemManager.Manager.Effects
import SlamSystemManager.ProcessManager.LeaderTable

/-!
# The manager's view of its leaders

The processes that the manager's threads look at are the table that the process manager refines:
a step forks a leader that does not run, sees one end that does, or leaves both as they are.
-/

open TransitionSystem
namespace SlamSystemManager.Manager

open ProcessManager (LeaderTable)

def Shared.leaders (s : Shared) : LeaderTable := fun leader ↦
  ⟨(s.processes leader).alive, (s.processes leader).lastExitCode⟩

theorem leaders_of_processes {s s' : Shared} (h : s'.processes = s.processes) :
    s'.leaders = s.leaders := by
  funext leader
  simp [Shared.leaders, h]

/-- Nothing happens to the table, or one event. -/
def LeaderEffect (s s' : Shared) : Prop :=
  s'.processes = s.processes ∨
    (∃ leader map, s.isRunning leader = false ∧
      s'.processes = (s.fork leader map).processes) ∨
    ∃ leader exitCode, s.isRunning leader = true ∧
      s'.processes = (s.reap leader exitCode).processes

theorem fork_leaders {s s' : Shared} {leader : Leader} {map : String}
    (hdead : s.isRunning leader = false) (h : s'.processes = (s.fork leader map).processes) :
    s.leaders.step (.fork leader) = some s'.leaders := by
  rw [LeaderTable.step,
    if_neg (show ¬(s.leaders leader).alive = true from ne_true_of_eq_false hdead)]
  congr 1
  funext other
  by_cases hother : other = leader
  · subst hother
    simp [Shared.leaders, h, Shared.fork, Shared.setProcess]
  · simp [Shared.leaders, h, Shared.fork, Shared.setProcess, hother]

theorem reap_leaders {s s' : Shared} {leader : Leader} {exitCode : ℤ}
    (halive : s.isRunning leader = true) (h : s'.processes = (s.reap leader exitCode).processes) :
    s.leaders.step (.reap leader exitCode) = some s'.leaders := by
  rw [LeaderTable.step, if_pos (show (s.leaders leader).alive = true from halive)]
  congr 1
  funext other
  by_cases hother : other = leader
  · subst hother
    simp [Shared.leaders, h, Shared.reap, Shared.setProcess]
  · simp [Shared.leaders, h, Shared.reap, Shared.setProcess, hother]

theorem LeaderEffect.run {s s' : Shared} (h : LeaderEffect s s') :
    LeaderTable.Run s.leaders s'.leaders := by
  obtain hsame | ⟨leader, map, hdead, hfork⟩ | ⟨leader, exitCode, halive, hreap⟩ := h
  · rw [leaders_of_processes hsame]
    exact .refl
  · exact Steps.refl.tail trivial (fork_leaders hdead hfork)
  · exact Steps.refl.tail trivial (reap_leaders halive hreap)

theorem leaderEffect_stopStep {env : Env} {leader : Leader} {s s' : Shared} {stage : StopStage}
    {next : StopStage ⊕ StopResult} (h : stopStep env leader s stage = (s', next)) :
    LeaderEffect s s' := by
  obtain rfl | ⟨halive, rfl, -⟩ := stopStep_cases h
  · exact Or.inl rfl
  · exact Or.inr (Or.inr ⟨leader, env.exitCode, halive, rfl⟩)

/-! ## Steps -/

/-- The call of `stop` that an operation is midway through. -/
def Operation.stops : Operation → Option (Leader × StopStage)
  | .startMapping _ _ (.stopTimedOut stage) => some (.mapping, stage)
  | .startMapping _ _ (.stopAborted stage) => some (.mapping, stage)
  | .startLocalization _ (.stopTimedOut _ stage) => some (.localization, stage)
  | .startLocalization _ (.stopAborted stage) => some (.localization, stage)
  | .stopMapping (.stop stage) => some (.mapping, stage)
  | .saveMap _ (.stop _ _ stage) => some (.mapping, stage)
  | .stopLocalization (.stop stage) => some (.localization, stage)
  | .stopAfterFailure (.stopMapping _ stage) => some (.mapping, stage)
  | .stopAfterFailure (.stopLocalization stage) => some (.localization, stage)
  | .recovery (.stop leader _ stage) => some (leader, stage)
  | _ => none

theorem run_of_stops (config : Config) (env : Env) (s : Shared) {o : Operation} {leader : Leader}
    {stage : StopStage} (h : o.stops = some (leader, stage)) :
    (o.run config env s).1 = (stopStep env leader s stage).1 := by
  cases o with
  | startMapping map created pc =>
    cases pc <;> cases h
    all_goals
      simp only [Operation.run, StartMapping.step]
      split <;> simp_all
  | startLocalization map pc =>
    cases pc <;> cases h
    all_goals
      simp only [Operation.run, StartLocalization.step]
      split <;> simp_all
  | stopMapping pc =>
    cases pc <;> cases h
    simp only [Operation.run, StopMapping.step]
    split <;> simp_all
  | saveMap map pc =>
    cases pc <;> cases h
    simp only [Operation.run, SaveMap.step]
    split <;> simp_all
  | stopLocalization pc =>
    cases pc <;> cases h
    simp only [Operation.run, StopLocalization.step]
    split <;> simp_all
  | stopAfterFailure pc =>
    cases pc <;> cases h
    all_goals
      simp only [Operation.run, StopAfterFailure.step]
      split <;> simp_all
  | recovery pc =>
    cases pc <;> cases h
    simp only [Operation.run, Recovery.step]
    split <;> simp_all
  | _ => cases h

theorem processes_run (config : Config) (env : Env) (s : Shared) {o : Operation}
    (hstops : o.stops = none) (hforks : o.forks = none) :
    (o.run config env s).1.processes = s.processes := by
  cases o with
  | startMapping map created pc =>
    cases pc with
    | stopTimedOut | stopAborted => cases hstops
    | startProcess => cases hforks
    | started => exact processes_transitionTo s .mapping
    | prepareConfig =>
      simp only [Operation.run, StartMapping.step]
      split <;> rfl
    | _ => rfl
  | startLocalization map pc =>
    cases pc with
    | stopTimedOut | stopAborted => cases hstops
    | startProcess => cases hforks
    | started => exact processes_transitionTo s .relocalizing
    | publish pose =>
      simp only [Operation.run, StartLocalization.step]
      split
      · rfl
      · rename_i hpublished
        obtain ⟨published, rfl⟩ := publishInitialPose_eq_ok hpublished
        rfl
    | checkFile | loadLastPose =>
      simp only [Operation.run, StartLocalization.step]
      split <;> rfl
    | _ => rfl
  | stopMapping pc =>
    cases pc with
    | stop stage => cases hstops
    | toWait => exact processes_transitionTo s .waitMode
    | _ => rfl
  | saveMap map pc =>
    cases pc with
    | stop saved error stage => cases hstops
    | toWait => exact processes_transitionTo s .waitMode
    | removeOutput | request | checkOutput | markSaved | report =>
      simp only [Operation.run, SaveMap.step]
      repeat' split
      all_goals rfl
    | _ => rfl
  | stopLocalization pc =>
    cases pc with
    | stop stage => cases hstops
    | toWait => exact processes_transitionTo s .waitMode
    | save pc =>
      have hsave := (saveLastPoseStep_effect config s pc).processes
      simp only [Operation.run, StopLocalization.step]
      split <;> simp_all
    | _ => rfl
  | stopAfterFailure pc =>
    cases pc with
    | stopMapping | stopLocalization => cases hstops
  | recovery pc =>
    cases pc with
    | stop leader errors stage => cases hstops
    | resume target => exact processes_transitionTo s target
    | clear status =>
      simp only [Operation.run, Recovery.step]
      split <;> rfl
    | _ => rfl
  | fail code message => rfl
  | enterError => exact processes_transitionTo s .error
  | finish => rfl

theorem leaderEffect_forks (config : Config) (env : Env) (s : Shared) {o : Operation}
    {started : Leader × String} (h : o.forks = some started) :
    LeaderEffect s (o.run config env s).1 := by
  cases o with
  | startMapping map created pc =>
    cases pc <;> cases h
    simp only [Operation.run, StartMapping.step]
    repeat' split
    · exact Or.inl rfl
    · exact Or.inl rfl
    · rename_i hdead _ _
      exact Or.inr (Or.inl ⟨.mapping, map, (Bool.not_eq_true _).mp hdead, rfl⟩)
  | startLocalization map pc =>
    cases pc <;> cases h
    simp only [Operation.run, StartLocalization.step]
    repeat' split
    · exact Or.inl rfl
    · exact Or.inl rfl
    · rename_i hdead _ _
      exact Or.inr (Or.inl ⟨.localization, map, (Bool.not_eq_true _).mp hdead, rfl⟩)
  | _ => cases h

theorem leaderEffect_operation (config : Config) (env : Env) (s : Shared) (o : Operation) :
    LeaderEffect s (o.step config env s).1 := by
  obtain ⟨hstep, -⟩ | ⟨-, -, code, what, hstep⟩ := o.step_cases config env s
  · rw [hstep]
    cases hstops : o.stops with
    | some call =>
      rw [run_of_stops config env s hstops]
      exact leaderEffect_stopStep rfl
    | none =>
      cases hforks : o.forks with
      | none => exact Or.inl (processes_run config env s hstops hforks)
      | some started => exact leaderEffect_forks config env s hforks
  · rw [hstep]
    exact Or.inl rfl

theorem leaderEffect_step {config : Config} {s s' : Sys} {a : Action}
    (hstep : s.step config a = some s') : LeaderEffect s.shared s'.shared := by
  cases a with
  | exit leader exitCode =>
    simp only [Sys.step] at hstep
    split at hstep
    · rename_i halive
      cases hstep
      exact Or.inr (Or.inr ⟨leader, exitCode, halive, rfl⟩)
    · cases hstep
  | operation env =>
    obtain ⟨o, -, rfl⟩ := Option.map_eq_some_iff.mp hstep
    exact leaderEffect_operation config env s.shared o
  | call request =>
    obtain ⟨-, rfl⟩ := Sys.call_of_step hstep
    exact Or.inl rfl
  | handler env =>
    obtain ⟨handler, r, -, hr, -⟩ := Sys.handlerMove_of_step hstep
    exact Or.inl (Handler.effect_of_step hr).processes
  | callback id env =>
    obtain ⟨callback, -, rfl⟩ := Option.map_eq_some_iff.mp hstep
    exact Or.inl (callback.effect config env s.shared).processes
  | writeSave error =>
    obtain ⟨request, -, rfl⟩ := Option.map_eq_some_iff.mp hstep
    exact Or.inl rfl
  | deliver | observe | writeMap | takeSave =>
    simp only [Sys.step] at hstep
    split at hstep <;> cases hstep
    exact Or.inl rfl

/-- The manager refines the table of the leaders. -/
theorem refines_leaderTable (config : Config) :
    Refines (Sys.step config) anyAction (fun _ ↦ True) LeaderTable.step anyAction
      fun s ↦ s.shared.leaders where
  keeps _ _ _ _ _ _ := trivial
  seen _ _ _ _ _ hstep := (leaderEffect_step hstep).run

/-! ## The calls of the process manager -/

/-- Leaders end, and nothing else happens. -/
def ExitsOnly (_ : Sys) : Action → Prop
  | .exit _ _ => True
  | _ => False

def Sys.setProcesses (s : Sys) (processes : Leader → Process) : Sys :=
  { s with shared := { s.shared with processes := processes } }

/-- The manager comes by exits of leaders to a table, and is otherwise as it was. -/
def Follows (config : Config) (s s' : Sys) (table : LeaderTable) : Prop :=
  Steps (Sys.step config) ExitsOnly s s' ∧ s'.shared.leaders = table ∧
    ∃ processes, s' = s.setProcesses processes

theorem Sys.step_exit (config : Config) {s : Sys} {leader : Leader} (exitCode : ℤ)
    (halive : s.shared.isRunning leader = true) :
    s.step config (.exit leader exitCode) =
      some (s.setProcesses (s.shared.reap leader exitCode).processes) := by
  simp only [Sys.step, halive, if_true]
  rfl

theorem follows_reaping (config : Config) (s : Sys) {table : LeaderTable}
    (h : LeaderTable.Reaping s.shared.leaders table) : ∃ s', Follows config s s' table := by
  induction h with
  | refl => exact ⟨s, .refl, rfl, s.shared.processes, rfl⟩
  | @tail table table' event _ hreap hstep ih =>
    obtain ⟨middle, hexits, rfl, processes, hmiddle⟩ := ih
    cases event with
    | fork leader => cases hreap
    | reap leader exitCode =>
      have halive : middle.shared.isRunning leader = true := by
        by_contra hdead
        have hrefused : middle.shared.leaders.step (.reap leader exitCode) = none := if_neg hdead
        rw [hrefused] at hstep
        cases hstep
      have hafter : middle.shared.leaders.step (.reap leader exitCode) = some
          (middle.setProcesses (middle.shared.reap leader exitCode).processes).shared.leaders :=
        reap_leaders halive rfl
      refine ⟨_, hexits.tail (a := .exit leader exitCode) trivial
        (middle.step_exit config exitCode halive),
        Option.some.inj (hafter.symm.trans hstep),
        (middle.shared.reap leader exitCode).processes, ?_⟩
      rw [hmiddle]
      rfl

/-- Where an operation that has called `startProcess` goes on. -/
def Operation.afterStart : Operation → Except String Unit → Option Operation
  | .startMapping map created _, .error what => some (.startMapping map created (.failed what))
  | .startMapping map created _, .ok () => some (.startMapping map created .waitService)
  | .startLocalization map _, .error what => some (.startLocalization map (.failed what))
  | .startLocalization map _, .ok () => some (.startLocalization map (.poll ""))
  | _, _ => none

/-- The surroundings in which a start has a result. -/
def startEnv : Except String Unit → Env
  | .error what => { failure := some what }
  | .ok () => {}

/-- An operation at its start of a leader, with the result that the process manager has given it. -/
theorem operation_starts (config : Config) {s : Sys} {o : Operation} {leader : Leader}
    {map : String} (hsome : s.operation = some o) (hforks : o.forks = some (leader, map))
    (result : Except String Unit)
    (halive : s.shared.isRunning leader = true →
      result = .error ("Process is already running: " ++ leader.name)) :
    ∃ s', s.step config (.operation (startEnv result)) = some s' ∧
      s'.operation = o.afterStart result ∧
      s'.shared = if result = .ok () then s.shared.fork leader map else s.shared := by
  cases o with
  | startMapping map' created pc =>
    cases pc <;> cases hforks
    simp only [Sys.step, hsome, Option.map_some]
    refine ⟨_, rfl, ?_⟩
    cases hrunning : s.shared.isRunning .mapping with
    | true =>
      rw [halive hrunning]
      simp [startEnv, Operation.step, Operation.run, StartMapping.step, hrunning,
        Operation.afterStart, Leader.name]
    | false =>
      cases result with
      | error what =>
        simp [startEnv, Operation.step, Operation.run, StartMapping.step, hrunning,
          Operation.afterStart]
      | ok =>
        simp [startEnv, Operation.step, Operation.run, StartMapping.step, hrunning,
          Operation.afterStart]
  | startLocalization map' pc =>
    cases pc <;> cases hforks
    simp only [Sys.step, hsome, Option.map_some]
    refine ⟨_, rfl, ?_⟩
    cases hrunning : s.shared.isRunning .localization with
    | true =>
      rw [halive hrunning]
      simp [startEnv, Operation.step, Operation.run, StartLocalization.step, hrunning,
        Operation.afterStart, Leader.name]
    | false =>
      cases result with
      | error what =>
        simp [startEnv, Operation.step, Operation.run, StartLocalization.step, hrunning,
          Operation.afterStart]
      | ok =>
        simp [startEnv, Operation.step, Operation.run, StartLocalization.step, hrunning,
          Operation.afterStart]
  | _ => cases hforks

/-- The process manager keeps to the manager's picture of it: from states that agree on the leaders,
what it does by itself and what the manager's calls do are both followed by the manager, which then
reads the answers in its own table. -/
structure Pictures (config : Config) (p : ProcessManager.Sys) (s : Sys) : Prop where
  step : ∀ a p', ProcessManager.KeepsConfig p a → p.starts a = false → p.step a = some p' →
    ∃ s', Follows config s s' p'.shared.table.leaders
  isProcessRunning : ∀ (leader : Leader) fault,
    let asked := ProcessManager.isProcessRunning p.shared leader.name fault
    ∃ s', Follows config s s' asked.1.table.leaders ∧ asked.2 = s'.shared.isRunning leader
  lastExitCode : ∀ (leader : Leader) fault,
    let asked := ProcessManager.lastExitCode p.shared leader.name fault
    ∃ s', Follows config s s' asked.1.table.leaders ∧
      asked.2 = (s'.shared.processes leader).lastExitCode
  startProcess : ∀ (leader : Leader) map o, s.operation = some o → o.forks = some (leader, map) →
    ∀ substitutions fault forked p' result,
      ProcessManager.startProcess p.shared leader.name substitutions fault forked =
        some (p', result) →
      ∃ middle table s', Follows config s middle table ∧
        middle.step config (.operation (startEnv result)) = some s' ∧
        s'.operation = o.afterStart result ∧ s'.shared.leaders = p'.table.leaders

/-- The two models of the leaders fit together, in every state of the process manager. -/
theorem process_manager_pictured (config : Config) (p : ProcessManager.Sys)
    (hp : Reaches ProcessManager.Sys.step ProcessManager.KeepsConfig ProcessManager.Sys.Loaded p)
    (s : Sys) (hsame : s.shared.leaders = p.shared.table.leaders) : Pictures config p s := by
  have hsound : p.shared.Sound :=
    hp.invariant (fun _ hloaded ↦ hloaded.sound) ProcessManager.refines_leaderTable.keeps
  constructor
  · intro a p' hkeeps hstarts hstep
    have hreaping := ProcessManager.Sys.reaping_step hsound hkeeps hstarts hstep
    exact follows_reaping config s (hsame ▸ hreaping)
  · intro leader fault
    obtain ⟨hreaping, hanswer⟩ := hsound.answers.isProcessRunning leader fault
    obtain ⟨s', hfollows⟩ := follows_reaping config s (hsame ▸ hreaping)
    refine ⟨s', hfollows, hanswer.trans ?_⟩
    rw [← hfollows.2.1]
    rfl
  · intro leader fault
    obtain ⟨hreaping, hanswer⟩ := hsound.answers.lastExitCode leader fault
    obtain ⟨s', hfollows⟩ := follows_reaping config s (hsame ▸ hreaping)
    refine ⟨s', hfollows, hanswer.trans ?_⟩
    rw [← hfollows.2.1]
    rfl
  · intro leader map o hsome hforks substitutions fault forked p' result hstart
    have hstarted := hsound.answers.startProcess leader substitutions fault forked p' result hstart
    cases result with
    | error what =>
      obtain ⟨middle, hfollows⟩ := follows_reaping config s (hsame ▸ hstarted)
      obtain ⟨-, hleaders, processes, hmiddle⟩ := id hfollows
      have hmiddleSome : middle.operation = some o := by rw [hmiddle]; exact hsome
      obtain ⟨s', hstep, hafter, hshared⟩ := operation_starts config hmiddleSome hforks
        (.error what) fun halive ↦ by
          rw [ProcessManager.startProcess_alive hsound hstart (hleaders ▸ halive)]
      refine ⟨middle, _, s', hfollows, hstep, hafter, ?_⟩
      rw [hshared]
      exact hleaders
    | ok =>
      obtain ⟨table, hreaping, hfork⟩ := hstarted
      obtain ⟨middle, hfollows⟩ := follows_reaping config s (hsame ▸ hreaping)
      obtain ⟨-, hleaders, processes, hmiddle⟩ := id hfollows
      have hmiddleSome : middle.operation = some o := by rw [hmiddle]; exact hsome
      have hdead : middle.shared.isRunning leader = false := by
        by_contra halive
        have hrefused : middle.shared.leaders.step (.fork leader) = none :=
          if_pos ((Bool.not_eq_false _).mp halive)
        rw [← hleaders, hrefused] at hfork
        cases hfork
      obtain ⟨s', hstep, hafter, hshared⟩ := operation_starts config hmiddleSome hforks
        (.ok ()) (fun halive ↦ by rw [hdead] at halive; cases halive)
      refine ⟨middle, _, s', hfollows, hstep, hafter, ?_⟩
      rw [if_pos rfl] at hshared
      have hprocesses : s'.shared.processes = (middle.shared.fork leader map).processes := by
        rw [hshared]
      have hforked := fork_leaders hdead hprocesses
      rw [hleaders] at hforked
      exact Option.some.inj (hforked.symm.trans hfork)

/-- Mapping has been started and has exited, which nobody has noticed. -/
def mappingUnnoticed : List ProcessManager.Action :=
  [.startProcess "mapping" {} { forked := .ok 10 }, .childExits 0 (.signaled 11)]

theorem process_manager_pictured_unnoticed :
    ∃ (p : ProcessManager.Sys) (s : Sys),
      (Reaches ProcessManager.Sys.step ProcessManager.KeepsConfig ProcessManager.Sys.Loaded p ∧
        s.shared.leaders = p.shared.table.leaders) ∧
      (ProcessManager.isProcessRunning p.shared "mapping" none).2 = false ∧
        s.shared.isRunning .mapping = true ∧ Pictures {} p s := by
  have hloaded : Reaches ProcessManager.Sys.step ProcessManager.KeepsConfig
      ProcessManager.Sys.Loaded
      { ProcessManager.constructed with shared := ⟨ProcessManager.bothLeaders.table, .empty⟩ } :=
    .start ⟨ProcessManager.constructed, ProcessManager.bothLeaders, fun _ ↦ none,
      ProcessManager.constructed_initial, rfl⟩
  have hrun : (execWith ProcessManager.Sys.step ProcessManager.keepsConfig
      { ProcessManager.constructed with shared := ⟨ProcessManager.bothLeaders.table, .empty⟩ }
      mappingUnnoticed).any (fun p ↦
        (p.shared.table.leaders .mapping).alive &&
          decide ((ProcessManager.isProcessRunning p.shared "mapping" none).2 = false)) = true := by
    decide +kernel
  obtain ⟨p, hreach, htest⟩ := hloaded.exists_of_execWith ProcessManager.keepsConfig_of_test hrun
  simp only [Bool.and_eq_true, decide_eq_true_eq] at htest
  obtain ⟨halive, hended⟩ := htest
  have hagrees : ({ processes := fun leader ↦
      ⟨(p.shared.table.leaders leader).alive, "m", (p.shared.table.leaders leader).lastExitCode⟩ }
      : Shared).leaders = p.shared.table.leaders := rfl
  refine ⟨p, { shared := { processes := _ } }, ⟨hreach, hagrees⟩, hended, halive, ?_⟩
  exact process_manager_pictured {} p hreach { shared := { processes := _ } } hagrees

end SlamSystemManager.Manager
