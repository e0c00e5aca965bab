import SlamSystemManager.Manager.ErrorFields
import SlamSystemManager.Manager.LastPose
import SlamSystemManager.Manager.Phases

/-!
# The outcome of a recovery

An accepted recovery has the state for itself: until `performRecovery` makes its one transition
nobody else moves the state, the selected map or the error fields. The maps are another matter.
`performRecovery` does not touch them, but a residual mapping node and the save worker, which it
does not wait for, may still write what they were asked for before.
-/

open TransitionSystem

namespace SlamSystemManager.Manager

open MapManager

/-! ## The history of a recovery -/

/-- An accepted recovery, from its acceptance to the end of its operation thread. -/
structure RecoveryRun where
  /-- The map store at the acceptance. -/
  before : MapStore
  /-- That store with what the mapping node and the save worker have written since. -/
  store : MapStore
  /-- How often the state has left RECOVERING. -/
  exits : ℕ := 0
  steps : ℕ := 0
  /-- A leader has been found alive after its stop, or a step has thrown. -/
  blocked : Bool := false

structure RecoveryHistory where
  /-- The requests accepted since the state has last entered ERROR. -/
  accepted : ℕ := 0
  run : Option RecoveryRun := none

def Operation.blocksRecovery (env : Env) (s : Shared) : Operation → Bool
  | .recovery (.recheck leader _ _) => env.throws.isSome || s.isRunning leader
  | .recovery _ => env.throws.isSome
  | _ => false

/-- A store after what the mapping node or the save worker does to it. -/
def Sys.written (s : Sys) (maps : MapStore) : Action → MapStore
  | .writeMap bytes =>
    updateDirectory maps (s.shared.processes .mapping).mapName (writeOutput bytes)
  | .writeSave none =>
    s.shared.adapter.saving.elim maps fun request ↦
      updateDirectory maps request.map (storeLastPose request)
  | _ => maps

def RecoveryRun.note (run : RecoveryRun) (s : Sys) (a : Action) (s' : Sys) : RecoveryRun :=
  { before := run.before
    store := s.written run.store a
    exits :=
      if s.shared.currentState = .recovering ∧ s'.shared.currentState ≠ .recovering then
        run.exits + 1
      else run.exits
    steps :=
      match a with
      | .operation _ => run.steps + 1
      | _ => run.steps
    blocked :=
      match a with
      | .operation env => run.blocked || s.operation.any (·.blocksRecovery env s.shared)
      | _ => run.blocked }

/-- Whether a step accepts a recovery. -/
def Sys.acceptsRecovery (s : Sys) (a : Action) (s' : Sys) : Bool :=
  match a, s.handler with
  | .handler _, some .recover => s'.handler.isSome
  | _, _ => false

/-- Whether a step ends the operation thread. -/
def Sys.endsThread (a : Action) (s' : Sys) : Bool :=
  match a with
  | .operation _ => s'.operation.isNone
  | _ => false

def RecoveryHistory.note (h : RecoveryHistory) (s : Sys) (a : Action) (s' : Sys) :
    RecoveryHistory :=
  if s.acceptsRecovery a s' then
    { accepted := h.accepted + 1
      run := some { before := s.shared.maps, store := s.shared.maps } }
  else
    { accepted :=
        if s.shared.currentState ≠ .error ∧ s'.shared.currentState = .error then 0 else h.accepted
      run := if Sys.endsThread a s' then none else h.run.map (·.note s a s') }

/-- The manager beside the history of its recoveries. -/
abbrev recoveryStep (config : Config) :
    Sys × RecoveryHistory → Action → Option (Sys × RecoveryHistory) :=
  noting (Sys.step config) RecoveryHistory.note

/-! ## Assertions -/

def StopStage.rank : StopStage → ℕ
  | .check => 3
  | .lookup => 2
  | .wait => 1

/-- The steps `performRecovery` has left when it has dealt with a leader. -/
def Leader.rank : Leader → ℕ
  | .mapping => 13
  | .localization => 8

/-- A bound on the steps the operation thread has left. -/
def Recovery.rank : Recovery → ℕ
  | .checkRunning leader _ => leader.rank + 5
  | .stop leader _ stage => leader.rank + 1 + stage.rank
  | .recheck leader _ _ => leader.rank + 1
  | .resetSession => 8
  | .resetQuality => 7
  | .readSensors => 6
  | .clear _ => 5
  | .resume _ => 4

theorem Recovery.four_le_rank (pc : Recovery) : 4 ≤ pc.rank := by
  have hleader (leader : Leader) : 8 ≤ leader.rank := by cases leader <;> decide
  cases pc with
  | checkRunning leader | stop leader | recheck leader =>
    have := hleader leader
    simp only [Recovery.rank]
    omega
  | resetSession | resetQuality | readSensors | clear | resume => simp [Recovery.rank]

/-- No map is selected and no error is reported. -/
structure Shared.Cleared (s : Shared) : Prop where
  map : s.currentMap = ""
  code : s.errorCode = ""
  message : s.errorMessage = ""

namespace RecoveryRun

/-- The state has not left RECOVERING. -/
structure Inside (run : RecoveryRun) (s : Shared) : Prop where
  state : s.currentState = .recovering
  store : s.maps = run.store
  exits : run.exits = 0

def recovery (run : RecoveryRun) (s : Shared) : Recovery → Prop
  | .checkRunning _ errors | .stop _ errors _ | .recheck _ errors _ =>
    errors ≠ [] → run.blocked = true
  | .resume target => (target = .waitMode ∨ target = .sensorStarting) ∧ s.Cleared
  | _ => True

def operation (run : RecoveryRun) (s : Shared) : Operation → Prop
  | .recovery pc => run.Inside s ∧ run.steps + pc.rank ≤ 18 ∧ run.recovery s pc
  | .fail code _ =>
    run.Inside s ∧ run.steps + 3 ≤ 18 ∧ code = "RECOVERY_FAILED" ∧ run.blocked = true
  | .enterError =>
    run.Inside s ∧ run.steps + 2 ≤ 18 ∧ s.errorCode = "RECOVERY_FAILED" ∧ run.blocked = true
  | .finish => s.currentState ≠ .recovering ∧ run.steps + 1 ≤ 18 ∧ run.exits = 1
  | _ => False

/-- The recovery waits for its launch, or the operation thread runs it. -/
def UnderWay (run : RecoveryRun) (s : Sys) : Prop :=
  (∃ reply, s.handler = some (.launch (.recovery (.checkRunning .mapping [])) reply) ∧
    run.operation s.shared (.recovery (.checkRunning .mapping []))) ∨
  ∃ running, s.operation = some running ∧ run.operation s.shared running

end RecoveryRun

def Handler.launchesRecovery : Handler → Bool
  | .launch (.recovery _) _ => true
  | _ => false

def Operation.recovers : Operation → Bool
  | .recovery _ => true
  | _ => false

/-- No recovery is under way. -/
structure Sys.Unrecovering (s : Sys) : Prop where
  state : s.shared.currentState ≠ .recovering
  handler : ∀ handler, s.handler = some handler → handler.launchesRecovery = false
  operation : ∀ running, s.operation = some running → running.recovers = false

structure RecoveryHistory.Agrees (h : RecoveryHistory) (s : Sys) : Prop where
  accepted : h.accepted ≤ 1
  episode : s.shared.currentState = .error → h.accepted = 0
  run : ∀ run, h.run = some run → run.UnderWay s
  rest : h.run = none → s.Unrecovering

/-! ## Steps beside a recovery -/

/-- What a recovery finds as it has left it. -/
structure Frozen (s s' : Shared) : Prop where
  state : s'.currentState = s.currentState
  map : s'.currentMap = s.currentMap
  errors : SameErrors s s'

theorem Frozen.refl (s : Shared) : Frozen s s := ⟨rfl, rfl, .refl s⟩

theorem recovering_drift {before after : SystemState} (h : Phase.Drift before after)
    (hbefore : before = .recovering) : after = before := by
  subst hbefore
  rcases h with hsame | ⟨-, hfailing⟩ | ⟨hlocalization, -⟩ | ⟨hidle, -⟩
  · exact hsame
  · cases hfailing
  · cases hlocalization
  · cases hidle

/-- The handlers that write the error fields do so in other states. -/
theorem holdsToken_of_writesErrors {handler : Handler} (hwrites : handler.writesErrors = true)
    (hphase : Phase.handler handler .recovering = true) : handler.holdsToken = true := by
  unfold Handler.writesErrors at hwrites
  split at hwrites <;> first | rfl | cases hphase | cases hwrites

theorem recoverStep_of_token {s : Shared} (htoken : s.operationInProgress = true) :
    ∃ message, recoverStep s = (s, refuse message) := by
  simp only [recoverStep, htoken, if_true]
  split <;> exact ⟨_, rfl⟩

/-- A handler that does not own the token finds nothing to do in RECOVERING. -/
theorem frozen_of_handler (config : Config) (env : Env) {s : Shared} {handler : Handler}
    (hphase : Phase.handler handler s.currentState = true) (hidle : handler.holdsToken = false)
    (htoken : s.operationInProgress = true) (hstate : s.currentState = .recovering) :
    Frozen s (handler.step config env s).1 ∧ (handler.step config env s).1.maps = s.maps := by
  refine ⟨⟨?_, ?_, handler.sameErrors config env s ?_⟩, ?_⟩
  · by_cases hmode : ModeExclusion.entersMode handler = true
    · rcases ModeExclusion.recover_or_holdsToken hmode with rfl | hholds
      · obtain ⟨message, hrefused⟩ := recoverStep_of_token htoken
        simp only [Handler.step, hrefused]
      · simp_all
    · exact recovering_drift
        (Phase.drift_of_handler config env s hphase (by simpa using hmode)) hstate
  · rcases (handler.effect config env s).map with hsame | hwritten
    · exact hsame
    · have := Handler.holdsToken_of_mapWritten hwritten
      simp_all
  · by_contra hwrites
    rw [hstate] at hphase
    have := holdsToken_of_writesErrors (by simpa using hwrites) hphase
    simp_all
  · cases handler.store config env s with
    | same hsame => exact hsame
    | create name utcNow hcreates =>
      have := Handler.holdsToken_of_creates hcreates
      simp_all
    | remove name hremoves | leave name removed hremoves =>
      have := Handler.holdsToken_of_removes hremoves
      simp_all

/-- Outside the handlers and the operation thread only the mapping node and the save worker write.
-/
theorem written_of_step {config : Config} {s s' : Sys} {a : Action}
    (hstep : s.step config a = some s') (hhandler : ∀ env, a ≠ .handler env)
    (hoperation : ∀ env, a ≠ .operation env) : s'.shared.maps = s.written s.shared.maps a := by
  cases a with
  | handler env => exact absurd rfl (hhandler env)
  | operation env => exact absurd rfl (hoperation env)
  | writeMap bytes =>
    simp only [Sys.step] at hstep
    split at hstep <;> cases hstep
    rfl
  | writeSave error =>
    obtain ⟨request, hsaving, rfl⟩ := Option.map_eq_some_iff.mp hstep
    cases error with
    | none =>
      simp only [Sys.written, hsaving, Option.elim_some]
      rfl
    | some what => rfl
  | _ =>
    cases storeMove_of_step hstep with
    | same hsame => exact hsame
    | remove name hremoves | leave name removed hremoves => cases hremoves
    | create | clear | markSaved | output | lastPose => contradiction

/-- While the state is RECOVERING only the operation thread moves it. -/
theorem frozen_of_step {config : Config} {s s' : Sys} {a : Action}
    (hphase : Phase.outline.Holds s) (htoken : s.shared.operationInProgress = true)
    (hstate : s.shared.currentState = .recovering) (hstep : s.step config a = some s')
    (hoperation : ∀ env, a ≠ .operation env)
    (hidle : ∀ handler, s.handler = some handler →
      handler.holdsToken = false ∨ handler.launchesRecovery = true) :
    Frozen s.shared s'.shared ∧ s'.shared.maps = s.written s.shared.maps a := by
  by_cases hhandler : ∀ env, a ≠ .handler env
  · refine ⟨?_, written_of_step hstep hhandler hoperation⟩
    have herrors := sameErrors_of_step hstep hhandler hoperation
    by_cases hcall : ∀ request, a ≠ .call request
    · have hinterference := (bystander_of_step hstep hcall hhandler hoperation).interference
      refine ⟨?_, hinterference.map, herrors⟩
      rcases Phase.drift_of_interference hinterference with hsame | ⟨hlocalization, -⟩
      · exact hsame
      · rw [hstate] at hlocalization
        cases hlocalization
    · push Not at hcall
      obtain ⟨request, rfl⟩ := hcall
      obtain ⟨-, rfl⟩ := Sys.call_of_step hstep
      exact .refl _
  · push Not at hhandler
    obtain ⟨env, rfl⟩ := hhandler
    obtain ⟨handler, hhandler, hnext⟩ := Option.bind_eq_some_iff.mp hstep
    rw [Sys.shared_afterHandler hnext]
    rcases hidle handler hhandler with hidle | hlaunches
    · exact frozen_of_handler config env (hphase.handler handler hhandler) hidle htoken hstate
    · cases handler with
      | launch => exact ⟨.refl _, rfl⟩
      | _ => cases hlaunches

namespace RecoveryRun

theorem note_beside (run : RecoveryRun) {s s' : Sys} {a : Action}
    (hstate : s.shared.currentState = .recovering → s'.shared.currentState = .recovering)
    (hoperation : ∀ env, a ≠ .operation env) :
    run.note s a s' = { run with store := s.written run.store a } := by
  have hexits : ¬ (s.shared.currentState = .recovering ∧
      s'.shared.currentState ≠ .recovering) := fun h ↦ h.2 (hstate h.1)
  cases a with
  | operation env => exact absurd rfl (hoperation env)
  | _ => simp only [note, if_neg hexits]

/-- The other threads keep what is asserted of a recovery. -/
theorem operation_beside {run : RecoveryRun} {s s' : Sys} {a : Action} {running : Operation}
    (hfrozen : s.shared.currentState = .recovering →
      Frozen s.shared s'.shared ∧ s'.shared.maps = s.written s.shared.maps a)
    (hrest : s.shared.currentState ≠ .recovering → s'.shared.currentState ≠ .recovering)
    (hoperation : ∀ env, a ≠ .operation env) (h : run.operation s.shared running) :
    (run.note s a s').operation s'.shared running := by
  rw [note_beside run (fun hstate ↦ (hfrozen hstate).1.state.trans hstate) hoperation]
  have hinside (hs : run.Inside s.shared) :
      RecoveryRun.Inside { run with store := s.written run.store a } s'.shared := by
    obtain ⟨hkept, hmaps⟩ := hfrozen hs.state
    exact ⟨hkept.state.trans hs.state, by rw [hmaps, hs.store], hs.exits⟩
  cases running with
  | recovery pc =>
    obtain ⟨hs, hsteps, hpc⟩ := h
    refine ⟨hinside hs, hsteps, ?_⟩
    cases pc with
    | resume target =>
      have hkept := (hfrozen hs.state).1
      exact ⟨hpc.1, hkept.map.trans hpc.2.map, hkept.errors.code.trans hpc.2.code,
        hkept.errors.message.trans hpc.2.message⟩
    | _ => exact hpc
  | fail code message => exact ⟨hinside h.1, h.2⟩
  | enterError =>
    obtain ⟨hs, hsteps, hcode, hblocked⟩ := h
    exact ⟨hinside hs, hsteps, (hfrozen hs.state).1.errors.code.trans hcode, hblocked⟩
  | finish => exact ⟨hrest h.1, h.2⟩
  | _ => exact h.elim

/-! ## The operation thread -/

/-- The history after a step that does not leave RECOVERING. -/
def stepped (run : RecoveryRun) (blocks : Bool) : RecoveryRun :=
  { run with steps := run.steps + 1, blocked := run.blocked || blocks }

theorem Inside.stepped {run : RecoveryRun} {s s' : Shared} (h : run.Inside s)
    (hstate : s'.currentState = s.currentState) (hmaps : s'.maps = s.maps) (blocks : Bool) :
    (run.stepped blocks).Inside s' :=
  ⟨hstate.trans h.state, hmaps.trans h.store, h.exits⟩

theorem blocked_stepped {run : RecoveryRun} {blocks : Bool}
    (h : run.blocked = true ∨ blocks = true) : (run.stepped blocks).blocked = true := by
  simpa [RecoveryRun.stepped] using h

theorem operation_afterLeader {run : RecoveryRun} {s : Shared} {leader : Leader}
    {errors : List String} (hinside : run.Inside s) (hsteps : run.steps + leader.rank ≤ 18)
    (herrors : errors ≠ [] → run.blocked = true) :
    run.operation s (Recovery.afterLeader leader errors) := by
  cases leader with
  | mapping => exact ⟨hinside, hsteps, herrors⟩
  | localization =>
    simp only [Recovery.afterLeader]
    split
    · exact ⟨hinside, hsteps, trivial⟩
    · rename_i hfailed
      refine ⟨hinside, ?_, rfl, herrors hfailed⟩
      simp only [Leader.rank] at hsteps
      omega

theorem rank_stopStep {env : Env} {leader : Leader} {s s' : Shared} {stage next : StopStage}
    (h : stopStep env leader s stage = (s', .inl next)) : next.rank < stage.rank := by
  cases stage <;> simp only [stopStep] at h <;> split_ifs at h <;> cases h <;> decide

theorem recovery_step (env : Env) {run : RecoveryRun} {s : Shared} {pc : Recovery}
    (hresume : ∀ target, pc ≠ .resume target) (h : run.operation s (.recovery pc)) :
    (run.stepped ((Operation.recovery pc).blocksRecovery env s)).operation (pc.step env s).1
      (pc.step env s).2 := by
  obtain ⟨hinside, hsteps, hpc⟩ := h
  cases pc with
  | checkRunning leader errors =>
    simp only [Recovery.rank] at hsteps
    have hstepped (blocks : Bool) : (run.stepped blocks).Inside s := hinside.stepped rfl rfl blocks
    have herrors (blocks : Bool) (hfailed : errors ≠ []) : (run.stepped blocks).blocked = true :=
      blocked_stepped (Or.inl (hpc hfailed))
    simp only [Recovery.step]
    split
    · refine ⟨hstepped _, ?_, herrors _⟩
      simp only [RecoveryRun.stepped, Recovery.rank, StopStage.rank]
      omega
    · exact operation_afterLeader (hstepped _) (by simp only [RecoveryRun.stepped]; omega)
        (herrors _)
  | stop leader errors stage =>
    simp only [Recovery.rank] at hsteps
    have herrors (blocks : Bool) (hfailed : errors ≠ []) : (run.stepped blocks).blocked = true :=
      blocked_stepped (Or.inl (hpc hfailed))
    simp only [Recovery.step]
    split
    all_goals
      rename_i hstop
      have hstepped := hinside.stepped (Phase.state_stopStep hstop) (maps_stopStep hstop)
    · have hrank := rank_stopStep hstop
      refine ⟨hstepped _, ?_, herrors _⟩
      simp only [RecoveryRun.stepped, Recovery.rank]
      omega
    · have hrank : 0 < stage.rank := by cases stage <;> decide
      refine ⟨hstepped _, ?_, herrors _⟩
      simp only [RecoveryRun.stepped, Recovery.rank]
      omega
    · exact operation_afterLeader (hstepped _) (by simp only [RecoveryRun.stepped]; omega)
        (herrors _)
  | recheck leader errors error =>
    simp only [Recovery.rank] at hsteps
    refine operation_afterLeader (hinside.stepped rfl rfl _)
      (by simp only [RecoveryRun.stepped]; omega) fun hfailed ↦ blocked_stepped ?_
    split at hfailed
    · rename_i hrunning
      exact Or.inr (by simp [Operation.blocksRecovery, hrunning])
    · exact Or.inl (hpc hfailed)
  | clear status =>
    simp only [Recovery.step, hinside.state, ne_eq, not_true_eq_false, if_false]
    refine ⟨hinside.stepped ?_ ?_ _, ?_, ?_, rfl, rfl, rfl⟩
    · exact hinside.state.symm
    · rfl
    · simp only [RecoveryRun.stepped, Recovery.rank] at hsteps ⊢
      omega
    · split
      · exact Or.inl rfl
      · exact Or.inr rfl
  | resume target => exact absurd rfl (hresume target)
  | resetSession | resetQuality | readSensors =>
    refine ⟨hinside.stepped ?_ ?_ _, ?_, trivial⟩
    · rfl
    · rfl
    · simp only [RecoveryRun.stepped, Recovery.rank] at hsteps ⊢
      omega

theorem recovery_state {env : Env} {s : Shared} {pc : Recovery}
    (hresume : ∀ target, pc ≠ .resume target) :
    (pc.step env s).1.currentState = s.currentState := by
  rcases (Recovery.effect env s pc).state with hsame | ⟨htarget, -⟩
  · exact hsame
  · cases pc with
    | resume target => exact absurd rfl (hresume target)
    | _ => cases htarget

theorem note_stays (run : RecoveryRun) {env : Env} {s s' : Sys} {running : Operation}
    (hoperation : s.operation = some running) (hstate : s'.shared.currentState = .recovering) :
    run.note s (.operation env) s' = run.stepped (running.blocksRecovery env s.shared) := by
  simp [note, RecoveryRun.stepped, hoperation, hstate, Sys.written]

theorem note_leaves (run : RecoveryRun) (env : Env) {s s' : Sys}
    (hbefore : s.shared.currentState = .recovering)
    (hafter : s'.shared.currentState ≠ .recovering) :
    (run.note s (.operation env) s').steps = run.steps + 1 ∧
      (run.note s (.operation env) s').exits = run.exits + 1 := by
  simp [note, hbefore, hafter]

/-- A recovery that has succeeded. -/
structure Recovered (run : RecoveryRun) (s : Shared) : Prop where
  state : s.currentState = .waitMode ∨ s.currentState = .sensorStarting
  dead : ∀ leader, s.isRunning leader = false
  cleared : s.Cleared
  store : s.maps = run.store

/-- A recovery that has failed. -/
structure Failed (run : RecoveryRun) (s : Shared) : Prop where
  state : s.currentState = .error
  code : s.errorCode = "RECOVERY_FAILED"
  blocked : run.blocked = true

/-- What a step of the operation thread makes of a recovery. -/
inductive OperationMove (run : RecoveryRun) (env : Env) (s s' : Sys) : Prop
  | stays (next : Operation) (hnext : s'.operation = some next)
    (hstate : s'.shared.currentState = .recovering)
    (hassertion : (run.note s (.operation env) s').operation s'.shared next)
  | leaves (hnext : s'.operation = some .finish)
    (houtcome : run.Recovered s'.shared ∨ run.Failed s'.shared)
    (hassertion : (run.note s (.operation env) s').operation s'.shared .finish)
  | ends (hnext : s'.operation = none) (hbefore : s.shared.currentState ≠ .recovering)
    (hafter : s'.shared.currentState ≠ .recovering)

theorem OperationMove.of_stays {run : RecoveryRun} {env : Env} {s s' : Sys}
    {running next : Operation} (hoperation : s.operation = some running)
    (hnext : s'.operation = some next) (hstate : s'.shared.currentState = .recovering)
    (hassertion : (run.stepped (running.blocksRecovery env s.shared)).operation s'.shared next) :
    run.OperationMove env s s' := by
  refine .stays next hnext hstate ?_
  rwa [note_stays run hoperation hstate]

theorem OperationMove.of_leaves {run : RecoveryRun} {env : Env} {s s' : Sys}
    (hinside : run.Inside s.shared) (hsteps : run.steps + 2 ≤ 18)
    (hnext : s'.operation = some .finish)
    (houtcome : run.Recovered s'.shared ∨ run.Failed s'.shared) : run.OperationMove env s s' := by
  have hafter : s'.shared.currentState ≠ .recovering := by
    rcases houtcome with hrecovered | hfailed
    · rcases hrecovered.state with hstate | hstate <;> simp [hstate]
    · simp [hfailed.state]
  obtain ⟨hnoted, hexits⟩ := note_leaves run env hinside.state hafter
  refine .leaves hnext houtcome ⟨hafter, ?_, ?_⟩
  · rw [hnoted]
    omega
  · rw [hexits, hinside.exits]

theorem operationMove_of_step {config : Config} {env : Env} {run : RecoveryRun} {s s' : Sys}
    {running : Operation} (hmode : ModeExclusion.outline.Holds s)
    (hoperation : s.operation = some running) (h : run.operation s.shared running)
    (hstep : running.step config env s.shared = (s'.shared, s'.operation)) :
    run.OperationMove env s s' := by
  cases running with
  | recovery pc =>
    obtain ⟨hinside, hsteps, hpc⟩ := h
    cases hthrows : env.throws with
    | some what =>
      simp only [Operation.step, hthrows, Operation.isBody, if_true, Operation.catchException,
        Prod.mk.injEq] at hstep
      obtain ⟨hshared, hnext⟩ := hstep
      refine .of_stays hoperation hnext.symm (hshared ▸ hinside.state) ?_
      refine ⟨hshared ▸ hinside.stepped rfl rfl _, ?_, rfl, blocked_stepped (Or.inr ?_)⟩
      · have hrank := pc.four_le_rank
        simp only [RecoveryRun.stepped]
        omega
      · cases pc <;> simp [Operation.blocksRecovery, hthrows]
    | none =>
      simp only [Operation.step, hthrows, Operation.run, Prod.map, id, Prod.mk.injEq] at hstep
      obtain ⟨hshared, hnext⟩ := hstep
      by_cases hresume : ∃ target, pc = .resume target
      · obtain ⟨target, rfl⟩ := hresume
        obtain ⟨htarget, hcleared⟩ := hpc
        have hcan : s.shared.currentState.canTransition target = true := by
          rw [hinside.state]
          rcases htarget with rfl | rfl <;> rfl
        have hquiet : ModeExclusion.Quiet s.shared := by
          have hassertion := hmode.operation
          rw [hoperation] at hassertion
          exact hassertion.2.1
        simp only [Recovery.step, hcan, if_true] at hshared hnext
        have hstate : s'.shared.currentState = target := by
          rw [← hshared, currentState_transitionTo, if_pos hcan]
        have herrors := sameErrors_transitionTo s.shared target
        refine .of_leaves hinside ?_ hnext.symm (Or.inl ⟨by rwa [hstate], ?_, ?_, ?_⟩)
        · simp only [Recovery.rank] at hsteps
          omega
        · intro leader
          simpa [← hshared] using hquiet leader
        · rw [← hshared]
          exact ⟨by simpa using hcleared.map, herrors.code.trans hcleared.code,
            herrors.message.trans hcleared.message⟩
        · rw [← hshared, maps_transitionTo, hinside.store]
      · have hother : ∀ target, pc ≠ .resume target := fun target h ↦ hresume ⟨target, h⟩
        have hassertion := recovery_step env hother ⟨hinside, hsteps, hpc⟩
        rw [hshared] at hassertion
        refine .of_stays hoperation hnext.symm ?_ hassertion
        rw [← hshared, recovery_state hother, hinside.state]
  | fail code message =>
    obtain ⟨hinside, hsteps, rfl, hblocked⟩ := h
    rw [Operation.step_of_tail config env s.shared rfl, Operation.run, Prod.mk.injEq] at hstep
    obtain ⟨hshared, hnext⟩ := hstep
    refine .of_stays hoperation hnext.symm (hshared ▸ hinside.state) ?_
    rw [← hshared]
    refine ⟨hinside.stepped ?_ ?_ _, ?_, rfl, blocked_stepped (Or.inl hblocked)⟩
    · rfl
    · rfl
    · simp only [RecoveryRun.stepped]
      omega
  | enterError =>
    obtain ⟨hinside, hsteps, hcode, hblocked⟩ := h
    have hcan : s.shared.currentState.canTransition .error = true := by
      rw [hinside.state]
      rfl
    rw [Operation.step_of_tail config env s.shared rfl, Operation.run, Prod.mk.injEq] at hstep
    obtain ⟨hshared, hnext⟩ := hstep
    refine .of_leaves hinside hsteps hnext.symm (Or.inr ?_)
    rw [← hshared]
    refine ⟨by rw [currentState_transitionTo, if_pos hcan], ?_, hblocked⟩
    rw [(sameErrors_transitionTo s.shared .error).code, hcode]
  | finish =>
    rw [Operation.step_of_tail config env s.shared rfl, Operation.run, Prod.mk.injEq] at hstep
    exact .ends hstep.2.symm h.1 (hstep.1 ▸ h.1)
  | _ => exact h.elim

/-- A recovery that is under way owns the token. -/
theorem UnderWay.token {run : RecoveryRun} {s : Sys} (h : run.UnderWay s)
    (hexclusive : s.Exclusive) : s.shared.operationInProgress = true := by
  rcases h with ⟨reply, hhandler, -⟩ | ⟨running, hrunning, -⟩
  · exact hexclusive.handler (by simp [Sys.handlerHolds, hhandler, Handler.holdsToken])
  · exact hexclusive.operation (by simp [hrunning])

theorem UnderWay.idle {run : RecoveryRun} {s : Sys} (h : run.UnderWay s)
    (hexclusive : s.Exclusive) (handler : Handler) (hhandler : s.handler = some handler) :
    handler.holdsToken = false ∨ handler.launchesRecovery = true := by
  rcases h with ⟨reply, hlaunch, -⟩ | ⟨running, hrunning, -⟩
  · rw [hhandler] at hlaunch
    cases hlaunch
    exact Or.inr rfl
  · have hidle := hexclusive.of_operation hrunning
    simp only [Sys.handlerHolds, hhandler, Option.any_some] at hidle
    exact Or.inl hidle

end RecoveryRun

/-! ## Steps of the system -/

/-- A request that is not accepted leaves the state alone, and so does everyone else who has not the
token. -/
theorem recovering_of_handler {config : Config} {env : Env} {s s' : Sys} {handler : Handler}
    (hhandler : s.handler = some handler)
    (hnext : s.afterHandler (handler.step config env s.shared) = some s')
    (hrefused : s.acceptsRecovery (.handler env) s' = false)
    (hstate : s.shared.currentState ≠ .recovering) : s'.shared.currentState ≠ .recovering := by
  rw [Sys.shared_afterHandler hnext]
  rcases (handler.effect config env s.shared).state with hsame | ⟨htarget, -⟩
  · rwa [hsame]
  · intro hrecovering
    rw [hrecovering] at htarget
    cases handler with
    | recover =>
      simp only [Handler.step, recoverStep] at hnext hrecovering
      split_ifs at hnext hrecovering with herror htoken hcan
      · exact hstate hrecovering
      · exact hstate hrecovering
      · exact hstate hrecovering
      · cases hnext
        simp [Sys.acceptsRecovery, hhandler] at hrefused
    | startMapping name pc => cases pc <;> cases htarget
    | startLocalization name pc => cases pc <;> cases htarget
    | saveMap pc => cases pc <;> cases htarget
    | sensorTick pc => cases pc <;> cases htarget
    | processTick pc => cases pc <;> cases htarget
    | _ => cases htarget

/-- What an acceptance does. -/
theorem accepted_of_acceptsRecovery {config : Config} {s s' : Sys} {a : Action}
    (hstep : s.step config a = some s') (haccepts : s.acceptsRecovery a s' = true) :
    s.shared.currentState = .error ∧ s.shared.operationInProgress = false ∧
      (∃ reply, s'.handler = some (.launch (.recovery (.checkRunning .mapping [])) reply)) ∧
      s'.shared.currentState = .recovering ∧ s'.shared.maps = s.shared.maps := by
  unfold Sys.acceptsRecovery at haccepts
  split at haccepts
  · rename_i env hhandler
    simp only [Sys.step, hhandler, Option.bind_some, Handler.step, recoverStep, refuse] at hstep
    split_ifs at hstep with herror htoken hcan
    · cases hstep
      cases haccepts
    · cases hstep
      cases haccepts
    · cases hstep
      cases haccepts
    · cases hstep
      have hstate : s.shared.currentState = .error := by simpa using herror
      refine ⟨hstate, by simpa using htoken, ⟨_, rfl⟩, ?_, maps_transitionTo s.shared _⟩
      simp [currentState_transitionTo, hstate, SystemState.canTransition, SystemState.allowed]
  · cases haccepts

theorem not_recovering_of_step {config : Config} {s s' : Sys} {a : Action}
    (hstep : s.step config a = some s') (hoperation : ∀ env, a ≠ .operation env)
    (hrefused : s.acceptsRecovery a s' = false) (hstate : s.shared.currentState ≠ .recovering) :
    s'.shared.currentState ≠ .recovering := by
  cases a with
  | handler env =>
    obtain ⟨handler, hhandler, hnext⟩ := Option.bind_eq_some_iff.mp hstep
    exact recovering_of_handler hhandler hnext hrefused hstate
  | operation env => exact absurd rfl (hoperation env)
  | call request =>
    obtain ⟨-, rfl⟩ := Sys.call_of_step hstep
    exact hstate
  | deliver | callback | observe | exit | writeMap | takeSave | writeSave =>
    rcases (bystander_of_step hstep (by simp) (by simp) (by simp)).interference.state with
      hsame | ⟨-, hafter | hafter⟩
    · rwa [hsame]
    · simp [hafter]
    · simp [hafter]

theorem RecoveryRun.UnderWay.step {config : Config} {run : RecoveryRun} {s s' : Sys} {a : Action}
    (h : run.UnderWay s) (hreach : Reachable config s) (hstep : s.step config a = some s')
    (hrefused : s.acceptsRecovery a s' = false) (hends : Sys.endsThread a s' = false) :
    (run.note s a s').UnderWay s' := by
  have hexclusive := hreach.exclusive
  by_cases hoperation : ∀ env, a ≠ .operation env
  · have hkept {running : Operation} (hassertion : run.operation s.shared running) :
        (run.note s a s').operation s'.shared running :=
      operation_beside
        (fun hstate ↦ frozen_of_step hreach.phase (h.token hexclusive) hstate hstep hoperation
          (h.idle hexclusive))
        (not_recovering_of_step hstep hoperation hrefused) hoperation hassertion
    rcases h with ⟨reply, hlaunch, hassertion⟩ | ⟨running, hrunning, hassertion⟩
    · cases a with
      | handler env =>
        have hended := hexclusive.alone (by simp [Sys.handlerHolds, hlaunch, Handler.holdsToken])
        have hnext := hstep
        simp only [Sys.step, hlaunch, Option.bind_some, Handler.step, Sys.afterHandler, hended]
          at hnext
        cases hnext
        exact Or.inr ⟨_, rfl, hkept hassertion⟩
      | operation env => exact absurd rfl (hoperation env)
      | call request => simp [Sys.step, Sys.call, hlaunch] at hstep
      | deliver | callback | observe | exit | writeMap | takeSave | writeSave =>
        have hother := bystander_of_step hstep (by simp) (by simp) (by simp)
        exact Or.inl ⟨reply, hother.handler.trans hlaunch, hkept hassertion⟩
    · refine Or.inr ⟨running, ?_, hkept hassertion⟩
      cases a with
      | handler env =>
        obtain ⟨handler, hhandler, hnext⟩ := Option.bind_eq_some_iff.mp hstep
        exact Sys.operation_afterHandler hrunning hnext
      | operation env => exact absurd rfl (hoperation env)
      | call request =>
        obtain ⟨-, rfl⟩ := Sys.call_of_step hstep
        exact hrunning
      | deliver | callback | observe | exit | writeMap | takeSave | writeSave =>
        have hother := bystander_of_step hstep (by simp) (by simp) (by simp)
        exact hother.operation.trans hrunning
  · push Not at hoperation
    obtain ⟨env, rfl⟩ := hoperation
    rcases h with ⟨reply, hlaunch, -⟩ | ⟨running, hrunning, hassertion⟩
    · have hended := hexclusive.alone (by simp [Sys.handlerHolds, hlaunch, Handler.holdsToken])
      simp [Sys.step, hended] at hstep
    · cases operationMove_of_step hreach.modeExclusion hrunning hassertion
        (Sys.step_operation hrunning hstep).1 with
      | stays next hnext hstate hnoted => exact Or.inr ⟨next, hnext, hnoted⟩
      | leaves hnext houtcome hnoted => exact Or.inr ⟨.finish, hnext, hnoted⟩
      | ends hnext => simp [Sys.endsThread, hnext] at hends

/-- A recovery is launched by its acceptance only. -/
theorem launchesRecovery_of_follows {handler next : Handler} (h : handler.Follows (.next next))
    (hlaunches : next.launchesRecovery = true) : handler = .recover := by
  cases h <;> first | rfl | cases hlaunches

theorem recovers_of_follows {running next : Operation} (h : running.Follows next)
    (hrecovers : next.recovers = true) : running.recovers = true := by
  cases h <;> first | rfl | cases hrecovers

theorem Sys.Unrecovering.handler_step {config : Config} {env : Env} {s s' : Sys}
    (h : s.Unrecovering) (hstep : s.step config (.handler env) = some s')
    (hrefused : s.acceptsRecovery (.handler env) s' = false) : s'.Unrecovering := by
  have hstate := not_recovering_of_step hstep (by simp) hrefused h.state
  cases Sys.move_of_step hstep with
  | @handlerNext _ handler next shared hhandler hnext =>
    refine ⟨hstate, fun other hother ↦ ?_, h.operation⟩
    cases hother
    by_contra hlaunches
    have hrecover := launchesRecovery_of_follows (Handler.follows_of_step hnext)
      (by simpa using hlaunches)
    simp [Sys.acceptsRecovery, hhandler, hrecover] at hrefused
  | handlerDone | handlerEscape => exact ⟨hstate, by simp, h.operation⟩
  | @handlerLaunch _ handler running reply shared hhandler hnext =>
    refine ⟨hstate, by simp, fun other hother ↦ ?_⟩
    cases hother
    have hlaunches := h.handler handler hhandler
    cases Handler.follows_of_step hnext
    cases running <;> first | rfl | cases hlaunches
  | environment => exact ⟨hstate, h.handler, h.operation⟩

theorem Sys.Unrecovering.operation_step {config : Config} {env : Env} {s s' : Sys}
    (h : s.Unrecovering) (hstep : s.step config (.operation env) = some s') :
    s'.Unrecovering := by
  obtain ⟨running, hrunning, -⟩ := Option.map_eq_some_iff.mp hstep
  obtain ⟨hnext, hhandler⟩ := Sys.step_operation hrunning hstep
  have hother := h.operation running hrunning
  refine ⟨?_, fun handler hsome ↦ h.handler handler (hhandler ▸ hsome), fun next hsome ↦ ?_⟩
  · rcases running.effect config env s.shared with ⟨-, hend⟩ | ⟨-, shared, next, hgoes, hcontinues⟩
    · rw [hnext, Prod.mk.injEq] at hend
      rw [hend.1]
      exact h.state
    · rw [hnext, Prod.mk.injEq] at hgoes
      rw [hgoes.1]
      rcases hcontinues.effect.state with hsame | ⟨htarget, -⟩
      · rw [hsame]
        exact h.state
      · intro hrecovering
        rw [hrecovering] at htarget
        unfold Operation.target at htarget
        split at htarget <;> first | (cases htarget; done) | cases hother
  · rcases running.effect config env s.shared with ⟨-, hend⟩ | ⟨-, shared, other, hgoes, hcontinues⟩
    · rw [hnext, Prod.mk.injEq, hsome] at hend
      cases hend.2
    · rw [hnext, Prod.mk.injEq, hsome, Option.some.injEq] at hgoes
      by_contra hrecovers
      have := recovers_of_follows (hgoes.2 ▸ hcontinues.follows) (by simpa using hrecovers)
      simp_all

theorem Sys.Unrecovering.step {config : Config} {s s' : Sys} {a : Action} (h : s.Unrecovering)
    (hstep : s.step config a = some s') (hrefused : s.acceptsRecovery a s' = false) :
    s'.Unrecovering := by
  cases a with
  | handler env => exact h.handler_step hstep hrefused
  | operation env => exact h.operation_step hstep
  | call request =>
    obtain ⟨-, rfl⟩ := Sys.call_of_step hstep
    refine ⟨h.state, fun handler hsome ↦ ?_, h.operation⟩
    cases hsome
    cases request <;> rfl
  | deliver | callback | observe | exit | writeMap | takeSave | writeSave =>
    have hother := bystander_of_step hstep (by simp) (by simp) (by simp)
    exact ⟨not_recovering_of_step hstep (by simp) hrefused h.state,
      fun handler hsome ↦ h.handler handler (hother.handler ▸ hsome),
      fun running hsome ↦ h.operation running (hother.operation ▸ hsome)⟩

/-- At the end of its thread a recovery has left RECOVERING. -/
theorem RecoveryRun.UnderWay.ends {config : Config} {run : RecoveryRun} {s s' : Sys} {a : Action}
    (h : run.UnderWay s) (hreach : Reachable config s) (hstep : s.step config a = some s')
    (hends : Sys.endsThread a s' = true) : s'.Unrecovering := by
  cases a with
  | operation env =>
    have hended : s'.operation = none := by simpa [Sys.endsThread] using hends
    obtain ⟨running, hrunning, -⟩ := Option.map_eq_some_iff.mp hstep
    obtain ⟨hnext, hhandler⟩ := Sys.step_operation hrunning hstep
    have hidle := hreach.exclusive.of_operation hrunning
    have hassertion : run.operation s.shared running := by
      rcases h with ⟨reply, hlaunch, -⟩ | ⟨other, hother, hassertion⟩
      · simp [Sys.handlerHolds, hlaunch, Handler.holdsToken] at hidle
      · rw [hrunning] at hother
        cases hother
        exact hassertion
    have hafter : s'.shared.currentState ≠ .recovering := by
      cases operationMove_of_step hreach.modeExclusion hrunning hassertion hnext with
      | stays next hsome => simp [hsome] at hended
      | leaves hsome => simp [hsome] at hended
      | ends _ _ hafter => exact hafter
    refine ⟨hafter, fun handler hsome ↦ ?_, by simp [hended]⟩
    rw [hhandler] at hsome
    cases handler with
    | launch => simp [Sys.handlerHolds, hsome, Handler.holdsToken] at hidle
    | _ => rfl
  | _ => cases hends

theorem RecoveryHistory.Agrees.step {config : Config} {s s' : Sys} {a : Action}
    {h : RecoveryHistory} (hagrees : h.Agrees s) (hreach : Reachable config s)
    (hstep : s.step config a = some s') : (h.note s a s').Agrees s' := by
  cases haccepts : s.acceptsRecovery a s' with
  | true =>
    obtain ⟨herror, htoken, ⟨reply, hlaunch⟩, hstate, hmaps⟩ :=
      accepted_of_acceptsRecovery hstep haccepts
    simp only [RecoveryHistory.note, haccepts, if_true, hagrees.episode herror]
    refine ⟨le_rfl, by simp [hstate], fun run hrun ↦ ?_, by simp⟩
    cases hrun
    exact Or.inl ⟨reply, hlaunch, ⟨hstate, hmaps, rfl⟩, le_rfl, by simp [RecoveryRun.recovery]⟩
  | false =>
    simp only [RecoveryHistory.note, haccepts, Bool.false_eq_true, if_false]
    refine ⟨?_, fun herror ↦ ?_, fun run hrun ↦ ?_, fun hrun ↦ ?_⟩
    · split
      · exact Nat.zero_le 1
      · exact hagrees.accepted
    · by_cases hbefore : s.shared.currentState = .error
      · simp [hbefore, hagrees.episode hbefore]
      · simp [hbefore, herror]
    · cases hends : Sys.endsThread a s' with
      | true => simp [hends] at hrun
      | false =>
        simp only [hends, Bool.false_eq_true, if_false] at hrun
        obtain ⟨before, hbefore, rfl⟩ := Option.map_eq_some_iff.mp hrun
        exact (hagrees.run before hbefore).step hreach hstep haccepts hends
    · cases hbefore : h.run with
      | none => exact (hagrees.rest hbefore).step hstep haccepts
      | some run =>
        refine (hagrees.run run hbefore).ends hreach hstep ?_
        by_contra hends
        simp [hbefore, hends] at hrun

/-- The start of the manager beside an empty history. -/
def RecoveryHistory.Initial (s : Sys × RecoveryHistory) : Prop := s.1.Initial ∧ s.2 = {}

theorem agrees_of_reaches {config : Config} {s : Sys} {h : RecoveryHistory}
    (hreach : Reaches (recoveryStep config) anyAction RecoveryHistory.Initial (s, h)) :
    h.Agrees s := by
  have hreachable (s : Sys × RecoveryHistory)
      (hs : Reaches (recoveryStep config) anyAction RecoveryHistory.Initial s) :
      Reachable config s.1 :=
    hs.of_noting (fun _ _ _ ↦ trivial) fun _ hinit ↦ hinit.1
  refine Reaches.invariant_of (P := fun s : Sys × RecoveryHistory ↦ s.2.Agrees s.1) hreachable
    (fun s hinit ↦ ?_) (fun s a s' hs hagrees _ hstep ↦ ?_) hreach
  · obtain ⟨hinit, hnone⟩ := hinit
    rw [hnone]
    refine ⟨Nat.zero_le 1, fun _ ↦ rfl, by simp, fun _ ↦ ⟨?_, by simp [hinit.handler], by
      simp [hinit.operation]⟩⟩
    rcases hinit.state with hstate | ⟨hstate, -⟩ <;> simp [hstate]
  · obtain ⟨hnext, hnote⟩ := noting_eq_some hstep
    rw [hnote]
    exact hagrees.step hs hnext

theorem RecoveryRun.UnderWay.bounds {run : RecoveryRun} {s : Sys} (h : run.UnderWay s)
    (hexclusive : s.Exclusive) :
    run.exits ≤ 1 ∧ run.steps < 18 ∧ (s.operation = some .finish → run.exits = 1) ∧
      (s.shared.currentState = .recovering → run.exits = 0 ∧ s.shared.maps = run.store) := by
  have hrecovery {pc : Recovery} (hassertion : run.operation s.shared (.recovery pc)) :
      run.Inside s.shared ∧ run.steps < 18 := by
    obtain ⟨hinside, hsteps, -⟩ := hassertion
    have hrank := pc.four_le_rank
    exact ⟨hinside, by omega⟩
  have hinside (hs : run.Inside s.shared) : run.exits ≤ 1 ∧
      (s.shared.currentState = .recovering → run.exits = 0 ∧ s.shared.maps = run.store) :=
    ⟨by simp [hs.exits], fun _ ↦ ⟨hs.exits, hs.store⟩⟩
  rcases h with ⟨reply, hlaunch, hassertion⟩ | ⟨running, hrunning, hassertion⟩
  · obtain ⟨hs, hsteps⟩ := hrecovery hassertion
    have hended := hexclusive.alone (by simp [Sys.handlerHolds, hlaunch, Handler.holdsToken])
    exact ⟨(hinside hs).1, hsteps, by simp [hended], (hinside hs).2⟩
  · cases running with
    | recovery pc =>
      obtain ⟨hs, hsteps⟩ := hrecovery hassertion
      exact ⟨(hinside hs).1, hsteps, by simp [hrunning], (hinside hs).2⟩
    | fail | enterError =>
      obtain ⟨hs, hsteps, -⟩ := hassertion
      exact ⟨(hinside hs).1, by omega, by simp [hrunning], (hinside hs).2⟩
    | finish =>
      obtain ⟨hstate, hsteps, hexits⟩ := hassertion
      exact ⟨by omega, by omega, fun _ ↦ hexits, fun hrecovering ↦ absurd hrecovering hstate⟩
    | _ => exact hassertion.elim

/-- How a recovery leaves RECOVERING. -/
theorem RecoveryRun.UnderWay.leaves {config : Config} {run : RecoveryRun} {s s' : Sys} {a : Action}
    (h : run.UnderWay s) (hreach : Reachable config s) (hstep : s.step config a = some s')
    (hbefore : s.shared.currentState = .recovering)
    (hafter : s'.shared.currentState ≠ .recovering) :
    (∃ env, a = .operation env) ∧ (run.Recovered s'.shared ∨ run.Failed s'.shared) := by
  have hexclusive := hreach.exclusive
  by_cases hoperation : ∀ env, a ≠ .operation env
  · have hfrozen := frozen_of_step hreach.phase (h.token hexclusive) hbefore hstep hoperation
      (h.idle hexclusive)
    exact absurd (hfrozen.1.state.trans hbefore) hafter
  · push Not at hoperation
    obtain ⟨env, rfl⟩ := hoperation
    obtain ⟨running, hrunning, -⟩ := Option.map_eq_some_iff.mp hstep
    refine ⟨⟨env, rfl⟩, ?_⟩
    have hidle := hexclusive.of_operation hrunning
    have hassertion : run.operation s.shared running := by
      rcases h with ⟨reply, hlaunch, -⟩ | ⟨other, hother, hassertion⟩
      · simp [Sys.handlerHolds, hlaunch, Handler.holdsToken] at hidle
      · rw [hrunning] at hother
        cases hother
        exact hassertion
    cases operationMove_of_step hreach.modeExclusion hrunning hassertion
      (Sys.step_operation hrunning hstep).1 with
    | stays next hnext hstate => exact absurd hstate hafter
    | leaves hnext houtcome => exact houtcome
    | ends hnext hother => exact absurd hbefore hother

theorem Reachable.leaves_recovering {config : Config} {s s' : Sys} {a : Action}
    (hreach : Reachable config s) (hstep : s.step config a = some s')
    (hbefore : s.shared.currentState = .recovering)
    (hafter : s'.shared.currentState ≠ .recovering) :
    (s'.shared.Cleared ∧ s'.shared.currentState ≠ .error) ∨
      (s'.shared.currentState = .error ∧ s'.shared.errorCode = "RECOVERY_FAILED") := by
  obtain ⟨h, hnoted⟩ := hreach.noted RecoveryHistory.note {}
  have hagrees : h.Agrees s := agrees_of_reaches hnoted
  cases hrun : h.run with
  | none => exact absurd hbefore (hagrees.rest hrun).state
  | some run =>
    rcases ((hagrees.run run hrun).leaves hreach hstep hbefore hafter).2 with hrecovered | hfailed
    · refine Or.inl ⟨hrecovered.cleared, ?_⟩
      rcases hrecovered.state with hstate | hstate <;> simp [hstate]
    · exact Or.inr ⟨hfailed.state, hfailed.code⟩

/-- Every RECOVERING is one of an accepted recovery, at most one for each ERROR, whichever leaders
are alive when it is accepted, automatically started ones included. The operation
thread alone ends it, after at most seventeen steps and once: with both leaders dead, no map
selected and no error reported in WAIT_MODE or SENSOR_STARTING, or with RECOVERY_FAILED in ERROR
when a leader has outlived its stop or a step has thrown. The maps are those found at the
acceptance, with what a mapping node and the save worker have written since. -/
theorem recovery_outcome (config : Config) (s : Sys) (h : RecoveryHistory)
    (hreach : Reaches (recoveryStep config) anyAction RecoveryHistory.Initial (s, h)) :
    h.accepted ≤ 1 ∧ (s.shared.currentState = .error → h.accepted = 0) ∧
    (s.shared.currentState = .recovering → h.run.isSome = true) ∧
    (∀ run, h.run = some run →
      ((∃ reply, s.handler = some (.launch (.recovery (.checkRunning .mapping [])) reply) ∧
        s.operation = none) ∨ s.operation.isSome = true) ∧
      run.exits ≤ 1 ∧ run.steps < 18 ∧ (s.operation = some .finish → run.exits = 1) ∧
      (s.shared.currentState = .recovering → run.exits = 0 ∧ s.shared.maps = run.store)) ∧
    (∀ a s', s.shared.currentState = .recovering → s.step config a = some s' →
      s'.shared.currentState ≠ .recovering →
      (∃ env, a = .operation env) ∧
        ∃ run, h.run = some run ∧ (run.Recovered s'.shared ∨ run.Failed s'.shared)) := by
  have hreachable : Reachable config s :=
    hreach.of_noting (fun _ _ _ ↦ trivial) fun _ hinit ↦ hinit.1
  have hexclusive := hreachable.exclusive
  have hagrees := agrees_of_reaches hreach
  have hrecovering (hstate : s.shared.currentState = .recovering) :
      ∃ run, h.run = some run := by
    cases hrun : h.run with
    | none => exact absurd hstate (hagrees.rest hrun).state
    | some run => exact ⟨run, rfl⟩
  refine ⟨hagrees.accepted, hagrees.episode,
    fun hstate ↦ Option.isSome_iff_exists.mpr (hrecovering hstate),
    fun run hrun ↦ ⟨?_, (hagrees.run run hrun).bounds hexclusive⟩,
    fun a s' hbefore hstep hafter ↦ ?_⟩
  · rcases hagrees.run run hrun with ⟨reply, hlaunch, -⟩ | ⟨running, hrunning, -⟩
    · exact Or.inl ⟨reply, hlaunch,
        hexclusive.alone (by simp [Sys.handlerHolds, hlaunch, Handler.holdsToken])⟩
    · exact Or.inr (by simp [hrunning])
  · obtain ⟨run, hrun⟩ := hrecovering hbefore
    obtain ⟨haction, houtcome⟩ := (hagrees.run run hrun).leaves hreachable hstep hbefore hafter
    exact ⟨haction, run, hrun, houtcome⟩

/-! ## Replays -/

/-- Whether a recovery is about to enter WAIT_MODE. -/
def Sys.resumesWait (s : Sys) : Bool :=
  match s.operation with
  | some (.recovery (.resume .waitMode)) => decide (s.shared.currentState = .recovering)
  | _ => false

/-- A request for recovery, as far as its launch. -/
def requestRecovery : List Action := [.call .recover, .handler {}, .handler {}]

theorem exists_of_recoveryReplay {start : Sys} (hinit : start.Initial) (actions : List Action)
    (test : Sys → RecoveryRun → Bool)
    (hrun : ((exec (recoveryStep {}) (start, {}) actions).any
      fun s ↦ s.1.resumesWait && s.2.run.any (test s.1)) = true) :
    ∃ s h run s', Reaches (recoveryStep {}) anyAction RecoveryHistory.Initial (s, h) ∧
      h.run = some run ∧ s.shared.currentState = .recovering ∧
      s.step {} (.operation {}) = some s' ∧ s'.shared.currentState = .waitMode ∧
      s'.shared.maps = s.shared.maps ∧ test s run = true := by
  have hstart : Reaches (recoveryStep {}) anyAction RecoveryHistory.Initial (start, {}) :=
    .start ⟨hinit, rfl⟩
  obtain ⟨⟨s, h⟩, hreach, htest⟩ := hstart.exists_of_exec hrun
  obtain ⟨hresumes, htest⟩ := Bool.and_eq_true_iff.mp htest
  obtain ⟨run, hnoted, htest⟩ := (Option.any_eq_true _ _).mp htest
  unfold Sys.resumesWait at hresumes
  split at hresumes
  · rename_i hoperation
    have hstate : s.shared.currentState = .recovering := of_decide_eq_true hresumes
    refine ⟨s, h, run, _, hreach, hnoted, hstate,
      by rw [Sys.step, hoperation, Option.map_some], ?_, ?_, htest⟩
    · simp [Operation.step, Operation.run, Recovery.step, currentState_transitionTo, hstate,
        SystemState.canTransition, SystemState.allowed]
    · exact maps_transitionTo s.shared .waitMode
  · cases hresumes

/-- A mapping session is lost with its sensors, its node outlives the stop, and a recovery ends
it. -/
def recoverMapping (beside : List Action) : List Action :=
  toWaitMode ++ launchMapping "m" ++ enterMapping ++ sensorLoss 8 ++
    List.replicate 4 (.operation absentEnv) ++ requestRecovery ++ beside ++
    List.replicate 9 (.operation readyEnv)

/-- An automatic start has failed after both leaders were started, and a recovery stops them. -/
theorem recovery_outcome_autoStarted :
    ∃ run s', RecoveryRun.Recovered run (Sys.shared s') ∧ s'.shared.currentState = .waitMode ∧
      run.blocked = false := by
  obtain ⟨s, h, run, s', hreach, hrun, hbefore, hstep, hafter, -, htest⟩ :=
    exists_of_recoveryReplay (failedStart_initial ∅ fun _ ↦ { alive := true })
      (requestRecovery ++ List.replicate 12 (.operation readyEnv)) (fun _ run ↦ !run.blocked)
      (by decide +kernel)
  obtain ⟨-, other, hother, houtcome⟩ :=
    (recovery_outcome {} s h hreach).2.2.2.2 _ s' hbefore hstep (by simp [hafter])
  rw [hrun] at hother
  cases hother
  rcases houtcome with hrecovered | hfailed
  · exact ⟨run, s', hrecovered, hafter, by simpa using htest⟩
  · have herror := hfailed.state
    rw [hafter] at herror
    cases herror

/-- While `performRecovery` runs, the residual mapping node writes the map of its session, or the
save worker the last pose that was requested before the ERROR: the recovery succeeds, and the store
is not the one it was accepted with. -/
theorem recovery_store_written :
    (∃ s h run s', Reaches (recoveryStep {}) anyAction RecoveryHistory.Initial (s, h) ∧
      h.run = some run ∧ s.shared.currentState = .recovering ∧
      s.step {} (.operation {}) = some s' ∧ s'.shared.currentState = .waitMode ∧
      output? run.before "m" = none ∧ output? s'.shared.maps "m" = some [1]) ∧
    ∃ s h run s', Reaches (recoveryStep {}) anyAction RecoveryHistory.Initial (s, h) ∧
      h.run = some run ∧ s.shared.currentState = .recovering ∧
      s.step {} (.operation {}) = some s' ∧ s'.shared.currentState = .waitMode ∧
      (directory? run.before "m").bind MapDirectory.lastPose = none ∧
      ((directory? s'.shared.maps "m").bind MapDirectory.lastPose).isSome = true := by
  constructor
  · obtain ⟨s, h, run, s', hreach, hrun, hbefore, hstep, hafter, hmaps, htest⟩ :=
      exists_of_recoveryReplay (initial_initial ∅) (recoverMapping [.writeMap [1]])
        (fun s run ↦ decide (output? run.before "m" = none) &&
          decide (output? s.shared.maps "m" = some [1])) (by decide +kernel)
    simp only [Bool.and_eq_true, decide_eq_true_eq] at htest
    exact ⟨s, h, run, s', hreach, hrun, hbefore, hstep, hafter, htest.1, by rw [hmaps, htest.2]⟩
  · obtain ⟨s, h, run, s', hreach, hrun, hbefore, hstep, hafter, hmaps, htest⟩ :=
      exists_of_recoveryReplay (initial_initial (storedMaps ["m"]))
        (trustedRun ++ runCallback 1 (.rawOdometry (poseAt (.fin 1) 2)) 4 2 ++ requestSave ++
          sensorLoss 8 ++ List.replicate 4 (.operation readyEnv) ++ requestRecovery ++
          [.writeSave none] ++ List.replicate 6 (.operation readyEnv))
        (fun s run ↦ decide (((directory? run.before "m").bind MapDirectory.lastPose).isNone) &&
          ((directory? s.shared.maps "m").bind MapDirectory.lastPose).isSome) (by decide +kernel)
    simp only [Bool.and_eq_true, decide_eq_true_eq, Option.isNone_iff_eq_none] at htest
    exact ⟨s, h, run, s', hreach, hrun, hbefore, hstep, hafter, htest.1, by rw [hmaps, htest.2]⟩

end SlamSystemManager.Manager
