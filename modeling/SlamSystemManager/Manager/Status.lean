import SlamSystemManager.Manager.Exclusion

/-!
# The status message

`buildStatusMessage` reads the state under the mutex and asks the process manager and the quality
monitor after it, while the operation thread goes on. The status timer and `handleGetStatus` run it
in the default group, so that no other callback of the group is beside it.
-/

open Numeric TransitionSystem

namespace SlamSystemManager.Manager

/-- `msg::SystemStatus`. -/
structure SystemStatus where
  state : String := ""
  ousterRunning : Bool := false
  pointcloudAlive : Bool := false
  imuAlive : Bool := false
  pointcloudHz : Double := .fin 0
  imuHz : Double := .fin 0
  mappingRunning : Bool := false
  localizationRunning : Bool := false
  localizationQualityState : String := ""
  localizationConfidence : Double := .fin 0
  localizationPoseValid : Bool := false
  localizationQualityReason : String := ""
  currentMap : String := ""
  errorCode : String := ""
  errorMessage : String := ""
  deriving DecidableEq

/-- Where `buildStatusMessage` stands. -/
inductive BuildStatus where
  | readState
  | ousterRunning (status : SystemStatus) (sensors : SensorStatus)
  | mappingRunning (status : SystemStatus)
  | localizationRunning (status : SystemStatus)
  | readQuality (status : SystemStatus)

/-- One step of `buildStatusMessage`. The managed ouster process belongs to the surroundings;
`toFloat` is the conversion of a double to a float. -/
def BuildStatus.step (toFloat : Double → Double) (env : Env) (s : Shared) :
    BuildStatus → BuildStatus ⊕ SystemStatus
  | .readState =>
    .inl (.ousterRunning
      { state := s.currentState.toString
        currentMap := s.currentMap
        errorCode := s.errorCode
        errorMessage := s.errorMessage }
      s.sensorStatus)
  | .ousterRunning status sensors =>
    .inl (.mappingRunning
      { status with
        ousterRunning := env.available || sensors.pointcloudAlive || sensors.imuAlive
        pointcloudAlive := sensors.pointcloudAlive
        imuAlive := sensors.imuAlive
        pointcloudHz := toFloat sensors.pointcloudHz
        imuHz := toFloat sensors.imuHz })
  | .mappingRunning status =>
    .inl (.localizationRunning { status with mappingRunning := s.isRunning .mapping })
  | .localizationRunning status =>
    .inl (.readQuality { status with localizationRunning := s.isRunning .localization })
  | .readQuality status =>
    .inr { status with
      localizationQualityState := s.quality.status.state
      localizationConfidence := s.quality.status.confidence
      localizationPoseValid := s.quality.status.poseValid
      localizationQualityReason := s.quality.status.reason }

/-- The response of `handleGetStatus`. -/
structure GetSystemStatusResponse where
  success : Bool
  message : String
  status : SystemStatus

def handleGetStatus (status : SystemStatus) : GetSystemStatusResponse :=
  ⟨true, "System status snapshot returned", status⟩

/-- Who asks for the message. -/
inductive StatusCaller where
  | publishStatus
  | handleGetStatus
  deriving DecidableEq

/-- The manager beside a status message that is being built, and what has been sent so far. -/
structure Reporting where
  sys : Sys
  building : Option (StatusCaller × BuildStatus) := none
  published : List SystemStatus := []
  answered : List GetSystemStatusResponse := []

inductive ReportAction where
  | run (a : Action)
  | request (caller : StatusCaller)
  | build (env : Env)

/-- Whether an action takes place in the default callback group. -/
def Action.inDefaultGroup : Action → Bool
  | .call _ | .handler _ | .observe _ => true
  | _ => false

def Reporting.send (s : Reporting) (status : SystemStatus) : StatusCaller → Reporting
  | .publishStatus => { s with building := none, published := status :: s.published }
  | .handleGetStatus =>
    { s with building := none, answered := Manager.handleGetStatus status :: s.answered }

def Reporting.step (config : Config) (toFloat : Double → Double) (s : Reporting) :
    ReportAction → Option Reporting
  | .run a =>
    if s.building.isSome && a.inDefaultGroup then none
    else (s.sys.step config a).map fun sys ↦ { s with sys := sys }
  | .request caller =>
    if s.building.isSome || s.sys.handler.isSome then none
    else some { s with building := some (caller, .readState) }
  | .build env =>
    s.building.map fun (caller, pc) ↦
      match pc.step toFloat env s.sys.shared with
      | .inl pc => { s with building := some (caller, pc) }
      | .inr status => s.send status caller

/-- The states that a run has been in. -/
def noteState (visited : List Shared) (s : Reporting) (_ : ReportAction) (_ : Reporting) :
    List Shared :=
  s.sys.shared :: visited

/-- The messages of a manager that some run sends, beside the states that the run has been in. No
leader is started automatically. -/
def Reports (config : Config) (toFloat : Double → Double) : Reporting × List Shared → Prop :=
  Reaches (noting (Reporting.step config toFloat) noteState) anyAction
    (fun s ↦ s.1.sys.Unstarted ∧ s.1.building = none ∧ s.1.published = [] ∧ s.1.answered = [] ∧
      s.2 = [])

/-- The messages sent so far, to whoever asked. -/
def Reporting.messages (s : Reporting) : List SystemStatus :=
  s.published ++ s.answered.map GetSystemStatusResponse.status

namespace Status

/-! ## Leaders to come -/

/-- Whether the operation has still to start the leader. -/
def willFork : Leader → Option Operation → Bool
  | .mapping, some (.startMapping _ _ .checkRunning)
  | .mapping, some (.startMapping _ _ .saveService)
  | .mapping, some (.startMapping _ _ .prepareConfig)
  | .mapping, some (.startMapping _ _ .startProcess) => true
  | .localization, some (.startLocalization _ .checkRunning)
  | .localization, some (.startLocalization _ .checkFile)
  | .localization, some (.startLocalization _ .startProcess) => true
  | _, _ => false

/-- The leader runs, or the running operation may start it. -/
def MayRun (s : Sys) (leader : Leader) : Prop :=
  s.shared.isRunning leader = true ∨ willFork leader s.operation = true

theorem willFork_of_forks {o : Operation} {leader : Leader} {map : String}
    (h : o.forks = some (leader, map)) : willFork leader (some o) = true := by
  unfold Operation.forks at h
  split at h <;> cases h <;> rfl

theorem willFork_startMapping (config : Config) (env : Env) (map : String) (created : Bool)
    (s : Shared) (pc : StartMapping) (leader : Leader)
    (h : willFork leader (some (pc.step config env map created s).2) = true) :
    willFork leader (some (.startMapping map created pc)) = true := by
  cases leader with
  | mapping =>
    cases pc with
    | checkRunning | saveService | prepareConfig | startProcess => rfl
    | _ =>
      simp only [StartMapping.step, errorOrFinish] at h
      revert h
      repeat' split
      all_goals exact id
  | localization =>
    have hfollows := StartMapping.follows config env map created s pc
    generalize (pc.step config env map created s).2 = next at h hfollows
    cases hfollows <;> cases h

theorem willFork_startLocalization (config : Config) (env : Env) (map : String) (s : Shared)
    (pc : StartLocalization) (leader : Leader)
    (h : willFork leader (some (pc.step config env map s).2) = true) :
    willFork leader (some (.startLocalization map pc)) = true := by
  cases leader with
  | mapping =>
    have hfollows := StartLocalization.follows config env map s pc
    generalize (pc.step config env map s).2 = next at h hfollows
    cases hfollows <;> cases h
  | localization =>
    cases pc with
    | checkRunning | checkFile | startProcess => rfl
    | _ =>
      simp only [StartLocalization.step, errorOrFinish] at h
      revert h
      repeat' split
      all_goals exact id

theorem willFork_step {config : Config} {env : Env} {s : Shared} {o next : Operation}
    {leader : Leader} (hfollows : o.Follows next) (hnext : (o.step config env s).2 = some next)
    (h : willFork leader (some next) = true) : willFork leader (some o) = true := by
  rcases o.step_cases config env s with ⟨hrun, -⟩ | ⟨-, -, code, what, hthrow⟩
  · rw [hrun] at hnext
    cases o with
    | startMapping map created pc =>
      cases hnext
      exact willFork_startMapping config env map created s pc leader h
    | startLocalization map pc =>
      cases hnext
      exact willFork_startLocalization config env map s pc leader h
    | _ =>
      -- no other operation starts a leader
      cases hfollows <;> cases leader <;> cases h
  · rw [hthrow] at hnext
    cases hnext
    cases leader <;> cases h

/-- Beside a message that is being built no leader comes into sight. -/
theorem mayRun_step {config : Config} {s s' : Sys} {a : Action}
    (hgroup : a.inDefaultGroup = false) (hstep : s.step config a = some s') (leader : Leader)
    (h : MayRun s' leader) : MayRun s leader := by
  by_cases hoperation : ∀ env, a ≠ .operation env
  · have hbystander := bystander_of_step hstep (by rintro request rfl; cases hgroup)
      (by rintro env rfl; cases hgroup) hoperation
    rcases h with hrunning | hforks
    · refine Or.inl ?_
      rcases hbystander.interference.processes with hsame | ⟨other, exitCode, hreap⟩
      · exact Wanes.of_processes hsame leader hrunning
      · exact Wanes.of_reap hreap leader hrunning
    · exact Or.inr (hbystander.operation ▸ hforks)
  · obtain ⟨env, rfl⟩ := not_forall_not.mp hoperation
    obtain ⟨o, hsome, rfl⟩ := Option.map_eq_some_iff.mp hstep
    rcases o.effect config env s.shared with ⟨rfl, hend⟩ | ⟨-, shared, next, hnext, hcontinues⟩
    · simp only [MayRun, hend] at h
      exact Or.inl (h.resolve_right (by cases leader <;> simp [willFork]))
    · simp only [MayRun, hnext] at h
      rcases h with hrunning | hforks
      · rcases hcontinues.effect.process with hsame | ⟨other, map, hforks, -, hfork⟩ |
          ⟨other, exitCode, hreap⟩
        · exact Or.inl (Wanes.of_processes hsame leader hrunning)
        · by_cases hsame : leader = other
          · subst hsame
            exact Or.inr (hsome ▸ willFork_of_forks hforks)
          · refine Or.inl ?_
            have hforked : (s.shared.fork other map).isRunning leader = true := by
              rw [← hrunning, Shared.isRunning, Shared.isRunning, hfork]
            simpa [isRunning_fork, hsame] using hforked
        · exact Or.inl (Wanes.of_reap hreap leader hrunning)
      · exact Or.inr (hsome ▸ willFork_step hcontinues.follows (congrArg Prod.snd hnext) hforks)

/-! ## Messages on the way -/

/-- The states that a message may give beside a leader it reports running. -/
def statesBeside : Leader → List SystemState
  | .mapping => [.mappingStarting, .mapping, .mapSaving, .error, .recovering]
  | .localization => [.localizationStarting, .relocalizing, .localized, .error, .recovering]

def reports (status : SystemStatus) : Leader → Bool
  | .mapping => status.mappingRunning
  | .localization => status.localizationRunning

def Allows (status : SystemStatus) (leader : Leader) : Prop :=
  ∃ state ∈ statesBeside leader, status.state = state.toString

/-- What every message says. -/
structure Coherent (status : SystemStatus) : Prop where
  alone : status.mappingRunning = false ∨ status.localizationRunning = false
  state : ∀ leader, reports status leader = true → Allows status leader

/-- A message in whose state every leader that runs or comes may run. -/
structure Begun (s : Sys) (status : SystemStatus) : Prop where
  mapping : status.mappingRunning = false
  localization : status.localizationRunning = false
  expected : ∀ leader, MayRun s leader → Allows status leader

/-- A message that has been told whether the mapping leader runs. -/
structure Half (s : Sys) (status : SystemStatus) : Prop where
  localization : status.localizationRunning = false
  allowed : status.mappingRunning = true → Allows status .mapping
  alone : status.mappingRunning = true → ¬ MayRun s .localization
  expected : MayRun s .localization → Allows status .localization

def Building (s : Sys) : BuildStatus → Prop
  | .readState => True
  | .ousterRunning status _ | .mappingRunning status => Begun s status
  | .localizationRunning status => Half s status
  | .readQuality status => Coherent status

/-- The leader that an operation has still to start does not meet the other one. -/
theorem of_willFork {s : Shared} {o : Option Operation} {leader : Leader}
    (h : willFork leader o = true) (hoperation : ModeExclusion.operation s o) :
    (leader = .mapping ∧ s.isRunning .localization = false ∧
      ModeExclusion.ownsMapping s.currentState = true) ∨
    (leader = .localization ∧ s.isRunning .mapping = false ∧
      ModeExclusion.ownsLocalization s.currentState = true) := by
  unfold willFork at h
  split at h
  case h_8 => cases h
  case h_5 | h_6 | h_7 =>
    refine Or.inr ⟨rfl, hoperation.1, ?_⟩
    rcases hoperation.2.2 with hstate | hstate <;> simp [ModeExclusion.ownsLocalization, hstate]
  all_goals
    refine Or.inl ⟨rfl, hoperation.1, ?_⟩
    rcases hoperation.2.2 with hstate | hstate <;> rw [hstate] <;> rfl

theorem state_of_mayRun {s : Sys} (hexclusive : ModeExclusion.Exclusive s.shared)
    (hoperation : ModeExclusion.operation s.shared s.operation) {leader : Leader}
    (hmay : MayRun s leader) : s.shared.currentState ∈ statesBeside leader := by
  have howns : (leader = .mapping ∧ ModeExclusion.ownsMapping s.shared.currentState = true) ∨
      (leader = .localization ∧
        ModeExclusion.ownsLocalization s.shared.currentState = true) := by
    rcases hmay with hrunning | hforks
    · cases leader with
      | mapping => exact Or.inl ⟨rfl, hexclusive.mapping hrunning⟩
      | localization => exact Or.inr ⟨rfl, hexclusive.localization hrunning⟩
    · rcases of_willFork hforks hoperation with ⟨hleader, -, howns⟩ | ⟨hleader, -, howns⟩
      · exact Or.inl ⟨hleader, howns⟩
      · exact Or.inr ⟨hleader, howns⟩
  rcases howns with ⟨rfl, howns⟩ | ⟨rfl, howns⟩
  all_goals
    revert howns
    cases s.shared.currentState <;> decide

/-- While the mapping leader runs, the localization leader neither runs nor comes. -/
theorem alone_of_running {s : Sys} (hexclusive : ModeExclusion.Exclusive s.shared)
    (hoperation : ModeExclusion.operation s.shared s.operation)
    (hmapping : s.shared.isRunning .mapping = true) : ¬ MayRun s .localization := by
  rintro (hrunning | hforks)
  · rcases hexclusive.alone with hdead | hdead
    · exact absurd hmapping (by simp [hdead])
    · exact absurd hrunning (by simp [hdead])
  · rcases of_willFork hforks hoperation with ⟨hleader, -⟩ | ⟨-, hdead, -⟩
    · cases hleader
    · exact absurd hmapping (by simp [hdead])

theorem building_step (toFloat : Double → Double) (env : Env) {s : Sys} {pc next : BuildStatus}
    (hexclusive : ModeExclusion.Exclusive s.shared)
    (hoperation : ModeExclusion.operation s.shared s.operation) (h : Building s pc)
    (hnext : pc.step toFloat env s.shared = .inl next) : Building s next := by
  cases pc with
  | readState =>
    cases hnext
    exact ⟨rfl, rfl, fun leader hmay ↦ ⟨_, state_of_mayRun hexclusive hoperation hmay, rfl⟩⟩
  | ousterRunning status sensors =>
    cases hnext
    exact ⟨h.mapping, h.localization, h.expected⟩
  | mappingRunning status =>
    cases hnext
    exact ⟨h.localization, fun hrunning ↦ h.expected .mapping (Or.inl hrunning),
      alone_of_running hexclusive hoperation, h.expected .localization⟩
  | localizationRunning status =>
    cases hnext
    refine ⟨?_, fun leader hrunning ↦ ?_⟩
    · by_cases hmapping : status.mappingRunning = true
      · exact Or.inr (by simpa using fun hrunning ↦ h.alone hmapping (Or.inl hrunning))
      · exact Or.inl (by simpa using hmapping)
    · cases leader with
      | mapping => exact h.allowed hrunning
      | localization => exact h.expected (Or.inl hrunning)
  | readQuality status => cases hnext

/-- What is asserted of a message stays true beside it. -/
theorem building_kept {s s' : Sys} (hkept : ∀ leader, MayRun s' leader → MayRun s leader)
    {pc : BuildStatus} (h : Building s pc) : Building s' pc := by
  cases pc with
  | readState => trivial
  | ousterRunning | mappingRunning =>
    exact ⟨h.mapping, h.localization, fun leader hmay ↦ h.expected leader (hkept leader hmay)⟩
  | localizationRunning =>
    exact ⟨h.localization, h.allowed, fun hmapping hmay ↦ h.alone hmapping (hkept _ hmay),
      fun hmay ↦ h.expected (hkept _ hmay)⟩
  | readQuality => exact h

/-! ## Snapshots -/

/-- The state, the map and the error fields of the message are those of one of the states. -/
def Snapshot (visited : List Shared) (status : SystemStatus) : Prop :=
  ∃ shared ∈ visited, status.state = shared.currentState.toString ∧
    status.currentMap = shared.currentMap ∧ status.errorCode = shared.errorCode ∧
    status.errorMessage = shared.errorMessage

theorem Snapshot.cons {visited : List Shared} {status : SystemStatus} (h : Snapshot visited status)
    (shared : Shared) : Snapshot (shared :: visited) status := by
  obtain ⟨before, hvisited, hfields⟩ := h
  exact ⟨before, List.mem_cons_of_mem _ hvisited, hfields⟩

def Taken (visited : List Shared) : BuildStatus → Prop
  | .readState => True
  | .ousterRunning status _ | .mappingRunning status | .localizationRunning status
  | .readQuality status => Snapshot visited status

theorem Taken.cons {visited : List Shared} {pc : BuildStatus} (h : Taken visited pc)
    (shared : Shared) : Taken (shared :: visited) pc := by
  cases pc with
  | readState => trivial
  | _ => exact Snapshot.cons h shared

theorem taken_step {visited : List Shared} {toFloat : Double → Double} {env : Env} {s : Sys}
    {pc next : BuildStatus} (h : Taken visited pc)
    (hnext : pc.step toFloat env s.shared = .inl next) : Taken (s.shared :: visited) next := by
  cases pc with
  | readState =>
    cases hnext
    exact ⟨s.shared, List.mem_cons_self, rfl, rfl, rfl, rfl⟩
  | ousterRunning | mappingRunning | localizationRunning =>
    cases hnext
    exact Snapshot.cons h s.shared
  | readQuality => cases hnext

theorem sent_of_step {visited : List Shared} {toFloat : Double → Double} {env : Env} {s : Sys}
    {pc : BuildStatus} {status : SystemStatus} (hbuilding : Building s pc)
    (htaken : Taken visited pc) (h : pc.step toFloat env s.shared = .inr status) :
    Coherent status ∧ Snapshot visited status := by
  cases pc with
  | readQuality =>
    cases h
    exact ⟨⟨hbuilding.alone, hbuilding.state⟩, htaken⟩
  | _ => cases h

/-! ## Every message -/

structure Invariant (config : Config) (s : Reporting) (visited : List Shared) : Prop where
  reachable : ReachableUnstarted config s.sys
  building : ∀ caller pc, s.building = some (caller, pc) → Building s.sys pc ∧ Taken visited pc
  sent : ∀ status ∈ s.messages, Coherent status ∧ Snapshot visited status

theorem messages_send (s : Reporting) (status : SystemStatus) (caller : StatusCaller) :
    ∀ other ∈ (s.send status caller).messages, other = status ∨ other ∈ s.messages := by
  intro other hother
  cases caller with
  | publishStatus => simpa [Reporting.messages, Reporting.send] using hother
  | handleGetStatus =>
    simp only [Reporting.messages, Reporting.send, Manager.handleGetStatus, List.map_cons,
      List.mem_append, List.mem_cons] at hother ⊢
    tauto

theorem Invariant.step {config : Config} {toFloat : Double → Double} {s s' : Reporting}
    {visited : List Shared} {a : ReportAction} (h : Invariant config s visited)
    (hstep : s.step config toFloat a = some s') :
    Invariant config s' (noteState visited s a s') := by
  have hsent (status : SystemStatus) (hmessage : status ∈ s.messages) :
      Coherent status ∧ Snapshot (s.sys.shared :: visited) status := by
    obtain ⟨hcoherent, hsnapshot⟩ := h.sent status hmessage
    exact ⟨hcoherent, hsnapshot.cons _⟩
  cases a with
  | run a =>
    simp only [Reporting.step, Option.ite_none_left_eq_some] at hstep
    obtain ⟨hgroup, hstep⟩ := hstep
    obtain ⟨sys, hsys, rfl⟩ := Option.map_eq_some_iff.mp hstep
    refine ⟨h.reachable.tail trivial hsys, fun caller pc hsome ↦ ?_, hsent⟩
    obtain ⟨hbuilding, htaken⟩ := h.building caller pc hsome
    have hother : a.inDefaultGroup = false := by
      simpa [show s.building = some (caller, pc) from hsome] using hgroup
    exact ⟨building_kept (mayRun_step hother hsys) hbuilding, htaken.cons _⟩
  | request caller =>
    simp only [Reporting.step, Option.ite_none_left_eq_some] at hstep
    obtain ⟨-, hstep⟩ := hstep
    cases hstep
    refine ⟨h.reachable, fun other pc hsome ↦ ?_, hsent⟩
    cases hsome
    exact ⟨trivial, trivial⟩
  | build env =>
    obtain ⟨⟨caller, pc⟩, hsome, hnext⟩ := Option.map_eq_some_iff.mp hstep
    obtain ⟨hbuilding, htaken⟩ := h.building caller pc hsome
    have hexclusive := h.reachable.exclusiveModes
    have hoperation := h.reachable.reachable.modeExclusion.operation.2
    cases hpc : pc.step toFloat env s.sys.shared with
    | inl next =>
      simp only [hpc] at hnext
      subst hnext
      refine ⟨h.reachable, fun other pc' hother ↦ ?_, hsent⟩
      cases hother
      exact ⟨building_step toFloat env hexclusive hoperation hbuilding hpc, taken_step htaken hpc⟩
    | inr status =>
      simp only [hpc] at hnext
      subst hnext
      have hsame : (s.send status caller).sys = s.sys ∧
          (s.send status caller).building = none := by
        cases caller <;> exact ⟨rfl, rfl⟩
      refine ⟨hsame.1 ▸ h.reachable, fun other pc' hother ↦ ?_, fun other hother ↦ ?_⟩
      · rw [hsame.2] at hother
        cases hother
      · rcases messages_send s status caller other hother with rfl | hmessage
        · exact sent_of_step hbuilding (htaken.cons _) hpc
        · exact hsent other hmessage

end Status

/-- No message reports both leaders running, nor one of them beside a state it cannot run in,
although a message is put together from readings at different times; and its state, its map and its
error fields are those of one state that the run has been in. -/
theorem status_coherent (config : Config) (toFloat : Double → Double) (s : Reporting)
    (visited : List Shared) (h : Reports config toFloat (s, visited)) (status : SystemStatus)
    (hsent : status ∈ s.messages) :
    Status.Coherent status ∧ Status.Snapshot visited status := by
  have hinvariant : Status.Invariant config s visited := by
    refine h.invariant (P := fun s : Reporting × List Shared ↦ Status.Invariant config s.1 s.2)
      (fun s hinit ↦ ?_) fun s a s' hs _ hstep ↦ ?_
    · obtain ⟨hstart, hbuilding, hpublished, hanswered, -⟩ := hinit
      exact ⟨.start hstart, by simp [hbuilding],
        by simp [Reporting.messages, hpublished, hanswered]⟩
    · obtain ⟨hnext, hnote⟩ := noting_eq_some hstep
      rw [hnote]
      exact hs.step hnext
  exact hinvariant.sent status hsent

/-- A message that has read MAPPING_STARTING before the leader is forked and asks for it after. -/
def reportStart : List ReportAction :=
  (toWaitMode ++ launchMapping "m" ++ List.replicate 3 (Action.operation absentEnv)).map .run ++
    [.request .publishStatus, .build {}, .run (.operation absentEnv), .build {}, .build {},
      .build {}, .build {}]

theorem status_coherent_starting :
    ∃ s visited, Reports {} id (s, visited) ∧ ∃ status ∈ Reporting.messages s,
      status.mappingRunning = true ∧ Status.Coherent status ∧ Status.Snapshot visited status := by
  have hstart : Reports {} id ({ sys := Sys.initial ∅ }, []) :=
    .start ⟨initial_unstarted _, rfl, rfl, rfl, rfl⟩
  have hreplay : (exec (noting (Reporting.step {} id) noteState) ({ sys := Sys.initial ∅ }, [])
      reportStart).any (fun s ↦ s.1.messages.any fun status ↦ status.mappingRunning) = true := by
    decide +kernel
  obtain ⟨⟨s, visited⟩, hreach, hfound⟩ := hstart.exists_of_exec hreplay
  obtain ⟨status, hsent, hrunning⟩ := List.any_eq_true.mp hfound
  exact ⟨s, visited, hreach, status, hsent, hrunning,
    status_coherent {} id s visited hreach status hsent⟩

end SlamSystemManager.Manager
