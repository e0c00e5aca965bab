import SlamSystemManager.Manager.Effects

/-!
# The constructor

The constructor sets up one part of the manager after the other. A part that cannot be set up is
reported in the error fields, and but for the automatic start of the processes it ends the
construction with an exception. No callback runs before the constructor has returned, so the states
in which it returns are those in which the runs of the manager begin.
-/

open TransitionSystem

namespace SlamSystemManager.Manager

/-- Where the constructor stands. -/
inductive Constructor where
  | systemCheck
  | loadConfig
  | openMaps
  | loadProcesses
  | autoStart
  | loadSensors
  | loadQuality
  | checkPassed
  | sensorStarting
  | returned
  | thrown
  deriving DecidableEq

/-- What a step of the constructor finds. -/
structure Found where
  /-- What the part that is set up throws, or the error of the automatic start. -/
  failure : Option String := none
  /-- The processes that the automatic start leaves. -/
  processes : Leader → Process := fun _ ↦ {}

/-- The error fields and the state of a part that cannot be set up. -/
def Shared.failSetup (s : Shared) (code message : String) : Shared :=
  (s.setSystemError code message).transitionTo .error

/-- The `try` block of a part; its handler throws again. -/
def Constructor.setUp (s : Shared) (failure : Option String) (code : String)
    (next : Constructor) : Shared × Constructor :=
  match failure with
  | some message => (s.failSetup code message, .thrown)
  | none => (s, next)

def Constructor.step (found : Found) (s : Shared) : Constructor → Option (Shared × Constructor)
  | .systemCheck =>
    if s.currentState.canTransition .systemCheck then
      some (s.transitionTo .systemCheck, .loadConfig)
    else some (s, .thrown)
  | .loadConfig => some (setUp s found.failure "CONFIG_LOAD_FAILED" .openMaps)
  | .openMaps => some (setUp s found.failure "MAP_ROOT_INIT_FAILED" .loadProcesses)
  | .loadProcesses => some (setUp s found.failure "PROCESS_CONFIG_LOAD_FAILED" .autoStart)
  | .autoStart =>
    let started := { s with processes := found.processes }
    match found.failure with
    | some message => some (started.failSetup "PROCESS_AUTO_START_FAILED" message, .loadSensors)
    | none => some (started, .loadSensors)
  | .loadSensors => some (setUp s found.failure "SENSOR_CONFIG_LOAD_FAILED" .loadQuality)
  | .loadQuality =>
    some (setUp s found.failure "LOCALIZATION_QUALITY_CONFIG_LOAD_FAILED" .checkPassed)
  | .checkPassed =>
    if s.currentState = .systemCheck then some (s.clearError, .sensorStarting)
    else some (s, .returned)
  | .sensorStarting => some (s.transitionTo .sensorStarting, .returned)
  | .returned | .thrown => none

/-- The members before the constructor has done anything. -/
def Shared.unconstructed (maps : MapStore) : Shared := { currentState := .boot, maps := maps }

abbrev constructorStep (s : Shared × Constructor) (found : Found) : Option (Shared × Constructor) :=
  s.2.step found s.1

/-- The states a construction goes through. -/
def Constructing (s : Shared) (pc : Constructor) : Prop :=
  Reaches constructorStep anyAction (fun s ↦ ∃ maps, s = (.unconstructed maps, .systemCheck))
    (s, pc)

namespace Constructor

/-- The state in which the constructor stands, up to an automatic start that has failed. -/
def Stands (s : Shared) : Constructor → Prop
  | .systemCheck => s.currentState = .boot
  | .loadConfig | .openMaps | .loadProcesses | .autoStart | .sensorStarting =>
    s.currentState = .systemCheck
  | .loadSensors | .loadQuality | .checkPassed =>
    s.currentState = .systemCheck ∨
      (s.currentState = .error ∧ s.errorCode = "PROCESS_AUTO_START_FAILED")
  | .returned =>
    s.currentState = .sensorStarting ∨
      (s.currentState = .error ∧ s.errorCode = "PROCESS_AUTO_START_FAILED")
  | .thrown => True

/-- What the construction leaves at its default. -/
structure Untouched (s : Shared) : Prop where
  map : s.currentMap = ""
  token : s.operationInProgress = false
  timer : s.sensorFailureStartedAt = none
  adapter : s.adapter = {}
  quality : s.quality = {}

theorem Untouched.transitionTo {s : Shared} (h : Untouched s) (next : SystemState) :
    Untouched (s.transitionTo next) := by
  unfold Shared.transitionTo
  split
  · exact ⟨h.map, h.token, h.timer, h.adapter, h.quality⟩
  · exact h

theorem Untouched.failSetup {s : Shared} (h : Untouched s) (code message : String) :
    Untouched (s.failSetup code message) :=
  Untouched.transitionTo (s := s.setSystemError code message)
    ⟨h.map, h.token, h.timer, h.adapter, h.quality⟩ .error

theorem Untouched.step {found : Found} {s s' : Shared} {pc pc' : Constructor} (h : Untouched s)
    (hstep : pc.step found s = some (s', pc')) : Untouched s' := by
  have hset {code : String} {next : Constructor}
      (hset : setUp s found.failure code next = (s', pc')) : Untouched s' := by
    unfold setUp at hset
    split at hset <;> cases hset
    · exact h.failSetup code _
    · exact h
  cases pc with
  | loadConfig | openMaps | loadProcesses | loadSensors | loadQuality =>
    exact hset (Option.some.inj hstep)
  | systemCheck =>
    simp only [Constructor.step] at hstep
    split at hstep <;> cases hstep
    · exact h.transitionTo _
    · exact h
  | autoStart =>
    have hstarted : Untouched { s with processes := found.processes } :=
      ⟨h.map, h.token, h.timer, h.adapter, h.quality⟩
    simp only [Constructor.step] at hstep
    split at hstep <;> cases hstep
    · exact hstarted.failSetup _ _
    · exact hstarted
  | checkPassed =>
    simp only [Constructor.step] at hstep
    split at hstep <;> cases hstep
    · exact ⟨h.map, h.token, h.timer, h.adapter, h.quality⟩
    · exact h
  | sensorStarting =>
    cases hstep
    exact h.transitionTo _
  | returned | thrown => cases hstep

theorem transitionTo_of_can {s : Shared} {state next : SystemState}
    (hstate : s.currentState = state) (hcan : state.canTransition next = true) :
    s.transitionTo next = { s with currentState := next } := by
  rw [Shared.transitionTo, hstate, if_pos hcan]

theorem failSetup_of_can {s : Shared} {state : SystemState} (code message : String)
    (hstate : s.currentState = state) (hcan : state.canTransition .error = true) :
    s.failSetup code message = { s.setSystemError code message with currentState := .error } :=
  transitionTo_of_can (s := s.setSystemError code message) hstate hcan

theorem stands_setUp {s s' : Shared} {failure : Option String} {code : String}
    {next pc' : Constructor} (h : next.Stands s) (hset : setUp s failure code next = (s', pc')) :
    pc'.Stands s' := by
  unfold setUp at hset
  split at hset <;> cases hset
  · trivial
  · exact h

theorem Stands.step {found : Found} {s s' : Shared} {pc pc' : Constructor} (h : pc.Stands s)
    (hstep : pc.step found s = some (s', pc')) : pc'.Stands s' := by
  cases pc with
  | loadConfig | openMaps | loadProcesses | loadSensors | loadQuality =>
    refine stands_setUp ?_ (Option.some.inj hstep)
    exact h
  | systemCheck =>
    have hstate : s.currentState = .boot := h
    simp only [Constructor.step] at hstep
    split at hstep <;> cases hstep
    · rw [transitionTo_of_can hstate (by decide)]
      rfl
    · trivial
  | autoStart =>
    have hstate : s.currentState = .systemCheck := h
    simp only [Constructor.step] at hstep
    split at hstep <;> cases hstep
    · rw [failSetup_of_can _ _ (by exact hstate) (by decide)]
      exact Or.inr ⟨rfl, rfl⟩
    · exact Or.inl h
  | checkPassed =>
    simp only [Constructor.step] at hstep
    split at hstep <;> cases hstep
    · assumption
    · exact Or.inr (h.resolve_left ‹_›)
  | sensorStarting =>
    have hstate : s.currentState = .systemCheck := h
    cases hstep
    rw [transitionTo_of_can hstate (by decide)]
    exact Or.inl rfl
  | returned | thrown => cases hstep

end Constructor

theorem Constructing.untouched {s : Shared} {pc : Constructor} (h : Constructing s pc) :
    Constructor.Untouched s := by
  refine Reaches.invariant (P := fun s : Shared × Constructor ↦ Constructor.Untouched s.1)
    ?_ (fun s found s' hs _ hstep ↦ hs.step hstep) h
  rintro _ ⟨maps, rfl⟩
  exact ⟨rfl, rfl, rfl, rfl, rfl⟩

theorem Constructing.stands {s : Shared} {pc : Constructor} (h : Constructing s pc) :
    pc.Stands s := by
  refine Reaches.invariant (P := fun s : Shared × Constructor ↦ s.2.Stands s.1)
    ?_ (fun s found s' hs _ hstep ↦ hs.step hstep) h
  rintro _ ⟨maps, rfl⟩
  rfl

/-- A construction that returns leaves a state in which the runs begin. -/
theorem Constructing.initial {s : Shared} (h : Constructing s .returned) :
    ({ shared := s } : Sys).Initial := by
  have huntouched := h.untouched
  exact ⟨h.stands, huntouched.map, huntouched.token, huntouched.timer, huntouched.adapter,
    huntouched.quality, rfl, rfl, rfl, rfl⟩

end SlamSystemManager.Manager
