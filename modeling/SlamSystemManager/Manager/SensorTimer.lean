import SlamSystemManager.HealthMonitor
import SlamSystemManager.Manager.SensorFailure
import SlamSystemManager.Manager.Writes

/-!
# The grace time of a sensor failure

`sensor_failure_started_at_` is set by the first tick that finds the sensors not ready and cleared
by a tick that finds them ready and by a recovery. A start request does not look at it but at
`sensor_status_`, which the same sections store; so a session never inherits a failure that began
before it was accepted.
-/

open Numeric TransitionSystem

namespace SlamSystemManager.Manager

/-! ## Who writes the sensor fields -/

structure SameSensors (s s' : Shared) : Prop where
  status : s'.sensorStatus = s.sensorStatus
  timer : s'.sensorFailureStartedAt = s.sensorFailureStartedAt

theorem SameSensors.refl (s : Shared) : SameSensors s s := ⟨rfl, rfl⟩

/-- A footprint without the sensor fields leaves them alone. -/
theorem Writes.sameSensors {may : Write → Prop} {s s' : Shared} (h : Writes may s s')
    (hmay : ∀ status startedAt, ¬ may (.sensors status startedAt)) : SameSensors s s' := by
  have hview : (s'.sensorStatus, s'.sensorFailureStartedAt) =
      (s.sensorStatus, s.sensorFailureStartedAt) := by
    apply h.keeps fun s ↦ (s.sensorStatus, s.sensorFailureStartedAt)
    intro write hwrite s
    cases write with
    | sensors status startedAt => exact absurd hwrite (hmay status startedAt)
    | _ => rfl
  exact ⟨congrArg Prod.fst hview, congrArg Prod.snd hview⟩

/-- A step of a body other than the end of a recovery leaves the sensor fields alone. -/
theorem Operation.run_sameSensors (config : Config) (env : Env) (s : Shared)
    (operation : Operation) (h : operation.readsSensors = false) :
    SameSensors s (operation.run config env s).1 := by
  apply (operation.writes_run config env s).sameSensors
  intro status startedAt hwrites
  exact Bool.false_ne_true (h.symm.trans hwrites)

/-- A step of a handler other than the snapshot of a tick leaves the sensor fields alone. -/
theorem Handler.sameSensors (config : Config) (env : Env) (s : Shared) (handler : Handler)
    (h : handler.readsSensors = false) : SameSensors s (handler.step config env s).1 := by
  apply (handler.writes config env s).sameSensors
  intro status startedAt hwrites
  exact Bool.false_ne_true (h.symm.trans hwrites)

/-- The other threads and the environment leave the sensor fields alone. -/
theorem sameSensors_of_step {config : Config} {s s' : Sys} {a : Action}
    (h : s.step config a = some s') (hhandler : ∀ env, a ≠ .handler env)
    (hoperation : ∀ env, a ≠ .operation env) : SameSensors s.shared s'.shared := by
  apply (writes_of_step h).sameSensors
  intro status startedAt hwrites
  cases a with
  | handler env => exact hhandler env rfl
  | operation env => exact hoperation env rfl
  | _ => exact hwrites

/-! ## The history of the timer -/

/-- The critical sections that matter to the failure timer. -/
inductive TimerEvent where
  /-- A tick has read the clock, the readiness of the sensors and the state; `entersError` says
  whether it goes on to enter ERROR. -/
  | tick (time : Time) (ready : Bool) (state : SystemState) (entersError : Bool)
  /-- A recovery clears the timer. -/
  | reset
  /-- A start of mapping or localization is accepted. -/
  | accepted
  deriving DecidableEq

/-- The clock value a tick has read. -/
def TimerEvent.time? : TimerEvent → Option Time
  | .tick time _ _ _ => some time
  | _ => none

/-- Whether an event ends a failure of the sensors. -/
def TimerEvent.endsFailure : TimerEvent → Bool
  | .tick _ ready _ _ => ready
  | .reset => true
  | .accepted => false

/-- Whether an operation is a session that a start request launches. -/
def Operation.isSession : Operation → Bool
  | .startMapping _ _ _ | .startLocalization _ _ => true
  | _ => false

/-- Whether a step of the operation thread clears the failure timer. -/
def Sys.clearsTimer (s : Sys) (env : Env) : Bool :=
  env.throws.isNone && decide (s.shared.currentState = .recovering) &&
    s.operation.any Operation.readsSensors

/-- The history takes note of the latest event first. -/
def noteTimer (history : List TimerEvent) (s : Sys) (a : Action) (s' : Sys) : List TimerEvent :=
  match a with
  | .handler _ =>
    match s.handler with
    | some (.sensorTick (.snapshot status now)) =>
      .tick now status.sensorReady s.shared.currentState
        (s'.handler.any Handler.reportsFailure) :: history
    | some (.launch operation _) =>
      if operation.isSession then .accepted :: history else history
    | _ => history
  | .operation env => if s.clearsTimer env then .reset :: history else history
  | _ => history

abbrev timerStep (config : Config) :
    Sys × List TimerEvent → Action → Option (Sys × List TimerEvent) :=
  noting (Sys.step config) noteTimer

/-- The events since the latest tick that found the sensors ready and the latest recovery. -/
def sinceReady (history : List TimerEvent) : List TimerEvent :=
  history.takeWhile fun event ↦ !event.endsFailure

/-- The clock value of the first tick of the present failure. -/
def failedSince (history : List TimerEvent) : Option Time :=
  ((sinceReady history).filterMap TimerEvent.time?).getLast?

/-- The tick that is the latest event of a history enters ERROR when the sensors have not been ready
for the grace time; and the sessions accepted since they were ready are older than every tick
since then. -/
structure Debounced (config : Config) (history : List TimerEvent) (time : Time) (ready : Bool)
    (entersError : Bool) : Prop where
  error : entersError = true ↔ ready = false ∧ ∃ first, failedSince history = some first ∧
    config.activeFailureGraceSec.le (.fin (secondsBetween time first)) = true
  accepted : ∀ later older, sinceReady history = later ++ .accepted :: older →
    ∀ event ∈ older, event.time? = none

/-- Every tick that reads an active state is debounced. -/
def AllDebounced (config : Config) (history : List TimerEvent) : Prop :=
  ∀ time ready state entersError earlier,
    .tick time ready state entersError :: earlier <:+ history →
      state.isActiveSlamState = true →
        Debounced config (.tick time ready state entersError :: earlier) time ready entersError

/-! ## What one event changes -/

section Events

variable {history : List TimerEvent} {time : Time} {state : SystemState} {entersError : Bool}

@[simp]
theorem sinceReady_tick_failed :
    sinceReady (.tick time false state entersError :: history) =
      .tick time false state entersError :: sinceReady history := rfl

@[simp]
theorem sinceReady_tick_ready :
    sinceReady (.tick time true state entersError :: history) = [] := rfl

@[simp]
theorem sinceReady_reset : sinceReady (.reset :: history) = [] := rfl

@[simp]
theorem sinceReady_accepted : sinceReady (.accepted :: history) = .accepted :: sinceReady history :=
  rfl

@[simp]
theorem failedSince_tick_failed :
    failedSince (.tick time false state entersError :: history) =
      some ((failedSince history).getD time) := by
  simp [failedSince, TimerEvent.time?, List.getLast?_cons]

@[simp]
theorem failedSince_tick_ready :
    failedSince (.tick time true state entersError :: history) = none := rfl

@[simp]
theorem failedSince_reset : failedSince (.reset :: history) = none := rfl

@[simp]
theorem failedSince_accepted : failedSince (.accepted :: history) = failedSince history := rfl

/-- Without a failure no tick is among the events since the sensors were ready. -/
theorem time?_eq_none_of_failedSince (h : failedSince history = none) :
    ∀ event ∈ sinceReady history, event.time? = none := by
  rw [failedSince, List.getLast?_eq_none_iff] at h
  exact List.filterMap_eq_nil_iff.mp h

end Events

/-- The sessions accepted since the sensors were ready are older than every tick since then. -/
def AcceptedFirst (history : List TimerEvent) : Prop :=
  ∀ later older, sinceReady history = later ++ .accepted :: older →
    ∀ event ∈ older, event.time? = none

theorem AcceptedFirst.nil {history : List TimerEvent} (h : sinceReady history = []) :
    AcceptedFirst history := by
  intro later older hsplit
  rw [h] at hsplit
  simp at hsplit

theorem AcceptedFirst.tick {history : List TimerEvent} (h : AcceptedFirst history) (time : Time)
    (ready : Bool) (state : SystemState) (entersError : Bool) :
    AcceptedFirst (.tick time ready state entersError :: history) := by
  cases ready with
  | true => exact .nil rfl
  | false =>
    intro later older hsplit
    rw [sinceReady_tick_failed] at hsplit
    cases later with
    | nil => cases hsplit
    | cons event later => exact h later older (List.cons.inj hsplit).2

/-- A session is accepted before the first tick of the next failure. -/
theorem AcceptedFirst.accepted {history : List TimerEvent} (h : AcceptedFirst history)
    (hready : failedSince history = none) : AcceptedFirst (.accepted :: history) := by
  intro later older hsplit
  rw [sinceReady_accepted] at hsplit
  cases later with
  | nil =>
    rw [← (List.cons.inj hsplit).2]
    exact time?_eq_none_of_failedSince hready
  | cons event later => exact h later older (List.cons.inj hsplit).2

/-! ## The invariant of the timer -/

/-- Whether a handler is a start request that has found the sensors ready. -/
def Handler.startsSession : Handler → Bool
  | .startMapping _ pc =>
    match pc with
    | .checkLocalization | .checkMapping | .saveService | .acquire => false
    | _ => true
  | .startLocalization _ pc =>
    match pc with
    | .checkMapping | .saveService | .checkLocalization | .acquire => false
    | _ => true
  | .launch operation _ => operation.isSession
  | _ => false

/-- What takes the token of a start has found the sensors ready. -/
theorem sensorReady_of_acquire {config : Config} {label : String} {s s' : Shared}
    {next handler : Handler} (h : acquireForStart config label s next = (s', .next handler)) :
    s.sensorStatus.sensorReady = true := by
  unfold acquireForStart at h
  split_ifs at h with hrefused
  · cases h
  · cases h
  · exact Bool.eq_true_of_not_eq_false fun hready ↦ hrefused (Or.inr hready)

/-- A start request goes on with sensors that the latest report calls ready. -/
theorem startsSession_of_step {config : Config} {env : Env} {s s' : Shared}
    {handler next : Handler} (hstep : handler.step config env s = (s', .next next))
    (hnext : next.startsSession = true) :
    handler.startsSession = true ∨ s.sensorStatus.sensorReady = true := by
  cases Handler.follows_of_step hstep with
  | startMapping name pc pc' =>
    cases pc with
    | acquire => exact Or.inr (sensorReady_of_acquire hstep)
    | checkLocalization | checkMapping | saveService =>
      simp only [Handler.step, StartMappingRequest.step] at hstep
      split_ifs at hstep <;> cases hstep
      cases hnext
    | _ => exact Or.inl rfl
  | startLocalization name pc pc' =>
    cases pc with
    | acquire => exact Or.inr (sensorReady_of_acquire hstep)
    | checkMapping | saveService | checkLocalization =>
      simp only [Handler.step, StartLocalizationRequest.step] at hstep
      split_ifs at hstep <;> cases hstep
      cases hnext
    | _ => exact Or.inl rfl
  | launchStartMapping | launchStartLocalization => exact Or.inl rfl
  | _ => cases hnext

/-- What the snapshot section of a tick stores. -/
theorem sensorSnapshot_fields (config : Config) (status : SensorStatus) (now : Time) (s : Shared) :
    (sensorSnapshot config status now s).1.sensorStatus = status ∧
      (sensorSnapshot config status now s).1.sensorFailureStartedAt =
        if status.sensorReady then none else some (s.sensorFailureStartedAt.getD now) := by
  unfold sensorSnapshot
  split <;> exact ⟨rfl, rfl⟩

/-- A tick that has read an active state goes on to enter ERROR unless the failure is below the
grace time. -/
theorem reportsFailure_snapshot_iff {config : Config} {env : Env} {status : SensorStatus}
    {now : Time} {s s' : Sys} (hhandler : s.handler = some (.sensorTick (.snapshot status now)))
    (hstep : s.step config (.handler env) = some s')
    (hactive : s.shared.currentState.isActiveSlamState = true) :
    s'.handler.any Handler.reportsFailure = true ↔ status.sensorReady = false ∧
      (Double.fin (secondsBetween now (s.shared.sensorFailureStartedAt.getD now))).lt
        config.activeFailureGraceSec = false := by
  simp only [Sys.step, hhandler, Option.bind_some, Handler.step, SensorTick.step,
    sensorSnapshot, hactive, if_true] at hstep
  split_ifs at hstep with hready hstarting hsensor hgrace
  all_goals
    cases hstep
    simp_all [Handler.reportsFailure]

/-- The timer is the first tick of the present failure, and no failure is present when the stored
status is ready or a start request has found it ready. -/
structure TimerInvariant (s : Sys) (history : List TimerEvent) : Prop where
  timer : s.shared.sensorFailureStartedAt = failedSince history
  ready : s.shared.sensorStatus.sensorReady = true → failedSince history = none
  starting : ∀ handler, s.handler = some handler → handler.startsSession = true →
    failedSince history = none
  accepted : AcceptedFirst history

/-- A step that leaves the sensor fields alone and starts no session keeps the invariant. -/
theorem TimerInvariant.same {s s' : Sys} {history : List TimerEvent}
    (h : TimerInvariant s history) (hsame : SameSensors s.shared s'.shared)
    (hstarting : ∀ handler, s'.handler = some handler → handler.startsSession = true →
      failedSince history = none) : TimerInvariant s' history :=
  ⟨hsame.timer.trans h.timer, fun hready ↦ h.ready (hsame.status ▸ hready), hstarting, h.accepted⟩

/-- A tick keeps the invariant. -/
theorem TimerInvariant.tick {config : Config} {env : Env} {status : SensorStatus} {now : Time}
    {s s' : Sys} {history : List TimerEvent} (h : TimerInvariant s history)
    (hhandler : s.handler = some (.sensorTick (.snapshot status now)))
    (hstep : s.step config (.handler env) = some s') (entersError : Bool) :
    TimerInvariant s'
      (.tick now status.sensorReady s.shared.currentState entersError :: history) := by
  obtain ⟨handler, r, hbefore, hr, hmove⟩ := Sys.handlerMove_of_step hstep
  rw [hhandler] at hbefore
  cases hbefore
  have hfields := sensorSnapshot_fields config status now s.shared
  have hshared : (sensorSnapshot config status now s.shared).1 = s'.shared := congrArg Prod.fst hr
  rw [hshared, h.timer] at hfields
  refine ⟨?_, fun hready ↦ ?_, fun handler hafter hstarts ↦ ?_, h.accepted.tick _ _ _ _⟩
  · rw [hfields.2]
    cases status.sensorReady <;> simp
  · rw [hfields.1] at hready
    rw [hready]
    rfl
  · cases hmove with
    | next hnext hsame =>
      cases hnext.symm.trans hafter
      cases Handler.follows_of_step hr <;> cases hstarts
    | ended _ _ hended | launched _ _ hended => cases hended.symm.trans hafter

/-- Every other step of the handler keeps the invariant. -/
theorem TimerInvariant.handler_step {config : Config} {env : Env} {handler : Handler} {s s' : Sys}
    {history : List TimerEvent} (h : TimerInvariant s history) (hhandler : s.handler = some handler)
    (hother : handler.readsSensors = false) (hstep : s.step config (.handler env) = some s') :
    TimerInvariant s' history := by
  obtain ⟨before, r, hbefore, hr, hmove⟩ := Sys.handlerMove_of_step hstep
  rw [hhandler] at hbefore
  cases hbefore
  have hsame := handler.sameSensors config env s.shared hother
  rw [hr] at hsame
  refine h.same hsame fun next hafter hstarts ↦ ?_
  cases hmove with
  | next hnext =>
    cases hnext.symm.trans hafter
    rcases startsSession_of_step hr hstarts with hbefore | hready
    · exact h.starting handler hhandler hbefore
    · exact h.ready hready
  | ended _ _ hended | launched _ _ hended => cases hended.symm.trans hafter

/-- A session is accepted when no failure is present. -/
theorem TimerInvariant.accepted_session {s : Sys} {history : List TimerEvent}
    (h : TimerInvariant s history) (hready : failedSince history = none) :
    TimerInvariant s (.accepted :: history) :=
  ⟨h.timer, fun _ ↦ hready, fun _ _ _ ↦ hready, h.accepted.accepted hready⟩

theorem recovery_of_readsSensors {operation : Operation} (h : operation.readsSensors = true) :
    ∃ status, operation = .recovery (.clear status) := by
  unfold Operation.readsSensors at h
  split at h
  · exact ⟨_, rfl⟩
  · cases h

/-- The end of a recovery clears the timer. -/
theorem timer_of_clearsTimer {config : Config} {env : Env} {s s' : Sys}
    (hstep : s.step config (.operation env) = some s') (hclears : s.clearsTimer env = true) :
    s'.shared.sensorFailureStartedAt = none := by
  simp only [Sys.clearsTimer, Bool.and_eq_true, decide_eq_true_eq, Option.isNone_iff_eq_none]
    at hclears
  obtain ⟨⟨hthrows, hstate⟩, hreads⟩ := hclears
  obtain ⟨running, hrunning, hreads⟩ := (Option.any_eq_true _ _).mp hreads
  obtain ⟨status, rfl⟩ := recovery_of_readsSensors hreads
  have hnext := (Sys.step_operation hrunning hstep).1
  simp only [Operation.step, hthrows, Operation.run, Recovery.step, hstate, Prod.map] at hnext
  exact (congrArg (fun r ↦ r.1.sensorFailureStartedAt) hnext).symm

/-- No other step of the operation thread writes the sensor fields. -/
theorem sameSensors_of_operation {config : Config} {env : Env} {s s' : Sys}
    (hstep : s.step config (.operation env) = some s') (hclears : s.clearsTimer env = false) :
    SameSensors s.shared s'.shared := by
  obtain ⟨running, hrunning, rfl⟩ := Option.map_eq_some_iff.mp hstep
  rcases running.step_cases config env s.shared with ⟨hrun, hthrows⟩ | ⟨-, -, code, what, hthrow⟩
  · show SameSensors s.shared (running.step config env s.shared).1
    rw [hrun]
    by_cases hreads : running.readsSensors = true
    · obtain ⟨status, rfl⟩ := recovery_of_readsSensors hreads
      have hstate : s.shared.currentState ≠ .recovering := by
        intro hstate
        simp [Sys.clearsTimer, hthrows rfl, hstate, hrunning, hreads] at hclears
      simp only [Operation.run, Recovery.step, hstate, if_true, ne_eq, not_false_eq_true]
      exact .refl s.shared
    · exact running.run_sameSensors config env s.shared (Bool.eq_false_of_not_eq_true hreads)
  · show SameSensors s.shared (running.step config env s.shared).1
    rw [hthrow]
    exact .refl s.shared

/-- A step of the operation thread keeps the invariant. -/
theorem TimerInvariant.operation_step {config : Config} {env : Env} {s s' : Sys}
    {history : List TimerEvent} (h : TimerInvariant s history)
    (hstep : s.step config (.operation env) = some s') :
    TimerInvariant s' (noteTimer history s (.operation env) s') := by
  have hhandler : s'.handler = s.handler := by
    obtain ⟨running, hrunning, rfl⟩ := Option.map_eq_some_iff.mp hstep
    rfl
  cases hclears : s.clearsTimer env with
  | true =>
    simp only [noteTimer, hclears, if_true]
    exact ⟨timer_of_clearsTimer hstep hclears, fun _ ↦ rfl, fun _ _ _ ↦ rfl, .nil rfl⟩
  | false =>
    simp only [noteTimer, hclears, Bool.false_eq_true, if_false]
    exact h.same (sameSensors_of_operation hstep hclears)
      fun handler hafter ↦ h.starting handler (hhandler ▸ hafter)

/-- Every step keeps the invariant. -/
theorem TimerInvariant.step {config : Config} {s s' : Sys} {a : Action}
    {history : List TimerEvent} (h : TimerInvariant s history)
    (hstep : s.step config a = some s') : TimerInvariant s' (noteTimer history s a s') := by
  cases a with
  | operation env => exact h.operation_step hstep
  | call request =>
    obtain ⟨-, rfl⟩ := Sys.call_of_step hstep
    refine h.same (.refl _) fun handler hafter hstarts ↦ ?_
    cases hafter
    cases request <;> cases hstarts
  | handler env =>
    obtain ⟨handler, r, hhandler, hr, hmove⟩ := Sys.handlerMove_of_step hstep
    by_cases hreads : handler.readsSensors = true
    · obtain ⟨status, now, rfl⟩ : ∃ status now, handler = .sensorTick (.snapshot status now) := by
        unfold Handler.readsSensors at hreads
        split at hreads
        · exact ⟨_, _, rfl⟩
        · cases hreads
      simp only [noteTimer, hhandler]
      exact h.tick hhandler hstep _
    · have hkept := h.handler_step hhandler (Bool.eq_false_of_not_eq_true hreads) hstep
      simp only [noteTimer, hhandler]
      cases handler with
      | launch operation reply =>
        simp only
        split_ifs with hsession
        · exact hkept.accepted_session (h.starting _ hhandler hsession)
        · exact hkept
      | sensorTick pc =>
        cases pc with
        | snapshot => exact absurd rfl hreads
        | _ => exact hkept
      | _ => exact hkept
  | deliver | callback | observe | exit | writeMap | takeSave | writeSave =>
    have hother := bystander_of_step hstep (by simp) (by simp) (by simp)
    exact h.same (sameSensors_of_step hstep (by simp) (by simp))
      fun handler hafter ↦ h.starting handler (hother.handler ▸ hafter)

/-! ## Runs -/

/-- What a tick adds to a debounced history is debounced. -/
theorem AllDebounced.cons {config : Config} {history : List TimerEvent} {event : TimerEvent}
    (h : AllDebounced config history)
    (hevent : ∀ time ready state entersError, event = .tick time ready state entersError →
      state.isActiveSlamState = true → Debounced config (event :: history) time ready entersError) :
    AllDebounced config (event :: history) := by
  intro time ready state entersError earlier hsuffix hactive
  rcases List.suffix_cons_iff.mp hsuffix with heq | hearlier
  · rw [heq]
    exact hevent time ready state entersError (List.cons.inj heq).1.symm hactive
  · exact h time ready state entersError earlier hearlier hactive

/-- The snapshot of a tick is debounced unless the grace time is a NaN. -/
theorem debounced_of_tick {config : Config} {env : Env} {status : SensorStatus} {now : Time}
    {s s' : Sys} {history : List TimerEvent} (hgrace : config.activeFailureGraceSec ≠ .nan)
    (h : TimerInvariant s history)
    (hhandler : s.handler = some (.sensorTick (.snapshot status now)))
    (hstep : s.step config (.handler env) = some s')
    (hactive : s.shared.currentState.isActiveSlamState = true) (state : SystemState) :
    Debounced config (.tick now status.sensorReady state
        (s'.handler.any Handler.reportsFailure) :: history)
      now status.sensorReady (s'.handler.any Handler.reportsFailure) := by
  refine ⟨?_, h.accepted.tick _ _ _ _⟩
  rw [reportsFailure_snapshot_iff hhandler hstep hactive, h.timer]
  cases status.sensorReady with
  | true => simp
  | false => simp [Double.ge_iff_not_lt hgrace]

theorem TimerInvariant.initial {s : Sys} (h : s.Initial) : TimerInvariant s [] where
  timer := h.timer
  ready _ := rfl
  starting handler hhandler := by
    rw [h.handler] at hhandler
    cases hhandler
  accepted := .nil rfl

/-- The histories of the runs from the start. -/
abbrev TimerReaches (config : Config) : Sys × List TimerEvent → Prop :=
  Reaches (timerStep config) anyAction fun s ↦ s.1.Initial ∧ s.2 = []

theorem timerInvariant_of_reaches {config : Config} {s : Sys × List TimerEvent}
    (h : TimerReaches config s) : TimerInvariant s.1 s.2 := by
  refine Reaches.invariant (P := fun s : Sys × List TimerEvent ↦ TimerInvariant s.1 s.2)
    (fun s hinit ↦ ?_) (fun s a s' hs _ hstep ↦ ?_) h
  · rw [hinit.2]
    exact .initial hinit.1
  · obtain ⟨hnext, hnote⟩ := noting_eq_some hstep
    rw [hnote]
    exact hs.step hnext

/-- Unless the grace time is a NaN, one step keeps a history debounced. -/
theorem AllDebounced.step {config : Config} {s s' : Sys} {a : Action} {history : List TimerEvent}
    (h : AllDebounced config history) (hgrace : config.activeFailureGraceSec ≠ .nan)
    (hinv : TimerInvariant s history) (hstep : s.step config a = some s') :
    AllDebounced config (noteTimer history s a s') := by
  cases a with
  | handler env =>
    simp only [noteTimer]
    split
    · rename_i status now hhandler
      refine h.cons fun time ready state entersError hevent hactive ↦ ?_
      cases hevent
      exact debounced_of_tick hgrace hinv hhandler hstep hactive _
    · split_ifs
      · exact h.cons (by simp)
      · exact h
    · exact h
  | operation env =>
    simp only [noteTimer]
    split_ifs
    · exact h.cons (by simp)
    · exact h
  | _ => exact h

/-- Unless the grace time is a NaN, the ticks of every run are debounced. -/
theorem allDebounced_of_reaches {config : Config} {s : Sys × List TimerEvent}
    (hgrace : config.activeFailureGraceSec ≠ .nan) (h : TimerReaches config s) :
    AllDebounced config s.2 := by
  refine Reaches.invariant_of (P := fun s : Sys × List TimerEvent ↦ AllDebounced config s.2)
    (fun s hs ↦ timerInvariant_of_reaches hs) (fun s hinit ↦ ?_) (fun s a s' hinv hs _ hstep ↦ ?_) h
  · rw [hinit.2]
    intro time ready state entersError earlier hsuffix
    cases List.suffix_nil.mp hsuffix
  · obtain ⟨hnext, hnote⟩ := noting_eq_some hstep
    rw [hnote]
    exact hs.step hgrace hinv hnext

/-! ## A grace time that is not a number -/

/-- Mapping starts, and the first tick after that finds no data. -/
def loseSensorsStarting : List Action :=
  toWaitMode ++ launchMapping "m" ++ [.call .sensorTimer, .handler {}, .handler {}]

/-- With a NaN as the grace time the first tick without data enters ERROR. -/
theorem not_debounced_of_nan (config : Config) (hgrace : config.activeFailureGraceSec = .nan) :
    ∃ s history, TimerReaches config (s, history) ∧ ¬ AllDebounced config history := by
  have hconfig : config = { config with activeFailureGraceSec := .nan } := by
    rw [← hgrace]
  obtain ⟨⟨s, history⟩, hrun, hhistory⟩ : ∃ s, exec (timerStep config) (Sys.initial ∅, [])
      loseSensorsStarting = some s ∧ s.2 = [.tick 0 false .mappingStarting true, .accepted,
        .tick 0 true .sensorStarting false] := by
    rw [hconfig]
    exact ⟨_, rfl, rfl⟩
  have hstart : TimerReaches config (Sys.initial ∅, []) := .start ⟨initial_initial ∅, rfl⟩
  refine ⟨s, history, hstart.steps (steps_of_exec hrun), fun hall ↦ ?_⟩
  simp only at hhistory
  subst hhistory
  obtain ⟨-, first, -, hpassed⟩ := (hall 0 false .mappingStarting true _ (List.suffix_refl _)
    rfl).error.mp rfl
  rw [hgrace, Double.le_nan_left] at hpassed
  cases hpassed

/-- A file that gives a NaN as the grace time. -/
def nanGraceDocument : SensorDocument := fun key ↦
  some (.ok (if key = "active_failure_grace_sec" then .nan else .fin 1))

end SlamSystemManager.Manager
