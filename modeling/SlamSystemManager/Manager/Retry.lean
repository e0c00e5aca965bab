import SlamSystemManager.Manager.Output

/-!
# Retries of the last pose

The operation that starts localization publishes the last pose, waits for `correction_available_`
until a deadline and publishes it again. It looks at this flag only, and only when it polls: a
correction after the last poll, a correction that a new session has forgotten, or a state that has
left RELOCALIZING does not stop the next attempt.
-/

open TransitionSystem

namespace SlamSystemManager.Manager

/-! ## The history of the attempts -/

/-- The clock value that a step reads. -/
def Action.now? : Action → Option Time
  | .handler env | .operation env | .callback _ env => some env.now
  | _ => none

/-- Whether the operation waits for the answer to a published pose. -/
def Operation.inWindow : Operation → Bool
  | .startLocalization _ (.window _ _) => true
  | _ => false

theorem eq_window_of_inWindow {running : Operation} (h : running.inWindow = true) :
    ∃ map pose attempt, running = .startLocalization map (.window pose attempt) := by
  unfold Operation.inWindow at h
  split at h
  · exact ⟨_, _, _, rfl⟩
  · cases h

/-- Whether a step of the operation thread has published the last pose. -/
def Operation.publishes : Operation → Option Operation → Bool
  | .startLocalization _ (.publish _ _), some (.startLocalization _ (.window _ _)) => true
  | _, _ => false

/-- Whether the step an action takes accepts a correction. -/
def Sys.accepts (config : Config) (s : Sys) : Action → Bool
  | .callback id _ =>
    match s.callbacks id with
    | some (.correction message) => s.shared.acceptsCorrection config message
    | _ => false
  | _ => false

/-- Whether the state leaves RELOCALIZING between two states of the system. -/
def leavesRelocalizing (s s' : Sys) : Bool :=
  decide (s.shared.currentState = .relocalizing ∧ s'.shared.currentState ≠ .relocalizing)

structure RetryHistory where
  /-- The clock value read last. -/
  clock : Time := 0
  /-- How many poses the latest start of localization has published. -/
  published : ℕ := 0
  /-- The deadline of the window that the last of them has opened. -/
  deadline : Time := 0
  /-- Whether a correction was accepted, or the state has left RELOCALIZING, before the deadline. -/
  answered : Bool := false
  /-- Whether a pose was published although the one before it had been answered. -/
  repeated : Bool := false
  deriving DecidableEq

/-- What the window of an attempt has seen. -/
def RetryHistory.watch (config : Config) (h : RetryHistory) (s : Sys) (a : Action) (s' : Sys) :
    RetryHistory :=
  if s.operation.any Operation.inWindow && (s.accepts config a || leavesRelocalizing s s') &&
      a.now?.any (fun now ↦ decide (now < h.deadline)) then { h with answered := true }
  else h

/-- A publication opens a window of the given length. -/
def RetryHistory.publish (interval : Time) (h : RetryHistory) (now : Time) : RetryHistory :=
  { h with
    published := h.published + 1
    deadline := now + interval
    answered := false
    repeated := h.repeated || h.answered }

def RetryHistory.record (config : Config) (interval : Time) (h : RetryHistory) (s : Sys)
    (a : Action) (s' : Sys) : RetryHistory :=
  match a with
  | .handler _ =>
    match s.handler with
    | some (.launch _ _) => { h with published := 0, answered := false }
    | _ => h.watch config s a s'
  | .operation env =>
    if s.operation.any fun running ↦ running.publishes s'.operation then
      h.publish interval env.now
    else h.watch config s a s'
  | _ => h.watch config s a s'

def RetryHistory.note (config : Config) (interval : Time) (h : RetryHistory) (s : Sys)
    (a : Action) (s' : Sys) : RetryHistory :=
  { h.record config interval s a s' with clock := a.now?.getD h.clock }

abbrev retryStep (config : Config) (interval : Time) :
    Sys × RetryHistory → Action → Option (Sys × RetryHistory) :=
  noting (Sys.step config) (RetryHistory.note config interval)

/-- A run against a clock that does not go back, in which a poll finds its deadline passed exactly
when it is. -/
structure OnTime (s : Sys × RetryHistory) (a : Action) : Prop where
  monotone : ∀ now, a.now? = some now → s.2.clock ≤ now
  polls : ∀ env, a = .operation env → s.1.operation.any Operation.inWindow = true →
    env.timedOut = decide (s.2.deadline ≤ env.now)

/-! ## Counting the attempts -/

/-- Where the operation stands after a number of publications. -/
def Counted (config : Config) (published : ℕ) : Option Operation → Prop
  | some (.startLocalization _ (.window _ attempt)) => published = attempt
  | some (.startLocalization _ (.publish _ attempt)) =>
    published + 1 = attempt ∧ attempt ≤ config.lastPoseRetryCount
  | some (.startLocalization _ _) => published = 0
  | _ => True

theorem counted_of_follows {config : Config} {published : ℕ} {running next : Operation}
    (h : running.Follows next) (hother : ∀ map pc, running ≠ .startLocalization map pc) :
    Counted config published (some next) := by
  cases h with
  | startLocalization map pc pc' => exact absurd rfl (hother map pc)
  | _ => trivial

/-- A step of the body counts what it publishes. -/
theorem StartLocalization.counted {config : Config} {env : Env} {s : Shared} {map : String}
    {pc : StartLocalization} {published : ℕ}
    (h : Counted config published (some (.startLocalization map pc))) :
    Counted config
      (if (Operation.startLocalization map pc).publishes (some (pc.step config env map s).2) then
        published + 1 else published)
      (some (pc.step config env map s).2) := by
  cases pc with
  | publish pose attempt =>
    rcases hresult : publishInitialPose config env s pose with what | shared
    · simp only [StartLocalization.step, hresult]
      trivial
    · simp only [StartLocalization.step, hresult]
      exact h.1
  | window pose attempt =>
    simp only [StartLocalization.step, Operation.publishes, Bool.false_eq_true, if_false]
    split_ifs with htimeout hleft
    · exact ⟨congrArg Nat.succ h, hleft⟩
    · trivial
    · trivial
    · exact h
  | waitConsumer pose =>
    simp only [StartLocalization.step, Operation.publishes, Bool.false_eq_true, if_false]
    split_ifs with hready
    · simp only [Bool.and_eq_true, decide_eq_true_eq] at hready
      exact ⟨congrArg Nat.succ h, hready.2⟩
    · trivial
  | _ =>
    simp only [StartLocalization.step, errorOrFinish, Operation.publishes, Bool.false_eq_true,
      if_false]
    repeat' split
    all_goals first | exact h | trivial

theorem Operation.counted {config : Config} (env : Env) (s : Shared) {running : Operation}
    {published : ℕ} (h : Counted config published (some running)) :
    Counted config
      (if running.publishes (running.step config env s).2 then published + 1 else published)
      (running.step config env s).2 := by
  rcases running.effect config env s with ⟨rfl, hend⟩ | ⟨-, s', next, hnext, hcontinues⟩
  · rw [hend]
    trivial
  · cases running with
    | startLocalization map pc =>
      rcases (Operation.startLocalization map pc).step_cases config env s with
        ⟨hrun, -⟩ | ⟨-, -, code, what, hthrow⟩
      · rw [hrun]
        exact StartLocalization.counted h
      · rw [hthrow]
        trivial
    | _ =>
      rw [hnext]
      exact counted_of_follows hcontinues.follows (by simp)

/-- A publication is one of the attempts that are allowed. -/
theorem lt_of_publishes {config : Config} {running : Operation} {next : Option Operation}
    {published : ℕ} (h : Counted config published (some running))
    (hpublishes : running.publishes next = true) : published < config.lastPoseRetryCount := by
  unfold Operation.publishes at hpublishes
  split at hpublishes
  · have hattempt := h.1
    have hleft := h.2
    omega
  · cases hpublishes

/-- The history counts the publications of the operation that runs, and what is about to be launched
has published nothing. -/
structure RetryHistory.Counts (config : Config) (s : Sys) (h : RetryHistory) : Prop where
  place : Counted config h.published s.operation
  bound : h.published ≤ config.lastPoseRetryCount
  launch : ∀ launched reply, s.handler = some (.launch launched reply) →
    Counted config 0 (some launched)

@[simp]
theorem RetryHistory.published_watch (config : Config) (h : RetryHistory) (s : Sys) (a : Action)
    (s' : Sys) : (h.watch config s a s').published = h.published := by
  unfold RetryHistory.watch
  split <;> rfl

theorem counted_launch {config : Config} {env : Env} {s s' : Shared} {handler : Handler}
    {launched : Operation} {reply : Option Reply}
    (hstep : handler.step config env s = (s', .next (.launch launched reply))) :
    Counted config 0 (some launched) := by
  cases Handler.follows_of_step hstep <;> trivial

theorem RetryHistory.Counts.operation_step {config : Config} {interval : Time} {env : Env}
    {s s' : Sys} {h : RetryHistory} (hcounts : h.Counts config s)
    (hstep : s.step config (.operation env) = some s') :
    (h.note config interval s (.operation env) s').Counts config s' := by
  obtain ⟨running, hrunning, rfl⟩ := Option.map_eq_some_iff.mp hstep
  have hplace := hcounts.place
  rw [hrunning] at hplace
  have hafter := Operation.counted env s.shared hplace
  simp only [RetryHistory.note, RetryHistory.record, hrunning, Option.any_some]
  split_ifs with hpublishes
  · rw [if_pos hpublishes] at hafter
    exact ⟨hafter, lt_of_publishes hplace hpublishes, hcounts.launch⟩
  · rw [if_neg hpublishes] at hafter
    refine ⟨?_, ?_, hcounts.launch⟩
    · simpa using hafter
    · simpa using hcounts.bound

/-- A handler that is not at its launch is watched only. -/
theorem RetryHistory.record_handler {config : Config} {interval : Time} {env : Env} {s : Sys}
    {h : RetryHistory} {handler : Handler} (hhandler : s.handler = some handler)
    (hnot : ∀ launched reply, handler ≠ .launch launched reply) (s' : Sys) :
    h.record config interval s (.handler env) s' = h.watch config s (.handler env) s' := by
  simp only [RetryHistory.record, hhandler]
  split
  · rename_i launched reply hlaunch
    exact absurd (Option.some.inj hlaunch) (hnot launched reply)
  · rfl

theorem not_launch_of_step {config : Config} {env : Env} {s s' : Shared} {handler : Handler}
    {r : HandlerNext} (hstep : handler.step config env s = (s', r))
    (hr : ∀ launched reply, r ≠ .launched launched reply) (launched : Operation)
    (reply : Option Reply) : handler ≠ .launch launched reply := by
  rintro rfl
  exact hr launched reply (congrArg Prod.snd hstep).symm

/-- A step that leaves the operation thread where it is keeps the count. -/
theorem RetryHistory.Counts.watch {config : Config} {s s' : Sys} {h : RetryHistory}
    (hcounts : h.Counts config s) (hoperation : s'.operation = s.operation)
    (hlaunch : ∀ launched reply, s'.handler = some (.launch launched reply) →
      Counted config 0 (some launched)) (a : Action) (clock : Time) :
    ({ h.watch config s a s' with clock := clock } : RetryHistory).Counts config s' where
  place := by
    rw [hoperation]
    simpa using hcounts.place
  bound := by simpa using hcounts.bound
  launch := hlaunch

theorem RetryHistory.Counts.handler_step {config : Config} {interval : Time} {env : Env}
    {s s' : Sys} {h : RetryHistory} (hcounts : h.Counts config s)
    (hstep : s.step config (.handler env) = some s') :
    (h.note config interval s (.handler env) s').Counts config s' := by
  obtain ⟨handler, r, hhandler, hr, hmove⟩ := Sys.handlerMove_of_step hstep
  have hlaunch : ∀ launched reply, s'.handler = some (.launch launched reply) →
      Counted config 0 (some launched) := by
    intro launched reply hafter
    cases hmove with
    | next hnext =>
      cases hnext.symm.trans hafter
      exact counted_launch hr
    | ended _ _ hended | launched _ _ hended => cases hended.symm.trans hafter
  cases hmove with
  | launched hlaunched _ _ hoperation =>
    subst hlaunched
    simp only [RetryHistory.note, RetryHistory.record, hhandler]
    refine ⟨?_, Nat.zero_le _, hlaunch⟩
    rw [hoperation]
    exact hcounts.launch _ _ hhandler
  | next _ hoperation =>
    rw [RetryHistory.note, RetryHistory.record_handler hhandler (not_launch_of_step hr (by simp))]
    exact hcounts.watch hoperation hlaunch _ _
  | ended _ hlaunched _ hoperation =>
    rw [RetryHistory.note, RetryHistory.record_handler hhandler (not_launch_of_step hr hlaunched)]
    exact hcounts.watch hoperation hlaunch _ _

theorem RetryHistory.Counts.step {config : Config} {interval : Time} {a : Action} {s s' : Sys}
    {h : RetryHistory} (hcounts : h.Counts config s) (hstep : s.step config a = some s') :
    (h.note config interval s a s').Counts config s' := by
  cases a with
  | operation env => exact hcounts.operation_step hstep
  | handler env => exact hcounts.handler_step hstep
  | call request =>
    obtain ⟨-, rfl⟩ := Sys.call_of_step hstep
    have hlaunch : ∀ launched reply, some request.handler = some (.launch launched reply) →
        Counted config 0 (some launched) := by
      intro launched reply hafter
      cases request <;> cases hafter
    have hoperation : ({ s with handler := some request.handler } : Sys).operation = s.operation :=
      rfl
    exact hcounts.watch hoperation hlaunch _ _
  | deliver | callback | observe | exit | writeMap | takeSave | writeSave =>
    have hother := bystander_of_step hstep (by simp) (by simp) (by simp)
    exact hcounts.watch hother.operation (by rw [hother.handler]; exact hcounts.launch) _ _

/-! ## Attempts that stop -/

/-- Whether the operation waits for the answer to a pose that is not the last one. -/
def Operation.mayRetry (config : Config) : Operation → Bool
  | .startLocalization _ (.window _ attempt) => decide (attempt < config.lastPoseRetryCount)
  | _ => false

/-- Whether a step of the operation thread finds a window over and goes on with another attempt. -/
def Sys.retries (config : Config) (s : Sys) (env : Env) : Bool :=
  env.throws.isNone && env.timedOut && s.operation.any (Operation.mayRetry config)

/-- What the loop relies on: when it goes on with another attempt no correction is available, and
during a window with attempts left no session is reset that has a correction, and the state leaves
RELOCALIZING only in such a session. -/
structure Signalled (config : Config) (s : Sys) (a : Action) : Prop where
  retry : ∀ env, a = .operation env → s.retries config env = true →
    s.shared.adapter.correctionAvailable = false
  reset : s.operation.any (Operation.mayRetry config) = true → s.resetsSession a = true →
    s.shared.adapter.correctionAvailable = false
  leave : s.operation.any (Operation.mayRetry config) = true →
    ∀ s', s.step config a = some s' → leavesRelocalizing s s' = true →
      s.shared.adapter.correctionAvailable = true

/-- An answer within a window with attempts left is still visible to the next poll. -/
def Answered (config : Config) (answered available : Bool) : Option Operation → Prop
  | some (.startLocalization _ (.window _ attempt)) =>
    attempt < config.lastPoseRetryCount → answered = true → available = true
  | some (.startLocalization _ _) => answered = false
  | _ => True

theorem answered_of_false (config : Config) (available : Bool) (operation : Option Operation) :
    Answered config false available operation := by
  unfold Answered
  split
  · exact fun _ h ↦ nomatch h
  · rfl
  · trivial

/-- Only a poll looks at the flag. -/
theorem Answered.of_not_inWindow {config : Config} {answered available : Bool}
    {operation : Option Operation} (h : Answered config answered available operation)
    (hwindow : operation.any Operation.inWindow = false) (available' : Bool) :
    Answered config answered available' operation := by
  cases operation with
  | none => trivial
  | some running =>
    cases running with
    | startLocalization map pc =>
      cases pc with
      | window pose attempt => cases hwindow
      | _ => exact h
    | _ => trivial

theorem answered_of_follows {config : Config} {answered available : Bool} {running next : Operation}
    (h : running.Follows next) (hother : ∀ map pc, running ≠ .startLocalization map pc) :
    Answered config answered available (some next) := by
  cases h with
  | startLocalization map pc pc' => exact absurd rfl (hother map pc)
  | _ => trivial

theorem available_of_accepts {config : Config} {s s' : Sys} {a : Action}
    (hstep : s.step config a = some s') (h : s.accepts config a = true) :
    s'.shared.adapter.correctionAvailable = true := by
  unfold Sys.accepts at h
  split at h
  · rename_i id env
    split at h
    · rename_i message hcallback
      simp only [Shared.acceptsCorrection, Bool.and_eq_true, decide_eq_true_eq] at h
      obtain ⟨hvalid, hstamp⟩ := h
      simp only [Sys.step, hcallback, Option.map_some, Option.some.injEq] at hstep
      subst hstep
      simp only [Callback.step]
      split
      · rename_i what hinvalid
        rw [hinvalid] at hvalid
        cases hvalid
      · simp [RelocalizationAdapter.acceptCorrection, not_le.mpr hstamp]
    · cases h
  · cases h

/-- What a window has seen is visible after the step that it has seen. -/
theorem available_of_watch {config : Config} {s s' : Sys} {a : Action} {h : RetryHistory}
    (hok : Signalled config s a) (hstep : s.step config a = some s')
    (hleft : s.operation.any (Operation.mayRetry config) = true)
    (hanswered : h.answered = true → s.shared.adapter.correctionAvailable = true)
    (hafter : (h.watch config s a s').answered = true) :
    s'.shared.adapter.correctionAvailable = true := by
  have hkept (havailable : s.shared.adapter.correctionAvailable = true) :
      s'.shared.adapter.correctionAvailable = true := by
    refine correctionAvailable_kept hstep ?_ havailable
    by_contra hresets
    rw [hok.reset hleft (by simpa using hresets)] at havailable
    cases havailable
  unfold RetryHistory.watch at hafter
  split_ifs at hafter with hevent
  · simp only [Bool.and_eq_true, Bool.or_eq_true] at hevent
    rcases hevent.1.2 with haccepts | hleaves
    · exact available_of_accepts hstep haccepts
    · exact hkept (hok.leave hleft s' hstep hleaves)
  · exact hkept (hanswered hafter)

/-- Outside a window nothing is watched. -/
theorem watch_of_not_inWindow {config : Config} {s s' : Sys} {a : Action} {h : RetryHistory}
    (hwindow : s.operation.any Operation.inWindow = false) : h.watch config s a s' = h := by
  simp [RetryHistory.watch, hwindow]

/-- The operation thread answers nothing by a step that leaves the shared state alone. -/
theorem watch_of_same {config : Config} {env : Env} {s s' : Sys} {h : RetryHistory}
    (hshared : s'.shared = s.shared) : h.watch config s (.operation env) s' = h := by
  simp [RetryHistory.watch, Sys.accepts, leavesRelocalizing, hshared]

@[simp]
theorem RetryHistory.repeated_watch (config : Config) (h : RetryHistory) (s : Sys) (a : Action)
    (s' : Sys) : (h.watch config s a s').repeated = h.repeated := by
  unfold RetryHistory.watch
  split <;> rfl

/-- No attempt has followed one that was answered, and an answer is visible to the next poll. -/
structure RetryHistory.Stops (config : Config) (s : Sys) (h : RetryHistory) : Prop where
  answered : Answered config h.answered s.shared.adapter.correctionAvailable s.operation
  never : h.repeated = false

/-- A step that leaves the operation thread where it is keeps an answer visible. -/
theorem RetryHistory.Stops.watch {config : Config} {s s' : Sys} {a : Action} {h : RetryHistory}
    (hstops : h.Stops config s) (hok : Signalled config s a) (hstep : s.step config a = some s')
    (hoperation : s'.operation = s.operation) (clock : Time) :
    ({ h.watch config s a s' with clock := clock } : RetryHistory).Stops config s' := by
  refine ⟨?_, by simpa using hstops.never⟩
  have hanswered := hstops.answered
  rw [hoperation]
  cases hwindow : s.operation.any Operation.inWindow with
  | true =>
    obtain ⟨running, hrunning, hin⟩ := (Option.any_eq_true _ _).mp hwindow
    obtain ⟨map, pose, attempt, rfl⟩ := eq_window_of_inWindow hin
    rw [hrunning] at hanswered ⊢
    intro hleft
    have hmay : s.operation.any (Operation.mayRetry config) = true := by
      simp [hrunning, Operation.mayRetry, hleft]
    exact available_of_watch hok hstep hmay (hanswered hleft)
  | false =>
    rw [watch_of_not_inWindow hwindow]
    exact hanswered.of_not_inWindow hwindow _

/-- A poll that finds the window over goes on only if nothing has answered. -/
theorem Answered.poll {config : Config} {env : Env} {s : Sys} {answered : Bool} {map : String}
    {pose : StampedPose} {attempt : ℕ}
    (h : attempt < config.lastPoseRetryCount → answered = true →
      s.shared.adapter.correctionAvailable = true)
    (hok : Signalled config s (.operation env))
    (hrunning : s.operation = some (.startLocalization map (.window pose attempt))) :
    Answered config answered s.shared.adapter.correctionAvailable
      ((Operation.startLocalization map (.window pose attempt)).step config env s.shared).2 := by
  rcases (Operation.startLocalization map (.window pose attempt)).step_cases config env
      s.shared with
    ⟨hrun, hthrows⟩ | ⟨-, -, code, what, hthrow⟩
  · rw [hrun]
    simp only [Operation.run, StartLocalization.step, Prod.map]
    split_ifs with htimeout hleft
    · have hretries : s.retries config env = true := by
        simp [Sys.retries, hthrows rfl, htimeout, hrunning, Operation.mayRetry, hleft]
      refine Bool.eq_false_of_not_eq_true fun hanswered ↦ ?_
      rw [hok.retry env rfl hretries] at h
      cases h hleft hanswered
    · trivial
    · trivial
    · exact h
  · rw [hthrow]
    trivial

/-- A poll leaves the shared state alone. -/
theorem shared_poll (config : Config) (env : Env) (s : Shared) (map : String) (pose : StampedPose)
    (attempt : ℕ) :
    ((Operation.startLocalization map (.window pose attempt)).step config env s).1 = s := by
  rcases (Operation.startLocalization map (.window pose attempt)).step_cases config env s with
    ⟨hrun, -⟩ | ⟨-, -, code, what, hthrow⟩
  · rw [hrun]
    rfl
  · rw [hthrow]

/-- Outside a window an operation that has not been answered goes on so. -/
theorem Answered.operation_step {config : Config} {env : Env} {s : Shared} {running : Operation}
    {answered available : Bool} (h : Answered config answered available (some running))
    (hwindow : running.inWindow = false) (available' : Bool) :
    Answered config answered available' (running.step config env s).2 := by
  rcases running.effect config env s with ⟨rfl, hend⟩ | ⟨-, s', next, hnext, hcontinues⟩
  · rw [hend]
    trivial
  · cases running with
    | startLocalization map pc =>
      have hnot : answered = false := by
        cases pc with
        | window pose attempt => cases hwindow
        | _ => exact h
      rw [hnot]
      exact answered_of_false _ _ _
    | _ =>
      rw [hnext]
      exact answered_of_follows hcontinues.follows (by simp)

theorem not_answered_of_publishes {config : Config} {answered available : Bool}
    {running : Operation} {next : Option Operation}
    (h : Answered config answered available (some running))
    (hpublishes : running.publishes next = true) : answered = false := by
  unfold Operation.publishes at hpublishes
  split at hpublishes
  · exact h
  · cases hpublishes

theorem RetryHistory.Stops.operation_step {config : Config} {interval : Time} {env : Env}
    {s s' : Sys} {h : RetryHistory} (hstops : h.Stops config s)
    (hok : Signalled config s (.operation env))
    (hstep : s.step config (.operation env) = some s') :
    (h.note config interval s (.operation env) s').Stops config s' := by
  obtain ⟨running, hrunning, rfl⟩ := Option.map_eq_some_iff.mp hstep
  have hanswered := hstops.answered
  rw [hrunning] at hanswered
  simp only [RetryHistory.note, RetryHistory.record, hrunning, Option.any_some]
  split_ifs with hpublishes
  · refine ⟨answered_of_false _ _ _, ?_⟩
    simp [RetryHistory.publish, hstops.never, not_answered_of_publishes hanswered hpublishes]
  · refine ⟨?_, by simpa using hstops.never⟩
    cases hwindow : running.inWindow with
    | true =>
      obtain ⟨map, pose, attempt, rfl⟩ := eq_window_of_inWindow hwindow
      have hpoll := Answered.poll hanswered hok hrunning
      rw [watch_of_same (shared_poll config env s.shared map pose attempt), shared_poll]
      exact hpoll
    | false =>
      rw [watch_of_not_inWindow (by rw [hrunning]; exact hwindow)]
      exact hanswered.operation_step hwindow _

theorem RetryHistory.Stops.handler_step {config : Config} {interval : Time} {env : Env}
    {s s' : Sys} {h : RetryHistory} (hstops : h.Stops config s)
    (hok : Signalled config s (.handler env))
    (hstep : s.step config (.handler env) = some s') :
    (h.note config interval s (.handler env) s').Stops config s' := by
  obtain ⟨handler, r, hhandler, hr, hmove⟩ := Sys.handlerMove_of_step hstep
  cases hmove with
  | launched hlaunched =>
    subst hlaunched
    simp only [RetryHistory.note, RetryHistory.record, hhandler]
    exact ⟨answered_of_false _ _ _, hstops.never⟩
  | next _ hoperation =>
    rw [RetryHistory.note, RetryHistory.record_handler hhandler (not_launch_of_step hr (by simp))]
    exact hstops.watch hok hstep hoperation _
  | ended _ hlaunched _ hoperation =>
    rw [RetryHistory.note, RetryHistory.record_handler hhandler (not_launch_of_step hr hlaunched)]
    exact hstops.watch hok hstep hoperation _

theorem RetryHistory.Stops.step {config : Config} {interval : Time} {a : Action} {s s' : Sys}
    {h : RetryHistory} (hstops : h.Stops config s) (hok : Signalled config s a)
    (hstep : s.step config a = some s') : (h.note config interval s a s').Stops config s' := by
  cases a with
  | operation env => exact hstops.operation_step hok hstep
  | handler env => exact hstops.handler_step hok hstep
  | call request => exact hstops.watch hok hstep (by rw [(Sys.call_of_step hstep).2]) _
  | deliver | callback | observe | exit | writeMap | takeSave | writeSave =>
    have hother := bystander_of_step hstep (by simp) (by simp) (by simp)
    exact hstops.watch hok hstep hother.operation _

/-! ## Runs -/

/-- The runs of the manager beside the history of its attempts. -/
abbrev RetryReaches (config : Config) (interval : Time)
    (ok : Sys × RetryHistory → Action → Prop) : Sys × RetryHistory → Prop :=
  Reaches (retryStep config interval) ok fun s ↦ s.1.Initial ∧ s.2 = {}

theorem counts_of_reaches {config : Config} {interval : Time}
    {ok : Sys × RetryHistory → Action → Prop} {s : Sys × RetryHistory}
    (hreach : RetryReaches config interval ok s) : s.2.Counts config s.1 := by
  refine Reaches.invariant (P := fun s : Sys × RetryHistory ↦ s.2.Counts config s.1)
    (fun s hinit ↦ ?_) (fun s a s' hs _ hstep ↦ ?_) hreach
  · rw [hinit.2]
    exact ⟨by simp [hinit.1.operation, Counted], Nat.zero_le _, by simp [hinit.1.handler]⟩
  · obtain ⟨hnext, hnote⟩ := noting_eq_some hstep
    rw [hnote]
    exact hs.step hnext

theorem stops_of_reaches {config : Config} {interval : Time} {s : Sys × RetryHistory}
    (hreach : RetryReaches config interval (fun s ↦ Signalled config s.1) s) :
    s.2.Stops config s.1 := by
  refine Reaches.invariant (P := fun s : Sys × RetryHistory ↦ s.2.Stops config s.1)
    (fun s hinit ↦ ?_) (fun s a s' hs hok hstep ↦ ?_) hreach
  · rw [hinit.2]
    exact ⟨answered_of_false _ _ _, rfl⟩
  · obtain ⟨hnext, hnote⟩ := noting_eq_some hstep
    rw [hnote]
    exact hs.step hok hnext

/-- The operation publishes the last pose as often as it may at most. It publishes none after an
attempt in whose window a correction was accepted or the state has left RELOCALIZING, in a run in
which it goes on with another attempt only while no correction is available, and in which during a
window with attempts left no session with a correction is reset and the state leaves RELOCALIZING
only in a session with a correction. -/
theorem retry_stops (config : Config) (interval : Time) (s : Sys) (h : RetryHistory)
    (hreach : RetryReaches config interval anyAction (s, h)) :
    h.published ≤ config.lastPoseRetryCount ∧
      (RetryReaches config interval (fun s ↦ Signalled config s.1) (s, h) → h.repeated = false) :=
  ⟨(counts_of_reaches hreach).bound, fun hsignalled ↦ (stops_of_reaches hsignalled).never⟩

/-! ## Replays -/

/-- A root with a map that has a last pose. -/
def mapsWithPose : MapStore :=
  (∅ : MapStore).insert "m" (.directory
    { MapManager.newDirectory "map" "m" "" with
      mapPcd := some [0]
      lastPose := some (.ok ⟨"map", (originAt 0).pose⟩) })

/-- Localization starts and publishes the last pose, which comes back and resets the session. -/
def firstAttempt : List Action :=
  toWaitMode ++ launchLocalization "m" ++ enterRelocalizing ++
    List.replicate 3 (.operation readyEnv) ++ runCallback 0 (.initialPose (originAt 0)) 3 1000000

/-- The polls of a window of two seconds, the last one 100 ms before the deadline. -/
def pollUntilDeadline : List Action :=
  (List.range 19).map fun tick ↦ .operation { now := (tick + 1) * 100000000 }

/-- The poll that finds the window over, and the next publication. -/
def nextAttempt : List Action :=
  [.operation { now := 2000000000, timedOut := true }, .operation { now := 2000000000 }]

/-- Whether an action meets `Signalled`. -/
def signalledTest (config : Config) (s : Sys × RetryHistory) (a : Action) : Bool :=
  let available := s.1.shared.adapter.correctionAvailable
  (match a with
    | .operation env => !s.1.retries config env || !available
    | _ => true) &&
  (!s.1.operation.any (Operation.mayRetry config) || (!s.1.resetsSession a || !available) &&
    (s.1.step config a).all fun s' ↦ !leavesRelocalizing s.1 s' || available)

theorem signalled_of_test (config : Config) (s : Sys × RetryHistory) (a : Action)
    (h : signalledTest config s a = true) : Signalled config s.1 a := by
  simp only [signalledTest, Bool.and_eq_true, Bool.or_eq_true, Bool.not_eq_true'] at h
  obtain ⟨hretry, hwindow⟩ := h
  refine ⟨?_, fun hleft hresets ↦ ?_, fun hleft s' hstep hleaves ↦ ?_⟩
  · rintro env rfl hretries
    simpa [hretries] using hretry
  · simp_all
  · simp_all

/-- Whether an action meets `OnTime`. -/
def onTimeTest (s : Sys × RetryHistory) (a : Action) : Bool :=
  a.now?.all (fun now ↦ decide (s.2.clock ≤ now)) &&
    match a with
    | .operation env =>
      !s.1.operation.any Operation.inWindow || env.timedOut == decide (s.2.deadline ≤ env.now)
    | _ => true

theorem onTime_of_test (s : Sys × RetryHistory) (a : Action) (h : onTimeTest s a = true) :
    OnTime s a := by
  simp only [onTimeTest, Bool.and_eq_true] at h
  refine ⟨fun now hnow ↦ ?_, ?_⟩
  · simpa [hnow] using h.1
  · rintro env rfl hin
    simpa [hin] using h.2

theorem exists_of_retryReplay {ok : Sys × RetryHistory → Action → Prop}
    (passes : Sys × RetryHistory → Action → Bool) (hpasses : ∀ s a, passes s a = true → ok s a)
    (actions : List Action) (test : Sys × RetryHistory → Bool)
    (hrun : (execWith (retryStep {} 2000000000) passes (Sys.initial mapsWithPose, {})
      actions).any test = true) :
    ∃ s h, RetryReaches {} 2000000000 ok (s, h) ∧ test (s, h) = true := by
  have hstart : RetryReaches {} 2000000000 ok (Sys.initial mapsWithPose, {}) :=
    .start ⟨initial_initial mapsWithPose, rfl⟩
  obtain ⟨⟨s, h⟩, hreach, htest⟩ := hstart.exists_of_execWith hpasses hrun
  exact ⟨s, h, hreach, htest⟩

/-- Nothing answers the first attempt, and a second one is published. -/
theorem retry_stops_twice :
    ∃ h : RetryHistory, h.published = 2 ∧ h.published ≤ 3 ∧ h.repeated = false := by
  obtain ⟨s, h, hreach, htest⟩ := exists_of_retryReplay (signalledTest {}) (signalled_of_test {})
    (firstAttempt ++ pollUntilDeadline ++ nextAttempt) (fun s ↦ decide (s.2.published = 2))
    (by decide +kernel)
  obtain ⟨hbound, hnever⟩ := retry_stops {} 2000000000 s h (hreach.mono fun _ _ _ ↦ trivial)
  exact ⟨h, of_decide_eq_true htest, hbound, hnever hreach⟩

/-- A correction is accepted and confirmed between the last poll and the deadline: the second
attempt is published in LOCALIZED, and when the pose comes back the session is knocked back to
RELOCALIZING. -/
theorem retry_after_confirmation :
    ∃ s h pose s', RetryReaches {} 2000000000 OnTime (s, h) ∧ h.repeated = true ∧
      s.shared.currentState = .localized ∧ s.shared.publishedInitialPoses.head? = some pose ∧
      exec (Sys.step {}) s (runCallback 0 (.initialPose pose) 4 2001000000) = some s' ∧
      s'.shared.currentState = .relocalizing := by
  obtain ⟨s, h, hreach, htest⟩ := exists_of_retryReplay onTimeTest onTime_of_test
    (firstAttempt ++ pollUntilDeadline ++
      runCallback 1 (.correction (originAt 1500000000)) 5 1950000000 ++ nextAttempt)
    (fun s ↦ s.2.repeated && decide (s.1.shared.currentState = .localized) &&
      s.1.shared.publishedInitialPoses.head?.any fun pose ↦
        (exec (Sys.step {}) s.1 (runCallback 0 (.initialPose pose) 4 2001000000)).any
          fun s' : Sys ↦ decide (s'.shared.currentState = .relocalizing)) (by decide +kernel)
  simp only [Bool.and_eq_true, decide_eq_true_eq, Option.any_eq_true] at htest
  obtain ⟨⟨hrepeated, hlocalized⟩, pose, hpose, s', hback, hknocked⟩ := htest
  exact ⟨s, h, pose, s', hreach, hrepeated, hlocalized, hpose, hback, hknocked⟩

end SlamSystemManager.Manager
