import SlamSystemManager.Library.Gate
import SlamSystemManager.Manager.SaveRequests
import SlamSystemManager.Manager.TrustedPose
import SlamSystemManager.Quality.Streams

/-!
# The order of the unified output

The subscriptions of the adapter are in a reentrant group, and a callback publishes and stores
outside the section in which it has read. So a message may be overtaken by one that arrived later at
four points: before either publication, before the trusted pose is stored and before a correction is
accepted. If none is, everything downstream is in the order of arrival.
-/

open TransitionSystem

namespace SlamSystemManager

namespace Quality

/-! ## What the monitor has heard -/

/-- The sample a stream keeps is one of its messages. -/
theorem exists_of_sample {exceeds : Sample → Pose ℚ → Time → Bool} {messages : List Received}
    {sample : Sample} (h : (Stream.ofMessages exceeds messages).sample = some sample) :
    ∃ received ∈ messages, received.1.stamp = sample.stamp := by
  induction messages using List.reverseRecOn with
  | nil => cases h
  | append_singleton messages received ih =>
    have hrest (hsample : (Stream.ofMessages exceeds messages).sample = some sample) :
        ∃ other ∈ messages ++ [received], other.1.stamp = sample.stamp := by
      obtain ⟨other, hother, hstamp⟩ := ih hsample
      exact ⟨other, List.mem_append_left _ hother, hstamp⟩
    rw [Stream.ofMessages_concat, Stream.receive] at h
    split at h
    · exact hrest h
    · split at h
      · cases h
        exact ⟨received, by simp, rfl⟩
      · split at h
        · exact hrest h
        · cases h
          exact ⟨received, by simp, rfl⟩

/-- The branch in which `observeOdometry` reports a stamp that does not advance. -/
def Monitor.seesBackwards (monitor : Monitor) (message : StampedPose) : Prop :=
  monitor.haveOdometry = true ∧ message.stamp ≤ monitor.lastOdometryStamp

theorem not_seesBackwards (setup : Setup) (events : List Event) (message : StampedPose)
    (h : ∀ received ∈ odometryMessages events, received.1.stamp < message.stamp) :
    ¬ (setup.run events).seesBackwards message := by
  rintro ⟨hhave, hbackwards⟩
  have hsample : (Stream.ofMessages setup.motionExceeds (odometryMessages events)).sample =
      some ⟨(setup.run events).lastOdometryPose, (setup.run events).lastOdometryStamp,
        (setup.run events).lastOdometryReceipt⟩ := by
    have hstreams := congrArg (fun streams ↦ streams.odometry.sample) (streams_run setup events)
    simpa [Monitor.streams, Setup.streams, hhave] using hstreams.symm
  obtain ⟨received, hreceived, hstamp⟩ := exists_of_sample hsample
  have hadvances := h received hreceived
  rw [hstamp] at hadvances
  exact absurd hbackwards (not_le.mpr hadvances)

end Quality

namespace Manager

/-! ## Points -/

/-- Where the callbacks of the adapter leave something behind. -/
inductive Point where
  | odometry
  | pose
  | trusted
  | correction
  deriving DecidableEq

/-- Whether a callback may still pass a point. -/
def Callback.before : Point → Callback → Bool
  | .odometry, .rawOdometry _ => true
  | .odometry, .publishOdometry _ _ _ => true
  | .pose, .rawOdometry _ => true
  | .pose, .publishOdometry _ _ _ => true
  | .pose, .publishPose _ _ => true
  | .trusted, .rawOdometry _ => true
  | .trusted, .publishOdometry _ _ localized => localized
  | .trusted, .publishPose _ localized => localized
  | .trusted, .storePose _ => true
  | .correction, .correction _ => true
  | _, _ => false

/-- Whether `handleCorrection` takes a message over. -/
def Shared.acceptsCorrection (config : Config) (s : Shared) (message : StampedPose) : Bool :=
  (RelocalizationAdapter.validatePose config.math config.mapFrame message).isOk &&
    decide (s.adapter.relocalizationStartedAt < message.stamp)

/-- The point that the next step of a callback passes. -/
def Callback.passes (config : Config) (s : Shared) : Callback → Option Point
  | .publishOdometry _ _ _ => some .odometry
  | .publishPose _ _ => some .pose
  | .storePose _ => if s.adapter.localized then some .trusted else none
  | .correction message => if s.acceptsCorrection config message then some .correction else none
  | _ => none

/-- The stamp of the raw odometry a callback works on. -/
def Callback.rawStamp : Callback → Option Time
  | .rawOdometry message => some message.stamp
  | .publishOdometry message _ _ => some message.stamp
  | .publishPose pose _ => some pose.value.stamp
  | .storePose pose => some pose.value.stamp
  | _ => none

/-! ## Arrivals -/

/-- The messages in the order in which they have arrived, and the points they have passed. -/
structure ArrivalHistory where
  count : ℕ := 0
  message : ℕ → Option AdapterMessage := fun _ ↦ none
  /-- The number of the message a callback works on. -/
  arrival : ℕ → ℕ := fun _ ↦ 0
  /-- The numbers that have passed a point, latest first. -/
  passed : Point → List ℕ := fun _ ↦ []

namespace ArrivalHistory

def arrive (h : ArrivalHistory) (id : ℕ) (message : AdapterMessage) : ArrivalHistory :=
  { h with
    count := h.count + 1
    message := Function.update h.message (h.count + 1) (some message)
    arrival := Function.update h.arrival id (h.count + 1) }

def pass (h : ArrivalHistory) (point : Point) (id : ℕ) : ArrivalHistory :=
  { h with passed := Function.update h.passed point (h.arrival id :: h.passed point) }

def note (config : Config) (h : ArrivalHistory) (s : Sys) (a : Action) (_ : Sys) :
    ArrivalHistory :=
  match a with
  | .deliver id message => h.arrive id message
  | .callback id _ =>
    match (s.callbacks id).bind (Callback.passes config s.shared) with
    | some point => h.pass point id
    | none => h
  | _ => h

/-- The stamp of a raw-odometry message. -/
def rawStamp (h : ArrivalHistory) (n : ℕ) : Option Time :=
  match h.message n with
  | some (.rawOdometry message) => some message.stamp
  | _ => none

end ArrivalHistory

/-- The manager beside the arrivals of its messages. -/
abbrev arrivalStep (config : Config) : Sys × ArrivalHistory → Action →
    Option (Sys × ArrivalHistory) :=
  noting (Sys.step config) (ArrivalHistory.note config)

/-- Raw odometry arrives with strictly increasing stamps. -/
def stampsIncrease (s : Sys × ArrivalHistory) : Action → Prop
  | .deliver _ (.rawOdometry message) =>
    ∀ n ≤ s.2.count, ∀ stamp, s.2.rawStamp n = some stamp → stamp < message.stamp
  | _ => True

/-- No callback passes a point while one with an earlier message is still before it. -/
def passesInTurn (config : Config) (s : Sys × ArrivalHistory) : Action → Prop
  | .callback id _ => ∀ point,
    (s.1.callbacks id).bind (Callback.passes config s.1.shared) = some point →
      ∀ other callback, s.1.callbacks other = some callback → callback.before point = true →
        ¬ s.2.arrival other < s.2.arrival id
  | _ => True

/-! ## What a step publishes, stores and accepts -/

/-- Nothing new is published, stored or accepted. -/
structure Fades (before after : RelocalizationAdapter) : Prop where
  odometry : after.publishedOdometry = before.publishedOdometry
  poses : after.publishedPoses = before.publishedPoses
  trusted : ∀ pose, after.latestTrustedPose = some pose → before.latestTrustedPose = some pose
  correction : after.correctionAvailable = true →
    before.correctionAvailable = true ∧ after.correction = before.correction

theorem Fades.refl (adapter : RelocalizationAdapter) : Fades adapter adapter :=
  ⟨rfl, rfl, fun _ ↦ id, fun h ↦ ⟨h, rfl⟩⟩

theorem Fades.of_eq {before after : RelocalizationAdapter} (h : after = before) :
    Fades before after := h ▸ .refl _

theorem Fades.of_sameData {before after : RelocalizationAdapter} (h : SameData after before)
    (hodometry : after.publishedOdometry = before.publishedOdometry)
    (hposes : after.publishedPoses = before.publishedPoses) : Fades before after :=
  ⟨hodometry, hposes, fun _ ↦ h.latestTrustedPose ▸ id,
    fun havailable ↦ ⟨h.correctionAvailable ▸ havailable, h.correction⟩⟩

/-- What a step of a callback leaves behind. -/
inductive Passing (config : Config) (s s' : Shared) (callback : Callback) : Prop
  | none (hnone : callback.passes config s = none) (hfades : Fades s.adapter s'.adapter)
  | odometry (pose : StampedPose) (hpasses : callback.passes config s = some .odometry)
    (hstamp : callback.rawStamp = some pose.stamp)
    (hadapter : s'.adapter =
      { s.adapter with publishedOdometry := pose :: s.adapter.publishedOdometry })
  | pose (pose : StampedPose) (hpasses : callback.passes config s = some .pose)
    (hstamp : callback.rawStamp = some pose.stamp)
    (hadapter : s'.adapter =
      { s.adapter with publishedPoses := pose :: s.adapter.publishedPoses })
  | trusted (pose : InSession StampedPose) (hpasses : callback.passes config s = some .trusted)
    (hstamp : callback.rawStamp = some pose.value.stamp)
    (hadapter : s'.adapter = { s.adapter with latestTrustedPose := some pose })
  | correction (message validated : StampedPose) (hcallback : callback = .correction message)
    (hpasses : callback.passes config s = some .correction)
    (hadapter : s'.adapter =
      { s.adapter with
        correction := { message with pose := validated.pose }
        correctionAvailable := true
        acceptedIn := some s.adapter.sessions })

theorem Callback.passing (config : Config) (env : Env) (s : Shared) (callback : Callback) :
    Passing config s (callback.step config env s).1 callback := by
  cases callback with
  | publishOdometry message copied localized =>
    exact .odometry (RelocalizationAdapter.unifiedPose config.compose config.mapFrame copied
      message).value rfl rfl rfl
  | publishPose pose localized => exact .pose pose.value rfl rfl rfl
  | storePose pose =>
    cases hlocalized : s.adapter.localized with
    | true =>
      refine .trusted pose (by simp [Callback.passes, hlocalized]) rfl ?_
      simp [Callback.step, RelocalizationAdapter.storeTrustedPose, hlocalized]
    | false =>
      refine .none (by simp [Callback.passes, hlocalized]) (.of_eq ?_)
      simp [Callback.step, RelocalizationAdapter.storeTrustedPose, hlocalized]
  | correction message =>
    simp only [Callback.step]
    split
    · rename_i hinvalid
      exact .none (by simp [Callback.passes, Shared.acceptsCorrection, hinvalid, Except.isOk,
        Except.toBool]) (.refl _)
    · rename_i validated hvalid
      by_cases hstamp : message.stamp ≤ s.adapter.relocalizationStartedAt
      · refine .none ?_ (.of_eq ?_)
        · simp [Callback.passes, Shared.acceptsCorrection, not_lt.mpr hstamp]
        · simp [RelocalizationAdapter.acceptCorrection, hstamp]
      · refine .correction message validated rfl ?_ ?_
        · simp [Callback.passes, Shared.acceptsCorrection, hvalid, not_le.mp hstamp, Except.isOk,
            Except.toBool]
        · simp [RelocalizationAdapter.acceptCorrection, hstamp]
  | resetForPose localized =>
    refine .none rfl ⟨rfl, rfl, fun pose hnone ↦ ?_, fun hnone ↦ ?_⟩ <;> cases hnone
  | setLocalized => exact .none rfl ⟨rfl, rfl, fun _ ↦ id, fun h ↦ ⟨h, rfl⟩⟩
  | returnToRelocalizing | confirmTransition => exact .none rfl (.of_eq (adapter_transitionTo ..))
  | initialPose message | rawOdometry message =>
    refine .none rfl ?_
    simp only [Callback.step]
    repeat' split
    all_goals exact .refl _
  | resetQualityForPose | confirmState | confirmRunning => exact .none rfl (.refl _)

/-- A callback that goes on was before every point it is still before, and has not just passed one
of them. -/
theorem Callback.before_step {config : Config} {env : Env} {s : Shared} {callback next : Callback}
    {point : Point} (hnext : (callback.step config env s).2 = some next)
    (hbefore : next.before point = true) :
    callback.before point = true ∧ callback.passes config s ≠ some point := by
  cases callback with
  | rawOdometry message =>
    simp only [Callback.step] at hnext
    split at hnext <;> cases hnext
    cases point <;> simp_all [Callback.before, Callback.passes]
  | publishOdometry message copied localized =>
    cases hnext
    cases point <;> simp_all [Callback.before, Callback.passes]
  | publishPose pose localized =>
    simp only [Callback.step] at hnext
    split at hnext <;> cases hnext
    cases point <;> simp_all [Callback.before, Callback.passes]
  | correction message =>
    simp only [Callback.step] at hnext
    split at hnext
    · cases hnext
    · split at hnext <;> cases hnext
      cases point <;> cases hbefore
  | initialPose message | confirmState | confirmRunning | confirmTransition | resetQualityForPose =>
    simp only [Callback.step] at hnext
    repeat' split at hnext
    all_goals cases hnext
    all_goals cases point <;> cases hbefore
  | resetForPose localized =>
    cases hnext
    cases point <;> cases hbefore
  | returnToRelocalizing | setLocalized | storePose => cases hnext

theorem Callback.rawStamp_step {config : Config} {env : Env} {s : Shared}
    {callback next : Callback} {stamp : Time}
    (hnext : (callback.step config env s).2 = some next) (hstamp : next.rawStamp = some stamp) :
    callback.rawStamp = some stamp := by
  cases callback with
  | publishOdometry message copied localized =>
    cases hnext
    exact hstamp
  | rawOdometry | publishPose =>
    simp only [Callback.step] at hnext
    split at hnext <;> cases hnext
    exact hstamp
  | _ =>
    simp only [Callback.step] at hnext
    repeat' split at hnext
    all_goals cases hnext
    all_goals cases hstamp

theorem Callback.correction_step {config : Config} {env : Env} {s : Shared} {callback : Callback}
    {message : StampedPose} : (callback.step config env s).2 ≠ some (.correction message) := by
  intro hnext
  cases callback <;> simp only [Callback.step] at hnext <;> (repeat' split at hnext) <;> cases hnext

/-- Outside the callbacks of the adapter its data is left alone or reset. -/
theorem data_of_step {config : Config} {s s' : Sys} {a : Action}
    (hstep : s.step config a = some s') (haction : ∀ id env, a ≠ .callback id env) :
    SameData s'.shared.adapter s.shared.adapter ∨
      ∃ now, s'.shared.adapter = s.shared.adapter.resetSession now := by
  have hhandler {env : Env} {handler : Handler} {shared : Shared} {next : HandlerNext}
      (hnext : handler.step config env s.shared = (shared, next)) :
      SameData shared.adapter s.shared.adapter ∨
        ∃ now, shared.adapter = s.shared.adapter.resetSession now :=
    (Handler.effect_of_step hnext).adapter.data.imp id fun hreset ↦ ⟨env.now, hreset.2⟩
  cases Sys.move_of_step hstep with
  | handlerNext _ hnext => exact hhandler hnext
  | handlerDone _ hnext => exact hhandler hnext
  | handlerLaunch _ hnext _ => exact hhandler hnext
  | handlerEscape _ hnext => exact hhandler hnext
  | @operation env operation _ =>
    rcases operation.effect config env s.shared with
      ⟨-, hend⟩ | ⟨-, shared, next, hnext, hcontinues⟩
    · rw [hend]
      exact Or.inl (SameData.refl _)
    · rw [hnext]
      exact hcontinues.effect.adapter.data.imp id fun hreset ↦ ⟨env.now, hreset.2⟩
  | callback _ => exact absurd rfl (haction _ _)
  | environment heffect => exact Or.inl heffect.data
  | call | deliver => exact Or.inl (SameData.refl _)

/-- Only a callback publishes, stores or accepts anything. -/
theorem fades_of_step {config : Config} {s s' : Sys} {a : Action}
    (hstep : s.step config a = some s') (haction : ∀ id env, a ≠ .callback id env) :
    Fades s.shared.adapter s'.shared.adapter := by
  obtain ⟨hodometry, hposes⟩ := output_of_step hstep haction
  rcases data_of_step hstep haction with hsame | ⟨now, hadapter⟩
  · exact .of_sameData hsame hodometry hposes
  · refine ⟨hodometry, hposes, fun pose hpose ↦ ?_, fun havailable ↦ ?_⟩
    · rw [hadapter] at hpose
      cases hpose
    · rw [hadapter] at havailable
      cases havailable

/-! ## The invariant -/

/-- The messages in flight that have still to pass a point. -/
def waiting (point : Point) (s : Sys) (h : ArrivalHistory) (id : ℕ) : Option ℕ :=
  (s.callbacks id).bind fun callback ↦
    if callback.before point then some (h.arrival id) else none

/-- The messages pass every point in the order of their arrival, and what has been published, stored
and accepted is what has passed. -/
structure Arrived (s : Sys) (h : ArrivalHistory) : Prop where
  gates : ∀ point, Gate.InOrder (waiting point s h) (h.passed point) h.count
  known : ∀ n message, h.message n = some message → n ≤ h.count
  grows : ∀ n m later earlier, h.rawStamp n = some later → h.rawStamp m = some earlier → m < n →
    earlier < later
  carried : ∀ id callback stamp, s.callbacks id = some callback → callback.rawStamp = some stamp →
    h.rawStamp (h.arrival id) = some stamp
  corrections : ∀ id message, s.callbacks id = some (.correction message) →
    h.message (h.arrival id) = some (.correction message)
  odometry : List.Forall₂ (fun pose n ↦ h.rawStamp n = some pose.stamp)
    s.shared.adapter.publishedOdometry (h.passed .odometry)
  poses : List.Forall₂ (fun pose n ↦ h.rawStamp n = some pose.stamp)
    s.shared.adapter.publishedPoses (h.passed .pose)
  trusted : ∀ pose, s.shared.adapter.latestTrustedPose = some pose →
    ∃ n, (h.passed .trusted).head? = some n ∧ h.rawStamp n = some pose.value.stamp
  inUse : s.shared.adapter.correctionAvailable = true →
    ∃ n message, (h.passed .correction).head? = some n ∧
      h.message n = some (.correction message) ∧
      s.shared.adapter.correction.stamp = message.stamp

theorem Sys.Initial.arrived {s : Sys} (h : s.Initial) : Arrived s {} := by
  have hwaiting (point : Point) (id : ℕ) : waiting point s {} id = none := by
    simp [waiting, h.callbacks]
  refine ⟨fun point ↦ .empty (hwaiting point), ?_, ?_, ?_, ?_, ?_, ?_, ?_, ?_⟩
  all_goals simp [h.callbacks, h.adapter, ArrivalHistory.rawStamp]

variable {config : Config} {s s' : Sys} {h : ArrivalHistory}

theorem waiting_eq_some_iff {point : Point} {id n : ℕ} :
    waiting point s h id = some n ↔
      ∃ callback, s.callbacks id = some callback ∧ callback.before point = true ∧
        h.arrival id = n := by
  simp only [waiting, Option.bind_eq_some_iff, Option.ite_none_right_eq_some, Option.some.injEq]

/-! ### Steps -/

theorem rawStamp_arrive {id n : ℕ} {message : AdapterMessage}
    (hn : n ≤ h.count) : (h.arrive id message).rawStamp n = h.rawStamp n := by
  have hne : n ≠ h.count + 1 := by omega
  simp [ArrivalHistory.rawStamp, ArrivalHistory.arrive, hne]

theorem le_of_rawStamp (harrived : Arrived s h) {n : ℕ} {stamp : Time}
    (hstamp : h.rawStamp n = some stamp) : n ≤ h.count := by
  cases hmessage : h.message n with
  | none => simp [ArrivalHistory.rawStamp, hmessage] at hstamp
  | some message => exact harrived.known n message hmessage

/-- What was known of a message is still known after an arrival. -/
theorem rawStamp_arrive_of_some (harrived : Arrived s h) {id n : ℕ} {message : AdapterMessage}
    {stamp : Time} (hstamp : h.rawStamp n = some stamp) :
    (h.arrive id message).rawStamp n = some stamp :=
  (rawStamp_arrive (le_of_rawStamp harrived hstamp)).trans hstamp

theorem message_arrive_of_some (harrived : Arrived s h) {id n : ℕ} {message known : AdapterMessage}
    (hknown : h.message n = some known) : (h.arrive id message).message n = some known := by
  have hn := harrived.known n known hknown
  have hne : n ≠ h.count + 1 := by omega
  simpa [ArrivalHistory.arrive, hne] using hknown

theorem rawStamp_arrive_self {id : ℕ} {message : AdapterMessage} {stamp : Time}
    (hstamp : (h.arrive id message).rawStamp (h.count + 1) = some stamp) :
    ∃ raw, message = .rawOdometry raw ∧ raw.stamp = stamp := by
  simp only [ArrivalHistory.rawStamp, ArrivalHistory.arrive, Function.update_self] at hstamp
  cases message <;> cases hstamp
  exact ⟨_, rfl, rfl⟩

/-- Stamps still grow with the arrivals. -/
theorem grows_arrive (harrived : Arrived s h) {id : ℕ} {message : AdapterMessage}
    (hstamps : stampsIncrease (s, h) (.deliver id message)) {n m : ℕ} {later earlier : Time}
    (hlater : (h.arrive id message).rawStamp n = some later)
    (hearlier : (h.arrive id message).rawStamp m = some earlier) (hless : m < n)
    (hn : n ≤ h.count + 1) : earlier < later := by
  rw [rawStamp_arrive (by omega)] at hearlier
  by_cases hlast : n = h.count + 1
  · subst hlast
    obtain ⟨raw, rfl, rfl⟩ := rawStamp_arrive_self hlater
    exact hstamps m (Nat.le_of_lt_succ hless) earlier hearlier
  · rw [rawStamp_arrive (by omega)] at hlater
    exact harrived.grows n m later earlier hlater hearlier hless

theorem AdapterMessage.before_callback {message : AdapterMessage} {stamp : Time}
    (hstamp : message.callback.rawStamp = some stamp) :
    ∃ raw, message = .rawOdometry raw ∧ raw.stamp = stamp := by
  cases message <;> cases hstamp
  exact ⟨_, rfl, rfl⟩

/-- A step of another thread. -/
theorem Arrived.of_fades (harrived : Arrived s h) (hcallbacks : s'.callbacks = s.callbacks)
    (hfades : Fades s.shared.adapter s'.shared.adapter) : Arrived s' h := by
  refine ⟨fun point ↦ (harrived.gates point).mono fun id n hwaiting ↦ ?_, harrived.known,
    harrived.grows, hcallbacks ▸ harrived.carried, hcallbacks ▸ harrived.corrections,
    hfades.odometry ▸ harrived.odometry, hfades.poses ▸ harrived.poses,
    fun pose hpose ↦ harrived.trusted pose (hfades.trusted pose hpose), fun havailable ↦ ?_⟩
  · rwa [waiting, hcallbacks] at hwaiting
  · obtain ⟨hbefore, hsame⟩ := hfades.correction havailable
    rw [hsame]
    exact harrived.inUse hbefore

/-- A message arrives. -/
theorem Arrived.arrive (harrived : Arrived s h) {id : ℕ} {message : AdapterMessage}
    (hstamps : stampsIncrease (s, h) (.deliver id message)) :
    Arrived (s.setCallback id (some message.callback)) (h.arrive id message) := by
  have hother {other : ℕ} (hne : other ≠ id) :
      (s.setCallback id (some message.callback)).callbacks other = s.callbacks other := by
    simp [Sys.setCallback, hne]
  have hself : (s.setCallback id (some message.callback)).callbacks id = some message.callback := by
    simp [Sys.setCallback]
  have harrival {other : ℕ} (hne : other ≠ id) :
      (h.arrive id message).arrival other = h.arrival other := by
    simp [ArrivalHistory.arrive, hne]
  have hnew : (h.arrive id message).message (h.count + 1) = some message := by
    simp [ArrivalHistory.arrive]
  have hlast : (h.arrive id message).arrival id = h.count + 1 := by
    simp [ArrivalHistory.arrive]
  have hknown : ∀ n known, (h.arrive id message).message n = some known → n ≤ h.count + 1 := by
    intro n known hknown
    by_cases hn : n = h.count + 1
    · exact hn.le
    · have hbefore : h.message n = some known := by
        simpa [ArrivalHistory.arrive, hn] using hknown
      exact (harrived.known n known hbefore).trans (Nat.le_succ _)
  refine ⟨fun point ↦ ?_, hknown, fun n m later earlier hlater hearlier hless ↦ ?_,
    fun other callback stamp hsome hstamp ↦ ?_, fun other correction hsome ↦ ?_,
    harrived.odometry.imp fun _ _ ↦ rawStamp_arrive_of_some harrived,
    harrived.poses.imp fun _ _ ↦ rawStamp_arrive_of_some harrived, fun pose hpose ↦ ?_,
    fun havailable ↦ ?_⟩
  · refine (harrived.gates point).arrive id fun other n hwaiting ↦ ?_
    obtain ⟨callback, hsome, hbefore, hn⟩ := waiting_eq_some_iff.mp hwaiting
    by_cases hne : other = id
    · exact Or.inr ⟨hne, by rw [← hn, hne, hlast]⟩
    · refine Or.inl ⟨hne, waiting_eq_some_iff.mpr ⟨callback, ?_, hbefore, ?_⟩⟩
      · rw [← hother hne, hsome]
      · rw [← harrival hne, hn]
  · refine grows_arrive harrived hstamps hlater hearlier hless ?_
    cases hmessage : (h.arrive id message).message n with
    | none => simp [ArrivalHistory.rawStamp, hmessage] at hlater
    | some known => exact hknown n known hmessage
  · by_cases hne : other = id
    · subst hne
      rw [hself] at hsome
      cases hsome
      obtain ⟨raw, rfl, rfl⟩ := AdapterMessage.before_callback hstamp
      simp [ArrivalHistory.rawStamp, hlast, hnew]
    · rw [hother hne] at hsome
      rw [harrival hne]
      exact rawStamp_arrive_of_some harrived (harrived.carried other callback stamp hsome hstamp)
  · by_cases hne : other = id
    · subst hne
      rw [hself] at hsome
      cases message <;> cases hsome
      rw [hlast, hnew]
    · rw [hother hne] at hsome
      rw [harrival hne]
      exact message_arrive_of_some harrived (harrived.corrections other correction hsome)
  · obtain ⟨n, hhead, hstamp⟩ := harrived.trusted pose hpose
    exact ⟨n, hhead, rawStamp_arrive_of_some harrived hstamp⟩
  · obtain ⟨n, correction, hhead, hmessage, hstamp⟩ := harrived.inUse havailable
    exact ⟨n, correction, hhead, message_arrive_of_some harrived hmessage, hstamp⟩

/-- The state after a step of a callback. -/
def Sys.stepCallback (config : Config) (s : Sys) (id : ℕ) (env : Env) (callback : Callback) : Sys :=
  { s with
    shared := (callback.step config env s.shared).1
    callbacks := Function.update s.callbacks id (callback.step config env s.shared).2 }

theorem before_of_passes {config : Config} {s : Shared} {callback : Callback} {point : Point}
    (hpasses : callback.passes config s = some point) : callback.before point = true := by
  cases callback with
  | correction | storePose =>
    simp only [Callback.passes] at hpasses
    split at hpasses <;> cases hpasses
    rfl
  | _ => cases hpasses <;> rfl

section Step

variable {id : ℕ} {env : Env} {callback : Callback}

theorem note_callback (hcallback : s.callbacks id = some callback) :
    h.note config s (.callback id env) s' =
      match callback.passes config s.shared with
      | some point => h.pass point id
      | none => h := by
  simp only [ArrivalHistory.note, hcallback, Option.bind_some]

/-- Where a callback is after the step of another or of itself. -/
theorem callbacks_stepCallback {other : ℕ} {after : Callback}
    (hafter : (s.stepCallback config id env callback).callbacks other = some after) :
    (other ≠ id ∧ s.callbacks other = some after) ∨
      (other = id ∧ (callback.step config env s.shared).2 = some after) := by
  by_cases hne : other = id
  · exact Or.inr ⟨hne, by simpa [Sys.stepCallback, hne] using hafter⟩
  · exact Or.inl ⟨hne, by simpa [Sys.stepCallback, hne] using hafter⟩

/-- A callback waits where it waited before, and not at the point it has just passed. -/
theorem waiting_stepCallback (hcallback : s.callbacks id = some callback) {point : Point}
    {other n : ℕ}
    (hwaiting : waiting point (s.stepCallback config id env callback) h other = some n) :
    waiting point s h other = some n ∧
      (callback.passes config s.shared = some point → other ≠ id) := by
  obtain ⟨after, hafter, hbefore, hn⟩ := waiting_eq_some_iff.mp hwaiting
  rcases callbacks_stepCallback hafter with ⟨hne, hsame⟩ | ⟨rfl, hnext⟩
  · exact ⟨waiting_eq_some_iff.mpr ⟨after, hsame, hbefore, hn⟩, fun _ ↦ hne⟩
  · obtain ⟨hwas, hpassed⟩ := Callback.before_step hnext hbefore
    exact ⟨waiting_eq_some_iff.mpr ⟨callback, hcallback, hwas, hn⟩, fun hpasses ↦
      absurd hpasses hpassed⟩

theorem gates_kept (harrived : Arrived s h) (hcallback : s.callbacks id = some callback)
    (point : Point) :
    Gate.InOrder (waiting point (s.stepCallback config id env callback) h) (h.passed point)
      h.count :=
  (harrived.gates point).mono fun _ _ hwaiting ↦ (waiting_stepCallback hcallback hwaiting).1

/-- The callback that passes a point has no earlier one before it. -/
theorem gates_pass (harrived : Arrived s h) (hcallback : s.callbacks id = some callback)
    {passed : Point} (hpasses : callback.passes config s.shared = some passed)
    (hturn : passesInTurn config (s, h) (.callback id env)) (point : Point) :
    Gate.InOrder (waiting point (s.stepCallback config id env callback) (h.pass passed id))
      ((h.pass passed id).passed point) h.count := by
  by_cases hpoint : point = passed
  · subst hpoint
    have hlog : (h.pass point id).passed point = h.arrival id :: h.passed point := by
      simp [ArrivalHistory.pass]
    rw [hlog]
    have hwaits : waiting point s h id = some (h.arrival id) :=
      waiting_eq_some_iff.mpr ⟨callback, hcallback, before_of_passes hpasses, rfl⟩
    refine (harrived.gates point).pass hwaits
      (fun other n hwaiting ↦ ?_) fun other n hwaiting ↦ ?_
    · obtain ⟨earlier, hearlier, hbefore, rfl⟩ := waiting_eq_some_iff.mp hwaiting
      exact hturn point (by rw [hcallback]; exact hpasses) other earlier hearlier hbefore
    · obtain ⟨hwas, hother⟩ := waiting_stepCallback hcallback hwaiting
      exact ⟨hother hpasses, hwas⟩
  · have hlog : (h.pass passed id).passed point = h.passed point := by
      simp [ArrivalHistory.pass, hpoint]
    rw [hlog]
    exact gates_kept harrived hcallback point

theorem carried_stepCallback (harrived : Arrived s h) (hcallback : s.callbacks id = some callback)
    {other : ℕ} {after : Callback} {stamp : Time}
    (hafter : (s.stepCallback config id env callback).callbacks other = some after)
    (hstamp : after.rawStamp = some stamp) : h.rawStamp (h.arrival other) = some stamp := by
  rcases callbacks_stepCallback hafter with ⟨-, hsame⟩ | ⟨rfl, hnext⟩
  · exact harrived.carried other after stamp hsame hstamp
  · exact harrived.carried other callback stamp hcallback (Callback.rawStamp_step hnext hstamp)

theorem corrections_stepCallback (harrived : Arrived s h) {other : ℕ} {message : StampedPose}
    (hafter :
      (s.stepCallback config id env callback).callbacks other = some (.correction message)) :
    h.message (h.arrival other) = some (.correction message) := by
  rcases callbacks_stepCallback hafter with ⟨-, hsame⟩ | ⟨-, hnext⟩
  · exact harrived.corrections other message hsame
  · exact absurd hnext Callback.correction_step

/-- A step of a callback. -/
theorem Arrived.stepCallback (harrived : Arrived s h) (hcallback : s.callbacks id = some callback)
    (hturn : passesInTurn config (s, h) (.callback id env)) :
    Arrived (s.stepCallback config id env callback)
      (h.note config s (.callback id env) (s.stepCallback config id env callback)) := by
  rw [note_callback hcallback]
  have hstamp {stamp : Time} (hraw : callback.rawStamp = some stamp) :
      h.rawStamp (h.arrival id) = some stamp :=
    harrived.carried id callback stamp hcallback hraw
  cases callback.passing config env s.shared with
  | none hnone hfades =>
    rw [hnone]
    refine ⟨gates_kept harrived hcallback, harrived.known, harrived.grows,
      fun _ _ _ ↦ carried_stepCallback harrived hcallback,
      fun _ _ ↦ corrections_stepCallback harrived, ?_, ?_, fun pose hpose ↦ ?_,
      fun havailable ↦ ?_⟩
    · exact hfades.odometry ▸ harrived.odometry
    · exact hfades.poses ▸ harrived.poses
    · exact harrived.trusted pose (hfades.trusted pose hpose)
    · obtain ⟨hbefore, hsame⟩ := hfades.correction havailable
      obtain ⟨n, message, hhead, hmessage, hstamps⟩ := harrived.inUse hbefore
      exact ⟨n, message, hhead, hmessage, (congrArg StampedPose.stamp hsame).trans hstamps⟩
  | odometry pose hpasses hraw hadapter =>
    have hlogged := hstamp hraw
    have hodometry : (s.stepCallback config id env callback).shared.adapter.publishedOdometry =
        pose :: s.shared.adapter.publishedOdometry := congrArg _ hadapter
    rw [hpasses]
    refine ⟨gates_pass harrived hcallback hpasses hturn, harrived.known, harrived.grows,
      fun _ _ _ ↦ carried_stepCallback harrived hcallback,
      fun _ _ ↦ corrections_stepCallback harrived, ?_, ?_, ?_, ?_⟩
    · rw [hodometry]
      exact .cons hlogged harrived.odometry
    all_goals rw [Sys.stepCallback, hadapter]
    · exact harrived.poses
    · exact harrived.trusted
    · exact harrived.inUse
  | pose pose hpasses hraw hadapter =>
    have hlogged := hstamp hraw
    have hposes : (s.stepCallback config id env callback).shared.adapter.publishedPoses =
        pose :: s.shared.adapter.publishedPoses := congrArg _ hadapter
    rw [hpasses]
    refine ⟨gates_pass harrived hcallback hpasses hturn, harrived.known, harrived.grows,
      fun _ _ _ ↦ carried_stepCallback harrived hcallback,
      fun _ _ ↦ corrections_stepCallback harrived, ?_, ?_, ?_, ?_⟩
    · rw [Sys.stepCallback, hadapter]
      exact harrived.odometry
    · rw [hposes]
      exact .cons hlogged harrived.poses
    all_goals rw [Sys.stepCallback, hadapter]
    · exact harrived.trusted
    · exact harrived.inUse
  | trusted pose hpasses hraw hadapter =>
    have hlogged := hstamp hraw
    rw [hpasses]
    refine ⟨gates_pass harrived hcallback hpasses hturn, harrived.known, harrived.grows,
      fun _ _ _ ↦ carried_stepCallback harrived hcallback,
      fun _ _ ↦ corrections_stepCallback harrived, ?_, ?_, ?_, ?_⟩
    all_goals rw [Sys.stepCallback, hadapter]
    · exact harrived.odometry
    · exact harrived.poses
    · rintro stored hstored
      cases hstored
      exact ⟨h.arrival id, rfl, hlogged⟩
    · exact harrived.inUse
  | correction message validated hmessage hpasses hadapter =>
    subst hmessage
    have hlogged := harrived.corrections id message hcallback
    rw [hpasses]
    refine ⟨gates_pass harrived hcallback hpasses hturn, harrived.known, harrived.grows,
      fun _ _ _ ↦ carried_stepCallback harrived hcallback,
      fun _ _ ↦ corrections_stepCallback harrived, ?_, ?_, ?_, ?_⟩
    all_goals rw [Sys.stepCallback, hadapter]
    · exact harrived.odometry
    · exact harrived.poses
    · exact harrived.trusted
    · exact fun _ ↦ ⟨h.arrival id, message, rfl, hlogged, rfl⟩

end Step

theorem Arrived.step {a : Action} (harrived : Arrived s h) (hstamps : stampsIncrease (s, h) a)
    (hturn : passesInTurn config (s, h) a) (hstep : s.step config a = some s') :
    Arrived s' (h.note config s a s') := by
  cases a with
  | deliver id message =>
    simp only [Sys.step] at hstep
    split at hstep <;> cases hstep
    exact harrived.arrive hstamps
  | callback id env =>
    obtain ⟨callback, hcallback, rfl⟩ := Option.map_eq_some_iff.mp hstep
    exact harrived.stepCallback hcallback hturn
  | _ =>
    refine harrived.of_fades ?_ (fades_of_step hstep (by simp))
    cases Sys.move_of_step hstep <;> rfl

/-! ## Order -/

/-- The messages published, the trusted pose and the correction in use are in order. -/
structure OrderedOutput (config : Config) (s : Sys) (h : ArrivalHistory) : Prop where
  odometry : s.shared.adapter.publishedOdometry.Pairwise
    fun later earlier ↦ earlier.stamp < later.stamp
  poses : s.shared.adapter.publishedPoses.Pairwise fun later earlier ↦ earlier.stamp < later.stamp
  trusted : ∀ a s' before after, stampsIncrease (s, h) a → passesInTurn config (s, h) a →
    s.step config a = some s' → s.shared.adapter.latestTrustedPose = some before →
    s'.shared.adapter.latestTrustedPose = some after → before.value.stamp ≤ after.value.stamp
  corrections : (h.passed .correction).Pairwise (· > ·)
  inUse : s.shared.adapter.correctionAvailable = true →
    ∃ n message, (h.passed .correction).head? = some n ∧
      h.message n = some (.correction message) ∧ s.shared.adapter.correction.stamp = message.stamp
  monitor : ∀ (setup : Quality.Setup) (events : List Quality.Event) (message : StampedPose),
    (message :: ((Quality.odometryMessages events).map Prod.fst).reverse).Sublist
      s.shared.adapter.publishedOdometry → ¬ (setup.run events).seesBackwards message

/-- What was published is in the order of the stamps, as the numbers that have passed are. -/
theorem Arrived.pairwise_stamps (harrived : Arrived s h) {messages : List StampedPose}
    {point : Point} (hlogged : List.Forall₂ (fun pose n ↦ h.rawStamp n = some pose.stamp) messages
      (h.passed point)) :
    messages.Pairwise fun later earlier ↦ earlier.stamp < later.stamp := by
  refine Gate.pairwise_of_forall₂ (fun later earlier n m hlater hearlier hless ↦ ?_) hlogged
    (harrived.gates point).sorted
  exact harrived.grows n m _ _ hlater hearlier hless

theorem passed_note (a : Action) (point : Point) :
    (h.note config s a s').passed point = h.passed point ∨
      ∃ n, (h.note config s a s').passed point = n :: h.passed point := by
  cases a with
  | callback id env =>
    simp only [ArrivalHistory.note]
    split
    · rename_i passed _
      by_cases hpoint : point = passed
      · subst hpoint
        exact Or.inr ⟨h.arrival id, by simp [ArrivalHistory.pass]⟩
      · exact Or.inl (by simp [ArrivalHistory.pass, hpoint])
    · exact Or.inl rfl
  | _ => exact Or.inl rfl

theorem rawStamp_note (harrived : Arrived s h) (a : Action) {n : ℕ} {stamp : Time}
    (hstamp : h.rawStamp n = some stamp) : (h.note config s a s').rawStamp n = some stamp := by
  cases a with
  | deliver id message => exact rawStamp_arrive_of_some harrived hstamp
  | callback id env =>
    simp only [ArrivalHistory.note]
    split <;> exact hstamp
  | _ => exact hstamp

/-- The pose stored in a step is not older than the one it replaces. -/
theorem Arrived.trusted_step {a : Action} (harrived : Arrived s h)
    (hstamps : stampsIncrease (s, h) a) (hturn : passesInTurn config (s, h) a)
    (hstep : s.step config a = some s') {before after : InSession StampedPose}
    (hbefore : s.shared.adapter.latestTrustedPose = some before)
    (hafter : s'.shared.adapter.latestTrustedPose = some after) :
    before.value.stamp ≤ after.value.stamp := by
  have hnoted := harrived.step hstamps hturn hstep
  obtain ⟨n, hhead, hstamp⟩ := harrived.trusted before hbefore
  obtain ⟨m, hheadNoted, hstampNoted⟩ := hnoted.trusted after hafter
  have hknown : (h.note config s a s').rawStamp n = some before.value.stamp :=
    rawStamp_note harrived a hstamp
  have hpassed : (h.note config s a s').passed .trusted = h.passed .trusted ∨
      ∃ n, (h.note config s a s').passed .trusted = n :: h.passed .trusted := passed_note a .trusted
  rcases hpassed with hsame | ⟨last, hlast⟩
  · rw [hsame, hhead] at hheadNoted
    cases hheadNoted
    exact (Option.some.inj (hknown.symm.trans hstampNoted)).le
  · have hsorted := (hnoted.gates .trusted).sorted
    rw [hlast] at hheadNoted hsorted
    cases hheadNoted
    have hless := (List.pairwise_cons.mp hsorted).1 n (List.mem_of_mem_head? hhead)
    exact (hnoted.grows m n _ _ hstampNoted hknown hless).le

/-- The unified output is in order in every run in which raw odometry arrives with strictly
increasing stamps and no callback passes a point while one with an earlier message is before it. -/
theorem output_ordered (config : Config) (s : Sys) (h : ArrivalHistory)
    (hreach : Reaches (arrivalStep config) (fun s a ↦ stampsIncrease s a ∧ passesInTurn config s a)
      (fun s ↦ s.1.Initial ∧ s.2 = {}) (s, h)) : OrderedOutput config s h := by
  have harrived : Arrived s h := by
    refine Reaches.invariant (P := fun s : Sys × ArrivalHistory ↦ Arrived s.1 s.2)
      (fun s hinit ↦ ?_) (fun s a s' hs hok hstep ↦ ?_) hreach
    · rw [hinit.2]
      exact hinit.1.arrived
    · obtain ⟨hsys, hnote⟩ := noting_eq_some hstep
      rw [hnote]
      exact hs.step hok.1 hok.2 hsys
  have hodometry := harrived.pairwise_stamps harrived.odometry
  refine ⟨hodometry, harrived.pairwise_stamps harrived.poses,
    fun a s' before after hstamps hturn hstep ↦ harrived.trusted_step hstamps hturn hstep,
    (harrived.gates .correction).sorted, harrived.inUse, fun setup events message hheard ↦ ?_⟩
  refine Quality.not_seesBackwards setup events message fun received hreceived ↦ ?_
  have hpairwise := List.pairwise_cons.mp (hodometry.sublist hheard)
  exact hpairwise.1 received.1 (by simpa using ⟨received.2, hreceived⟩)

/-! ## Replays -/

/-- Tests of the two conditions, the second one for a list of callbacks. -/
def testStamps (s : Sys × ArrivalHistory) : Action → Bool
  | .deliver _ (.rawOdometry message) => (List.range (s.2.count + 1)).all fun n ↦
      (s.2.rawStamp n).all fun stamp ↦ decide (stamp < message.stamp)
  | _ => true

def testTurn (config : Config) (ids : List ℕ) (s : Sys × ArrivalHistory) : Action → Bool
  | .callback id _ => ((s.1.callbacks id).bind (Callback.passes config s.1.shared)).all fun point ↦
      ids.all fun other ↦ (s.1.callbacks other).all fun callback ↦
        !callback.before point || decide (s.2.arrival id ≤ s.2.arrival other)
  | _ => true

theorem stampsIncrease_of_test {s : Sys × ArrivalHistory} {a : Action} (h : testStamps s a = true) :
    stampsIncrease s a := by
  unfold testStamps at h
  unfold stampsIncrease
  split
  · intro n hn stamp hstamp
    simp only [List.all_eq_true, List.mem_range, Option.all_eq_true, decide_eq_true_eq] at h
    exact h n (by omega) stamp hstamp
  · trivial

theorem passesInTurn_of_test {ids : List ℕ} {s : Sys × ArrivalHistory} {a : Action}
    (hidle : ∀ id, id ∉ ids → s.1.callbacks id = none) (h : testTurn config ids s a = true) :
    passesInTurn config s a := by
  cases a with
  | callback id env =>
    intro point hpasses other callback hother hbefore
    have hmember : other ∈ ids := by
      by_contra hnot
      rw [hidle other hnot] at hother
      cases hother
    simp only [testTurn, hpasses, Option.all_some, List.all_eq_true] at h
    have hturn := h other hmember
    rw [hother, Option.all_some, hbefore] at hturn
    simpa using hturn
  | _ => trivial

/-- The manager on a root with one map, before any message. -/
def arrivalStart : Sys × ArrivalHistory := (Sys.initial (storedMaps ["m"]), {})

theorem reaches_arrivalStart (config : Config)
    (ok : Sys × ArrivalHistory → Action → Prop) :
    Reaches (arrivalStep config) ok (fun s ↦ s.1.Initial ∧ s.2 = {}) arrivalStart :=
  .start ⟨initial_initial _, rfl⟩

/-- Two raw-odometry callbacks that take turns. -/
theorem output_ordered_localized :
    ∃ (s : Sys) (h : ArrivalHistory), s.shared.adapter.publishedOdometry.length = 2 ∧
      OrderedOutput {} s h := by
  have hrun : ((execWith (arrivalStep {})
      (fun s a ↦ a.deliversTo [0, 1, 2] && (testStamps s a && testTurn {} [0, 1, 2] s a))
      arrivalStart (localizedRun ++ [.callback 0 {}, .deliver 1 (.rawOdometry (originAt 2)),
        .deliver 2 (.rawOdometry (originAt 3))] ++
        (List.replicate 4 [Action.callback 1 {}, .callback 2 {}]).flatten)).any fun s ↦
          decide (s.1.shared.adapter.publishedOdometry.length = 2)) = true := by
    decide +kernel
  obtain ⟨⟨s, h⟩, htested, htest⟩ :=
    (reaches_arrivalStart {} _).exists_of_execWith (fun _ _ hpasses ↦ hpasses) hrun
  refine ⟨s, h, of_decide_eq_true htest, output_ordered {} s h ?_⟩
  have hidle (s : Sys × ArrivalHistory) (hs : Reaches (arrivalStep {})
      (fun s a ↦ (a.deliversTo [0, 1, 2] && (testStamps s a && testTurn {} [0, 1, 2] s a)) = true)
      (fun s ↦ s.1.Initial ∧ s.2 = {}) s) :
      ∀ id, id ∉ [0, 1, 2] → s.1.callbacks id = none := by
    have hrun : Reaches (Sys.step {}) (fun _ a ↦ a.deliversTo [0, 1, 2] = true) Sys.Initial s.1 :=
      hs.of_noting (fun _ _ hok ↦ (Bool.and_eq_true_iff.mp hok).1) fun _ hinit ↦ hinit.1
    exact callbacks_none [0, 1, 2] hrun
  refine (htested.strengthen hidle).mono fun s a hok ↦ ?_
  obtain ⟨hpasses, hnone⟩ := hok
  simp only [Bool.and_eq_true] at hpasses
  exact ⟨stampsIncrease_of_test hpasses.2.1, passesInTurn_of_test hnone hpasses.2.2⟩

/-- Two poses were published, the later one first, and it is the one that is trusted. -/
def publishesReordered (s : Sys × ArrivalHistory) : Bool :=
  match s.1.shared.adapter.publishedOdometry with
  | [second, first] => decide (second.stamp < first.stamp ∧
    s.1.shared.adapter.publishedPoses = [second, first] ∧
    s.1.shared.adapter.latestTrustedPose.map (fun pose ↦ pose.value) = some second)
  | _ => false

/-- Two raw-odometry callbacks in flight: the one with the later message publishes first. -/
theorem output_reordered :
    ∃ (s : Sys) (h : ArrivalHistory) (first second : StampedPose),
      Reaches (arrivalStep {}) stampsIncrease (fun s ↦ s.1.Initial ∧ s.2 = {}) (s, h) ∧
      s.shared.adapter.publishedOdometry = [second, first] ∧ second.stamp < first.stamp ∧
      s.shared.adapter.publishedPoses = [second, first] ∧
      s.shared.adapter.latestTrustedPose.map (fun pose ↦ pose.value) = some second := by
  have hrun : ((execWith (arrivalStep {}) testStamps arrivalStart
      (localizedRun ++ [.callback 0 {}, .deliver 1 (.rawOdometry (originAt 2)),
        .deliver 2 (.rawOdometry (originAt 3)), .callback 1 {}] ++
        List.replicate 4 (.callback 2 {}) ++ List.replicate 3 (.callback 1 {}))).any
          publishesReordered) = true := by
    decide +kernel
  obtain ⟨⟨s, h⟩, hreach, htest⟩ :=
    (reaches_arrivalStart {} _).exists_of_execWith (fun _ _ ↦ stampsIncrease_of_test) hrun
  unfold publishesReordered at htest
  split at htest
  · rename_i second first hpublished
    obtain ⟨hless, hposes, htrusted⟩ := of_decide_eq_true htest
    exact ⟨s, h, first, second, hreach, hpublished, hless, hposes, htrusted⟩
  · cases htest

end Manager

end SlamSystemManager
