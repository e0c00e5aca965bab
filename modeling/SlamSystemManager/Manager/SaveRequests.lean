import SlamSystemManager.Manager.Sessions
import SlamSystemManager.Manager.Store

/-!
# Save requests

`saveLastPose` runs on the timer of the last pose and in the operation that stops localization. A
saver copies the trusted pose in one section and leaves the request in the slot of the save worker
in another; the worker takes it from there and writes it. This module says where a request can be
and how a step moves it.
-/

open TransitionSystem

namespace SlamSystemManager.Manager

/-! ## The two savers -/

/-- The threads that call `saveLastPose`. -/
inductive Saver where
  | timer
  | operation
  deriving DecidableEq

def Handler.saving : Handler → Option SaveLastPose
  | .lastPoseTick pc => some pc
  | _ => none

def Operation.saving : Operation → Option SaveLastPose
  | .stopLocalization (.save pc) => some pc
  | _ => none

/-- Where a saver stands in `saveLastPose`. -/
def Sys.saver (s : Sys) : Saver → Option SaveLastPose
  | .timer => s.handler.bind Handler.saving
  | .operation => s.operation.bind Operation.saving

/-- The saver whose thread an action moves, unless the step throws. -/
def Action.saver : Action → Option Saver
  | .handler _ => some .timer
  | .operation env => if env.throws.isNone then some .operation else none
  | _ => none

/-- The step of `saveLastPose` that an action takes, and who takes it. -/
def Sys.savingStep (s : Sys) (a : Action) : Option (Saver × SaveLastPose) :=
  a.saver.bind fun saver ↦ (s.saver saver).map fun pc ↦ (saver, pc)

/-- The trusted pose that an action copies into a request. -/
def Sys.captures (s : Sys) (a : Action) : Option (Saver × SaveRequest) :=
  match s.savingStep a with
  | some (saver, .capture map) =>
    (s.shared.adapter.capturePose map s.shared.sessionMap).map fun request ↦ (saver, request)
  | _ => none

/-- The request that an action leaves for the save worker. -/
def Sys.enqueues (s : Sys) (a : Action) : Option (Saver × SaveRequest) :=
  match s.savingStep a with
  | some (saver, .enqueue request) => some (saver, request)
  | _ => none

theorem savingStep_eq_some_iff {s : Sys} {a : Action} {saver : Saver} {pc : SaveLastPose} :
    s.savingStep a = some (saver, pc) ↔ a.saver = some saver ∧ s.saver saver = some pc := by
  unfold Sys.savingStep
  cases a.saver with
  | none => simp
  | some moved =>
    simp only [Option.bind_some, Option.map_eq_some_iff, Prod.mk.injEq, Option.some.injEq]
    constructor
    · rintro ⟨before, hsaver, rfl, rfl⟩
      exact ⟨rfl, hsaver⟩
    · rintro ⟨rfl, hsaver⟩
      exact ⟨pc, hsaver, rfl, rfl⟩

theorem enqueues_eq_some_iff {s : Sys} {a : Action} {saver : Saver} {request : SaveRequest} :
    s.enqueues a = some (saver, request) ↔ s.savingStep a = some (saver, .enqueue request) := by
  unfold Sys.enqueues
  split
  · rename_i henqueue
    rw [henqueue]
    simp
  · rename_i hother
    exact ⟨nofun, fun henqueue ↦ absurd henqueue (hother _ _)⟩

theorem captures_eq_some_iff {s : Sys} {a : Action} {saver : Saver} {request : SaveRequest} :
    s.captures a = some (saver, request) ↔ ∃ map, s.savingStep a = some (saver, .capture map) ∧
      s.shared.adapter.capturePose map s.shared.sessionMap = some request := by
  unfold Sys.captures
  split
  · rename_i other map hcapture
    rw [hcapture]
    simp only [Option.map_eq_some_iff, Prod.mk.injEq, Option.some.injEq]
    constructor
    · rintro ⟨captured, hcaptured, rfl, rfl⟩
      exact ⟨map, ⟨rfl, rfl⟩, hcaptured⟩
    · rintro ⟨_, ⟨rfl, hmap⟩, hcaptured⟩
      cases hmap
      exact ⟨request, hcaptured, rfl, rfl⟩
  · rename_i hother
    refine ⟨nofun, ?_⟩
    rintro ⟨map, hcapture, -⟩
    exact absurd hcapture (hother _ _)

theorem enqueues_eq_none {s : Sys} {a : Action}
    (h : ∀ saver request, a.saver = some saver → s.saver saver ≠ some (.enqueue request)) :
    s.enqueues a = none := by
  rw [Option.eq_none_iff_forall_ne_some]
  rintro ⟨saver, request⟩ henqueues
  rw [enqueues_eq_some_iff, savingStep_eq_some_iff] at henqueues
  exact h saver request henqueues.1 henqueues.2

/-- An operation enters `saveLastPose` at its beginning. -/
def Operation.StartsSaving (operation : Operation) : Prop :=
  ∀ pc, operation.saving = some pc → pc = .poseValid

/-- What a handler is about to launch has not begun to save. -/
def Handler.StartsSaving : Handler → Prop
  | .launch operation _ => operation.StartsSaving
  | _ => True

theorem Handler.startsSaving_of_follows {handler next : Handler}
    (h : handler.Follows (.next next)) : next.StartsSaving := by
  cases h with
  | launchStopLocalization reply =>
    intro pc hpc
    cases hpc
    rfl
  | launchStartMapping | launchStartLocalization | launchStopMapping | launchSaveMap
  | launchStopAfterFailure | launchRecovery =>
    intro pc hpc
    cases hpc
  | _ => trivial

theorem startsSaving_step {config : Config} {s s' : Sys} {a : Action}
    (hs : ∀ handler, s.handler = some handler → handler.StartsSaving)
    (hstep : s.step config a = some s') :
    ∀ handler, s'.handler = some handler → handler.StartsSaving := by
  cases Sys.move_of_step hstep with
  | @call request hidle =>
    intro handler hsome
    cases hsome
    cases request <;> trivial
  | handlerNext hsome hnext =>
    intro handler hhandler
    cases hhandler
    exact Handler.startsSaving_of_follows (Handler.follows_of_step hnext)
  | handlerDone | handlerLaunch | handlerEscape => simp
  | _ => exact hs

theorem Reachable.startsSaving {config : Config} {s : Sys} (h : Reachable config s) :
    ∀ handler, s.handler = some handler → handler.StartsSaving :=
  Reaches.invariant (P := fun s : Sys ↦ ∀ handler, s.handler = some handler → handler.StartsSaving)
    (fun s hinit ↦ by simp [hinit.handler]) (fun _ _ _ hs _ hstep ↦ startsSaving_step hs hstep) h

/-! ## Where a saver goes -/

/-- How a saver has come to where it stands after a step. -/
inductive SaverMove (config : Config) (s : Sys) (a : Action) (saver : Saver) (pc : SaveLastPose) :
    Prop
  | stays (hsaver : s.saver saver = some pc) (hmoved : a.saver ≠ some saver)
  | begins (hpc : pc = .poseValid)
  | moves (before : SaveLastPose) (hstep : s.savingStep a = some (saver, before))
    (hnext : (saveLastPoseStep config s.shared before).2 = .next pc)

theorem saving_handlerNext {config : Config} {env : Env} {s s' : Shared} {handler next : Handler}
    {pc : SaveLastPose} (hstep : handler.step config env s = (s', .next next))
    (hpc : next.saving = some pc) :
    ∃ before, handler.saving = some before ∧ (saveLastPoseStep config s before).2 = .next pc := by
  have hfollows := Handler.follows_of_step hstep
  cases hfollows with
  | lastPoseTick before after =>
    cases hpc
    refine ⟨before, rfl, ?_⟩
    simp only [Handler.step, lastPoseTickStep] at hstep
    split at hstep <;> cases hstep
    rename_i hsaving
    rw [hsaving]
  | _ => cases hpc

theorem saving_operation {config : Config} {env : Env} {s : Shared} {operation next : Operation}
    {pc : SaveLastPose} (hnext : (operation.step config env s).2 = some next)
    (hpc : next.saving = some pc) :
    env.throws = none ∧ ∃ before, operation.saving = some before ∧
      (saveLastPoseStep config s before).2 = .next pc := by
  refine operation.step_rule (P := fun _ after ↦ ∀ next, after = some next →
      next.saving = some pc → env.throws = none ∧ ∃ before, operation.saving = some before ∧
        (saveLastPoseStep config s before).2 = .next pc) config env s ?_ ?_ ?_ next hnext hpc
  · intro code what next hnext hpc
    cases hnext
    cases hpc
  · intro _ next hnext
    cases hnext
  · intro s' after hrun hthrows hcontinues next hnext hpc
    cases hnext
    cases hcontinues.follows with
    | stopLocalization before after =>
      cases before with
      | save before =>
        refine ⟨hthrows rfl, before, rfl, ?_⟩
        simp only [Operation.run, StopLocalization.step, Prod.map] at hrun
        split at hrun <;> cases hrun <;> cases hpc
        rename_i hsaving
        rw [hsaving]
      | stop stage =>
        simp only [Operation.run, StopLocalization.step, Prod.map] at hrun
        split at hrun <;> cases hrun <;> cases hpc
      | unselect =>
        simp only [Operation.run, StopLocalization.step, Prod.map, Prod.mk.injEq,
          Option.some.injEq] at hrun
        rw [← hrun.2] at hpc
        split at hpc <;> cases hpc
      | toWait | resetSession | resetQuality =>
        cases hrun
        all_goals cases hpc
    | _ => cases hpc

/-- A saver stays where it is, begins, or takes a step of `saveLastPose`. -/
theorem saverMove_of_step {config : Config} {s s' : Sys} {a : Action}
    (hstarts : ∀ handler, s.handler = some handler → handler.StartsSaving)
    (hstep : s.step config a = some s') {saver : Saver} {pc : SaveLastPose}
    (hpc : s'.saver saver = some pc) : SaverMove config s a saver pc := by
  cases a with
  | call request =>
    cases saver with
    | operation =>
      cases Sys.move_of_step hstep <;> exact .stays hpc (by simp [Action.saver])
    | timer =>
      cases Sys.move_of_step hstep with
      | call hidle =>
        cases request <;> cases hpc
        exact .begins rfl
      | environment heffect => exact .stays hpc (by simp [Action.saver])
  | handler env =>
    obtain ⟨handler, hsome, hafter⟩ := Option.bind_eq_some_iff.mp hstep
    rcases hnext : handler.step config env s.shared with ⟨shared, next⟩
    rw [hnext] at hafter
    cases next with
    | next next =>
      cases hafter
      cases saver with
      | timer =>
        obtain ⟨before, hbefore, hmove⟩ := saving_handlerNext hnext hpc
        refine .moves before ?_ hmove
        simp [Sys.savingStep, Action.saver, Sys.saver, hsome, hbefore]
      | operation => exact .stays hpc (by simp [Action.saver])
    | launched operation reply =>
      simp only [Sys.afterHandler] at hafter
      split at hafter <;> cases hafter
      cases saver with
      | timer => cases hpc
      | operation =>
        cases Handler.follows_of_step hnext
        exact .begins (hstarts _ hsome pc hpc)
    | done | escaped =>
      cases hafter
      cases saver with
      | timer => cases hpc
      | operation => exact .stays hpc (by simp [Action.saver])
  | operation env =>
    obtain ⟨operation, hsome, rfl⟩ := Option.map_eq_some_iff.mp hstep
    cases saver with
    | timer =>
      refine .stays hpc ?_
      simp only [Action.saver]
      split <;> simp
    | operation =>
      obtain ⟨next, hnext, hsaving⟩ := Option.bind_eq_some_iff.mp hpc
      obtain ⟨hthrows, before, hbefore, hmove⟩ := saving_operation hnext hsaving
      refine .moves before ?_ hmove
      simp [Sys.savingStep, Action.saver, Sys.saver, hthrows, hsome, hbefore]
  | _ => cases Sys.move_of_step hstep <;> exact .stays hpc (by simp [Action.saver])

/-! ## The slot of the save worker -/

/-- The slot of the save worker and the request it is writing are left alone. -/
structure SameSlot (a b : RelocalizationAdapter) : Prop where
  pendingSave : a.pendingSave = b.pendingSave
  saving : a.saving = b.saving

@[simp] theorem SameSlot.refl (a : RelocalizationAdapter) : SameSlot a a := ⟨rfl, rfl⟩

/-- A footprint without the slot leaves it alone. -/
theorem Writes.sameSlot {may : Write → Prop} {s s' : Shared} (h : Writes may s s')
    (hpending : ∀ request, ¬ may (.pendingSave request))
    (hslot : ∀ pending taken, ¬ may (.slot pending taken)) :
    SameSlot s'.adapter s.adapter := by
  have hview : (s'.adapter.pendingSave, s'.adapter.saving) =
      (s.adapter.pendingSave, s.adapter.saving) := by
    apply h.keeps fun s ↦ (s.adapter.pendingSave, s.adapter.saving)
    intro write hwrite s
    cases write with
    | pendingSave request => exact absurd hwrite (hpending request)
    | slot pending taken => exact absurd hwrite (hslot pending taken)
    | _ => rfl
  exact ⟨congrArg Prod.fst hview, congrArg Prod.snd hview⟩

theorem SaveLastPose.eq_of_enqueued {pc : SaveLastPose} {request : SaveRequest}
    (h : pc.enqueued = some request) : pc = .enqueue request := by
  cases pc <;> cases h
  rfl

theorem Handler.saving_of_enqueued {handler : Handler} {request : SaveRequest}
    (h : handler.enqueued = some request) : handler.saving = some (.enqueue request) := by
  cases handler with
  | lastPoseTick pc => exact congrArg some (SaveLastPose.eq_of_enqueued h)
  | _ => cases h

theorem Operation.saving_of_enqueued {operation : Operation} {request : SaveRequest}
    (h : operation.enqueued = some request) : operation.saving = some (.enqueue request) := by
  cases operation with
  | stopLocalization pc =>
    cases pc with
    | save pc => exact congrArg some (SaveLastPose.eq_of_enqueued h)
    | _ => cases h
  | _ => cases h

/-- What a step does to the slot of the save worker and to the request it is writing. -/
inductive SlotMove (s s' : Sys) (a : Action) : Prop
  | same (hnone : s.enqueues a = none) (haction : a ≠ .takeSave ∧ ∀ error, a ≠ .writeSave error)
    (hsame : SameSlot s'.shared.adapter s.shared.adapter)
  | enqueue (saver : Saver) (request : SaveRequest)
    (henqueues : s.enqueues a = some (saver, request))
    (hadapter : s'.shared.adapter = { s.shared.adapter with pendingSave := some request })
  | take (request : SaveRequest) (haction : a = .takeSave)
    (hidle : s.shared.adapter.saving = none)
    (hpending : s.shared.adapter.pendingSave = some request)
    (hadapter : s'.shared.adapter =
      { s.shared.adapter with saving := some request, pendingSave := none })
  | write (request : SaveRequest) (error : Option String) (haction : a = .writeSave error)
    (hsaving : s.shared.adapter.saving = some request)
    (hshared : s'.shared = s.shared.writeSave request error)

theorem slotMove_of_step {config : Config} {s s' : Sys} {a : Action}
    (hstep : s.step config a = some s') : SlotMove s s' a := by
  cases a with
  | handler env =>
    obtain ⟨handler, hsome, hafter⟩ := Option.bind_eq_some_iff.mp hstep
    have hshared := Sys.shared_afterHandler hafter
    by_cases henqueues : ∃ request, handler.saving = some (.enqueue request)
    · obtain ⟨request, hsaving⟩ := henqueues
      cases handler <;> cases hsaving
      refine .enqueue .timer request ?_ (hshared ▸ rfl)
      rw [enqueues_eq_some_iff, savingStep_eq_some_iff]
      exact ⟨rfl, by rw [Sys.saver, hsome]; rfl⟩
    · have hnone : ∀ request, handler.saving ≠ some (.enqueue request) :=
        fun request hsaving ↦ henqueues ⟨request, hsaving⟩
      refine .same (enqueues_eq_none fun saver request hsaver ↦ ?_) (by simp)
        (hshared ▸ (handler.writes config env s.shared).sameSlot
          (fun request henqueued ↦ hnone request (Handler.saving_of_enqueued henqueued))
          fun _ _ hmay ↦ hmay)
      cases hsaver
      rw [Sys.saver, hsome]
      exact hnone request
  | operation env =>
    obtain ⟨operation, hsome, rfl⟩ := Option.map_eq_some_iff.mp hstep
    rcases operation.step_cases config env s.shared with
      ⟨hrun, hthrows⟩ | ⟨-, hthrows, code, what, hthrow⟩
    · by_cases henqueues : ∃ request, operation.saving = some (.enqueue request)
      · obtain ⟨request, hsaving⟩ := henqueues
        cases operation with
        | stopLocalization pc =>
          cases pc <;> cases hsaving
          refine .enqueue .operation request ?_ (by simp only [hrun]; rfl)
          rw [enqueues_eq_some_iff, savingStep_eq_some_iff, Action.saver, hthrows rfl]
          exact ⟨rfl, by rw [Sys.saver, hsome]; rfl⟩
        | _ => cases hsaving
      · have hnone : ∀ request, operation.saving ≠ some (.enqueue request) :=
          fun request hsaving ↦ henqueues ⟨request, hsaving⟩
        refine .same (enqueues_eq_none fun saver request hsaver ↦ ?_) (by simp)
          ((operation.writes config env s.shared).sameSlot
            (fun request henqueued ↦ hnone request (Operation.saving_of_enqueued henqueued))
            fun _ _ hmay ↦ hmay)
        simp only [Action.saver] at hsaver
        split at hsaver <;> cases hsaver
        rw [Sys.saver, hsome]
        exact hnone request
    · refine .same (enqueues_eq_none fun saver request hsaver ↦ ?_) (by simp)
        (by simp only [hthrow]; exact .refl _)
      simp only [Action.saver] at hsaver
      split at hsaver <;> simp_all
  | callback id env =>
    obtain ⟨callback, hsome, rfl⟩ := Option.map_eq_some_iff.mp hstep
    exact .same rfl (by simp) ((callback.writes config env s.shared).sameSlot
      (fun _ hmay ↦ hmay) fun _ _ hmay ↦ hmay)
  | takeSave =>
    simp only [Sys.step] at hstep
    split at hstep <;> cases hstep
    rename_i request hidle hpending
    exact .take request rfl hidle hpending rfl
  | writeSave error =>
    obtain ⟨request, hsaving, rfl⟩ := Option.map_eq_some_iff.mp hstep
    exact .write request error rfl hsaving rfl
  | call | deliver | observe | exit | writeMap =>
    simp only [Sys.step, Sys.call] at hstep
    split at hstep <;> cases hstep
    exact .same rfl (by simp) (.refl _)

/-- Only the callbacks of the adapter publish. -/
theorem output_of_step {config : Config} {s s' : Sys} {a : Action}
    (hstep : s.step config a = some s') (haction : ∀ id env, a ≠ .callback id env) :
    s'.shared.adapter.publishedOdometry = s.shared.adapter.publishedOdometry ∧
      s'.shared.adapter.publishedPoses = s.shared.adapter.publishedPoses := by
  have hview : (s'.shared.adapter.publishedOdometry, s'.shared.adapter.publishedPoses) =
      (s.shared.adapter.publishedOdometry, s.shared.adapter.publishedPoses) := by
    apply (writes_of_step hstep).keeps
      fun s ↦ (s.adapter.publishedOdometry, s.adapter.publishedPoses)
    intro write hwrite shared
    cases write with
    | published odometry poses =>
      cases a with
      | handler env =>
        obtain ⟨handler, -, hmay⟩ := hwrite
        exact hmay.elim
      | operation env =>
        obtain ⟨running, -, hmay⟩ := hwrite
        exact hmay.elim
      | callback id env => exact absurd rfl (haction id env)
      | _ => exact hwrite.elim
    | _ => rfl
  exact Prod.mk.inj hview

/-! ## Where a request can be -/

/-- A request has been captured and has not been written. -/
def Sys.OnItsWay (s : Sys) (request : SaveRequest) : Prop :=
  Requested s.shared.adapter request ∨ ∃ saver, s.saver saver = some (.enqueue request)

theorem captures_of_next {config : Config} {s : Sys} {a : Action} {saver : Saver}
    {before : SaveLastPose} {request : SaveRequest} (hstep : s.savingStep a = some (saver, before))
    (hnext : (saveLastPoseStep config s.shared before).2 = .next (.enqueue request)) :
    s.captures a = some (saver, request) := by
  rw [captures_eq_some_iff]
  cases before with
  | capture map =>
    refine ⟨map, hstep, ?_⟩
    simp only [saveLastPoseStep] at hnext
    split at hnext <;> cases hnext
    assumption
  | poseValid | readMap | checkPath map =>
    simp only [saveLastPoseStep] at hnext
    repeat' split at hnext
    all_goals cases hnext
  | enqueue other => cases hnext

/-- A request on its way was so before, or has just been captured. -/
theorem onItsWay_of_step {config : Config} {s s' : Sys} {a : Action}
    (hstarts : ∀ handler, s.handler = some handler → handler.StartsSaving)
    (hstep : s.step config a = some s') {request : SaveRequest} (h : s'.OnItsWay request) :
    s.OnItsWay request ∨ ∃ saver, s.captures a = some (saver, request) := by
  rcases h with hrequested | ⟨saver, hsaver⟩
  · apply Or.inl
    cases slotMove_of_step hstep with
    | same _ _ hsame =>
      rw [Requested, hsame.pendingSave, hsame.saving] at hrequested
      exact Or.inl hrequested
    | enqueue saver enqueued henqueues hadapter =>
      rw [Requested, hadapter] at hrequested
      rcases hrequested with hpending | hsaving
      · cases hpending
        rw [enqueues_eq_some_iff, savingStep_eq_some_iff] at henqueues
        exact Or.inr ⟨saver, henqueues.2⟩
      · exact Or.inl (Or.inr hsaving)
    | take taken _ _ hpending hadapter =>
      rw [Requested, hadapter] at hrequested
      rcases hrequested with hnone | hsaving
      · cases hnone
      · exact Or.inl (Or.inl (hpending.trans hsaving))
    | write written error _ _ hshared =>
      rw [Requested, hshared] at hrequested
      rcases hrequested with hpending | hnone
      · exact Or.inl (Or.inl hpending)
      · cases hnone
  · cases saverMove_of_step hstarts hstep hsaver with
    | stays hstays _ => exact Or.inl (Or.inr ⟨saver, hstays⟩)
    | begins hpc => cases hpc
    | moves before hbefore hnext => exact Or.inr ⟨saver, captures_of_next hbefore hnext⟩

end SlamSystemManager.Manager
