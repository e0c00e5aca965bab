import SlamSystemManager.Manager.LastPose
import SlamSystemManager.Manager.Phases
import SlamSystemManager.Manager.Rollback

/-!
# Provenance of saved poses

A pose is captured for a save in one section, handed over in another and written by a thread of its
own. In between a session may be begun, by a start or by an initial pose, and the directory of the
map may be removed and made anew. As long as neither happens while a captured pose is on its way,
every `last_pose.yaml` that is written receives a pose of the session that was begun last, in the
directory its map has had since. A stop hands over its last pose before it resets the session; that
reset begins no session.
-/

open TransitionSystem

namespace SlamSystemManager.Manager

open MapManager

/-! ## Poses on their way -/

/-- A thread is about to take this step of `saveLastPose`. -/
def Sys.runsSave (s : Sys) (pc : SaveLastPose) : Prop :=
  s.handler = some (.lastPoseTick pc) ∨
    (∃ reply, s.handler = some (.launch (.stopLocalization (.save pc)) reply)) ∨
    s.operation = some (.stopLocalization (.save pc))

/-- A captured pose has not been written yet: it is about to be handed over, or the save worker has
it. -/
def Sys.saves (s : Sys) (request : SaveRequest) : Prop :=
  Requested s.shared.adapter request ∨ s.runsSave (.enqueue request)

/-- Whether a step of a start begins a session for a map. -/
def Sys.startsSession (s : Sys) : Action → Bool
  | .handler _ => s.handler.any (·.sessionWritten.isSome)
  | _ => false

/-- Whether a step begins a session, for a start or for an initial pose. -/
def Sys.beginsSession (s : Sys) : Action → Bool
  | .callback id _ => (s.callbacks id).any Callback.resets
  | a => s.startsSession a

/-- A run in which the localized flag is not set while a raw-odometry callback with a correction
from before the last reset is in flight, and in which, while a captured pose is on its way, no
session is begun and the directory of its map is not removed. -/
def savesFresh (s : Sys) (a : Action) : Prop :=
  localizesFresh s a ∧
    ∀ request, s.saves request → s.beginsSession a = false ∧ s.removes a ≠ some request.map

/-! ## The history of a session -/

structure SessionHistory where
  /-- How many sessions there had been when the last one was begun. -/
  begun : ℕ := 0
  /-- Whether the directory of the map of the session has been removed since its start. -/
  removed : Bool := false

namespace SessionHistory

def note (history : SessionHistory) (s : Sys) (a : Action) (s' : Sys) : SessionHistory where
  begun := if s.beginsSession a then s'.shared.adapter.sessions else history.begun
  removed := !s.startsSession a &&
    (history.removed || decide (s.removes a = some s.shared.sessionMap))

end SessionHistory

/-- The manager beside the history of its session. -/
abbrev sessionStep (config : Config) :
    Sys × SessionHistory → Action → Option (Sys × SessionHistory) :=
  noting (Sys.step config) SessionHistory.note

/-! ## Steps of a save -/

namespace SavedPose

/-- A save has found the manager in LOCALIZED and has not captured its pose. -/
def reads : SaveLastPose → Bool
  | .checkPath _ | .capture _ => true
  | _ => false

theorem save_of_operation {config : Config} {env : Env} {s : Shared} {operation : Operation}
    {pc : SaveLastPose}
    (h : (operation.step config env s).2 = some (.stopLocalization (.save pc))) :
    ∃ before shared, operation = .stopLocalization (.save before) ∧
      saveLastPoseStep config s before = (shared, .next pc) := by
  refine operation.step_rule
    (P := fun _ next ↦ next = some (.stopLocalization (.save pc)) → ∃ before shared,
      operation = .stopLocalization (.save before) ∧
        saveLastPoseStep config s before = (shared, .next pc))
    config env s (by simp) (by simp) (fun s' next hrun _ hcontinues hnext ↦ ?_) h
  cases hnext
  cases hcontinues.follows with
  | stopLocalization before =>
    simp only [Operation.run, Prod.map, id, Prod.mk.injEq] at hrun
    obtain ⟨-, hnext⟩ := hrun
    cases before with
    | save before =>
      simp only [StopLocalization.step] at hnext
      split at hnext <;> cases hnext
      rename_i hsave
      exact ⟨before, _, rfl, hsave⟩
    | unselect =>
      simp only [StopLocalization.step] at hnext
      split at hnext <;> cases hnext
    | stop stage =>
      simp only [StopLocalization.step] at hnext
      split at hnext <;> cases hnext
    | toWait | resetSession | resetQuality => cases hnext

/-- What precedes a step of a save: the same step, or the one before in the same thread. -/
theorem runsSave_step {config : Config} {s s' : Sys} {a : Action} {pc : SaveLastPose}
    (hstep : s.step config a = some s') (h : s'.runsSave pc) (hstarts : pc ≠ .poseValid) :
    s.runsSave pc ∨ ∃ before shared, s.runsSave before ∧
      saveLastPoseStep config s.shared before = (shared, .next pc) ∧
      s.resetsSession a = false := by
  cases a with
  | call request =>
    obtain ⟨-, rfl⟩ := Sys.call_of_step hstep
    rcases h with hhandler | ⟨reply, hhandler⟩ | hoperation
    · cases request <;> cases hhandler
      exact absurd rfl hstarts
    · cases request <;> cases hhandler
    · exact Or.inl (Or.inr (Or.inr hoperation))
  | handler env =>
    obtain ⟨running, r, hrunning, hr, hmove⟩ := Sys.handlerMove_of_step hstep
    cases hmove with
    | @next next hnext hsame =>
      rcases h with hhandler | ⟨reply, hhandler⟩ | hoperation
      · cases hnext.symm.trans hhandler
        cases Handler.follows_of_step hr with
        | lastPoseTick before =>
          simp only [Handler.step, lastPoseTickStep] at hr
          split at hr
          all_goals cases (Prod.mk.inj hr).2
          rename_i hsave
          exact Or.inr ⟨before, _, Or.inl hrunning, hsave, by
            simp [Sys.resetsSession, hrunning, Handler.resets]⟩
      · cases hnext.symm.trans hhandler
        cases Handler.follows_of_step hr
        exact absurd rfl hstarts
      · exact Or.inl (Or.inr (Or.inr (hsame ▸ hoperation)))
    | ended _ _ hended hsame =>
      rcases h with hhandler | ⟨reply, hhandler⟩ | hoperation
      · cases hended.symm.trans hhandler
      · cases hended.symm.trans hhandler
      · exact Or.inl (Or.inr (Or.inr (hsame ▸ hoperation)))
    | launched hlaunch _ hended hafter =>
      rcases h with hhandler | ⟨reply, hhandler⟩ | hoperation
      · cases hended.symm.trans hhandler
      · cases hended.symm.trans hhandler
      · cases hafter.symm.trans hoperation
        exact Or.inl (Or.inr (Or.inl ⟨_, hlaunch ▸ hrunning⟩))
  | operation env =>
    obtain ⟨running, hrunning, -⟩ := Option.map_eq_some_iff.mp hstep
    obtain ⟨hnext, hsame⟩ := Sys.step_operation hrunning hstep
    rcases h with hhandler | ⟨reply, hhandler⟩ | hoperation
    · exact Or.inl (Or.inl (hsame ▸ hhandler))
    · exact Or.inl (Or.inr (Or.inl ⟨reply, hsame ▸ hhandler⟩))
    · obtain ⟨before, shared, rfl, hsave⟩ :=
        save_of_operation ((congrArg Prod.snd hnext).trans hoperation)
      exact Or.inr ⟨before, shared, Or.inr (Or.inr hrunning), hsave, by
        simp [Sys.resetsSession, hrunning, Operation.resets]⟩
  | deliver | callback | observe | exit | writeMap | takeSave | writeSave =>
    have hother := bystander_of_step hstep (by simp) (by simp) (by simp)
    rw [Sys.runsSave, hother.handler, hother.operation] at h
    exact Or.inl h

theorem captured_of_step {config : Config} {s shared : Shared} {before : SaveLastPose}
    {request : SaveRequest}
    (h : saveLastPoseStep config s before = (shared, .next (.enqueue request))) :
    reads before = true ∧ request.capturedIn = s.adapter.sessions ∧
      request.capturedFor = s.sessionMap := by
  cases before with
  | capture map =>
    simp only [saveLastPoseStep, RelocalizationAdapter.capturePose] at h
    split at h
    · cases h
    · rename_i captured hcaptured
      cases h
      split at hcaptured
      · obtain ⟨pose, -, rfl⟩ := Option.map_eq_some_iff.mp hcaptured
        exact ⟨rfl, rfl, rfl⟩
      · cases hcaptured
  | poseValid | readMap | checkPath | enqueue =>
    simp only [saveLastPoseStep] at h
    repeat' split at h
    all_goals cases h

/-- A save is on its way to a pose when it has found the manager in LOCALIZED. -/
theorem reads_of_step {config : Config} {s shared : Shared} {before pc : SaveLastPose}
    (h : saveLastPoseStep config s before = (shared, .next pc)) (hreads : reads pc = true) :
    reads before = true ∨ s.currentState = .localized := by
  cases before with
  | readMap =>
    simp only [saveLastPoseStep] at h
    split at h
    · cases h
    · rename_i hfound
      rw [not_or, not_not] at hfound
      exact Or.inr hfound.1
  | checkPath | capture => exact Or.inl rfl
  | poseValid =>
    simp only [saveLastPoseStep] at h
    split at h <;> cases h
    cases hreads
  | enqueue request => cases h

theorem enqueue_of_enqueued {handler : Handler} {request : SaveRequest}
    (h : handler.enqueued = some request) : handler = .lastPoseTick (.enqueue request) := by
  cases handler with
  | lastPoseTick pc =>
    cases pc with
    | enqueue other =>
      cases h
      rfl
    | _ => cases h
  | _ => cases h

theorem save_of_enqueued {operation : Operation} {request : SaveRequest}
    (h : operation.enqueued = some request) :
    operation = .stopLocalization (.save (.enqueue request)) := by
  cases operation with
  | stopLocalization pc =>
    cases pc with
    | save pc =>
      cases pc with
      | enqueue other =>
        cases h
        rfl
      | _ => cases h
    | _ => cases h
  | _ => cases h

/-- The save worker has its poses from the threads that hand them over. -/
theorem requested_step {config : Config} {s s' : Sys} {a : Action} {request : SaveRequest}
    (hstep : s.step config a = some s') (h : Requested s'.shared.adapter request) :
    s.saves request := by
  have hhandler {env : Env} {handler : Handler} {shared : Shared} {next : HandlerNext}
      (hsome : s.handler = some handler)
      (hnext : handler.step config env s.shared = (shared, next))
      (hafter : Requested shared.adapter request) : s.saves request := by
    rcases (Handler.effect_of_step hnext).adapter.saves request hafter with hbefore | henqueued
    · exact Or.inl hbefore
    · exact Or.inr (Or.inl (enqueue_of_enqueued henqueued ▸ hsome))
  cases Sys.move_of_step hstep with
  | handlerNext hsome hnext => exact hhandler hsome hnext h
  | handlerDone hsome hnext => exact hhandler hsome hnext h
  | handlerLaunch hsome hnext hended => exact hhandler hsome hnext h
  | handlerEscape hsome hnext => exact hhandler hsome hnext h
  | @operation env operation hsome =>
    rcases operation.effect config env s.shared with
      ⟨-, hend⟩ | ⟨-, shared, next, hnext, hcontinues⟩
    · rw [hend] at h
      exact Or.inl h
    · rw [hnext] at h
      rcases hcontinues.effect.adapter.saves request h with hbefore | henqueued
      · exact Or.inl hbefore
      · exact Or.inr (Or.inr (Or.inr (save_of_enqueued henqueued ▸ hsome)))
  | @callback id env callback hsome =>
    exact Or.inl ((callback.effect config env s.shared).saves _ h)
  | environment heffect => exact Or.inl (heffect.saves _ h)
  | call | deliver => exact Or.inl h

/-- A pose on its way was on its way before, or it has just been captured. -/
theorem saves_step {config : Config} {s s' : Sys} {a : Action} {request : SaveRequest}
    (hstep : s.step config a = some s') (h : s'.saves request) :
    s.saves request ∨ ((∃ pc, s.runsSave pc ∧ reads pc = true) ∧
      request.capturedIn = s.shared.adapter.sessions ∧
      request.capturedFor = s.shared.sessionMap ∧ s.resetsSession a = false) := by
  rcases h with hrequested | hsave
  · exact Or.inl (requested_step hstep hrequested)
  · rcases runsSave_step hstep hsave (by simp) with hbefore | ⟨pc, shared, hbefore, hsaves, hresets⟩
    · exact Or.inl (Or.inr hbefore)
    · obtain ⟨hreads, hsession, hmap⟩ := captured_of_step hsaves
      exact Or.inr ⟨⟨pc, hbefore, hreads⟩, hsession, hmap, hresets⟩

/-! ## Steps of a session -/

theorem sessions_step {config : Config} {s s' : Sys} {a : Action}
    (hstep : s.step config a = some s') :
    s.shared.adapter.sessions ≤ s'.shared.adapter.sessions := by
  cases dataMove_of_step hstep with
  | same hsame => exact hsame.sessions.ge
  | reset now _ hadapter =>
    rw [hadapter]
    exact Nat.le_succ _
  | accept id message validated _ hstamp hadapter =>
    rw [hadapter, RelocalizationAdapter.acceptCorrection, if_neg (not_le.mpr hstamp)]
  | setLocalized id env _ _ hadapter => rw [hadapter, RelocalizationAdapter.setLocalized]
  | store id pose _ hadapter =>
    rw [hadapter, RelocalizationAdapter.storeTrustedPose]
    split <;> exact le_rfl

theorem beginsSession_of_starts {s : Sys} {a : Action} (h : s.startsSession a = true) :
    s.beginsSession a = true := by
  cases a <;> first | exact h | cases h

theorem resetsSession_of_begins {s : Sys} {a : Action} (h : s.beginsSession a = true) :
    s.resetsSession a = true := by
  cases a with
  | handler env =>
    obtain ⟨handler, hhandler, hwritten⟩ := (Option.any_eq_true _ _).mp h
    simp only [Sys.resetsSession, hhandler, Option.any_some]
    cases handler with
    | startLocalization name pc => cases pc <;> first | rfl | cases hwritten
    | _ => cases hwritten
  | callback => exact h
  | _ => cases h

theorem sessionMap_step {config : Config} {s s' : Sys} {a : Action}
    (hstep : s.step config a = some s') (hstarts : s.startsSession a = false) :
    s'.shared.sessionMap = s.shared.sessionMap := by
  cases a with
  | handler env =>
    obtain ⟨running, r, hrunning, hr, -⟩ := Sys.handlerMove_of_step hstep
    rcases (Handler.effect_of_step hr).sessionMap with hsame | hwritten
    · exact hsame
    · simp [Sys.startsSession, hrunning, hwritten] at hstarts
  | operation env =>
    obtain ⟨running, hrunning, rfl⟩ := Option.map_eq_some_iff.mp hstep
    exact sessionMap_operation config env s.shared running
  | call request =>
    obtain ⟨-, rfl⟩ := Sys.call_of_step hstep
    rfl
  | deliver | callback | observe | exit | writeMap | takeSave | writeSave =>
    exact (bystander_of_step hstep (by simp) (by simp) (by simp)).interference.sessionMap

/-- The localization states are entered by a start of localization only. -/
theorem away_step {config : Config} {s s' : Sys} {a : Action} (hreach : Reachable config s)
    (hstep : s.step config a = some s') (haway : Away s.shared)
    (hstarts : ∀ name, s.handler ≠ some (.startLocalization name .transition)) :
    Away s'.shared := by
  cases a with
  | handler env =>
    obtain ⟨running, r, hrunning, hr, -⟩ := Sys.handlerMove_of_step hstep
    refine away_of_effect (Handler.effect_of_step hr).state (fun htarget ↦ ?_) haway
    cases running with
    | startLocalization name pc =>
      cases pc with
      | transition => exact hstarts name hrunning
      | _ => cases htarget
    | startMapping name pc => cases pc <;> cases htarget
    | saveMap pc => cases pc <;> cases htarget
    | sensorTick pc => cases pc <;> cases htarget
    | processTick pc => cases pc <;> cases htarget
    | _ => cases htarget
  | operation env =>
    obtain ⟨running, hrunning, rfl⟩ := Option.map_eq_some_iff.mp hstep
    have hmodes := hreach.modeExclusion.operation.2
    rw [hrunning] at hmodes
    rcases running.effect config env s.shared with ⟨-, hend⟩ | ⟨-, shared, next, hnext, hcontinues⟩
    · rw [hend]
      exact haway
    · rw [hnext]
      exact away_of_effect hcontinues.effect.state
        (Operation.target_ne_localizationStarting hmodes) haway
  | call request =>
    obtain ⟨-, rfl⟩ := Sys.call_of_step hstep
    exact haway
  | deliver | callback | observe | exit | writeMap | takeSave | writeSave =>
    exact (stable_of_interference
      (bystander_of_step hstep (by simp) (by simp) (by simp)).interference).away haway

/-- The session is in use: the manager is in a state of it or about to enter one, or a pose of it is
captured or about to be. -/
inductive InSession (s : Sys) : Prop
  | state (h : s.shared.currentState.isLocalizationState = true)
  | enters (name : String) (pc : StartLocalizationRequest)
    (hhandler : s.handler = some (.startLocalization name pc))
    (h : pc = .resetQuality ∨ pc = .transition)
  | reads (pc : SaveLastPose) (hsave : s.runsSave pc) (h : SavedPose.reads pc = true)
  | saves (request : SaveRequest) (h : s.saves request)

/-- A start goes on to its transition from the step that begins its session. -/
theorem enters_of_step {config : Config} {env : Env} {s s' : Shared} {name : String}
    {pc : StartLocalizationRequest} {handler : Handler}
    (h : handler.step config env s = (s', .next (.startLocalization name pc)))
    (hpc : pc = .resetQuality ∨ pc = .transition) :
    handler = .startLocalization name .resetSession ∨
      handler = .startLocalization name .resetQuality := by
  cases Handler.follows_of_step h with
  | startLocalization name before =>
    cases before with
    | resetSession => exact Or.inl rfl
    | resetQuality => exact Or.inr rfl
    | checkMapping | saveService | checkLocalization | acquire | load | select | transition
    | unselect =>
      simp only [Handler.step, StartLocalizationRequest.step, acquireForStart] at h
      repeat' split at h
      all_goals
        cases (Prod.mk.inj h).2
        try rcases hpc with hpc | hpc <;> cases hpc

theorem inSession_step {config : Config} {s s' : Sys} {a : Action} (hreach : Reachable config s)
    (hstep : s.step config a = some s') (h : InSession s') :
    InSession s ∨ s.startsSession a = true := by
  cases h with
  | state hstate =>
    refine Or.inl ?_
    by_contra hnot
    have haway : Away s.shared := by
      by_contra hlocalization
      exact hnot (.state (by simpa [Away] using hlocalization))
    have hafter := away_step hreach hstep haway fun name hhandler ↦
      hnot (.enters name .transition hhandler (Or.inr rfl))
    rw [Away, hstate] at hafter
    cases hafter
  | enters name pc hhandler hpc =>
    cases a with
    | handler env =>
      obtain ⟨running, r, hrunning, hr, hmove⟩ := Sys.handlerMove_of_step hstep
      cases hmove with
      | next hnext =>
        cases hnext.symm.trans hhandler
        rcases enters_of_step hr hpc with rfl | rfl
        · exact Or.inr (by simp [Sys.startsSession, hrunning, Handler.sessionWritten])
        · exact Or.inl (.enters name .resetQuality hrunning (Or.inl rfl))
      | ended _ _ hended | launched _ _ hended => cases hended.symm.trans hhandler
    | operation env =>
      obtain ⟨running, hrunning, rfl⟩ := Option.map_eq_some_iff.mp hstep
      exact Or.inl (.enters name pc hhandler hpc)
    | call request =>
      obtain ⟨-, rfl⟩ := Sys.call_of_step hstep
      cases request <;> cases hhandler
      rcases hpc with hpc | hpc <;> cases hpc
    | deliver | callback | observe | exit | writeMap | takeSave | writeSave =>
      have hother := bystander_of_step hstep (by simp) (by simp) (by simp)
      exact Or.inl (.enters name pc (hother.handler ▸ hhandler) hpc)
  | reads pc hsave hreads =>
    refine Or.inl ?_
    rcases runsSave_step hstep hsave (by rintro rfl; cases hreads) with
      hbefore | ⟨before, shared, hbefore, hsaves, -⟩
    · exact .reads pc hbefore hreads
    · rcases reads_of_step hsaves hreads with hreads | hlocalized
      · exact .reads before hbefore hreads
      · exact .state (by rw [hlocalized]; rfl)
  | saves request hsaves =>
    rcases saves_step hstep hsaves with hbefore | ⟨⟨pc, hbefore, hreads⟩, -⟩
    · exact Or.inl (.saves request hbefore)
    · exact Or.inl (.reads pc hbefore hreads)

/-! ## Runs -/

/-- The directory of the session in use is the one it was begun with, and the poses on their way are
of that session. -/
structure Kept (s : Sys) (history : SessionHistory) : Prop where
  inSession : InSession s → history.removed = false
  begun : history.begun ≤ s.shared.adapter.sessions
  saved : ∀ request, s.saves request →
    history.begun ≤ request.capturedIn ∧ request.capturedFor = s.shared.sessionMap
  apart : ∀ pc operation, s.handler = some (.lastPoseTick pc) → reads pc = true →
    s.operation = some operation → operation.startsMapping = false

/-- A tick that captures a pose has begun in LOCALIZED, beside no start of mapping. -/
theorem Kept.apart_step {config : Config} {s s' : Sys} {a : Action} {history : SessionHistory}
    (h : Kept s history) (hreach : Reachable config s) (hstep : s.step config a = some s')
    {pc : SaveLastPose} {operation : Operation} (hhandler : s'.handler = some (.lastPoseTick pc))
    (hreads : reads pc = true) (hoperation : s'.operation = some operation) :
    operation.startsMapping = false := by
  cases a with
  | handler env =>
    obtain ⟨running, r, hrunning, hr, hmove⟩ := Sys.handlerMove_of_step hstep
    cases hmove with
    | next hnext hsame =>
      rw [hsame] at hoperation
      cases hnext.symm.trans hhandler
      cases Handler.follows_of_step hr with
      | lastPoseTick before =>
        simp only [Handler.step, lastPoseTickStep] at hr
        split at hr
        all_goals cases (Prod.mk.inj hr).2
        rename_i hsave
        rcases reads_of_step hsave hreads with hbefore | hlocalized
        · exact h.apart before operation hrunning hbefore hoperation
        · have hphase := hreach.phase.operation operation hoperation
          rw [hlocalized] at hphase
          cases operation with
          | startMapping map created pc => cases pc <;> cases hphase
          | _ => rfl
    | ended _ _ hended | launched _ _ hended => cases hended.symm.trans hhandler
  | operation env =>
    obtain ⟨running, hrunning, -⟩ := Option.map_eq_some_iff.mp hstep
    obtain ⟨hnext, hsame⟩ := Sys.step_operation hrunning hstep
    exact Operation.startsMapping_step
      (h.apart pc running (hsame ▸ hhandler) hreads hrunning)
      ((congrArg Prod.snd hnext).trans hoperation)
  | call request =>
    obtain ⟨-, rfl⟩ := Sys.call_of_step hstep
    cases request <;> cases hhandler
    cases hreads
  | deliver | callback | observe | exit | writeMap | takeSave | writeSave =>
    have hother := bystander_of_step hstep (by simp) (by simp) (by simp)
    exact h.apart pc operation (hother.handler ▸ hhandler) hreads (hother.operation ▸ hoperation)

/-- While the session is in use the directory of its map is not removed. -/
theorem Kept.not_removes {config : Config} {s : Sys} {a : Action} {history : SessionHistory}
    (h : Kept s history) (hreach : Reachable config s) (hsaved : outline.Holds s)
    (hprovenance : ∀ request, s.saves request → Provenance request) (hok : savesFresh s a)
    (hin : InSession s) : s.removes a ≠ some s.shared.sessionMap := by
  intro hremoves
  have hrequest (request : SaveRequest) (hsaves : s.saves request) : False := by
    refine (hok.2 request hsaves).2 (hremoves.trans (congrArg some ?_))
    rw [(hprovenance request hsaves).map, (h.saved request hsaves).2]
  have hexclusive := hreach.exclusive
  rcases MapInUse.removes_cases hremoves with
    ⟨env, handler, -, hhandler, hcase⟩ | ⟨env, created, target, -, hoperation⟩
  · have hholds : handler.holdsToken = true := by rcases hcase with rfl | rfl <;> rfl
    have hended := hexclusive.alone (by simp [Sys.handlerHolds, hhandler, hholds])
    have hother (other : Handler) (hsome : s.handler = some other)
        (hne : other ≠ .deleteMap s.shared.sessionMap .remove)
        (hne' : other ≠ .startMapping s.shared.sessionMap .cleanup) : False := by
      cases hhandler.symm.trans hsome
      rcases hcase with hcase | hcase
      · exact hne hcase
      · exact hne' hcase
    cases hin with
    | state hlocalization =>
      have haway : Away s.shared := by
        have hassertion := hsaved.handler handler hhandler
        rcases hcase with rfl | rfl <;> exact hassertion
      rw [Away, hlocalization] at haway
      cases haway
    | enters name pc hstart => exact hother _ hstart (by simp) (by simp)
    | reads pc hsave =>
      rcases hsave with htick | ⟨reply, hlaunch⟩ | hoperation
      · exact hother _ htick (by simp) (by simp)
      · exact hother _ hlaunch (by simp) (by simp)
      · rw [hended] at hoperation
        cases hoperation
    | saves request hsaves => exact hrequest request hsaves
  · have hidle := hexclusive.of_operation hoperation
    cases hin with
    | state hlocalization =>
      have hphase : s.shared.currentState = .mappingStarting ∨ s.shared.currentState = .error := by
        simpa [Phase.operation] using hreach.phase.operation _ hoperation
      rcases hphase with hstate | hstate <;> rw [hstate] at hlocalization <;> cases hlocalization
    | enters name pc hstart hpc =>
      rcases hpc with rfl | rfl <;>
        simp [Sys.handlerHolds, hstart, Handler.holdsToken] at hidle
    | reads pc hsave hreads =>
      rcases hsave with htick | ⟨reply, hlaunch⟩ | hsave
      · cases h.apart pc _ htick hreads hoperation
      · simp [Sys.handlerHolds, hlaunch, Handler.holdsToken] at hidle
      · rw [hoperation] at hsave
        cases hsave
    | saves request hsaves => exact hrequest request hsaves

theorem Kept.step {config : Config} {s s' : Sys} {a : Action} {history : SessionHistory}
    (h : Kept s history) (hreach : Reachable config s) (hsaved : outline.Holds s)
    (hprovenance : ∀ request, s.saves request → Provenance request) (hok : savesFresh s a)
    (hstep : s.step config a = some s') : Kept s' (history.note s a s') := by
  refine ⟨fun hin ↦ ?_, ?_, fun request hsaves ↦ ?_, fun pc operation hhandler hreads hoperation ↦
    h.apart_step hreach hstep hhandler hreads hoperation⟩
  · rcases inSession_step hreach hstep hin with hbefore | hstarts
    · simp [SessionHistory.note, h.inSession hbefore,
        h.not_removes hreach hsaved hprovenance hok hbefore]
    · simp [SessionHistory.note, hstarts]
  · simp only [SessionHistory.note]
    split
    · exact le_rfl
    · exact h.begun.trans (sessions_step hstep)
  · obtain ⟨hbegins, hcaptured⟩ : s.beginsSession a = false ∧
        history.begun ≤ request.capturedIn ∧ request.capturedFor = s.shared.sessionMap := by
      rcases saves_step hstep hsaves with hbefore | ⟨-, hsession, hmap, hresets⟩
      · exact ⟨(hok.2 request hbefore).1, h.saved request hbefore⟩
      · refine ⟨?_, h.begun.trans hsession.ge, hmap⟩
        by_contra hbegins
        rw [resetsSession_of_begins (by simpa using hbegins)] at hresets
        cases hresets
    have hstarts : s.startsSession a = false := by
      by_contra hstarts
      rw [beginsSession_of_starts (by simpa using hstarts)] at hbegins
      cases hbegins
    rw [sessionMap_step hstep hstarts]
    simpa [SessionHistory.note, hbegins] using hcaptured

theorem provenance_of_saves {s : Sys} (hsaved : outline.Holds s)
    (hrequested : ∀ request, Requested s.shared.adapter request → Provenance request)
    {request : SaveRequest} (h : s.saves request) : Provenance request := by
  rcases h with hrequest | htick | ⟨reply, hlaunch⟩ | hoperation
  · exact hrequested request hrequest
  · exact hsaved.handler _ htick
  · exact hsaved.handler _ hlaunch
  · have hassertion := hsaved.operation.2
    rw [hoperation] at hassertion
    exact hassertion

theorem kept_of_reaches {config : Config} {s : Sys × SessionHistory}
    (h : Reaches (sessionStep config) (fun s ↦ savesFresh s.1) (fun s ↦ s.1.Initial ∧ s.2 = {}) s) :
    Kept s.1 s.2 := by
  refine Reaches.invariant_of (P := fun s : Sys × SessionHistory ↦ Kept s.1 s.2)
    (Q := fun s ↦ Reaches (Sys.step config) localizesFresh Sys.Initial s.1)
    (fun s hs ↦ hs.of_noting (fun _ _ hok ↦ hok.1) fun _ hinit ↦ hinit.1) (fun s hinit ↦ ?_)
    (fun s a s' hs hkept hok hstep ↦ ?_) h
  · obtain ⟨hinit, hhistory⟩ := hinit
    rw [hhistory]
    refine ⟨fun _ ↦ rfl, Nat.zero_le _, fun request hsaves ↦ ?_, fun pc operation hhandler ↦ ?_⟩
    · rcases hsaves with hrequested | htick | ⟨reply, hlaunch⟩ | hoperation
      · rw [hinit.adapter] at hrequested
        rcases hrequested with hnone | hnone <;> cases hnone
      · cases hinit.handler.symm.trans htick
      · cases hinit.handler.symm.trans hlaunch
      · cases hinit.operation.symm.trans hoperation
    · cases hinit.handler.symm.trans hhandler
  · obtain ⟨hnext, hnote⟩ := noting_eq_some hstep
    have hsaved := savedPose_of_reaches hs
    rw [hnote]
    exact hkept.step (hs.mono fun _ _ _ ↦ trivial) hsaved
      (fun request ↦ provenance_of_saves hsaved (provenance_of_reaches hs)) hok hnext

end SavedPose

/-- A pose on its way to a map is one of the session that was begun last: it was composed with a
correction accepted since then, and the session is for the map under which the pose is saved, whose
directory has not been removed since. -/
structure SavesCurrent (s : Sys) (history : SessionHistory) (request : SaveRequest) : Prop where
  session : request.pose.session = some request.capturedIn
  begun : history.begun ≤ request.capturedIn
  map : request.map = s.shared.sessionMap
  kept : history.removed = false

/-- Provenance of the trusted pose, in a run that does not set the localized flag while a
raw-odometry callback with a correction from before the last reset is in flight and that, while a
captured pose is on its way, begins no session and does not remove the directory of its map: the
trusted pose was composed with a correction of the current session, and whatever a step writes to a
`last_pose.yaml` is a pose of the session that was begun last. -/
theorem trustedPose_provenance (config : Config) (s : Sys) (history : SessionHistory)
    (h : Reaches (sessionStep config) (fun s ↦ savesFresh s.1) (fun s ↦ s.1.Initial ∧ s.2 = {})
      (s, history)) :
    (∀ pose, s.shared.adapter.latestTrustedPose = some pose →
        pose.session = some s.shared.adapter.sessions) ∧
      (∀ request, Requested s.shared.adapter request → SavesCurrent s history request) ∧
      ∀ a s' name contents, s.step config a = some s' →
        directory? s'.shared.maps name = some contents →
        contents.lastPose = none ∨
          (∃ before, directory? s.shared.maps name = some before ∧
            contents.lastPose = before.lastPose) ∨
          ∃ request, SavesCurrent s history request ∧ request.map = name ∧
            contents.lastPose = some (.ok (RelocalizationAdapter.lastPoseFile request)) := by
  have hkept := SavedPose.kept_of_reaches h
  have hrun : Reaches (Sys.step config) localizesFresh Sys.Initial s :=
    h.of_noting (fun _ _ hok ↦ hok.1) fun _ hinit ↦ hinit.1
  have hcurrent (request : SaveRequest) (hrequest : Requested s.shared.adapter request) :
      SavesCurrent s history request := by
    have hprovenance := provenance_of_reaches hrun request hrequest
    have hsaves : s.saves request := Or.inl hrequest
    obtain ⟨hbegun, hmap⟩ := hkept.saved request hsaves
    exact ⟨hprovenance.session, hbegun, hprovenance.map.trans hmap,
      hkept.inSession (.saves request hsaves)⟩
  refine ⟨(fresh_of_reaches hrun).trusted, hcurrent, fun a s' name contents hstep hdirectory ↦ ?_⟩
  cases lastPoseMove_of_step hstep hdirectory with
  | same before hbefore hsame => exact Or.inr (Or.inl ⟨before, hbefore, hsame⟩)
  | none hnone => exact Or.inl hnone
  | written request before _ hsaving hname _ hwritten =>
    exact Or.inr (Or.inr ⟨request, hcurrent request (Or.inr hsaving), hname, hwritten⟩)

/-! ## Replays -/

/-- Whether an action sets the localized flag. -/
def Sys.localizes (s : Sys) : Action → Bool
  | .callback id _ => decide (s.callbacks id = some .setLocalized)
  | _ => false

theorem localizesFresh_of_not_localizes {s : Sys} {a : Action} (h : s.localizes a = false) :
    localizesFresh s a := by
  cases a <;> simp_all [localizesFresh, Sys.localizes]

/-- No pose is on its way to a map. -/
def Sys.savesNothing (s : Sys) : Bool :=
  s.shared.adapter.pendingSave.isNone && s.shared.adapter.saving.isNone &&
    (match s.handler with
      | some (.lastPoseTick _) | some (.launch _ _) => false
      | _ => true) &&
    match s.operation with
    | some (.stopLocalization _) => false
    | _ => true

theorem not_saves_of_savesNothing {s : Sys} (h : s.savesNothing = true) (request : SaveRequest) :
    ¬ s.saves request := by
  simp only [Sys.savesNothing, Bool.and_eq_true, Option.isNone_iff_eq_none] at h
  obtain ⟨⟨⟨hpending, hsaving⟩, hhandler⟩, hoperation⟩ := h
  rintro ((hrequested | hrequested) | htick | ⟨reply, hlaunch⟩ | hsave)
  · rw [hpending] at hrequested
    cases hrequested
  · rw [hsaving] at hrequested
    cases hrequested
  · rw [htick] at hhandler
    cases hhandler
  · rw [hlaunch] at hhandler
    cases hhandler
  · rw [hsave] at hoperation
    cases hoperation

/-- Whether a step leaves the session and the directories alone, or finds no pose on its way. -/
def Sys.sparesSaves (s : Sys) (a : Action) : Bool :=
  s.savesNothing || !s.beginsSession a && (s.removes a).isNone

theorem savesFresh_of_sparesSaves {s : Sys} {a : Action} (hfresh : localizesFresh s a)
    (h : s.sparesSaves a = true) : savesFresh s a := by
  refine ⟨hfresh, fun request hsaves ↦ ?_⟩
  simp only [Sys.sparesSaves, Bool.or_eq_true, Bool.and_eq_true, Bool.not_eq_true',
    Option.isNone_iff_eq_none] at h
  rcases h with hnothing | ⟨hbegins, hremoves⟩
  · exact absurd hsaves (not_saves_of_savesNothing hnothing request)
  · exact ⟨hbegins, by simp [hremoves]⟩

/-- A localization that has been confirmed, as far as the localized flag. -/
def confirmedRun : List Action :=
  localizedRun ++ List.replicate 2 (.operation {})

/-- What makes the pose of a confirmed localization valid, a raw odometry and the tick that saves
the composed pose. -/
def savingRun : List Action :=
  [.observe (.odometry (originAt 1) 0), .observe (.pose (originAt 1) 0),
    .observe (.correction (originAt 1) 0)] ++ evaluateQuality 10 ++
    runCallback 1 (.rawOdometry (poseAt (.fin 1) 2)) 4 2 ++ requestSave

/-- A pose composed, stored and saved in the session of its correction. -/
theorem trustedPose_provenance_saved :
    ∃ (s : Sys) (history : SessionHistory) (pose : InSession StampedPose) (request : SaveRequest),
      s.shared.adapter.latestTrustedPose = some pose ∧
        pose.session = some s.shared.adapter.sessions ∧
        s.shared.adapter.saving = some request ∧ SavesCurrent s history request := by
  obtain ⟨s, hreach, htest⟩ := exists_of_execWith {} (storedMaps ["m"])
    (fun s a ↦ a.deliversTo [0] = true ∧ s.localizes a = false ∧ s.sparesSaves a = true)
    (fun s a ↦ a.deliversTo [0] && (!s.localizes a && s.sparesSaves a))
    (fun s a hpasses ↦ by simpa using hpasses) confirmedRun
    (fun s ↦ decide (s.callbacks 0 = some .setLocalized) && s.sparesSaves (.callback 0 {}) &&
      (s.step {} (.callback 0 {})).any fun s' : Sys ↦
        (execWith (Sys.step {}) (fun s a ↦ !s.localizes a && s.sparesSaves a) s' savingRun).any
          fun s'' : Sys ↦ s''.shared.adapter.latestTrustedPose.isSome &&
            s''.shared.adapter.saving.isSome)
    (by decide +kernel)
  simp only [Bool.and_eq_true, decide_eq_true_eq, Option.any_eq_true] at htest
  obtain ⟨⟨hcallback, hspares⟩, s', hstep, s'', hrest, htrusted, hsaving⟩ := htest
  obtain ⟨pose, hpose⟩ := Option.isSome_iff_exists.mp htrusted
  obtain ⟨request, hrequest⟩ := Option.isSome_iff_exists.mp hsaving
  have hfresh : ¬ s.carriesStale := by
    rintro ⟨id, callback, session, hsome, hcarries, -⟩
    by_cases hid : id = 0
    · rw [hid, hcallback] at hsome
      cases hsome
      cases hcarries
    · rw [callbacks_none [0] (hreach.mono fun _ _ hok ↦ hok.1) id (by simpa using hid)] at hsome
      cases hsome
  have hok : localizesFresh s (.callback 0 {}) := fun _ ↦ hfresh
  have hlocalized : Reaches (Sys.step {}) savesFresh Sys.Initial s' :=
    (hreach.mono fun _ _ hok ↦ savesFresh_of_sparesSaves
      (localizesFresh_of_not_localizes hok.2.1) hok.2.2).tail
      (savesFresh_of_sparesSaves hok hspares) hstep
  have hsaved := hlocalized.steps (steps_of_execWith (fun s a hpasses ↦ by
    simp only [Bool.and_eq_true, Bool.not_eq_true'] at hpasses
    exact savesFresh_of_sparesSaves (localizesFresh_of_not_localizes hpasses.1) hpasses.2) hrest)
  obtain ⟨history, hnoted⟩ := hsaved.noted SessionHistory.note {}
  have hprovenance := trustedPose_provenance {} s'' history hnoted
  exact ⟨s'', history, pose, request, hpose, hprovenance.1 pose hpose, hrequest,
    hprovenance.2.1 request (Or.inr hrequest)⟩

/-- A raw-odometry callback outlives a reset and the confirmation of the next session, and stores a
pose of the session before. -/
theorem trustedPose_of_other_session :
    ∃ (s : Sys) (pose : InSession StampedPose), Reachable {} s ∧
      s.shared.adapter.latestTrustedPose = some pose ∧
        pose.session ≠ some s.shared.adapter.sessions := by
  obtain ⟨s, hreach, htest⟩ := exists_of_exec {} (storedMaps ["m"])
    (localizedRun ++ [.callback 0 {}] ++ runCallback 1 (.rawOdometry (originAt 2)) 3 2 ++
      runCallback 2 (.initialPose (originAt 3)) 4 3 ++
      runCallback 3 (.correction (originAt 4)) 5 4 ++ [.callback 1 {}])
    (fun s ↦ s.shared.adapter.latestTrustedPose.any fun pose : InSession StampedPose ↦
      decide (pose.session ≠ some s.shared.adapter.sessions)) (by decide +kernel)
  simp only [Option.any_eq_true, decide_eq_true_eq] at htest
  obtain ⟨pose, hpose, hstale⟩ := htest
  exact ⟨s, pose, hreach, hpose, hstale⟩

end SlamSystemManager.Manager
