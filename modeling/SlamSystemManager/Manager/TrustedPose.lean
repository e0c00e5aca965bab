import SlamSystemManager.Manager.Exclusion
import SlamSystemManager.Manager.Sessions

/-!
# Provenance of the trusted pose

`handleRawOdometry` copies the correction in one section and stores the composed pose in another,
where it looks at `localized_` again. Between them the session may be reset, which clears the flag,
and confirmed anew, which sets it: the flag then speaks for a session to which the copied
correction does not belong. As long as no confirmation sets the flag while such a callback is in
flight, the trusted pose belongs to the current session, and so does whatever is saved of it.
-/

open TransitionSystem

namespace SlamSystemManager.Manager

/-! ## Stale poses -/

/-- The session of the correction with which a raw-odometry callback in flight is going to store a
trusted pose. -/
def Callback.carries : Callback → Option (Option ℕ)
  | .publishOdometry _ copied true => some copied.session
  | .publishPose pose true => some pose.session
  | .storePose pose => some pose.session
  | _ => none

/-- A raw-odometry callback in flight has copied a correction from before the last reset. -/
def Sys.carriesStale (s : Sys) : Prop :=
  ∃ id callback session, s.callbacks id = some callback ∧ callback.carries = some session ∧
    session ≠ some s.shared.adapter.sessions

/-- A run in which the localized flag is not set while a raw-odometry callback that copied a
correction before the last reset is in flight. -/
def localizesFresh (s : Sys) : Action → Prop
  | .callback id _ => s.callbacks id = some .setLocalized → ¬ s.carriesStale
  | _ => True

/-- The trusted pose and the poses about to be stored belong to the current session. -/
structure Sys.Fresh (s : Sys) : Prop where
  inStep : InStep s.shared.adapter
  carried : s.shared.adapter.localized = true → ¬ s.carriesStale
  trusted : ∀ pose, s.shared.adapter.latestTrustedPose = some pose →
    pose.session = some s.shared.adapter.sessions

theorem AdapterMessage.carries_callback (message : AdapterMessage) :
    message.callback.carries = none := by
  cases message <;> rfl

/-- A session is carried on, or it is that of the correction just copied. -/
theorem carries_step {config : Config} {s s' : Sys} {a : Action} (hinStep : InStep s.shared.adapter)
    (hstep : s.step config a = some s') {id : ℕ} {callback : Callback} {session : Option ℕ}
    (hsome : s'.callbacks id = some callback) (hcarries : callback.carries = some session) :
    session = some s.shared.adapter.sessions ∨
      ∃ before, s.callbacks id = some before ∧ before.carries = some session := by
  cases Sys.move_of_step hstep with
  | @deliver other message hfree =>
    by_cases hsame : id = other
    · subst hsame
      simp only [Sys.setCallback, Function.update_self, Option.some.injEq] at hsome
      rw [← hsome, message.carries_callback] at hcarries
      cases hcarries
    · exact Or.inr ⟨callback, by simpa [Sys.setCallback, hsame] using hsome, hcarries⟩
  | @callback other env before hbefore =>
    by_cases hsame : id = other
    · subst hsame
      simp only [Function.update_self] at hsome
      cases before with
      | rawOdometry message =>
        simp only [Callback.step, RelocalizationAdapter.copyCorrection] at hsome
        split at hsome
        · cases hsome
        · rename_i copied localized hcopied
          split at hcopied
          · rename_i havailable
            cases hcopied
            cases hsome
            apply Or.inl
            rw [← (hinStep.available havailable).1]
            cases hlocalized : s.shared.adapter.localized <;> rw [hlocalized] at hcarries <;>
              cases hcarries
            rfl
          · cases hcopied
      | publishOdometry message copied localized =>
        cases hsome
        cases localized with
        | true => exact Or.inr ⟨_, hbefore, hcarries⟩
        | false => cases hcarries
      | publishPose pose localized =>
        simp only [Callback.step] at hsome
        split at hsome
        · rename_i hlocalized
          subst hlocalized
          cases hsome
          exact Or.inr ⟨_, hbefore, hcarries⟩
        · cases hsome
      | correction | initialPose =>
        simp only [Callback.step] at hsome
        repeat' split at hsome
        all_goals cases hsome
        all_goals cases hcarries
      | resetQualityForPose | confirmState | confirmRunning | confirmTransition =>
        simp only [Callback.step] at hsome
        split at hsome <;> cases hsome
        cases hcarries
      | resetForPose | returnToRelocalizing | setLocalized | storePose =>
        cases hsome
        all_goals cases hcarries
    · exact Or.inr ⟨callback, by simpa [hsame] using hsome, hcarries⟩
  | _ => exact Or.inr ⟨callback, hsome, hcarries⟩

/-- A step that resets no session makes no pose in flight stale. -/
theorem not_carriesStale_step {config : Config} {s s' : Sys} {a : Action}
    (hinStep : InStep s.shared.adapter) (hstep : s.step config a = some s')
    (hsessions : s'.shared.adapter.sessions = s.shared.adapter.sessions)
    (h : ¬ s.carriesStale) : ¬ s'.carriesStale := by
  rintro ⟨id, callback, session, hsome, hcarries, hstale⟩
  rw [hsessions] at hstale
  rcases carries_step hinStep hstep hsome hcarries with hcurrent | ⟨before, hbefore, hcarried⟩
  · exact hstale hcurrent
  · exact h ⟨id, before, session, hbefore, hcarried, hstale⟩

theorem Sys.Fresh.step {config : Config} {s s' : Sys} {a : Action} (h : s.Fresh)
    (hok : localizesFresh s a) (hstep : s.step config a = some s') : s'.Fresh := by
  have hinStep := h.inStep.step hstep
  have hkept := not_carriesStale_step h.inStep hstep
  cases dataMove_of_step hstep with
  | same hsame =>
    refine ⟨hinStep, fun hlocalized ↦ hkept hsame.sessions (h.carried ?_), ?_⟩
    · rw [← hsame.localized, hlocalized]
    · rw [hsame.latestTrustedPose, hsame.sessions]
      exact h.trusted
  | reset now _ hadapter =>
    refine ⟨hinStep, ?_, ?_⟩ <;> rw [hadapter] <;> simp [RelocalizationAdapter.resetSession]
  | accept id message validated _ hstamp hadapter _ =>
    rw [RelocalizationAdapter.acceptCorrection, if_neg (not_le.mpr hstamp)] at hadapter
    refine ⟨hinStep, fun hlocalized ↦ hkept (by rw [hadapter]) (h.carried ?_), ?_⟩
    · rw [hadapter] at hlocalized
      exact hlocalized
    · rw [hadapter]
      exact h.trusted
  | setLocalized id env haction hcallback hadapter =>
    rw [haction] at hok
    have hfresh := hok hcallback
    refine ⟨hinStep, fun _ ↦ hkept (by rw [hadapter]; rfl) hfresh, ?_⟩
    rw [hadapter]
    exact h.trusted
  | store id pose hcallback hadapter =>
    rw [RelocalizationAdapter.storeTrustedPose] at hadapter
    split at hadapter
    · rename_i hlocalized
      have hfresh := h.carried hlocalized
      refine ⟨hinStep, fun _ ↦ hkept (by rw [hadapter]) hfresh, fun stored hstored ↦ ?_⟩
      rw [hadapter] at hstored ⊢
      cases hstored
      by_contra hstale
      exact hfresh ⟨id, _, _, hcallback, rfl, hstale⟩
    · refine ⟨hinStep, fun hlocalized ↦ hkept (by rw [hadapter]) (h.carried ?_), ?_⟩
      · rw [← hadapter, hlocalized]
      · rw [hadapter]
        exact h.trusted

/-! ## Saved poses -/

/-- The pose of a request was composed with a correction of the session in which it was captured,
and the session was for the map under which it is saved. -/
structure Provenance (request : SaveRequest) : Prop where
  session : request.pose.session = some request.capturedIn
  map : request.map = request.capturedFor

namespace SavedPose

/-- In the localization states the selected map is that of the session or has been cleared. -/
def Selected (s : Shared) : Prop :=
  s.currentState.isLocalizationState = true → s.currentMap = s.sessionMap ∨ s.currentMap = ""

def saving (s : Shared) : SaveLastPose → Prop
  | .poseValid | .readMap => True
  | .checkPath map | .capture map => map = s.sessionMap
  | .enqueue request => Provenance request

def operation (s : Shared) : Option Operation → Prop
  | some (.stopLocalization (.save pc)) => saving s pc
  | _ => True

def Away (s : Shared) : Prop := s.currentState.isLocalizationState = false

def handler (s : Shared) : Handler → Prop
  | .deleteMap _ .acquire | .loadMap _ .acquire => True
  | .deleteMap _ _ | .loadMap _ _ => Away s
  | .startMapping _ .checkLocalization | .startMapping _ .checkMapping
  | .startMapping _ .saveService | .startMapping _ .acquire => True
  | .startMapping _ _ => Away s
  | .startLocalization _ .checkMapping | .startLocalization _ .saveService
  | .startLocalization _ .checkLocalization | .startLocalization _ .acquire => True
  | .startLocalization name .resetSession => Away s ∧ s.currentMap = name
  | .startLocalization name .resetQuality | .startLocalization name .transition =>
    Away s ∧ s.currentMap = name ∧ s.sessionMap = name
  | .startLocalization _ _ => Away s
  | .lastPoseTick pc => saving s pc
  | .launch launched _ => operation s (some launched)
  | _ => True

def outline : ProofOutline :=
  { operation := fun s o ↦ Selected s ∧ operation s o
    handler := handler }

/-- What the outline takes from the other invariants. -/
structure Given (s : Sys) : Prop where
  fresh : s.Fresh
  modes : ModeExclusion.outline.Holds s

theorem saving_step {config : Config} {s : Sys} {shared : Shared} {pc next : SaveLastPose}
    (hfresh : s.Fresh) (hselected : Selected s.shared) (h : saving s.shared pc)
    (hstep : saveLastPoseStep config s.shared pc = (shared, .next next)) : saving shared next := by
  cases pc with
  | poseValid =>
    simp only [saveLastPoseStep, Prod.mk.injEq] at hstep
    obtain ⟨-, hnext⟩ := hstep
    split at hnext <;> cases hnext
    trivial
  | readMap =>
    simp only [saveLastPoseStep] at hstep
    split at hstep
    · cases hstep
    · rename_i hread
      cases hstep
      simp only [ne_eq, not_or, Decidable.not_not] at hread
      have hlocalization : s.shared.currentState.isLocalizationState = true := by
        rw [hread.1]
        rfl
      exact (hselected hlocalization).resolve_right hread.2
  | checkPath map =>
    simp only [saveLastPoseStep] at hstep
    split at hstep
    · cases hstep
    · split at hstep <;> cases hstep
      exact h
  | capture map =>
    simp only [saveLastPoseStep, RelocalizationAdapter.capturePose] at hstep
    split at hstep
    · cases hstep
    · rename_i request hrequest
      cases hstep
      split at hrequest
      · obtain ⟨pose, hpose, rfl⟩ := Option.map_eq_some_iff.mp hrequest
        exact ⟨hfresh.trusted pose hpose, h⟩
      · cases hrequest
  | enqueue request => cases hstep

/-! ### Stability -/

/-- The change of the shared state that every assertion survives. -/
structure Stable (s s' : Shared) : Prop where
  away : Away s → Away s'
  map : s'.currentMap = s.currentMap
  sessionMap : s'.sessionMap = s.sessionMap

theorem away_of_effect {target : Option SystemState} {s s' : Shared}
    (h : StateEffect target s.currentState s'.currentState)
    (htarget : target ≠ some .localizationStarting) : Away s → Away s' := by
  intro haway
  unfold Away at haway ⊢
  rcases h with hsame | ⟨hafter, hcan⟩
  · rwa [hsame]
  · by_contra hlocalization
    have hbefore := SystemState.isLocalizationState_of_canTransition hcan
      (by simpa using hlocalization) (fun hstarting ↦ htarget (hstarting ▸ hafter))
    rw [haway] at hbefore
    cases hbefore

theorem Stable.selected {s s' : Shared} (h : Stable s s') (hs : Selected s) : Selected s' := by
  intro hlocalization
  rw [h.map, h.sessionMap]
  apply hs
  by_contra haway
  have := h.away (by simpa [Away] using haway)
  simp_all [Away]

theorem saving_of_sessionMap {s s' : Shared} (h : s'.sessionMap = s.sessionMap)
    (pc : SaveLastPose) (hs : saving s pc) : saving s' pc := by
  cases pc <;> simp_all [saving]

theorem operation_of_sessionMap {s s' : Shared} (h : s'.sessionMap = s.sessionMap)
    (o : Option Operation) (ho : operation s o) : operation s' o := by
  unfold operation at ho ⊢
  split
  · exact saving_of_sessionMap h _ ho
  · trivial

theorem handler_stable {s s' : Shared} (h : Stable s s') (hd : Handler)
    (hassertion : handler s hd) : handler s' hd := by
  have haway := h.away
  have hmap := h.map
  have hsession := h.sessionMap
  have hsaving := saving_of_sessionMap h.sessionMap
  have hlaunch := operation_of_sessionMap h.sessionMap
  unfold handler at hassertion ⊢
  split <;> simp_all

/-! ### The operation thread -/

theorem Operation.target_ne_localizationStarting {s : Shared} {op : Operation}
    (h : ModeExclusion.operation s (some op)) : op.target ≠ some .localizationStarting := by
  unfold Operation.target
  split
  case h_6 =>
    intro htarget
    cases htarget
    cases h.2
  all_goals simp

theorem selected_operation {config : Config} {env : Env} {s : Shared} {op : Operation}
    (hmodes : ModeExclusion.operation s (some op)) (hs : Selected s) :
    Selected (op.step config env s).1 := by
  rcases op.effect config env s with ⟨-, hend⟩ | ⟨-, s', next, hnext, hcontinues⟩
  · rw [hend]
    exact hs
  · rw [hnext]
    have heffect := hcontinues.effect
    rcases heffect.map with hsame | ⟨-, hcleared⟩
    · have haway := away_of_effect heffect.state (Operation.target_ne_localizationStarting hmodes)
      exact Stable.selected ⟨haway, hsame, heffect.sessionMap⟩ hs
    · exact fun _ ↦ Or.inr hcleared

theorem operation_step {config : Config} {env : Env} {s : Sys} {op : Operation} (h : s.Fresh)
    (hselected : Selected s.shared) (ho : operation s.shared (some op)) :
    operation (op.step config env s.shared).1 (op.step config env s.shared).2 := by
  refine op.step_rule config env s.shared (fun _ _ ↦ trivial) (fun _ ↦ trivial)
    fun s' next hnext _ hcontinues ↦ ?_
  cases hcontinues.follows with
  | stopLocalization pc pc' =>
    cases pc with
    | save pc =>
      simp only [Operation.run, StopLocalization.step, Prod.map] at hnext
      split at hnext <;> cases hnext
      · rename_i hstep
        exact saving_step h hselected ho hstep
      · trivial
    | stop stage =>
      simp only [Operation.run, StopLocalization.step, Prod.map] at hnext
      split at hnext <;> cases hnext <;> trivial
    | unselect =>
      simp only [Operation.run, StopLocalization.step, Prod.map] at hnext
      cases hnext
      split <;> trivial
    | toWait | resetSession | resetQuality =>
      cases hnext
      all_goals trivial
  | _ => trivial

/-! ### Handlers -/

theorem away_handler (config : Config) (env : Env) {s : Shared} {h : Handler}
    (htarget : h.target ≠ some .localizationStarting) (haway : Away s) :
    Away (h.step config env s).1 :=
  away_of_effect (h.effect config env s).state htarget haway

theorem holdsToken_of_sessionWritten {h : Handler} {name : String}
    (hwritten : h.sessionWritten = some name) : h.holdsToken = true := by
  unfold Handler.sessionWritten at hwritten
  split at hwritten <;> first | rfl | cases hwritten

/-- A step that selects a map or begins a session runs outside the localization states. -/
theorem selected_of_written {config : Config} {env : Env} {s : Shared} {h : Handler}
    (hassertion : handler s h)
    (hwritten : h.mapWritten = some (h.step config env s).1.currentMap ∨
      h.sessionWritten = some (h.step config env s).1.sessionMap) :
    Selected (h.step config env s).1 := by
  have hvacuous (htarget : h.target ≠ some .localizationStarting) (haway : Away s) :
      Selected (h.step config env s).1 := by
    intro hlocalization
    have := away_handler config env htarget haway
    simp_all [Away]
  cases h with
  | loadMap name pc =>
    cases pc with
    | select path => exact hvacuous (by simp [Handler.target]) hassertion
    | acquire | load => rcases hwritten with hwritten | hwritten <;> cases hwritten
  | startMapping name pc =>
    cases pc with
    | select created => exact hvacuous (by simp [Handler.target]) hassertion
    | unselect => exact fun _ ↦ Or.inr rfl
    | _ => rcases hwritten with hwritten | hwritten <;> cases hwritten
  | startLocalization name pc =>
    cases pc with
    | select => exact hvacuous (by simp [Handler.target]) hassertion
    | resetSession => exact hvacuous (by simp [Handler.target]) hassertion.1
    | unselect => exact fun _ ↦ Or.inr rfl
    | _ => rcases hwritten with hwritten | hwritten <;> cases hwritten
  | _ => rcases hwritten with hwritten | hwritten <;> cases hwritten

theorem selected_handler {config : Config} {env : Env} {s : Shared} {h : Handler}
    (hs : Selected s) (hassertion : handler s h) : Selected (h.step config env s).1 := by
  have heffect := h.effect config env s
  rcases heffect.map with hmap | hwritten
  · rcases heffect.sessionMap with hsession | hwritten
    · by_cases htarget : h.target = some .localizationStarting
      · -- the transition of a start finds its map selected and its session begun
        intro _
        rw [hmap, hsession]
        cases h with
        | startLocalization name pc =>
          cases pc with
          | transition => exact Or.inl (hassertion.2.1.trans hassertion.2.2.symm)
          | _ => cases htarget
        | startMapping name pc => cases pc <;> cases htarget
        | saveMap pc => cases pc <;> cases htarget
        | sensorTick pc => cases pc <;> cases htarget
        | processTick pc => cases pc <;> cases htarget
        | _ => cases htarget
      · exact Stable.selected ⟨away_handler config env htarget, hmap, hsession⟩ hs
    · exact selected_of_written hassertion (Or.inr hwritten)
  · exact selected_of_written hassertion (Or.inl hwritten)

/-- A running operation sees no session begin. -/
theorem operation_handler {config : Config} {env : Env} {s : Sys} {h : Handler}
    (htoken : s.Exclusive) (hholds : outline.Holds s) (hsome : s.handler = some h) :
    operation (h.step config env s.shared).1 s.operation := by
  have hoperation := hholds.operation.2
  rcases (h.effect config env s.shared).sessionMap with hsession | hwritten
  · exact operation_of_sessionMap hsession _ hoperation
  · rw [htoken.alone (by simp [Sys.handlerHolds, hsome, holdsToken_of_sessionWritten hwritten])]
    trivial

theorem away_of_idle {s : Shared} (h : s.currentState.isIdle = true) : Away s := by
  unfold Away
  cases hstate : s.currentState <;> rw [hstate] at h <;> first | rfl | cases h

theorem away_transitionTo {s : Shared} {next : SystemState}
    (hnext : next.isLocalizationState = false) (h : Away s) : Away (s.transitionTo next) := by
  unfold Away
  rw [currentState_transitionTo]
  split
  · exact hnext
  · exact h

theorem startMapping_continues (config : Config) (env : Env) (name : String) (s : Shared)
    (pc : StartMappingRequest) (h : handler s (.startMapping name pc)) :
    outline.Continues (pc.step config env name s) := by
  cases pc with
  | checkLocalization | checkMapping | saveService =>
    simp only [StartMappingRequest.step]
    repeat' split
    all_goals trivial
  | acquire => exact ProofOutline.continues_acquireForStart away_of_idle
  | findMap =>
    simp only [StartMappingRequest.step]
    repeat' split
    · trivial
    · exact h
    · exact h
  | create =>
    simp only [StartMappingRequest.step]
    split
    · trivial
    · exact h
  | checkOutput created =>
    simp only [StartMappingRequest.step]
    repeat' split
    · trivial
    · trivial
    · trivial
    · exact h
  | select created | cleanup => exact h
  | transition created =>
    have haway : Away (s.transitionTo .mappingStarting) := away_transitionTo rfl h
    simp only [StartMappingRequest.step]
    split
    · trivial
    · cases created <;> exact haway
  | unselect => trivial

theorem startLocalization_continues (config : Config) (env : Env) (name : String) (s : Shared)
    (pc : StartLocalizationRequest) (h : handler s (.startLocalization name pc)) :
    outline.Continues (pc.step config env name s) := by
  cases pc with
  | checkMapping | saveService | checkLocalization =>
    simp only [StartLocalizationRequest.step]
    repeat' split
    all_goals trivial
  | acquire => exact ProofOutline.continues_acquireForStart away_of_idle
  | load =>
    simp only [StartLocalizationRequest.step]
    repeat' split
    · trivial
    · trivial
    · exact h
  | select => exact ⟨h, rfl⟩
  | resetSession => exact ⟨h.1, h.2, rfl⟩
  | resetQuality => exact h
  | transition =>
    simp only [StartLocalizationRequest.step]
    split
    · trivial
    · rename_i hcan
      rw [Shared.transitionTo, if_neg hcan]
      exact h.1
  | unselect => trivial

theorem loadMap_continues (config : Config) (env : Env) (name : String) (s : Shared)
    (pc : LoadMap)
    (h : handler s (.loadMap name pc)) : outline.Continues (pc.step config env name s) := by
  cases pc with
  | acquire =>
    simp only [LoadMap.step]
    split_ifs with hactive
    · trivial
    · have haway : Away s := by
        simp_all [Away, SystemState.isActiveSlamState]
      exact haway
  | load =>
    simp only [LoadMap.step]
    repeat' split
    · trivial
    · trivial
    · exact h
  | select path => trivial

theorem deleteMap_continues (env : Env) (name : String) (s : Shared) (pc : DeleteMap) :
    outline.Continues (pc.step env name s) := by
  cases pc with
  | acquire =>
    simp only [DeleteMap.step]
    split_ifs with hactive
    · trivial
    · trivial
    · have haway : Away s := by
        simp_all [Away, SystemState.isActiveSlamState]
      exact haway
  | remove =>
    simp only [DeleteMap.step]
    split <;> trivial

theorem handler_continues {config : Config} {env : Env} {s : Sys} {h : Handler}
    (hfresh : s.Fresh) (hholds : outline.Holds s) (hassertion : handler s.shared h) :
    outline.Continues (h.step config env s.shared) := by
  have hselected := hholds.operation.1
  cases h with
  | deleteMap name pc => exact deleteMap_continues env name s.shared pc
  | loadMap name pc => exact loadMap_continues config env name s.shared pc hassertion
  | startMapping name pc => exact startMapping_continues config env name s.shared pc hassertion
  | startLocalization name pc =>
    exact startLocalization_continues config env name s.shared pc hassertion
  | lastPoseTick pc =>
    simp only [Handler.step, lastPoseTickStep]
    split
    · rename_i hstep
      exact saving_step hfresh hselected hassertion hstep
    · trivial
    · trivial
  | launch operation reply => exact ⟨hselected, hassertion⟩
  | _ =>
    refine ProofOutline.continues_of_follows (Handler.follows config env _ _) ?_ (by simp)
    intro next hnext
    cases hnext <;> trivial

theorem handler_kept {s s' : Shared} {h : Handler} (hsession : s'.sessionMap = s.sessionMap)
    (hidle : h.holdsToken = false) (hassertion : handler s h) : handler s' h := by
  cases h with
  | deleteMap name pc => cases pc <;> trivial
  | loadMap name pc => cases pc <;> trivial
  | startMapping name pc => cases pc <;> trivial
  | startLocalization name pc => cases pc <;> trivial
  | lastPoseTick pc => exact saving_of_sessionMap hsession pc hassertion
  | launch operation reply => cases hidle
  | _ => trivial

theorem sessionMap_operation (config : Config) (env : Env) (s : Shared) (op : Operation) :
    (op.step config env s).1.sessionMap = s.sessionMap := by
  rcases op.effect config env s with ⟨-, hend⟩ | ⟨-, s', next, hnext, hcontinues⟩
  · rw [hend]
    rfl
  · rw [hnext]
    exact hcontinues.effect.sessionMap

theorem stable_of_interference {s s' : Shared} (h : Interference s s') : Stable s s' := by
  refine ⟨fun haway ↦ ?_, h.map, h.sessionMap⟩
  unfold Away at haway ⊢
  rcases h.state with hsame | ⟨hcan, hafter⟩
  · rwa [hsame]
  · by_contra hlocalization
    have hbefore := SystemState.isLocalizationState_of_canTransition hcan
      (by simpa using hlocalization) (by rcases hafter with hafter | hafter <;> simp [hafter])
    rw [haway] at hbefore
    cases hbefore

theorem valid (config : Config) : outline.Valid config fun s _ ↦ Given s where
  begins s request := by cases request <;> trivial
  handler s env h hgiven htoken hholds hsome :=
    have hassertion := hholds.handler h hsome
    ProofOutline.afterHandler_of
      ⟨selected_handler hholds.operation.1 hassertion, operation_handler htoken hholds hsome⟩
      (handler_continues hgiven.fresh hholds hassertion)
  operation s env op hgiven _ hholds hsome := by
    obtain ⟨hselected, hoperation⟩ := hholds.operation
    have hmodes := hgiven.modes.operation.2
    rw [hsome] at hoperation hmodes
    exact ⟨selected_operation hmodes hselected,
      operation_step hgiven.fresh hselected hoperation⟩
  handlerKept s env op h _ htoken hholds hsome hhandler := by
    have hidle := htoken.of_operation hsome
    simp only [Sys.handlerHolds, hhandler, Option.any_some] at hidle
    exact handler_kept (sessionMap_operation config env s.shared op) hidle
      (hholds.handler h hhandler)
  interference s s' hinterference :=
    have hstable := stable_of_interference hinterference
    ⟨fun o ho ↦ ⟨hstable.selected ho.1, operation_of_sessionMap hstable.sessionMap o ho.2⟩,
      handler_stable hstable⟩

end SavedPose

theorem fresh_of_reaches {config : Config} {s : Sys}
    (h : Reaches (Sys.step config) localizesFresh Sys.Initial s) : s.Fresh := by
  refine Reaches.invariant (fun s hinit ↦ ⟨hinit.inStep, ?_, ?_⟩)
    (fun s a s' hs hok hstep ↦ hs.step hok hstep) h
  · simp [hinit.adapter]
  · simp [hinit.adapter]

theorem savedPose_of_reaches {config : Config} {s : Sys}
    (h : Reaches (Sys.step config) localizesFresh Sys.Initial s) :
    SavedPose.outline.Holds s := by
  have hgiven := h.strengthen fun s (hs : Reaches (Sys.step config) localizesFresh Sys.Initial s) ↦
    SavedPose.Given.mk (fresh_of_reaches hs) (Reachable.modeExclusion (hs.mono fun _ _ _ ↦ trivial))
  refine (SavedPose.valid config).reaches (fun s hinit ↦ ⟨fun hlocalization ↦ ?_, trivial⟩)
    (hgiven.mono fun _ _ hok ↦ hok.2)
  rcases hinit.state with hstate | ⟨hstate, -⟩ <;> rw [hstate] at hlocalization <;>
    cases hlocalization

theorem provenance_step {config : Config} {s s' : Sys} {a : Action}
    (hsaved : SavedPose.outline.Holds s)
    (h : ∀ request, Requested s.shared.adapter request → Provenance request)
    (hstep : s.step config a = some s') :
    ∀ request, Requested s'.shared.adapter request → Provenance request := by
  have hhandler {env : Env} {handler : Handler} {shared : Shared} {next : HandlerNext}
      (hsome : s.handler = some handler)
      (hnext : handler.step config env s.shared = (shared, next)) :
      ∀ request, Requested shared.adapter request → Provenance request := by
    intro request hrequest
    have hsaves := (Handler.effect_of_step hnext).adapter.saves request
    rcases hsaves hrequest with hbefore | henqueued
    · exact h request hbefore
    · have hassertion := hsaved.handler handler hsome
      cases handler with
      | lastPoseTick pc =>
        cases pc with
        | enqueue other =>
          cases henqueued
          exact hassertion
        | _ => cases henqueued
      | _ => cases henqueued
  cases Sys.move_of_step hstep with
  | handlerNext hsome hnext => exact hhandler hsome hnext
  | handlerDone hsome hnext => exact hhandler hsome hnext
  | handlerLaunch hsome hnext hended => exact hhandler hsome hnext
  | handlerEscape hsome hnext => exact hhandler hsome hnext
  | @operation env operation hsome =>
    intro request hrequest
    rcases operation.effect config env s.shared with
      ⟨-, hend⟩ | ⟨-, shared, next, hnext, hcontinues⟩
    · rw [hend] at hrequest
      exact h request hrequest
    · rw [hnext] at hrequest
      rcases hcontinues.effect.adapter.saves request hrequest with hbefore | henqueued
      · exact h request hbefore
      · have hassertion := hsaved.operation.2
        rw [hsome] at hassertion
        cases operation with
        | stopLocalization pc =>
          cases pc with
          | save pc =>
            cases pc with
            | enqueue other =>
              cases henqueued
              exact hassertion
            | _ => cases henqueued
          | _ => cases henqueued
        | _ => cases henqueued
  | @callback id env callback hsome =>
    exact fun request hrequest ↦ h request ((callback.effect config env s.shared).saves _ hrequest)
  | environment heffect => exact fun request hrequest ↦ h request (heffect.saves _ hrequest)
  | _ => exact h

/-- Every pose on its way to a map was composed with a correction of the session in which it was
captured, which was for that map. -/
theorem provenance_of_reaches {config : Config} {s : Sys}
    (h : Reaches (Sys.step config) localizesFresh Sys.Initial s) :
    ∀ request, Requested s.shared.adapter request → Provenance request := by
  refine Reaches.invariant_of
    (P := fun s : Sys ↦ ∀ request, Requested s.shared.adapter request → Provenance request)
    (fun s hs ↦ savedPose_of_reaches hs) (fun s hinit request hrequest ↦ ?_)
    (fun s a s' hsaved hs _ hstep ↦ provenance_step hsaved hs hstep) h
  rw [hinit.adapter] at hrequest
  rcases hrequest with hnone | hnone <;> cases hnone

/-- A localization that has been confirmed, as far as the transition to LOCALIZED. -/
def localizedRun : List Action :=
  toWaitMode ++ launchLocalization "m" ++ enterRelocalizing ++
    runCallback 0 (.correction (originAt 1)) 4 1

end SlamSystemManager.Manager
