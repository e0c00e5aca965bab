import SlamSystemManager.Manager.Effects

/-!
# Sessions of the relocalization adapter

What a step of the system does to the data of the adapter, and what the history variables say
about it: a correction is available exactly if one has been accepted since the last call of
`resetSession`.
-/

open TransitionSystem

namespace SlamSystemManager.Manager

/-! ## The data of the adapter -/

def Callback.resets : Callback → Bool
  | .resetForPose _ => true
  | _ => false

/-- Whether the step an action takes in a state calls `resetSession`. -/
def Sys.resetsSession (s : Sys) : Action → Bool
  | .handler _ => s.handler.any Handler.resets
  | .operation env => s.operation.any Operation.resets && env.throws.isNone
  | .callback id _ => (s.callbacks id).any Callback.resets
  | _ => false

/-- What a step does to the data of the adapter. -/
inductive DataMove (config : Config) (s s' : Sys) (a : Action) : Prop
  | same (hsame : SameData s'.shared.adapter s.shared.adapter)
  | reset (now : Time) (hresets : s.resetsSession a = true)
    (hadapter : s'.shared.adapter = s.shared.adapter.resetSession now)
  | accept (id : ℕ) (message validated : StampedPose)
    (hcallback : s.callbacks id = some (.correction message))
    (hstamp : s.shared.adapter.relocalizationStartedAt < message.stamp)
    (hadapter : s'.shared.adapter = (s.shared.adapter.acceptCorrection message validated).1)
    (hfirst : s.shared.adapter.correctionAvailable = false →
      s'.callbacks id = some .confirmState)
  | setLocalized (id : ℕ) (env : Env) (haction : a = .callback id env)
    (hcallback : s.callbacks id = some .setLocalized)
    (hadapter : s'.shared.adapter = s.shared.adapter.setLocalized true)
  | store (id : ℕ) (pose : InSession StampedPose)
    (hcallback : s.callbacks id = some (.storePose pose))
    (hadapter : s'.shared.adapter = s.shared.adapter.storeTrustedPose pose)

theorem Operation.isBody_of_resets {operation : Operation} (h : operation.resets = true) :
    operation.isBody = true := by
  cases operation <;> first | rfl | cases h

theorem DataMove.callback {config : Config} {s : Sys} {id : ℕ} {env : Env} {callback : Callback}
    (hcallback : s.callbacks id = some callback) {s' : Sys}
    (hadapter : s'.shared.adapter = (callback.step config env s.shared).1.adapter)
    (hnext : s'.callbacks id = (callback.step config env s.shared).2) :
    DataMove config s s' (.callback id env) := by
  cases callback with
  | resetForPose localized =>
    exact .reset env.now (by simp [Sys.resetsSession, hcallback, Callback.resets]) hadapter
  | correction message =>
    simp only [Callback.step] at hadapter hnext
    split at hadapter
    · exact .same (hadapter ▸ SameData.refl _)
    · rename_i validated hvalid
      simp only [hvalid] at hnext
      by_cases hstamp : message.stamp ≤ s.shared.adapter.relocalizationStartedAt
      · apply DataMove.same
        rw [hadapter]
        simp [RelocalizationAdapter.acceptCorrection, hstamp]
      · refine .accept id message validated hcallback (not_le.mp hstamp) hadapter fun hfirst ↦ ?_
        simpa [RelocalizationAdapter.acceptCorrection, hstamp, hfirst] using hnext
  | setLocalized => exact .setLocalized id env rfl hcallback hadapter
  | storePose pose => exact .store id pose hcallback hadapter
  | returnToRelocalizing | confirmTransition =>
    apply DataMove.same
    rw [hadapter]
    simp [Callback.step]
  | publishOdometry message copied localized | publishPose pose localized =>
    apply DataMove.same
    rw [hadapter]
    exact ⟨rfl, rfl, rfl, rfl, rfl, rfl, rfl⟩
  | initialPose message | rawOdometry message =>
    simp only [Callback.step] at hadapter
    repeat' split at hadapter
    all_goals exact .same (hadapter ▸ SameData.refl _)
  | resetQualityForPose localized | confirmState | confirmRunning =>
    apply DataMove.same
    rw [hadapter]
    exact SameData.refl _

theorem DataMove.handler {config : Config} {s s' : Sys} {env : Env} {handler : Handler}
    (hsome : s.handler = some handler)
    (hadapter : s'.shared.adapter = (handler.step config env s.shared).1.adapter) :
    DataMove config s s' (.handler env) := by
  rcases (handler.effect config env s.shared).adapter.data with hsame | ⟨hresets, hreset⟩
  · exact .same (hadapter ▸ hsame)
  · exact .reset env.now (by simp [Sys.resetsSession, hsome, hresets]) (hadapter.trans hreset)

theorem DataMove.operation {config : Config} {s s' : Sys} {env : Env} {operation : Operation}
    (hsome : s.operation = some operation)
    (hadapter : s'.shared.adapter = (operation.step config env s.shared).1.adapter) :
    DataMove config s s' (.operation env) := by
  rcases operation.step_cases config env s.shared with ⟨hrun, hthrows⟩ | ⟨-, -, code, what, hthrow⟩
  · by_cases hfinish : operation = .finish
    · subst hfinish
      rw [hrun] at hadapter
      exact .same (hadapter ▸ SameData.refl _)
    · obtain ⟨shared, next, hnext, hcontinues⟩ :=
        Operation.run_effect config env s.shared hfinish
      rw [hrun, hnext] at hadapter
      rcases hcontinues.effect.adapter.data with hsame | ⟨hresets, hreset⟩
      · exact .same (hadapter ▸ hsame)
      · have hnone := hthrows (Operation.isBody_of_resets hresets)
        exact .reset env.now (by simp [Sys.resetsSession, hsome, hresets, hnone])
          (hadapter.trans hreset)
  · rw [hthrow] at hadapter
    exact .same (hadapter ▸ SameData.refl _)

theorem dataMove_of_step {config : Config} {s s' : Sys} {a : Action}
    (h : s.step config a = some s') : DataMove config s s' a := by
  cases Sys.move_of_step h with
  | call hidle => exact .same (SameData.refl _)
  | handlerNext hsome hnext => exact .handler hsome (by rw [hnext])
  | handlerDone hsome hnext => exact .handler hsome (by rw [hnext])
  | handlerLaunch hsome hnext hended => exact .handler hsome (by rw [hnext])
  | handlerEscape hsome hnext => exact .handler hsome (by rw [hnext])
  | operation hsome => exact .operation hsome rfl
  | deliver hfree => exact .same (SameData.refl _)
  | callback hcallback => exact .callback hcallback rfl (by simp)
  | environment heffect => exact .same heffect.data

/-- A correction stays available until the session is reset. -/
theorem correctionAvailable_kept {config : Config} {s s' : Sys} {a : Action}
    (hstep : s.step config a = some s') (hresets : s.resetsSession a = false)
    (h : s.shared.adapter.correctionAvailable = true) :
    s'.shared.adapter.correctionAvailable = true := by
  cases dataMove_of_step hstep with
  | same hsame => rw [hsame.correctionAvailable, h]
  | reset now hreset _ =>
    rw [hresets] at hreset
    cases hreset
  | accept id message validated _ hstamp hadapter _ =>
    rw [hadapter, RelocalizationAdapter.acceptCorrection, if_neg (not_le.mpr hstamp)]
  | setLocalized id env _ _ hadapter =>
    rw [hadapter]
    exact h
  | store id pose _ hadapter =>
    rw [hadapter, RelocalizationAdapter.storeTrustedPose]
    split <;> exact h

/-! ## Sessions -/

/-- What the history variables say about the data. -/
structure InStep (adapter : RelocalizationAdapter) : Prop where
  available : adapter.correctionAvailable = true →
    adapter.acceptedIn = some adapter.sessions ∧
      adapter.relocalizationStartedAt < adapter.correction.stamp
  accepted : adapter.acceptedIn = some adapter.sessions → adapter.correctionAvailable = true
  past : ∀ session, adapter.acceptedIn = some session → session ≤ adapter.sessions

namespace InStep

variable {adapter : RelocalizationAdapter}

theorem sameData {other : RelocalizationAdapter} (h : InStep adapter)
    (hsame : SameData other adapter) : InStep other := by
  obtain ⟨-, havailable, hstarted, hcorrection, -, hsessions, haccepted⟩ := hsame
  refine ⟨?_, ?_, ?_⟩
  · rw [havailable, haccepted, hsessions, hstarted, hcorrection]
    exact h.available
  · rw [havailable, haccepted, hsessions]
    exact h.accepted
  · rw [haccepted, hsessions]
    exact h.past

theorem resetSession (h : InStep adapter) (now : Time) : InStep (adapter.resetSession now) := by
  refine ⟨by simp [RelocalizationAdapter.resetSession], fun haccepted ↦ ?_,
    fun session haccepted ↦ (h.past session haccepted).trans (Nat.le_succ _)⟩
  -- the next session is later than every session in which a correction was accepted
  exact absurd (h.past _ haccepted) (Nat.not_succ_le_self _)

theorem acceptCorrection (h : InStep adapter) (message validated : StampedPose) :
    InStep (adapter.acceptCorrection message validated).1 := by
  unfold RelocalizationAdapter.acceptCorrection
  split
  · exact h
  · rename_i hstamp
    exact ⟨fun _ ↦ ⟨rfl, not_le.mp hstamp⟩, fun _ ↦ rfl, fun session hsession ↦
      (Option.some.inj hsession).symm.le⟩

theorem storeTrustedPose (h : InStep adapter) (pose : InSession StampedPose) :
    InStep (adapter.storeTrustedPose pose) := by
  unfold RelocalizationAdapter.storeTrustedPose
  split
  · exact ⟨h.available, h.accepted, h.past⟩
  · exact h

theorem step {config : Config} {s s' : Sys} {a : Action} (h : InStep s.shared.adapter)
    (hstep : s.step config a = some s') : InStep s'.shared.adapter := by
  cases dataMove_of_step hstep with
  | same hsame => exact h.sameData hsame
  | reset now _ hadapter =>
    rw [hadapter]
    exact h.resetSession now
  | accept id message validated _ _ hadapter _ =>
    rw [hadapter]
    exact h.acceptCorrection message validated
  | setLocalized id env _ _ hadapter =>
    rw [hadapter]
    exact ⟨h.available, h.accepted, h.past⟩
  | store id pose _ hadapter =>
    rw [hadapter]
    exact h.storeTrustedPose pose

end InStep

theorem Sys.Initial.inStep {s : Sys} (h : s.Initial) : InStep s.shared.adapter := by
  rw [h.adapter]
  exact ⟨by simp, by simp, by simp⟩

theorem Reachable.inStep {config : Config} {s : Sys} (h : Reachable config s) :
    InStep s.shared.adapter :=
  Reaches.invariant (P := fun s : Sys ↦ InStep s.shared.adapter) (fun _ hinit ↦ hinit.inStep)
    (fun _ _ _ hs _ hstep ↦ hs.step hstep) h

end SlamSystemManager.Manager
