import SlamSystemManager.Manager.Exclusion
import SlamSystemManager.Manager.Sessions

/-!
# Confirmation of a localization

`handleLocalizationConfirmed` is called for the first correction of a session only, reads the
state, asks for the process and makes the transition in sections of their own, and none of them
looks at the adapter again. A reset between the acceptance and the transition is not noticed, and
a confirmation that is dropped is not repeated.
-/

open TransitionSystem

namespace SlamSystemManager.Manager

/-! ## Confirmations in flight -/

/-- Whether a callback stands between the acceptance of a correction and the transition. -/
def Callback.confirms : Callback → Bool
  | .confirmState | .confirmRunning | .confirmTransition => true
  | _ => false

def Sys.confirming (s : Sys) : Prop :=
  ∃ id callback, s.callbacks id = some callback ∧ callback.confirms = true

/-- The manager waits for a confirmation. -/
def Sys.listening (s : Sys) : Prop :=
  s.shared.currentState = .relocalizing ∧ s.shared.isRunning .localization = true

theorem AdapterMessage.confirms_callback (message : AdapterMessage) :
    message.callback.confirms = false := by
  cases message <;> rfl

/-- A confirmation in flight was so before, or its correction has just been accepted. -/
theorem confirming_step {config : Config} {s s' : Sys} {a : Action}
    (hstep : s.step config a = some s') (h : s'.confirming) :
    s.confirming ∨ s'.shared.adapter.correctionAvailable = true := by
  obtain ⟨id, callback, hsome, hconfirms⟩ := h
  cases Sys.move_of_step hstep with
  | @deliver other message hfree =>
    by_cases hsame : id = other
    · subst hsame
      simp only [Sys.setCallback, Function.update_self, Option.some.injEq] at hsome
      rw [← hsome, message.confirms_callback] at hconfirms
      cases hconfirms
    · exact Or.inl ⟨id, callback, by simpa [Sys.setCallback, hsame] using hsome, hconfirms⟩
  | @callback other env before hbefore =>
    by_cases hsame : id = other
    · subst hsame
      simp only [Function.update_self] at hsome
      cases before with
      | correction message =>
        simp only [Callback.step] at hsome ⊢
        split at hsome
        · cases hsome
        · simp only [RelocalizationAdapter.acceptCorrection] at hsome ⊢
          split at hsome
          · simp at hsome
          · rename_i hstamp
            simp [hstamp]
      | confirmState | confirmRunning | confirmTransition =>
        exact Or.inl ⟨id, _, hbefore, rfl⟩
      | initialPose | rawOdometry =>
        simp only [Callback.step] at hsome
        repeat' split at hsome
        all_goals cases hsome
        all_goals cases hconfirms
      | resetQualityForPose | publishPose =>
        simp only [Callback.step] at hsome
        split at hsome <;> cases hsome
        cases hconfirms
      | resetForPose | returnToRelocalizing | setLocalized | publishOdometry | storePose =>
        cases hsome
        all_goals cases hconfirms
    · exact Or.inl ⟨id, callback, by simpa [hsame] using hsome, hconfirms⟩
  | _ => exact Or.inl ⟨id, callback, hsome, hconfirms⟩

/-! ## LOCALIZED is earned -/

/-- A correction of the current session has been accepted. -/
def Earned (adapter : RelocalizationAdapter) : Prop :=
  adapter.acceptedIn = some adapter.sessions ∧
    adapter.relocalizationStartedAt < adapter.correction.stamp

/-- The state becomes LOCALIZED. -/
structure BecomesLocalized (s s' : Sys) : Prop where
  before : s.shared.currentState ≠ .localized
  after : s'.shared.currentState = .localized

/-- A run in which no session is reset while a confirmation is in flight. -/
def resetsApart (s : Sys) (a : Action) : Prop := s.resetsSession a = true → ¬ s.confirming

theorem not_localized_of_effect {target : Option SystemState} {before after : SystemState}
    (h : StateEffect target before after) (htarget : target ≠ some .localized)
    (hbefore : before ≠ .localized) : after ≠ .localized := by
  rcases h with hsame | ⟨hafter, -⟩
  · rwa [hsame]
  · rintro rfl
    exact htarget hafter

theorem Handler.target_ne_localized (handler : Handler) : handler.target ≠ some .localized := by
  unfold Handler.target
  split <;> simp

theorem Operation.target_ne_localized {s : Shared} {operation : Operation}
    (h : ModeExclusion.operation s (some operation)) : operation.target ≠ some .localized := by
  unfold Operation.target
  split
  case h_6 =>
    intro htarget
    cases htarget
    cases h.2
  all_goals simp

theorem operation_not_localized {config : Config} {env : Env} {s : Shared} {operation : Operation}
    (h : ModeExclusion.operation s (some operation)) (hbefore : s.currentState ≠ .localized) :
    (operation.step config env s).1.currentState ≠ .localized := by
  rcases operation.effect config env s with ⟨-, hend⟩ | ⟨-, s', next, hnext, hcontinues⟩
  · rw [hend]
    exact hbefore
  · rw [hnext]
    exact not_localized_of_effect hcontinues.effect.state (Operation.target_ne_localized h) hbefore

/-- Only the transition of a confirmation leads to LOCALIZED, and it leaves the adapter alone. -/
theorem adapter_of_becomesLocalized {config : Config} {s s' : Sys} {a : Action}
    (hreach : Reachable config s) (hstep : s.step config a = some s')
    (h : BecomesLocalized s s') :
    s.confirming ∧ s'.shared.adapter = s.shared.adapter := by
  have hhandler {env : Env} {handler : Handler} {shared : Shared} {next : HandlerNext}
      (hnext : handler.step config env s.shared = (shared, next)) :
      shared.currentState ≠ .localized := by
    have hstate := (Handler.effect_of_step hnext).state
    exact not_localized_of_effect hstate handler.target_ne_localized h.before
  cases Sys.move_of_step hstep with
  | call hidle => exact absurd h.after h.before
  | handlerNext hsome hnext => exact absurd h.after (hhandler hnext)
  | handlerDone hsome hnext => exact absurd h.after (hhandler hnext)
  | handlerLaunch hsome hnext hended => exact absurd h.after (hhandler hnext)
  | handlerEscape hsome hnext => exact absurd h.after (hhandler hnext)
  | operation hsome =>
    have hoperation := hreach.modeExclusion.operation.2
    rw [hsome] at hoperation
    exact absurd h.after (operation_not_localized hoperation h.before)
  | deliver hfree => exact absurd h.after h.before
  | @callback id env callback hcallback =>
    have hstate := (callback.effect config env s.shared).state
    cases callback with
    | confirmTransition => exact ⟨⟨id, _, hcallback, rfl⟩, by simp [Callback.step]⟩
    | _ =>
      exact absurd h.after (not_localized_of_effect hstate (by simp [Callback.target]) h.before)
  | environment heffect => exact absurd (heffect.state ▸ h.after) h.before

/-- While no reset falls between a correction and its confirmation, a confirmation in flight has
its correction. -/
theorem available_of_confirming {config : Config} {s : Sys}
    (h : Reaches (Sys.step config) resetsApart Sys.Initial s) (hconfirming : s.confirming) :
    s.shared.adapter.correctionAvailable = true := by
  revert hconfirming
  refine Reaches.invariant
    (P := fun s : Sys ↦ s.confirming → s.shared.adapter.correctionAvailable = true)
    (fun s hinit ⟨id, callback, hsome, _⟩ ↦ ?_) (fun s a s' hs hok hstep hconfirming ↦ ?_) h
  · simp [hinit.callbacks] at hsome
  · rcases confirming_step hstep hconfirming with hbefore | havailable
    · have hresets : s.resetsSession a = false :=
        Bool.eq_false_of_not_eq_true fun hresets ↦ hok hresets hbefore
      exact correctionAvailable_kept hstep hresets (hs hbefore)
    · exact havailable

/-- LOCALIZED is earned in the current session exactly if the correction is still available when
the transition is made; and it always is in a run that resets no session while a confirmation is
in flight. -/
theorem earned_iff_correctionAvailable (config : Config) (s s' : Sys) (a : Action)
    (hreach : Reachable config s) (hstep : s.step config a = some s')
    (hlocalized : BecomesLocalized s s') :
    (Earned s'.shared.adapter ↔ s.shared.adapter.correctionAvailable = true) ∧
      (Reaches (Sys.step config) resetsApart Sys.Initial s → Earned s'.shared.adapter) := by
  obtain ⟨hconfirming, hadapter⟩ := adapter_of_becomesLocalized hreach hstep hlocalized
  have hearned : Earned s'.shared.adapter ↔ s.shared.adapter.correctionAvailable = true := by
    rw [hadapter]
    exact ⟨fun hearned ↦ hreach.inStep.accepted hearned.1, hreach.inStep.available⟩
  exact ⟨hearned, fun hapart ↦ hearned.mpr (available_of_confirming hapart hconfirming)⟩

/-- A localization that is being confirmed, as far as the transition. -/
def confirmingRun : List Action :=
  toWaitMode ++ launchLocalization "m" ++ enterRelocalizing ++
    runCallback 0 (.correction (originAt 1)) 3 2

theorem earned_confirmingRun :
    ∃ s s', Sys.step {} s (.callback 0 {}) = some s' ∧ BecomesLocalized s s' ∧
      Earned s'.shared.adapter := by
  obtain ⟨s, hreach, htest⟩ := exists_of_exec {} (storedMaps ["m"]) confirmingRun
    (fun s ↦ decide (s.shared.currentState ≠ .localized) &&
      s.shared.adapter.correctionAvailable && (s.step {} (.callback 0 {})).any fun s' : Sys ↦
        decide (s'.shared.currentState = .localized)) (by decide +kernel)
  simp only [Bool.and_eq_true, decide_eq_true_eq, Option.any_eq_true] at htest
  obtain ⟨⟨hbefore, havailable⟩, s', hstep, hafter⟩ := htest
  have hlocalized : BecomesLocalized s s' := ⟨hbefore, hafter⟩
  exact ⟨s, s', hstep, hlocalized,
    (earned_iff_correctionAvailable {} s s' _ hreach hstep hlocalized).1.mpr havailable⟩

/-- An initial pose resets the session between the acceptance of a correction and the transition
it confirms. -/
theorem localized_after_reset :
    ∃ s s' a, Reachable {} s ∧ Sys.step {} s a = some s' ∧ BecomesLocalized s s' ∧
      ¬ Earned s'.shared.adapter := by
  obtain ⟨s, hreach, htest⟩ := exists_of_exec {} (storedMaps ["m"])
    (confirmingRun ++ runCallback 1 (.initialPose (originAt 2)) 2 3)
    (fun s ↦ decide (s.shared.currentState ≠ .localized) &&
      (s.step {} (.callback 0 {})).any fun s' : Sys ↦
        decide (s'.shared.currentState = .localized) &&
          decide (s'.shared.adapter.acceptedIn ≠ some s'.shared.adapter.sessions))
    (by decide +kernel)
  simp only [Bool.and_eq_true, decide_eq_true_eq, Option.any_eq_true] at htest
  obtain ⟨hbefore, s', hstep, hafter, hstale⟩ := htest
  exact ⟨s, s', _, hreach, hstep, ⟨hbefore, hafter⟩, fun hearned ↦ hstale hearned.1⟩

/-! ## Confirmations that are lost -/

/-- A run in which the manager does not begin to wait for a confirmation that has already been
dropped: whenever it comes to be in RELOCALIZING with a live localization process, no correction
is available or its confirmation is in flight. -/
def beginsUnconfirmed (config : Config) (s : Sys) (a : Action) : Prop :=
  ∀ s', s.step config a = some s' → ¬ s.listening → s'.listening →
    s.shared.adapter.correctionAvailable = false ∨ s.confirming

/-- No adapter callback is between two of its critical sections. -/
def Sys.settled (s : Sys) : Prop :=
  ∀ id callback, s.callbacks id = some callback → ∃ message : AdapterMessage,
    callback = message.callback

/-- A confirmation in flight is dropped only if the manager does not wait for it. -/
theorem confirming_kept {config : Config} {s s' : Sys} {a : Action}
    (hstep : s.step config a = some s') (h : s.confirming) (hlistening : s'.listening) :
    s'.confirming := by
  obtain ⟨id, callback, hsome, hconfirms⟩ := h
  cases Sys.move_of_step hstep with
  | @deliver other message hfree =>
    refine ⟨id, callback, ?_, hconfirms⟩
    have hne : id ≠ other := by
      rintro rfl
      rw [hsome] at hfree
      cases hfree
    simpa [Sys.setCallback, hne] using hsome
  | @callback other env before hbefore =>
    by_cases hsame : id = other
    · subst hsame
      rw [hsome] at hbefore
      cases hbefore
      obtain ⟨hstate, hrunning⟩ := hlistening
      cases callback with
      | confirmState => exact ⟨id, .confirmRunning, by simp_all [Callback.step], rfl⟩
      | confirmRunning => exact ⟨id, .confirmTransition, by simp_all [Callback.step], rfl⟩
      | confirmTransition =>
        simp only [Callback.step, currentState_transitionTo] at hstate
        split at hstate
        · cases hstate
        · rename_i hcan
          rw [hstate] at hcan
          exact absurd rfl hcan
      | _ => cases hconfirms
    · exact ⟨id, callback, by simpa [hsame] using hsome, hconfirms⟩
  | _ => exact ⟨id, callback, hsome, hconfirms⟩

/-- The first correction of a session starts a confirmation. -/
theorem available_step {config : Config} {s s' : Sys} {a : Action}
    (hstep : s.step config a = some s')
    (h : s'.shared.adapter.correctionAvailable = true) :
    s.shared.adapter.correctionAvailable = true ∨ s'.confirming := by
  cases dataMove_of_step hstep with
  | same hsame => exact Or.inl (hsame.correctionAvailable ▸ h)
  | reset now _ hadapter =>
    rw [hadapter] at h
    cases h
  | setLocalized id env _ _ hadapter =>
    rw [hadapter] at h
    exact Or.inl h
  | store id pose _ hadapter =>
    rw [hadapter, RelocalizationAdapter.storeTrustedPose] at h
    split at h <;> exact Or.inl h
  | accept id message validated _ _ _ hfirst =>
    cases havailable : s.shared.adapter.correctionAvailable with
    | true => exact Or.inl rfl
    | false => exact Or.inr ⟨id, .confirmState, hfirst havailable, rfl⟩

/-- A correction that is available while the manager waits is being confirmed. -/
theorem confirming_of_listening {config : Config} {s : Sys}
    (h : Reaches (Sys.step config) (beginsUnconfirmed config) Sys.Initial s)
    (hlistening : s.listening) (havailable : s.shared.adapter.correctionAvailable = true) :
    s.confirming := by
  revert hlistening havailable
  refine Reaches.invariant (P := fun s : Sys ↦ s.listening →
    s.shared.adapter.correctionAvailable = true → s.confirming) (fun s hinit hlistening ↦ ?_)
    (fun s a s' hs hok hstep hlistening havailable ↦ ?_) h
  · have hstate := hlistening.1
    rcases hinit.state with hstarting | ⟨herror, -⟩
    · rw [hstarting] at hstate
      cases hstate
    · rw [herror] at hstate
      cases hstate
  · rcases available_step hstep havailable with hbefore | hconfirming
    · refine confirming_kept hstep ?_ hlistening
      by_cases hwaits : s.listening
      · exact hs hwaits hbefore
      · rcases hok s' hstep hwaits hlistening with hnone | hconfirming
        · rw [hbefore] at hnone
          cases hnone
        · exact hconfirming
    · exact hconfirming

/-- No confirmation is lost in a run that does not begin to wait for one already dropped: when the
manager waits in RELOCALIZING and every adapter callback has come to rest, the next correction is
the first of its session. -/
theorem no_confirmation_lost (config : Config) (s : Sys)
    (h : Reaches (Sys.step config) (beginsUnconfirmed config) Sys.Initial s)
    (hstate : s.shared.currentState = .relocalizing)
    (halive : s.shared.isRunning .localization = true) (hsettled : s.settled) :
    s.shared.adapter.correctionAvailable = false := by
  by_contra havailable
  obtain ⟨id, callback, hsome, hconfirms⟩ :=
    confirming_of_listening h ⟨hstate, halive⟩ (by simpa using havailable)
  obtain ⟨message, rfl⟩ := hsettled id callback hsome
  rw [message.confirms_callback] at hconfirms
  cases hconfirms

instance (s : Sys) : Decidable s.listening := inferInstanceAs (Decidable (_ ∧ _))

/-- Whether a step begins to wait for a confirmation while a correction is available. -/
def Sys.missesCorrection (config : Config) (s : Sys) (a : Action) : Bool :=
  s.shared.adapter.correctionAvailable && !decide s.listening &&
    (s.step config a).any fun s' : Sys ↦ decide s'.listening

theorem beginsUnconfirmed_of_not_misses {config : Config} {s : Sys} {a : Action}
    (h : s.missesCorrection config a = false) : beginsUnconfirmed config s a := by
  intro s' hstep hbefore hafter
  refine Or.inl ?_
  simpa [Sys.missesCorrection, hbefore, hstep, hafter] using h

/-- A localization that has been confirmed and waits for the first correction after an initial
pose. -/
theorem no_confirmation_lost_relocalizing :
    ∃ s : Sys, s.shared.currentState = .relocalizing ∧
      s.shared.isRunning .localization = true ∧ s.settled ∧ s.shared.adapter.sessions = 2 ∧
      s.shared.adapter.correctionAvailable = false := by
  obtain ⟨s, hreach, htest⟩ := exists_of_execWith {} (storedMaps ["m"])
    (fun s a ↦ s.missesCorrection {} a = false ∧ a.deliversTo [0] = true)
    (fun s a ↦ !s.missesCorrection {} a && a.deliversTo [0])
    (fun s a hpasses ↦ by simpa using hpasses)
    (toWaitMode ++ launchLocalization "m" ++ enterRelocalizing ++
      runCallback 0 (.correction (originAt 1)) 5 1 ++ runCallback 0 (.initialPose (originAt 2)) 4 2)
    (fun s ↦ decide s.listening && decide (s.callbacks 0 = none) &&
      decide (s.shared.adapter.sessions = 2)) (by decide +kernel)
  simp only [Bool.and_eq_true, decide_eq_true_eq] at htest
  obtain ⟨⟨hlistening, hended⟩, hsessions⟩ := htest
  have hsettled : s.settled := by
    intro id callback hsome
    by_cases hid : id = 0
    · rw [hid, hended] at hsome
      cases hsome
    · rw [callbacks_none [0] (hreach.mono fun _ _ hok ↦ hok.2) id (by simpa using hid)] at hsome
      cases hsome
  exact ⟨s, hlistening.1, hlistening.2, hsettled, hsessions, no_confirmation_lost {} s
    (hreach.mono fun _ _ hok ↦ beginsUnconfirmed_of_not_misses hok.1) hlistening.1 hlistening.2
    hsettled⟩

/-- A correction accepted before the transition to RELOCALIZING is dropped, and no later one is the
first. -/
theorem confirmation_lost :
    ∃ s : Sys, Reachable {} s ∧ s.shared.currentState = .relocalizing ∧
      s.shared.isRunning .localization = true ∧ s.settled ∧
      s.shared.adapter.correctionAvailable = true := by
  obtain ⟨s, hreach, htest⟩ := exists_of_execWith {} (storedMaps ["m"])
    (fun _ a ↦ a.deliversTo [0] = true)
    (fun _ a ↦ a.deliversTo [0]) (fun _ _ hpasses ↦ hpasses)
    (toWaitMode ++ launchLocalization "m" ++ List.replicate 6 (.operation readyEnv) ++
      runCallback 0 (.correction (originAt 1)) 2 2 ++ [.operation readyEnv])
    (fun s ↦ decide (s.shared.currentState = .relocalizing) &&
      s.shared.isRunning .localization && decide (s.callbacks 0 = none) &&
      s.shared.adapter.correctionAvailable) (by decide +kernel)
  simp only [Bool.and_eq_true, decide_eq_true_eq] at htest
  obtain ⟨⟨⟨hstate, halive⟩, hended⟩, havailable⟩ := htest
  refine ⟨s, hreach.mono fun _ _ _ ↦ trivial, hstate, halive, fun id callback hsome ↦ ?_,
    havailable⟩
  by_cases hid : id = 0
  · rw [hid, hended] at hsome
    cases hsome
  · rw [callbacks_none [0] hreach id (by simpa using hid)] at hsome
    cases hsome

end SlamSystemManager.Manager
