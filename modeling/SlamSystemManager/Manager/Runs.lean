import SlamSystemManager.Library.Progress
import SlamSystemManager.Manager.Progress
import SlamSystemManager.Manager.Settled

/-!
# Threads that run to their ends

A thread on its own comes to its end, and there is what an outline of its steps says: every step
leads from what is asserted before it to what is asserted after it. The surroundings of a step may
depend on where the thread stands.
-/

open TransitionSystem

namespace SlamSystemManager.Manager

variable {config : Config} {ok : Sys → Action → Prop}

/-- A thread with work left that is not midway in a poll lowers it. -/
theorem Operation.work_lt {env : Env} {s : Shared} {o next : Operation}
    (hlook : o.looksAgain env = false) (h : (o.step config env s).2 = some next) :
    next.work config < o.work config := by
  have hless := Operation.work_step h
  rwa [hlook, Bool.toNat_false, Nat.mul_zero, Nat.add_zero] at hless

/-- The operation thread runs to its end, and what its steps assert leads to a goal. -/
theorem operation_runs (env : Operation → Env) (hok : ∀ s o, ok s (.operation (env o)))
    (hlook : ∀ o : Operation, o.looksAgain (env o) = false) (A : Shared → Operation → Prop)
    (goal : Shared → Prop)
    (hstep : ∀ s o, A s o → ∀ next, (o.step config (env o) s).2 = some next →
      A (o.step config (env o) s).1 next)
    (hfinish : ∀ s, A s .finish → goal s.finishOperation) {s : Sys} {o : Operation}
    (hsome : s.operation = some o) (h : A s.shared o) :
    CanReach (Sys.step config) ok
      (fun s' ↦ s'.handler = s.handler ∧ s'.callbacks = s.callbacks ∧ s'.operation = none ∧
        goal s'.shared) s := by
  induction hwork : o.work config using Nat.strongRecOn generalizing s o with
  | ind n ih =>
    subst hwork
    have hafter : s.step config (.operation (env o)) = some { s with
        shared := (o.step config (env o) s.shared).1
        operation := (o.step config (env o) s.shared).2 } := by
      rw [Sys.step, hsome]
      rfl
    rcases o.effect config (env o) s.shared with ⟨rfl, hend⟩ | ⟨-, shared, next, hnext, -⟩
    · rw [hend] at hafter
      exact .head (hok s .finish) hafter (.refl ⟨rfl, rfl, rfl, hfinish s.shared h⟩)
    · have hless := Operation.work_lt (hlook o) (congrArg Prod.snd hnext)
      have hkept := hstep s.shared o h next (congrArg Prod.snd hnext)
      rw [hnext] at hkept hafter
      exact .head (hok s o) hafter (ih (next.work config) hless rfl hkept rfl)

/-- What a step of a handler leads to. -/
def Leads (A : Shared → Handler → Prop) (goal : Shared → Option Operation → Prop) :
    Shared × HandlerNext → Prop
  | (s, .next handler) => A s handler
  | (s, .launched operation _) => goal s (some operation)
  | (s, _) => goal s none

/-- A handler runs to its end beside no operation, and what its steps assert leads to a goal. -/
theorem handler_runs (env : Handler → Env) (hok : ∀ s h, ok s (.handler (env h)))
    (A : Shared → Handler → Prop) (goal : Shared → Option Operation → Prop)
    (hstep : ∀ s h, A s h → Leads A goal (h.step config (env h) s)) {s : Sys}
    (hended : s.operation = none) {h : Handler} (hsome : s.handler = some h) (hA : A s.shared h) :
    CanReach (Sys.step config) ok
      (fun s' ↦ s'.handler = none ∧ s'.callbacks = s.callbacks ∧ goal s'.shared s'.operation)
      s := by
  induction hwork : h.work using Nat.strongRecOn generalizing s h with
  | ind n ih =>
    subst hwork
    have hleads := hstep s.shared h hA
    have hafter : s.step config (.handler (env h)) =
        s.afterHandler (h.step config (env h) s.shared) := by
      rw [Sys.step, hsome]
      rfl
    rcases hr : h.step config (env h) s.shared with
      ⟨shared, next | reply | ⟨launched, reply⟩ | what⟩
    all_goals
      rw [hr] at hafter hleads
    · exact .head (hok s h) hafter (ih next.work (Handler.work_step hr) hended rfl hleads rfl)
    · exact .head (hok s h) hafter (.refl ⟨rfl, rfl, hended ▸ hleads⟩)
    · simp only [Sys.afterHandler, hended] at hafter
      exact .head (hok s h) hafter (.refl ⟨rfl, rfl, hleads⟩)
    · exact .head (hok s h) hafter (.refl ⟨rfl, rfl, hended ▸ hleads⟩)

/-- A request at rest is taken up; the timer of the last pose may not exist. -/
theorem call_of_resting {s : Sys} (hrest : s.Resting) {request : Request}
    (htimer : request ≠ .lastPoseTimer) :
    s.step config (.call request) = some { s with handler := some request.handler } := by
  simp [Sys.step, Sys.call, hrest.handler, htimer]

theorem currentState_transitionTo_of {s : Shared} {next : SystemState}
    (hcan : s.currentState.canTransition next = true) :
    (s.transitionTo next).currentState = next := by
  rw [currentState_transitionTo, if_pos hcan]

end SlamSystemManager.Manager
