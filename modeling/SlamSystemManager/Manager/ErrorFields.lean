import SlamSystemManager.Manager.Writes

/-!
# Who writes the error fields

`error_code_` and `error_message_` are written in sections of their own by two handlers, two timers
and the operation thread. Every other step leaves both alone.
-/

open TransitionSystem

namespace SlamSystemManager.Manager

structure SameErrors (s s' : Shared) : Prop where
  code : s'.errorCode = s.errorCode
  message : s'.errorMessage = s.errorMessage

theorem SameErrors.refl (s : Shared) : SameErrors s s := ⟨rfl, rfl⟩

theorem sameErrors_transitionTo (s : Shared) (next : SystemState) :
    SameErrors s (s.transitionTo next) := by
  unfold Shared.transitionTo
  split <;> exact ⟨rfl, rfl⟩

/-- A footprint without the error fields leaves them alone. -/
theorem Writes.sameErrors {may : Write → Prop} {s s' : Shared} (h : Writes may s s')
    (hmay : ∀ code message, ¬ may (.errors code message)) : SameErrors s s' := by
  have hview : (s'.errorCode, s'.errorMessage) = (s.errorCode, s.errorMessage) := by
    apply h.keeps fun s ↦ (s.errorCode, s.errorMessage)
    intro write hwrite s
    cases write with
    | errors code message => exact absurd hwrite (hmay code message)
    | _ => rfl
  exact ⟨congrArg Prod.fst hview, congrArg Prod.snd hview⟩

/-- A step of the operation thread that does not write the error fields leaves them alone. -/
theorem Operation.sameErrors (config : Config) (env : Env) (s : Shared) (operation : Operation)
    (h : operation.writesErrors = false) : SameErrors s (operation.step config env s).1 := by
  apply (operation.writes config env s).sameErrors
  intro code message hwrites
  exact Bool.false_ne_true (h.symm.trans hwrites)

/-- A step of a handler that does not write the error fields leaves them alone. -/
theorem Handler.sameErrors (config : Config) (env : Env) (s : Shared) (handler : Handler)
    (h : handler.writesErrors = false) : SameErrors s (handler.step config env s).1 := by
  apply (handler.writes config env s).sameErrors
  intro code message hwrites
  exact Bool.false_ne_true (h.symm.trans hwrites)

/-- Only handlers and the operation thread write the error fields. -/
theorem sameErrors_of_step {config : Config} {s s' : Sys} {a : Action}
    (h : s.step config a = some s') (hhandler : ∀ env, a ≠ .handler env)
    (hoperation : ∀ env, a ≠ .operation env) : SameErrors s.shared s'.shared := by
  apply (writes_of_step h).sameErrors
  intro code message hwrites
  cases a with
  | handler env => exact hhandler env rfl
  | operation env => exact hoperation env rfl
  | _ => exact hwrites

end SlamSystemManager.Manager
