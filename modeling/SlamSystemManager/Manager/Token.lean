import SlamSystemManager.Manager.Effects

/-!
# The operation token and proof outlines

Whoever owns the operation token has it for itself: a handler between its acquisition and its
release or launch, or the operation thread. On this rests a rule for invariants in the manner of a
proof outline. Each program counter of the handlers and of the operation thread has an assertion
about the shared state; it is enough that every step establishes the assertion of its thread's
next program counter and keeps that of the other thread, and that the adapter callbacks and the
environment interfere with none of them.
-/

open TransitionSystem

namespace SlamSystemManager.Manager

/-- Whether the running handler owns the token. -/
def Sys.handlerHolds (s : Sys) : Bool := s.handler.any Handler.holdsToken

/-- An owner has the token, and has it alone. -/
structure Sys.Exclusive (s : Sys) : Prop where
  handler : s.handlerHolds = true → s.shared.operationInProgress = true
  operation : s.operation ≠ none → s.shared.operationInProgress = true
  alone : s.handlerHolds = true → s.operation = none

theorem Sys.Exclusive.free {s : Sys} (h : s.Exclusive)
    (hfree : s.shared.operationInProgress = false) :
    s.handlerHolds = false ∧ s.operation = none := by
  constructor
  · by_contra hholds
    have := h.handler (by simpa using hholds)
    simp_all
  · by_contra hoperation
    have := h.operation hoperation
    simp_all

theorem Sys.Exclusive.of_operation {s : Sys} (h : s.Exclusive) {operation : Operation}
    (hoperation : s.operation = some operation) : s.handlerHolds = false := by
  by_contra hholds
  have := h.alone (by simpa using hholds)
  simp_all

theorem Sys.Initial.exclusive {s : Sys} (h : s.Initial) : s.Exclusive :=
  ⟨by simp [Sys.handlerHolds, h.handler], by simp [h.operation], by simp [h.operation]⟩

theorem Request.holdsToken_handler (request : Request) : request.handler.holdsToken = false := by
  cases request <;> rfl

theorem Sys.Exclusive.step {config : Config} {s s' : Sys} {a : Action} (h : s.Exclusive)
    (hstep : s.step config a = some s') : s'.Exclusive := by
  obtain ⟨hhandler, hoperation, halone⟩ := h
  cases Sys.move_of_step hstep with
  | @call request hidle =>
    have hholds := request.holdsToken_handler
    exact ⟨by simp [Sys.handlerHolds, hholds], hoperation, by simp [Sys.handlerHolds, hholds]⟩
  | @handlerNext env handler next shared hsome hnext =>
    have htoken := (Handler.effect_of_step hnext).token
    simp only [Sys.handlerHolds, hsome, Option.any_some] at hhandler halone
    rcases htoken with ⟨hholds, htoken⟩ | ⟨hholds, hacquired, hfree, htoken⟩
    · rw [← hholds] at hhandler halone
      exact ⟨fun hnext ↦ htoken.trans (hhandler hnext),
        fun hrunning ↦ htoken.trans (hoperation hrunning), halone⟩
    · refine ⟨fun _ ↦ htoken, fun _ ↦ htoken, fun _ ↦ ?_⟩
      by_contra hsome
      have := hoperation hsome
      simp_all
  | @handlerDone env handler reply shared hsome hnext =>
    have htoken := (Handler.effect_of_step hnext).token
    simp only [Sys.handlerHolds, hsome, Option.any_some] at hhandler halone
    rcases htoken with ⟨hholds, htoken⟩ | ⟨hholds, htoken⟩
    · exact ⟨by simp [Sys.handlerHolds], fun hrunning ↦ htoken.trans (hoperation hrunning),
        by simp [Sys.handlerHolds]⟩
    · exact ⟨by simp [Sys.handlerHolds], by simp [halone hholds], by simp [Sys.handlerHolds]⟩
  | @handlerLaunch env handler operation reply shared hsome hnext hended =>
    have htoken := (Handler.effect_of_step hnext).token
    simp only [Sys.handlerHolds, hsome, Option.any_some] at hhandler
    have hkept : shared.operationInProgress = true := by rw [htoken.2, hhandler htoken.1]
    exact ⟨by simp [Sys.handlerHolds], fun _ ↦ hkept, by simp [Sys.handlerHolds]⟩
  | @handlerEscape env handler what shared hsome hnext =>
    have htoken := (Handler.effect_of_step hnext).token
    exact ⟨by simp [Sys.handlerHolds], fun hrunning ↦ htoken.trans (hoperation hrunning),
      by simp [Sys.handlerHolds]⟩
  | @operation env operation hsome =>
    have hidle : s.handlerHolds = false := by
      by_contra hholds
      have := halone (by simpa using hholds)
      simp_all
    rcases operation.effect config env s.shared with
      ⟨-, hend⟩ | ⟨-, shared, next, hnext, hcontinues⟩
    · rw [hend]
      exact ⟨by simp_all [Sys.handlerHolds], by simp, by simp⟩
    · rw [hnext]
      refine ⟨by simp_all [Sys.handlerHolds], fun _ ↦ ?_, by simp_all [Sys.handlerHolds]⟩
      exact hcontinues.effect.token.trans (hoperation (by simp [hsome]))
  | deliver hfree => exact ⟨hhandler, hoperation, halone⟩
  | @callback id env callback hsome =>
    have htoken := (callback.effect config env s.shared).token
    exact ⟨fun hholds ↦ htoken.trans (hhandler hholds),
      fun hrunning ↦ htoken.trans (hoperation hrunning), halone⟩
  | environment heffect =>
    exact ⟨fun hholds ↦ heffect.token.trans (hhandler hholds),
      fun hrunning ↦ heffect.token.trans (hoperation hrunning), halone⟩

theorem Reachable.exclusive {config : Config} {s : Sys} (h : Reachable config s) : s.Exclusive :=
  Reaches.invariant (fun _ hinit ↦ hinit.exclusive) (fun _ _ _ hs _ hstep ↦ hs.step hstep) h

/-! ## Proof outlines -/

/-- An assertion for every program counter; `none` is an operation thread that has ended. -/
structure ProofOutline where
  operation : Shared → Option Operation → Prop
  handler : Shared → Handler → Prop

/-- What adapter callbacks and the environment do to the data outside the adapter. -/
structure Interference (s s' : Shared) : Prop where
  state : s'.currentState = s.currentState ∨
    (s.currentState.canTransition s'.currentState = true ∧
      (s'.currentState = .relocalizing ∨ s'.currentState = .localized))
  processes : s'.processes = s.processes ∨
    ∃ leader exitCode, s'.processes = (s.reap leader exitCode).processes
  map : s'.currentMap = s.currentMap
  sessionMap : s'.sessionMap = s.sessionMap

theorem CallbackEffect.interference {callback : Callback} {s s' : Shared}
    (h : CallbackEffect callback s s') : Interference s s' := by
  refine ⟨?_, Or.inl h.processes, h.map, h.sessionMap⟩
  rcases h.state with hsame | ⟨htarget, hcan⟩
  · exact Or.inl hsame
  · refine Or.inr ⟨hcan, ?_⟩
    cases callback <;> simp_all [Callback.target]

theorem EnvironmentEffect.interference {s s' : Shared} (h : EnvironmentEffect s s') :
    Interference s s' :=
  ⟨Or.inl h.state, h.processes, h.map, h.sessionMap⟩

theorem Interference.refl (s : Shared) : Interference s s := ⟨Or.inl rfl, Or.inl rfl, rfl, rfl⟩

/-- A step of an adapter callback or of the environment. -/
structure Bystander (s s' : Sys) : Prop where
  handler : s'.handler = s.handler
  operation : s'.operation = s.operation
  interference : Interference s.shared s'.shared

theorem bystander_of_step {config : Config} {s s' : Sys} {a : Action}
    (hstep : s.step config a = some s') (hcall : ∀ request, a ≠ .call request)
    (hhandler : ∀ env, a ≠ .handler env) (hoperation : ∀ env, a ≠ .operation env) :
    Bystander s s' := by
  cases Sys.move_of_step hstep with
  | @call request => exact absurd rfl (hcall request)
  | @handlerNext env | @handlerDone env | @handlerLaunch env | @handlerEscape env =>
    exact absurd rfl (hhandler env)
  | @operation env => exact absurd rfl (hoperation env)
  | deliver => exact ⟨rfl, rfl, .refl _⟩
  | @callback id env callback =>
    exact ⟨rfl, rfl, (callback.effect config env s.shared).interference⟩
  | environment heffect => exact ⟨rfl, rfl, heffect.interference⟩

namespace ProofOutline

structure Holds (outline : ProofOutline) (s : Sys) : Prop where
  operation : outline.operation s.shared s.operation
  handler : ∀ handler, s.handler = some handler → outline.handler s.shared handler

/-- The assertions after a step of the handler. -/
def AfterHandler (outline : ProofOutline) (operation : Option Operation) :
    Shared × HandlerNext → Prop
  | (s, .next handler) => outline.operation s operation ∧ outline.handler s handler
  | (s, .done _) => outline.operation s operation
  | (s, .launched launched _) => outline.operation s (some launched)
  | (s, .escaped _) => outline.operation s operation

/-- The assertion for what a step of the handler continues with. -/
def Continues (outline : ProofOutline) : Shared × HandlerNext → Prop
  | (s, .next handler) => outline.handler s handler
  | (s, .launched launched _) => outline.operation s (some launched)
  | _ => True

theorem afterHandler_of {outline : ProofOutline} {operation : Option Operation}
    {r : Shared × HandlerNext} (hoperation : outline.operation r.1 operation)
    (hcontinues : outline.Continues r) : outline.AfterHandler operation r := by
  rcases r with ⟨s, next | reply | ⟨launched, reply⟩ | what⟩
  · exact ⟨hoperation, hcontinues⟩
  · exact hoperation
  · exact hcontinues
  · exact hoperation

/-- A handler whose successors need no more than what holds in every state. -/
theorem continues_of_follows {outline : ProofOutline} {handler : Handler}
    {r : Shared × HandlerNext} (hfollows : handler.Follows r.2)
    (hnext : ∀ next, handler.Follows (.next next) → outline.handler r.1 next)
    (hlaunched : ∀ operation reply, handler ≠ .launch operation reply) :
    outline.Continues r := by
  rcases r with ⟨s, next | reply | ⟨launched, reply⟩ | what⟩
  · exact hnext next hfollows
  · trivial
  · cases hfollows
    exact absurd rfl (hlaunched launched reply)
  · trivial

/-- The start requests take the token in WAIT_MODE and SENSOR_READY only. -/
theorem continues_acquireForStart {outline : ProofOutline} {config : Config} {label : String}
    {s : Shared} {next : Handler}
    (h : s.currentState.isIdle = true →
      outline.handler { s with operationInProgress := true } next) :
    outline.Continues (acquireForStart config label s next) := by
  unfold acquireForStart
  split_ifs with hstate htoken
  · trivial
  · trivial
  · apply h
    by_cases hwait : s.currentState = .waitMode
    · rw [hwait]
      rfl
    · have hready : s.currentState = .sensorReady := by simp_all
      rw [hready]
      rfl

/-- The proof obligations of an outline, for the steps that meet `ok`. -/
structure Valid (outline : ProofOutline) (config : Config) (ok : Sys → Action → Prop) : Prop where
  begins : ∀ s (request : Request), outline.handler s request.handler
  handler : ∀ (s : Sys) env handler, ok s (.handler env) → s.Exclusive → outline.Holds s →
    s.handler = some handler →
    outline.AfterHandler s.operation (handler.step config env s.shared)
  operation : ∀ (s : Sys) env operation, ok s (.operation env) → s.Exclusive → outline.Holds s →
    s.operation = some operation →
    outline.operation (operation.step config env s.shared).1
      (operation.step config env s.shared).2
  handlerKept : ∀ (s : Sys) env operation handler, ok s (.operation env) → s.Exclusive →
    outline.Holds s → s.operation = some operation → s.handler = some handler →
    outline.handler (operation.step config env s.shared).1 handler
  interference : ∀ s s', Interference s s' →
    (∀ operation, outline.operation s operation → outline.operation s' operation) ∧
      ∀ handler, outline.handler s handler → outline.handler s' handler

theorem Valid.step {outline : ProofOutline} {config : Config} {ok : Sys → Action → Prop}
    (hvalid : outline.Valid config ok) {s s' : Sys} {a : Action} (hexclusive : s.Exclusive)
    (h : outline.Holds s) (hok : ok s a) (hstep : s.step config a = some s') :
    outline.Holds s' := by
  have hkept {shared : Shared} (hinterference : Interference s.shared shared) :
      outline.operation shared s.operation ∧
        ∀ handler, s.handler = some handler → outline.handler shared handler := by
    obtain ⟨hoperation, hhandler⟩ := hvalid.interference _ _ hinterference
    exact ⟨hoperation _ h.operation, fun handler hsome ↦ hhandler _ (h.handler handler hsome)⟩
  cases Sys.move_of_step hstep with
  | @call request hidle =>
    refine ⟨h.operation, fun handler hsome ↦ ?_⟩
    cases hsome
    exact hvalid.begins _ request
  | @handlerNext env handler next shared hsome hnext =>
    have hafter := hvalid.handler s env handler hok hexclusive h hsome
    rw [hnext] at hafter
    refine ⟨hafter.1, fun handler hsome ↦ ?_⟩
    cases hsome
    exact hafter.2
  | @handlerDone env handler reply shared hsome hnext =>
    have hafter := hvalid.handler s env handler hok hexclusive h hsome
    rw [hnext] at hafter
    exact ⟨hafter, by simp⟩
  | @handlerLaunch env handler operation reply shared hsome hnext hended =>
    have hafter := hvalid.handler s env handler hok hexclusive h hsome
    rw [hnext] at hafter
    exact ⟨hafter, by simp⟩
  | @handlerEscape env handler what shared hsome hnext =>
    have hafter := hvalid.handler s env handler hok hexclusive h hsome
    rw [hnext] at hafter
    exact ⟨hafter, by simp⟩
  | @operation env operation hsome =>
    exact ⟨hvalid.operation s env operation hok hexclusive h hsome,
      fun handler ↦ hvalid.handlerKept s env operation handler hok hexclusive h hsome⟩
  | deliver hfree => exact ⟨h.operation, h.handler⟩
  | @callback id env callback hsome =>
    obtain ⟨hoperation, hhandler⟩ := hkept (callback.effect config env s.shared).interference
    exact ⟨hoperation, hhandler⟩
  | environment heffect =>
    obtain ⟨hoperation, hhandler⟩ := hkept heffect.interference
    exact ⟨hoperation, hhandler⟩

/-- What a valid outline asserts holds in every state of the runs it is valid for. -/
theorem Valid.reaches_from {outline : ProofOutline} {config : Config} {ok : Sys → Action → Prop}
    {start : Sys → Prop} (hvalid : outline.Valid config ok) (hstart : ∀ s, start s → s.Initial)
    (hinit : ∀ s, start s → outline.operation s.shared none) {s : Sys}
    (h : Reaches (Sys.step config) ok start s) : outline.Holds s := by
  have hexclusive (s : Sys) (hs : Reaches (Sys.step config) ok start s) : s.Exclusive :=
    Reachable.exclusive ((hs.mono fun _ _ _ ↦ trivial).of_init hstart)
  refine Reaches.invariant_of hexclusive (fun s hs ↦ ?_) (fun s a s' ↦ hvalid.step) h
  exact ⟨by rw [(hstart s hs).operation]; exact hinit s hs, by simp [(hstart s hs).handler]⟩

theorem Valid.reaches {outline : ProofOutline} {config : Config} {ok : Sys → Action → Prop}
    (hvalid : outline.Valid config ok)
    (hinit : ∀ s : Sys, s.Initial → outline.operation s.shared none) {s : Sys}
    (h : Reaches (Sys.step config) ok Sys.Initial s) : outline.Holds s :=
  hvalid.reaches_from (fun _ hs ↦ hs) hinit h

end ProofOutline

end SlamSystemManager.Manager
