import Mathlib.Init
import Mathlib.Data.Option.Basic

/-!
# Transition systems with a step function

A system is a partial step function: `step s a` is the state after the action `a`, or `none` when
`a` is not enabled in `s`. A predicate `ok` on the state and the action restricts the runs that
are considered. `Steps` relates the ends of a run, `Reaches` the states that a run from an initial
state visits, and `exec` replays a concrete list of actions.
-/

namespace TransitionSystem

variable {σ α : Type*} {step : σ → α → Option σ} {ok : σ → α → Prop} {init : σ → Prop}

/-- Runs of `step` whose every action meets `ok` in the state where it is taken. -/
inductive Steps (step : σ → α → Option σ) (ok : σ → α → Prop) (start : σ) : σ → Prop
  | refl : Steps step ok start start
  | tail {s s' : σ} {a : α} :
    Steps step ok start s → ok s a → step s a = some s' → Steps step ok start s'

/-- The states visited by the runs from an initial state. -/
def Reaches (step : σ → α → Option σ) (ok : σ → α → Prop) (init : σ → Prop) (s : σ) : Prop :=
  ∃ start, init start ∧ Steps step ok start s

/-- Every run is considered. -/
def anyAction (_ : σ) (_ : α) : Prop := True

theorem Steps.trans {s₁ s₂ s₃ : σ} (h : Steps step ok s₁ s₂) (h' : Steps step ok s₂ s₃) :
    Steps step ok s₁ s₃ := by
  induction h' with
  | refl => exact h
  | tail _ hok hstep ih => exact ih.tail hok hstep

theorem Steps.mono {ok' : σ → α → Prop} (himp : ∀ s a, ok s a → ok' s a) {s s' : σ}
    (h : Steps step ok s s') : Steps step ok' s s' := by
  induction h with
  | refl => exact .refl
  | tail _ hok hstep ih => exact ih.tail (himp _ _ hok) hstep

/-- What every step preserves holds at the end of a run. -/
theorem Steps.invariant {P : σ → Prop}
    (hstep : ∀ s a s', P s → ok s a → step s a = some s' → P s') {s s' : σ}
    (h : Steps step ok s s') (hs : P s) : P s' := by
  induction h with
  | refl => exact hs
  | tail _ hok hnext ih => exact hstep _ _ _ ih hok hnext

theorem Reaches.start {s : σ} (h : init s) : Reaches step ok init s := ⟨s, h, .refl⟩

theorem Reaches.tail {s s' : σ} {a : α} (h : Reaches step ok init s) (hok : ok s a)
    (hstep : step s a = some s') : Reaches step ok init s' := by
  obtain ⟨start, hinit, hsteps⟩ := h
  exact ⟨start, hinit, hsteps.tail hok hstep⟩

theorem Reaches.steps {s s' : σ} (h : Reaches step ok init s) (h' : Steps step ok s s') :
    Reaches step ok init s' := by
  obtain ⟨start, hinit, hsteps⟩ := h
  exact ⟨start, hinit, hsteps.trans h'⟩

theorem Reaches.mono {ok' : σ → α → Prop} (himp : ∀ s a, ok s a → ok' s a) {s : σ}
    (h : Reaches step ok init s) : Reaches step ok' init s := by
  obtain ⟨start, hinit, hsteps⟩ := h
  exact ⟨start, hinit, hsteps.mono himp⟩

theorem Reaches.of_init {init' : σ → Prop} (himp : ∀ s, init s → init' s) {s : σ}
    (h : Reaches step ok init s) : Reaches step ok init' s := by
  obtain ⟨start, hinit, hsteps⟩ := h
  exact ⟨start, himp start hinit, hsteps⟩

/-- The induction rule for reachable states. -/
theorem Reaches.invariant {P : σ → Prop} (hinit : ∀ s, init s → P s)
    (hstep : ∀ s a s', P s → ok s a → step s a = some s' → P s') {s : σ}
    (h : Reaches step ok init s) : P s := by
  obtain ⟨start, hstart, hsteps⟩ := h
  exact hsteps.invariant hstep (hinit start hstart)

/-- The rule for an invariant that rests on one already established. -/
theorem Reaches.invariant_of {P Q : σ → Prop} (hQ : ∀ s, Reaches step ok init s → Q s)
    (hinit : ∀ s, init s → P s)
    (hstep : ∀ s a s', Q s → P s → ok s a → step s a = some s' → P s') {s : σ}
    (h : Reaches step ok init s) : P s := by
  obtain ⟨start, hstart, hsteps⟩ := h
  induction hsteps with
  | refl => exact hinit start hstart
  | tail hsteps hok hnext ih => exact hstep _ _ _ (hQ _ ⟨start, hstart, hsteps⟩) ih hok hnext

/-- What holds in every state of the runs may be assumed of their steps. -/
theorem Reaches.strengthen {Q : σ → Prop} (hQ : ∀ s, Reaches step ok init s → Q s) {s : σ}
    (h : Reaches step ok init s) : Reaches step (fun s a ↦ ok s a ∧ Q s) init s := by
  obtain ⟨start, hstart, hsteps⟩ := h
  induction hsteps with
  | refl => exact .start hstart
  | tail hsteps hok hnext ih => exact ih.tail ⟨hok, hQ _ ⟨start, hstart, hsteps⟩⟩ hnext

/-! ## Replay -/

/-- The state after a list of actions, if all of them are enabled and pass a test. -/
def execWith (step : σ → α → Option σ) (test : σ → α → Bool) : σ → List α → Option σ
  | s, [] => some s
  | s, a :: actions =>
    if test s a then (step s a).bind fun s' ↦ execWith step test s' actions else none

/-- The state after a list of actions, if all of them are enabled. -/
def exec (step : σ → α → Option σ) : σ → List α → Option σ :=
  execWith step fun _ _ ↦ true

theorem steps_of_execWith {test : σ → α → Bool} (htest : ∀ s a, test s a = true → ok s a)
    {actions : List α} {s s' : σ} (h : execWith step test s actions = some s') :
    Steps step ok s s' := by
  induction actions generalizing s with
  | nil =>
    cases h
    exact .refl
  | cons a actions ih =>
    simp only [execWith, Option.ite_none_right_eq_some] at h
    obtain ⟨hpasses, h⟩ := h
    obtain ⟨middle, hstep, hrest⟩ := Option.bind_eq_some_iff.mp h
    exact (Steps.refl.tail (htest s a hpasses) hstep).trans (ih hrest)

theorem steps_of_exec {actions : List α} {s s' : σ} (h : exec step s actions = some s') :
    Steps step anyAction s s' :=
  steps_of_execWith (fun _ _ _ ↦ trivial) h

/-- What is found at the end of a replay holds of a state that the runs reach. -/
theorem Reaches.exists_of_execWith {start : σ} (hstart : Reaches step ok init start)
    {test : σ → α → Bool} (htest : ∀ s a, test s a = true → ok s a) {actions : List α}
    {found : σ → Bool} (h : (execWith step test start actions).any found = true) :
    ∃ s, Reaches step ok init s ∧ found s = true := by
  obtain ⟨s, hrun, hfound⟩ := (Option.any_eq_true _ _).mp h
  exact ⟨s, hstart.steps (steps_of_execWith htest hrun), hfound⟩

theorem Reaches.exists_of_exec {start : σ} (hstart : Reaches step anyAction init start)
    {actions : List α} {found : σ → Bool} (h : (exec step start actions).any found = true) :
    ∃ s, Reaches step anyAction init s ∧ found s = true :=
  hstart.exists_of_execWith (fun _ _ _ ↦ trivial) h

/-! ## History variables -/

section History

variable {η : Type*} {note : η → σ → α → σ → η}

/-- The system beside a history that takes note of every step and enables or disables none. -/
def noting (step : σ → α → Option σ) (note : η → σ → α → σ → η) (s : σ × η) (a : α) :
    Option (σ × η) :=
  (step s.1 a).map fun s' ↦ (s', note s.2 s.1 a s')

theorem noting_eq_some {s s' : σ × η} {a : α} (h : noting step note s a = some s') :
    step s.1 a = some s'.1 ∧ s'.2 = note s.2 s.1 a s'.1 := by
  obtain ⟨next, hstep, rfl⟩ := Option.map_eq_some_iff.mp h
  exact ⟨hstep, rfl⟩

/-- Without its history a run is a run of the system. -/
theorem Reaches.of_noting {okNoted : σ × η → α → Prop} {initNoted : σ × η → Prop}
    (hok : ∀ s a, okNoted s a → ok s.1 a) (hinit : ∀ s, initNoted s → init s.1) {s : σ × η}
    (h : Reaches (noting step note) okNoted initNoted s) : Reaches step ok init s.1 := by
  refine h.invariant (P := fun s : σ × η ↦ Reaches step ok init s.1)
    (fun s hs ↦ .start (hinit s hs)) fun s a s' hs hokNoted hstep ↦ ?_
  exact hs.tail (hok s a hokNoted) (noting_eq_some hstep).1

/-- Every run has a history. -/
theorem Reaches.noted (note : η → σ → α → σ → η) (start : η) {s : σ} (h : Reaches step ok init s) :
    ∃ history, Reaches (noting step note) (fun s ↦ ok s.1) (fun s ↦ init s.1 ∧ s.2 = start)
      (s, history) := by
  obtain ⟨first, hfirst, hsteps⟩ := h
  induction hsteps with
  | refl => exact ⟨start, .start ⟨hfirst, rfl⟩⟩
  | @tail s s' a hsteps hok hstep ih =>
    obtain ⟨history, hreach⟩ := ih
    exact ⟨note history s a s', hreach.tail hok (by simp [noting, hstep])⟩

end History

/-! ## What the others have made of a value -/

section Others

variable {ι : Type*} {β : ι → Type*} [∀ i, DecidableEq (β i)]

/-- A value that is carried along by the steps of the others: what a step has changed is taken over,
and everything else stays. -/
def follow (expected before after : ∀ i, β i) (i : ι) : β i :=
  if after i = before i then expected i else after i

@[simp]
theorem follow_self (before after : ∀ i, β i) : follow before before after = after := by
  funext i
  unfold follow
  split
  · rename_i hsame
    exact hsame.symm
  · rfl

/-- Where the others change nothing, the value keeps its difference. -/
theorem follow_update [DecidableEq ι] {before after : ∀ i, β i} {i : ι}
    (h : after i = before i) (x : β i) :
    follow (Function.update before i x) before after = Function.update after i x := by
  funext j
  by_cases hj : j = i
  · subst hj
    simp [follow, h]
  · simp only [follow, Function.update_of_ne hj]
    split
    · rename_i hsame
      exact hsame.symm
    · rfl

end Others

end TransitionSystem
