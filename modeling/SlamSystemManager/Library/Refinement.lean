import SlamSystemManager.Library.TransitionSystem

/-!
# Refinement mappings

A view of one system as another refines it when every step of the first is seen as a run of the
second. Runs are then seen as runs, so that what the second keeps in every run is kept in the view.
-/

namespace TransitionSystem

variable {σ α τ β : Type*} {step : σ → α → Option σ} {ok : σ → α → Prop} {init : σ → Prop}
  {step' : τ → β → Option τ} {ok' : τ → β → Prop} {init' : τ → Prop} {view : σ → τ}

/-- Every step from a state with `P` is seen as a run, and keeps `P`. -/
structure Refines (step : σ → α → Option σ) (ok : σ → α → Prop) (P : σ → Prop)
    (step' : τ → β → Option τ) (ok' : τ → β → Prop) (view : σ → τ) : Prop where
  keeps : ∀ s a s', P s → ok s a → step s a = some s' → P s'
  seen : ∀ s a s', P s → ok s a → step s a = some s' → Steps step' ok' (view s) (view s')

variable {P : σ → Prop}

theorem Refines.steps (h : Refines step ok P step' ok' view) {s s' : σ} (hs : P s)
    (hrun : Steps step ok s s') : Steps step' ok' (view s) (view s') := by
  induction hrun with
  | refl => exact .refl
  | tail hrun hok hnext ih =>
    have hkept := hrun.invariant h.keeps hs
    exact ih.trans (h.seen _ _ _ hkept hok hnext)

theorem Refines.reaches (h : Refines step ok P step' ok' view) (hP : ∀ s, init s → P s)
    (hinit : ∀ s, init s → init' (view s)) {s : σ} (hreach : Reaches step ok init s) :
    Reaches step' ok' init' (view s) := by
  obtain ⟨start, hstart, hrun⟩ := hreach
  exact ⟨view start, hinit start hstart, h.steps (hP start hstart) hrun⟩

/-- What the second system keeps in every run is kept in the view. -/
theorem Refines.invariant (h : Refines step ok P step' ok' view) (hP : ∀ s, init s → P s)
    (hinit : ∀ s, init s → init' (view s)) {Q : τ → Prop} (hQ : ∀ t, init' t → Q t)
    (hstep : ∀ t b t', Q t → ok' t b → step' t b = some t' → Q t') {s : σ}
    (hreach : Reaches step ok init s) : Q (view s) :=
  (h.reaches hP hinit hreach).invariant hQ hstep

end TransitionSystem
