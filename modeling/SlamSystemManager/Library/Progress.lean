import SlamSystemManager.Library.TransitionSystem

/-!
# Progress of transition systems

A goal can be reached from a state when some run leads there. Goals can be reached one after the
other.
-/

namespace TransitionSystem

variable {σ α : Type*} {step : σ → α → Option σ} {ok : σ → α → Prop} {goal middle : σ → Prop}

/-- Some run leads from the state to one of the goal. -/
def CanReach (step : σ → α → Option σ) (ok : σ → α → Prop) (goal : σ → Prop) (s : σ) : Prop :=
  ∃ s', Steps step ok s s' ∧ goal s'

theorem CanReach.refl {s : σ} (h : goal s) : CanReach step ok goal s := ⟨s, .refl, h⟩

theorem CanReach.head {s s' : σ} {a : α} (hok : ok s a) (hstep : step s a = some s')
    (h : CanReach step ok goal s') : CanReach step ok goal s := by
  obtain ⟨last, hsteps, hgoal⟩ := h
  exact ⟨last, (Steps.refl.tail hok hstep).trans hsteps, hgoal⟩

theorem CanReach.mono {goal' : σ → Prop} (himp : ∀ s, goal s → goal' s) {s : σ}
    (h : CanReach step ok goal s) : CanReach step ok goal' s := by
  obtain ⟨last, hsteps, hgoal⟩ := h
  exact ⟨last, hsteps, himp last hgoal⟩

/-- From a goal that can be reached one may go on. -/
theorem CanReach.bind {s : σ} (h : CanReach step ok middle s)
    (hnext : ∀ s', Steps step ok s s' → middle s' → CanReach step ok goal s') :
    CanReach step ok goal s := by
  obtain ⟨s', hsteps, hmiddle⟩ := h
  obtain ⟨last, hrest, hgoal⟩ := hnext s' hsteps hmiddle
  exact ⟨last, hsteps.trans hrest, hgoal⟩

end TransitionSystem
