import Mathlib.Init

/-!
# Machines that answer, and what they cannot tell apart

A machine answers every input with an output. An unwinding relation between its states is one whose
related states answer alike and stay related; what follows from related states is the same sequence
of answers. A map that erases the part of a state which no answer depends on gives such a relation.
-/

namespace Unwinding

variable {σ ι ο : Type*} {step : σ → ι → σ × ο}

/-- The answers of a machine to a list of inputs. -/
def outputs (step : σ → ι → σ × ο) : σ → List ι → List ο
  | _, [] => []
  | s, input :: inputs => (step s input).2 :: outputs step (step s input).1 inputs

/-- Related states answer alike and stay related. -/
structure Unwinds (step : σ → ι → σ × ο) (related : σ → σ → Prop) : Prop where
  output : ∀ s t input, related s t → (step s input).2 = (step t input).2
  next : ∀ s t input, related s t → related (step s input).1 (step t input).1

theorem Unwinds.outputs_eq {related : σ → σ → Prop} (h : Unwinds step related) {s t : σ}
    (hrelated : related s t) (inputs : List ι) : outputs step s inputs = outputs step t inputs := by
  induction inputs generalizing s t with
  | nil => rfl
  | cons input inputs ih =>
    rw [outputs, outputs, h.output s t input hrelated, ih (h.next s t input hrelated)]

/-- What is erased from a state has no influence on its answer, nor on what remains of the next
state. -/
structure Erases (step : σ → ι → σ × ο) (erase : σ → σ) : Prop where
  output : ∀ s input, (step (erase s) input).2 = (step s input).2
  next : ∀ s input, erase (step (erase s) input).1 = erase (step s input).1

theorem Erases.unwinds {erase : σ → σ} (h : Erases step erase) :
    Unwinds step fun s t ↦ erase s = erase t where
  output s t input hsame := by
    rw [← h.output s input, hsame, h.output t input]
  next s t input hsame := by
    rw [← h.next s input, hsame, h.next t input]

end Unwinding
