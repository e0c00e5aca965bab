import Mathlib.Data.List.Basic

/-!
# Interleavings of streams

A fold over a trace of elements that belong to streams. Where the steps of two streams commute, the
fold depends on the sequence of each stream alone, not on how the sequences are interleaved; and a
part of the state that the steps of other streams keep is what it was before them.
-/

namespace Interleaving

variable {σ α κ : Type*} {step : σ → α → σ} {stream : α → κ}

/-- A step moves in front of steps of other streams. -/
theorem foldl_step_of_apart {a : α} {xs : List α}
    (h : ∀ b ∈ xs, ∀ s, step (step s b) a = step (step s a) b) (s : σ) :
    step (xs.foldl step s) a = xs.foldl step (step s a) := by
  induction xs generalizing s with
  | nil => rfl
  | cons b xs ih =>
    calc
      step ((b :: xs).foldl step s) a = xs.foldl step (step (step s b) a) :=
        ih (fun c hc ↦ h c (List.mem_cons_of_mem b hc)) (step s b)
      _ = xs.foldl step (step (step s a) b) := by rw [h b List.mem_cons_self s]

/-- What the steps of a trace keep is what it was before the trace. -/
theorem foldl_keeps {β : Type*} (view : σ → β) {xs : List α}
    (h : ∀ a ∈ xs, ∀ s, view (step s a) = view s) (s : σ) : view (xs.foldl step s) = view s := by
  induction xs generalizing s with
  | nil => rfl
  | cons a xs ih =>
    calc
      view ((a :: xs).foldl step s) = view (step s a) :=
        ih (fun b hb ↦ h b (List.mem_cons_of_mem a hb)) (step s a)
      _ = view s := h a List.mem_cons_self s

variable [DecidableEq κ]

/-- Two traces carry the same sequence on every stream. -/
def SameStreams (stream : α → κ) (xs ys : List α) : Prop :=
  ∀ k, xs.filter (fun a ↦ stream a = k) = ys.filter fun a ↦ stream a = k

theorem SameStreams.mem_iff {xs ys : List α} (h : SameStreams stream xs ys) (a : α) :
    a ∈ xs ↔ a ∈ ys := by
  have hmem : a ∈ xs.filter (fun b ↦ stream b = stream a) ↔
      a ∈ ys.filter fun b ↦ stream b = stream a := by
    rw [h (stream a)]
  simpa using hmem

/-- The first element of a trace is the first one of its stream in the other trace. -/
theorem SameStreams.split {a : α} {xs ys : List α} (h : SameStreams stream (a :: xs) ys) :
    ∃ before after, ys = before ++ a :: after ∧ (∀ b ∈ before, stream b ≠ stream a) ∧
      SameStreams stream xs (before ++ after) := by
  have hhead : ys.filter (fun b ↦ stream b = stream a) =
      a :: xs.filter fun b ↦ stream b = stream a := by
    rw [← h (stream a), List.filter_cons_of_pos (by simp)]
  obtain ⟨before, after, rfl, hbefore, -, hafter⟩ := List.filter_eq_cons_iff.mp hhead
  have hapart : ∀ b ∈ before, stream b ≠ stream a := by
    intro b hb
    simpa using hbefore b hb
  refine ⟨before, after, rfl, hapart, fun k ↦ ?_⟩
  by_cases hk : stream a = k
  · subst hk
    have hnone : before.filter (fun b ↦ stream b = stream a) = [] := by
      rw [List.filter_eq_nil_iff]
      intro b hb
      simpa using hapart b hb
    rw [List.filter_append, hnone, List.nil_append, hafter]
  · have hsame := h k
    rw [List.filter_cons_of_neg (by simpa using hk), List.filter_append,
      List.filter_cons_of_neg (by simpa using hk)] at hsame
    rw [hsame, List.filter_append]

/-- Where the steps of different streams commute, traces with the same sequences lead to the same
state. -/
theorem SameStreams.foldl_eq {xs ys : List α} (h : SameStreams stream xs ys)
    (hcommute : ∀ a ∈ xs, ∀ b ∈ xs, stream a ≠ stream b →
      ∀ s, step (step s a) b = step (step s b) a) (s : σ) :
    xs.foldl step s = ys.foldl step s := by
  induction xs generalizing ys s with
  | nil =>
    have hnone : ys = [] := by
      apply List.eq_nil_iff_forall_not_mem.mpr
      intro a ha
      cases (h.mem_iff a).mpr ha
    rw [hnone]
  | cons a xs ih =>
    obtain ⟨before, after, rfl, hapart, hrest⟩ := h.split
    have hmoves : ∀ b ∈ before, ∀ s, step (step s b) a = step (step s a) b := by
      intro b hb
      have hmem : b ∈ a :: xs := (h.mem_iff b).mpr (List.mem_append_left _ hb)
      exact hcommute b hmem a List.mem_cons_self (hapart b hb)
    calc
      (a :: xs).foldl step s = (before ++ after).foldl step (step s a) :=
        ih hrest (fun b hb c hc ↦
          hcommute b (List.mem_cons_of_mem a hb) c (List.mem_cons_of_mem a hc)) (step s a)
      _ = after.foldl step (before.foldl step (step s a)) := List.foldl_append
      _ = after.foldl step (step (before.foldl step s) a) := by
        rw [foldl_step_of_apart hmoves]
      _ = (before ++ a :: after).foldl step s := by rw [List.foldl_append, List.foldl_cons]

end Interleaving
