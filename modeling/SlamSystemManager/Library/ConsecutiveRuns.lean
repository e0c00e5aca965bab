import Mathlib.Data.List.Induction
import Mathlib.Data.List.TakeDrop
import Mathlib.Order.Nat
import Mathlib.Tactic.Common

/-!
# Runs of consecutive elements

A history is a list that grows at its end. `EndsRun p n xs i` says that the `n` elements before
position `i` all satisfy `p`, so that a run of `n` consecutive ones is complete there.
`Completed` and `StandsSince` are the two questions a debouncing state machine asks about its
history: has such a run ever been completed, and has one been completed that no run of another
kind has overridden since. `trailing` is the counter such a machine keeps; the `_concat` lemmas
give the three notions on a history extended by one element.
-/

namespace ConsecutiveRuns

variable {α : Type*}

/-- The `n` elements of `xs` that end at position `i` all satisfy `p`. -/
def EndsRun (p : α → Bool) (n : ℕ) (xs : List α) (i : ℕ) : Prop :=
  n ≤ i ∧ i ≤ xs.length ∧ ∀ k, i - n ≤ k → k < i → ∃ x ∈ xs[k]?, p x = true

/-- Some run of `n` consecutive elements satisfying `p` has been completed. -/
def Completed (p : α → Bool) (n : ℕ) (xs : List α) : Prop := ∃ i, EndsRun p n xs i

/-- A run of `n` elements satisfying `p` has been completed and no run of `m` elements satisfying
`q` has been completed after it. -/
def StandsSince (p : α → Bool) (n : ℕ) (q : α → Bool) (m : ℕ) (xs : List α) : Prop :=
  ∃ i, EndsRun p n xs i ∧ ∀ j, i < j → ¬EndsRun q m xs j

/-- The number of elements at the end of the history that satisfy `p`. -/
def trailing (p : α → Bool) (xs : List α) : ℕ := (xs.reverse.takeWhile p).length

@[simp] theorem trailing_nil (p : α → Bool) : trailing p [] = 0 := rfl

theorem trailing_concat (p : α → Bool) (xs : List α) (x : α) :
    trailing p (xs ++ [x]) = if p x then trailing p xs + 1 else 0 := by
  cases hx : p x <;> simp [trailing, hx]

theorem le_trailing_append_replicate {p : α → Bool} {x : α} (hx : p x = true) (xs : List α)
    (n : ℕ) : n ≤ trailing p (xs ++ List.replicate n x) := by
  induction n with
  | zero => exact Nat.zero_le _
  | succ n ih =>
    rw [List.replicate_succ', ← List.append_assoc, trailing_concat, if_pos hx]
    exact Nat.succ_le_succ ih

theorem trailing_mono {p q : α → Bool} (hpq : ∀ x, p x = true → q x = true) (xs : List α) :
    trailing p xs ≤ trailing q xs := by
  induction xs using List.reverseRecOn with
  | nil => exact le_rfl
  | append_singleton xs x ih =>
    rw [trailing_concat, trailing_concat]
    by_cases hx : p x = true
    · rw [if_pos hx, if_pos (hpq x hx)]
      exact Nat.succ_le_succ ih
    · rw [if_neg hx]
      exact Nat.zero_le _

/-- Elements of two exclusive kinds never both end the history. -/
theorem trailing_eq_zero_or {p q : α → Bool} (hpq : ∀ x, p x = true → q x = false)
    (xs : List α) : trailing p xs = 0 ∨ trailing q xs = 0 := by
  induction xs using List.reverseRecOn with
  | nil => exact Or.inl rfl
  | append_singleton xs x _ =>
    rw [trailing_concat, trailing_concat]
    by_cases hx : p x = true
    · exact Or.inr (by simp [hpq x hx])
    · exact Or.inl (by simp [hx])

theorem endsRun_concat_of_le (p : α → Bool) (n : ℕ) (xs : List α) (x : α) {i : ℕ}
    (hi : i ≤ xs.length) : EndsRun p n (xs ++ [x]) i ↔ EndsRun p n xs i := by
  have hget (k : ℕ) (hk : k < i) : (xs ++ [x])[k]? = xs[k]? :=
    List.getElem?_append_left (lt_of_lt_of_le hk hi)
  constructor
  · rintro ⟨hn, -, hrun⟩
    refine ⟨hn, hi, fun k hlow hk ↦ ?_⟩
    rw [← hget k hk]
    exact hrun k hlow hk
  · rintro ⟨hn, -, hrun⟩
    refine ⟨hn, hi.trans (by simp), fun k hlow hk ↦ ?_⟩
    rw [hget k hk]
    exact hrun k hlow hk

/-- At the end of the history the counter decides whether a run is complete. -/
theorem endsRun_length (p : α → Bool) (n : ℕ) (xs : List α) :
    EndsRun p n xs xs.length ↔ n ≤ trailing p xs := by
  induction xs using List.reverseRecOn generalizing n with
  | nil =>
    constructor
    · rintro ⟨hn, -, -⟩
      simpa using hn
    · intro hn
      exact ⟨by simpa using hn, le_rfl, fun k _ hk ↦ absurd hk (by simp)⟩
  | append_singleton xs x ih =>
    rw [trailing_concat]
    cases n with
    | zero =>
      refine ⟨fun _ ↦ Nat.zero_le _, fun _ ↦ ⟨Nat.zero_le _, le_rfl, fun k hlow hk ↦ ?_⟩⟩
      exact absurd hk (not_lt.mpr hlow)
    | succ n =>
      have hlast : (xs ++ [x])[xs.length]? = some x := by simp
      have hprevious : EndsRun p n (xs ++ [x]) xs.length ↔ n ≤ trailing p xs :=
        (endsRun_concat_of_le p n xs x le_rfl).trans (ih n)
      by_cases hx : p x = true
      · rw [if_pos hx, Nat.succ_le_succ_iff, ← hprevious]
        simp only [EndsRun, List.length_append, List.length_singleton]
        constructor
        · rintro ⟨hn, -, hrun⟩
          exact ⟨by omega, by omega, fun k hlow hk ↦ hrun k (by omega) (by omega)⟩
        · rintro ⟨hn, -, hrun⟩
          refine ⟨by omega, le_rfl, fun k hlow hk ↦ ?_⟩
          by_cases hkx : k = xs.length
          · exact ⟨x, by rw [hkx, hlast]; rfl, hx⟩
          · exact hrun k (by omega) (by omega)
      · rw [if_neg hx]
        refine ⟨?_, fun h ↦ absurd h (Nat.not_succ_le_zero n)⟩
        rintro ⟨-, -, hrun⟩
        obtain ⟨y, hy, hpy⟩ := hrun xs.length (by simp) (by simp)
        rw [hlast] at hy
        cases hy
        exact absurd hpy hx

theorem endsRun_concat (p : α → Bool) (n : ℕ) (xs : List α) (x : α) (i : ℕ) :
    EndsRun p n (xs ++ [x]) i ↔
      EndsRun p n xs i ∨ (i = xs.length + 1 ∧ n ≤ trailing p (xs ++ [x])) := by
  have hlength : (xs ++ [x]).length = xs.length + 1 := by simp
  rw [← endsRun_length p n (xs ++ [x]), hlength]
  constructor
  · intro h
    rcases Nat.lt_or_ge xs.length i with hi | hi
    · have hend : i = xs.length + 1 := by
        have := h.2.1
        omega
      exact Or.inr ⟨hend, hend ▸ h⟩
    · exact Or.inl ((endsRun_concat_of_le p n xs x hi).mp h)
  · rintro (h | ⟨rfl, h⟩)
    · exact (endsRun_concat_of_le p n xs x h.2.1).mpr h
    · exact h

theorem completed_concat (p : α → Bool) (n : ℕ) (xs : List α) (x : α) :
    Completed p n (xs ++ [x]) ↔ Completed p n xs ∨ n ≤ trailing p (xs ++ [x]) := by
  simp only [Completed, endsRun_concat]
  constructor
  · rintro ⟨i, h | ⟨-, h⟩⟩
    · exact Or.inl ⟨i, h⟩
    · exact Or.inr h
  · rintro (⟨i, h⟩ | h)
    · exact ⟨i, Or.inl h⟩
    · exact ⟨_, Or.inr ⟨rfl, h⟩⟩

theorem standsSince_concat (p : α → Bool) (n : ℕ) (q : α → Bool) (m : ℕ) (xs : List α) (x : α) :
    StandsSince p n q m (xs ++ [x]) ↔
      n ≤ trailing p (xs ++ [x]) ∨
        (StandsSince p n q m xs ∧ ¬m ≤ trailing q (xs ++ [x])) := by
  simp only [StandsSince, endsRun_concat]
  constructor
  · rintro ⟨i, h | ⟨-, h⟩, hsince⟩
    · refine Or.inr ⟨⟨i, h, fun j hj hq ↦ hsince j hj (Or.inl hq)⟩, fun hq ↦ ?_⟩
      exact hsince _ (Nat.lt_succ_of_le h.2.1) (Or.inr ⟨rfl, hq⟩)
    · exact Or.inl h
  · rintro (h | ⟨⟨i, h, hsince⟩, hq⟩)
    · refine ⟨_, Or.inr ⟨rfl, h⟩, fun j hj ↦ ?_⟩
      rintro (hrun | ⟨hend, -⟩)
      · exact absurd hrun.2.1 (by omega)
      · omega
    · refine ⟨i, Or.inl h, fun j hj ↦ ?_⟩
      rintro (hrun | ⟨-, hrun⟩)
      · exact hsince j hj hrun
      · exact hq hrun

theorem not_completed_nil (p : α → Bool) {n : ℕ} (hn : 0 < n) : ¬Completed p n [] := by
  rintro ⟨i, hi⟩
  have hlength : i = 0 := by simpa using hi.2.1
  exact absurd hi.1 (by omega)

theorem not_standsSince_nil (p : α → Bool) {n : ℕ} (hn : 0 < n) (q : α → Bool) (m : ℕ) :
    ¬StandsSince p n q m [] :=
  fun ⟨i, hi, _⟩ ↦ not_completed_nil p hn ⟨i, hi⟩

/-- A run that stands has not been overridden: the counter of the overriding kind is short of
its bound, when elements of the two kinds exclude each other. -/
theorem StandsSince.trailing_lt {p q : α → Bool} (hpq : ∀ x, p x = true → q x = false) {n m : ℕ}
    (hn : 0 < n) (hm : 0 < m) {xs : List α} (h : StandsSince p n q m xs) : trailing q xs < m := by
  obtain ⟨i, hi, hsince⟩ := h
  by_contra hge
  have hrun : EndsRun q m xs xs.length := (endsRun_length q m xs).mpr (not_lt.mp hge)
  have hend : i = xs.length := by
    by_contra hne
    exact hsince _ (lt_of_le_of_ne hi.2.1 hne) hrun
  have htrailing : n ≤ trailing p xs := (endsRun_length p n xs).mp (hend ▸ hi)
  rcases trailing_eq_zero_or hpq xs with h0 | h0 <;> omega

end ConsecutiveRuns
