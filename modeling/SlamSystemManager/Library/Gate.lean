import Mathlib.Data.List.Forall2
import Mathlib.Data.List.Pairwise
import Mathlib.Order.Basic
import Mathlib.Order.Nat

/-!
# Gates that are passed in order of arrival

Arrivals are numbered. Each is worked on by some worker, and the workers that have not yet passed a
gate wait at it with the number of their arrival. Nothing keeps a worker from passing before another
one with an earlier arrival; if none does, the numbers that have passed are in order. The log of a
gate is kept latest first.
-/

namespace Gate

variable {ι : Type*} {waiting waiting' : ι → Option ℕ} {passed : List ℕ} {arrived : ℕ}

/-- Whoever waits has arrived after everyone who has passed. -/
structure InOrder (waiting : ι → Option ℕ) (passed : List ℕ) (arrived : ℕ) : Prop where
  sorted : passed.Pairwise (· > ·)
  ahead : ∀ n ∈ passed, ∀ worker m, waiting worker = some m → n < m
  counted : ∀ n ∈ passed, n ≤ arrived
  arrivals : ∀ worker m, waiting worker = some m → m ≤ arrived
  distinct : ∀ worker other m, waiting worker = some m → waiting other = some m → worker = other

namespace InOrder

theorem empty (h : ∀ worker, waiting worker = none) : InOrder waiting [] arrived :=
  ⟨.nil, by simp, by simp, by simp [h], by simp [h]⟩

/-- Workers may leave without passing. -/
theorem mono (h : InOrder waiting passed arrived)
    (hkept : ∀ worker m, waiting' worker = some m → waiting worker = some m) :
    InOrder waiting' passed arrived :=
  ⟨h.sorted, fun n hn worker m hm ↦ h.ahead n hn worker m (hkept worker m hm), h.counted,
    fun worker m hm ↦ h.arrivals worker m (hkept worker m hm),
    fun worker other m hm hother ↦
      h.distinct worker other m (hkept worker m hm) (hkept other m hother)⟩

/-- A new arrival is later than every other. -/
theorem arrive (h : InOrder waiting passed arrived) (new : ι)
    (hkept : ∀ worker m, waiting' worker = some m →
      (worker ≠ new ∧ waiting worker = some m) ∨ (worker = new ∧ m = arrived + 1)) :
    InOrder waiting' passed (arrived + 1) := by
  refine ⟨h.sorted, fun n hn worker m hm ↦ ?_, fun n hn ↦ (h.counted n hn).trans (Nat.le_succ _),
    fun worker m hm ↦ ?_, fun worker other m hm hother ↦ ?_⟩
  · rcases hkept worker m hm with ⟨-, hbefore⟩ | ⟨-, rfl⟩
    · exact h.ahead n hn worker m hbefore
    · exact Nat.lt_succ_of_le (h.counted n hn)
  · rcases hkept worker m hm with ⟨-, hbefore⟩ | ⟨-, rfl⟩
    · exact (h.arrivals worker m hbefore).trans (Nat.le_succ _)
    · exact le_rfl
  · rcases hkept worker m hm with ⟨-, hworker⟩ | ⟨rfl, rfl⟩
    · rcases hkept other m hother with ⟨-, hother⟩ | ⟨-, rfl⟩
      · exact h.distinct worker other m hworker hother
      · exact absurd (h.arrivals worker _ hworker) (Nat.not_succ_le_self _)
    · rcases hkept other _ hother with ⟨-, hother⟩ | ⟨rfl, -⟩
      · exact absurd (h.arrivals other _ hother) (Nat.not_succ_le_self _)
      · rfl

/-- The worker that passes overtakes nobody. -/
theorem pass (h : InOrder waiting passed arrived) {passing : ι} {n : ℕ}
    (hpassing : waiting passing = some n)
    (hfirst : ∀ worker m, waiting worker = some m → ¬ m < n)
    (hkept : ∀ worker m, waiting' worker = some m → worker ≠ passing ∧ waiting worker = some m) :
    InOrder waiting' (n :: passed) arrived := by
  have hrest := h.mono fun worker m hm ↦ (hkept worker m hm).2
  refine ⟨List.pairwise_cons.mpr ⟨fun earlier hearlier ↦ ?_, h.sorted⟩, ?_, ?_, hrest.arrivals,
    hrest.distinct⟩
  · exact h.ahead earlier hearlier passing n hpassing
  · intro earlier hearlier worker m hm
    obtain ⟨hother, hwaits⟩ := hkept worker m hm
    rcases List.mem_cons.mp hearlier with rfl | hbefore
    · have hdistinct : earlier ≠ m := by
        rintro rfl
        exact hother (h.distinct worker passing earlier hwaits hpassing)
      exact lt_of_le_of_ne (not_lt.mp (hfirst worker m hwaits)) hdistinct
    · exact h.ahead earlier hbefore worker m hwaits
  · intro earlier hearlier
    rcases List.mem_cons.mp hearlier with rfl | hbefore
    · exact h.arrivals passing earlier hpassing
    · exact h.counted earlier hbefore

end InOrder

/-! ## Logs beside the numbers -/

variable {α : Type*} {r : α → ℕ → Prop} {less : α → α → Prop}

theorem exists_number {values : List α} (h : List.Forall₂ r values passed) {value : α}
    (hvalue : value ∈ values) : ∃ n ∈ passed, r value n := by
  induction h with
  | nil => cases hvalue
  | @cons first n values passed hfirst _ ih =>
    rcases List.mem_cons.mp hvalue with rfl | hrest
    · exact ⟨n, List.mem_cons_self, hfirst⟩
    · obtain ⟨m, hm, hnumber⟩ := ih hrest
      exact ⟨m, List.mem_cons_of_mem n hm, hnumber⟩

/-- What is logged beside the numbers is in order when it grows with them. -/
theorem pairwise_of_forall₂
    (hgrows : ∀ later earlier n m, r later n → r earlier m → m < n → less earlier later)
    {values : List α} (h : List.Forall₂ r values passed) (hsorted : passed.Pairwise (· > ·)) :
    values.Pairwise fun later earlier ↦ less earlier later := by
  induction h with
  | nil => exact .nil
  | @cons value n values passed hvalue hrest ih =>
    obtain ⟨hahead, hsorted⟩ := List.pairwise_cons.mp hsorted
    refine List.pairwise_cons.mpr ⟨fun earlier hearlier ↦ ?_, ih hsorted⟩
    obtain ⟨m, hm, hnumber⟩ := exists_number hrest hearlier
    exact hgrows value earlier n m hvalue hnumber (hahead m hm)

end Gate
