import Mathlib.Data.Finset.Erase
import Mathlib.Data.Finset.Insert
import Mathlib.Logic.Function.Basic

/-!
# Child processes and process groups

The part of a POSIX kernel that a parent sees which forks children, each the leader of a process
group of its own, waits for them without blocking and sends signals to their groups. A child keeps
its place in the order of the forks for good, so it can be told from a later one with the same
process id. It carries a tag, what the parent has forked it for. The processes that a child leaves
in its group stay members of it after the child is gone. An id is free again once no process and no
group has it.
-/

namespace Posix

/-- What the macros of `wait` tell apart. -/
inductive WaitStatus where
  | exited (code : Fin 256)
  | signaled (signal : ℕ)
  | stopped (signal : ℕ)
  deriving DecidableEq, Repr

/-- A child that has exited keeps its status until its parent has waited for it; `since` is the time
of the exit. -/
inductive Life where
  | running
  | zombie (status : WaitStatus) (since : ℕ)
  | reaped (status : WaitStatus) (since : ℕ)
  deriving DecidableEq, Repr

def Life.unreaped : Life → Bool
  | .reaped _ _ => false
  | _ => true

/-- `members` are the other live processes of the group the child leads. -/
structure Child (τ : Type*) where
  tag : τ
  pid : ℤ
  life : Life := .running
  members : Finset ℤ := ∅

/-- `child k` is the child of the `k`-th fork, for `k` below `count`; `others` are the ids of the
processes that have nothing to do with the parent. -/
structure Kernel (τ : Type*) where
  count : ℕ
  child : ℕ → Child τ
  others : Finset ℤ

/-- The errors of `waitpid` besides the lack of a child. -/
inductive WaitFault where
  | eintr
  | other
  deriving DecidableEq, Repr

/-- What `waitpid` returns without blocking: zero, the id with a status, or an error. -/
inductive WaitResult where
  | none
  | status (status : WaitStatus)
  | echild
  | fault (fault : WaitFault)
  deriving DecidableEq, Repr

/-- Who gets a signal: the group of a child, or a process that is none of the parent's. -/
inductive Receiver where
  | group (serial : ℕ)
  | other (pid : ℤ)
  deriving DecidableEq, Repr

variable {τ : Type*}

namespace Child

def unreaped (child : Child τ) : Bool := child.life.unreaped

/-- Some process of the group is alive. -/
def groupAlive (child : Child τ) : Bool :=
  decide (child.life = .running) || decide (child.members ≠ ∅)

/-- The id of the child is in use, as the id of a process or of a group. -/
def holds (child : Child τ) : Bool := child.unreaped || decide (child.members ≠ ∅)

end Child

namespace Kernel

def empty [Inhabited τ] : Kernel τ := ⟨0, fun _ ↦ ⟨default, 0, .running, ∅⟩, ∅⟩

def taken (kernel : Kernel τ) (pid : ℤ) : Bool :=
  decide (pid ∈ kernel.others) || (List.range kernel.count).any fun k ↦
    (kernel.child k).holds && (decide ((kernel.child k).pid = pid) ||
      decide (pid ∈ (kernel.child k).members))

def setChild (kernel : Kernel τ) (k : ℕ) (child : Child τ) : Kernel τ :=
  { kernel with child := Function.update kernel.child k child }

/-- `fork` with the id the kernel has chosen, and `setpgid`. -/
def fork (kernel : Kernel τ) (tag : τ) (pid : ℤ) : Option (Kernel τ) :=
  if 0 < pid ∧ kernel.taken pid = false then
    some { kernel.setChild kernel.count ⟨tag, pid, .running, ∅⟩ with count := kernel.count + 1 }
  else none

/-- A child exits, by itself or by a signal. -/
def exit (kernel : Kernel τ) (now k : ℕ) (status : WaitStatus) : Option (Kernel τ) :=
  if k < kernel.count ∧ (kernel.child k).life = .running then
    some (kernel.setChild k { kernel.child k with life := .zombie status now })
  else none

/-- A process of the group of a child forks one that stays in the group. -/
def join (kernel : Kernel τ) (k : ℕ) (pid : ℤ) : Option (Kernel τ) :=
  if k < kernel.count ∧ (kernel.child k).groupAlive = true ∧ 0 < pid ∧ kernel.taken pid = false then
    some (kernel.setChild k
      { kernel.child k with members := insert pid (kernel.child k).members })
  else none

/-- Another process of the group of a child exits. -/
def leave (kernel : Kernel τ) (k : ℕ) (pid : ℤ) : Option (Kernel τ) :=
  if k < kernel.count ∧ pid ∈ (kernel.child k).members then
    some (kernel.setChild k
      { kernel.child k with members := (kernel.child k).members.erase pid })
  else none

/-- A process that is none of the parent's starts. -/
def otherStarts (kernel : Kernel τ) (pid : ℤ) : Option (Kernel τ) :=
  if 0 < pid ∧ kernel.taken pid = false then
    some { kernel with others := insert pid kernel.others }
  else none

def otherExits (kernel : Kernel τ) (pid : ℤ) : Kernel τ :=
  { kernel with others := kernel.others.erase pid }

/-- The child that has not been waited for with a process id. -/
def find? (kernel : Kernel τ) (pid : ℤ) : Option ℕ :=
  (List.range kernel.count).find? fun k ↦
    (kernel.child k).unreaped && decide ((kernel.child k).pid = pid)

/-- `waitpid` with `WNOHANG`, for the id of a process. -/
def waitpid (kernel : Kernel τ) (pid : ℤ) (fault : Option WaitFault) : Kernel τ × WaitResult :=
  match kernel.find? pid with
  | none => (kernel, .echild)
  | some k =>
    match fault with
    | some fault => (kernel, .fault fault)
    | none =>
      match (kernel.child k).life with
      | .zombie status since =>
        (kernel.setChild k { kernel.child k with life := .reaped status since }, .status status)
      | _ => (kernel, .none)

/-- Who `kill` reaches with the id of a group, and with the id of a process when no group has it;
`none` stands for `ESRCH`. -/
def receiver (kernel : Kernel τ) (pid : ℤ) : Option Receiver :=
  match (List.range kernel.count).find? fun k ↦
      (kernel.child k).holds && decide ((kernel.child k).pid = pid) with
  | some k => some (.group k)
  | none => if pid ∈ kernel.others then some (.other pid) else none

/-- The latest of the first `n` children with a tag. -/
def latestBelow [DecidableEq τ] (kernel : Kernel τ) (tag : τ) : ℕ → Option ℕ
  | 0 => none
  | n + 1 => if (kernel.child n).tag = tag then some n else latestBelow kernel tag n

/-- The child forked last with a tag. -/
def latest [DecidableEq τ] (kernel : Kernel τ) (tag : τ) : Option ℕ :=
  kernel.latestBelow tag kernel.count

/-! ## What the kernel keeps -/

/-- Ids are positive, and no two children and no process of another parent share one. -/
structure Sound (kernel : Kernel τ) : Prop where
  positive : ∀ k, k < kernel.count → 0 < (kernel.child k).pid
  distinct : ∀ j k, j < kernel.count → k < kernel.count → (kernel.child j).holds = true →
    (kernel.child k).holds = true → (kernel.child j).pid = (kernel.child k).pid → j = k
  apart : ∀ k, k < kernel.count → (kernel.child k).holds = true →
    (kernel.child k).pid ∉ kernel.others

theorem sound_of_count {kernel : Kernel τ} (hcount : kernel.count = 0) : kernel.Sound := by
  have hnone : ∀ k, ¬k < kernel.count := by
    intro k hk
    rw [hcount] at hk
    exact Nat.not_lt_zero k hk
  constructor
  · intro k hk
    exact absurd hk (hnone k)
  · intro j k hj
    exact absurd hj (hnone j)
  · intro k hk
    exact absurd hk (hnone k)

@[simp]
theorem setChild_count (kernel : Kernel τ) (k : ℕ) (child : Child τ) :
    (kernel.setChild k child).count = kernel.count := rfl

@[simp]
theorem setChild_others (kernel : Kernel τ) (k : ℕ) (child : Child τ) :
    (kernel.setChild k child).others = kernel.others := rfl

theorem setChild_child (kernel : Kernel τ) (k : ℕ) (child : Child τ) (j : ℕ) :
    (kernel.setChild k child).child j = if j = k then child else kernel.child j := by
  simp [setChild, Function.update_apply]

@[simp]
theorem setChild_child_self (kernel : Kernel τ) (k : ℕ) (child : Child τ) :
    (kernel.setChild k child).child k = child := by
  simp [setChild_child]

theorem setChild_child_of_ne (kernel : Kernel τ) {k j : ℕ} (child : Child τ) (h : j ≠ k) :
    (kernel.setChild k child).child j = kernel.child j := by
  simp [setChild_child, h]

theorem holds_of_unreaped {child : Child τ} (h : child.unreaped = true) : child.holds = true := by
  simp [Child.holds, h]

theorem holds_of_groupAlive {child : Child τ} (h : child.groupAlive = true) :
    child.holds = true := by
  simp only [Child.groupAlive, Bool.or_eq_true, decide_eq_true_eq] at h
  obtain hrunning | hmembers := h
  · exact holds_of_unreaped (by simp [Child.unreaped, hrunning, Life.unreaped])
  · simp [Child.holds, hmembers]

/-- A change of a child that keeps its id and takes no id that was free. -/
theorem Sound.setChild {kernel : Kernel τ} (h : kernel.Sound) {k : ℕ} {child : Child τ}
    (hpid : child.pid = (kernel.child k).pid)
    (hholds : child.holds = true → (kernel.child k).holds = true) :
    (kernel.setChild k child).Sound := by
  have hpids : ∀ j, ((kernel.setChild k child).child j).pid = (kernel.child j).pid := by
    intro j
    rw [setChild_child]
    split_ifs with hsame
    · rw [hsame, hpid]
    · rfl
  have hall : ∀ j, ((kernel.setChild k child).child j).holds = true →
      (kernel.child j).holds = true := by
    intro j hj
    rw [setChild_child] at hj
    split_ifs at hj with hsame
    · rw [hsame]
      exact hholds hj
    · exact hj
  constructor
  · intro j hj
    rw [hpids]
    exact h.positive j hj
  · intro i j hi hj hiholds hjholds hsame
    rw [hpids, hpids] at hsame
    exact h.distinct i j hi hj (hall i hiholds) (hall j hjholds) hsame
  · intro j hj hjholds
    rw [hpids]
    exact h.apart j hj (hall j hjholds)

theorem notTaken {kernel : Kernel τ} {pid : ℤ} (h : kernel.taken pid = false) :
    pid ∉ kernel.others ∧
      ∀ k, k < kernel.count → (kernel.child k).holds = true → (kernel.child k).pid ≠ pid := by
  simp only [taken, Bool.or_eq_false_iff, decide_eq_false_iff_not, List.any_eq_false,
    List.mem_range, Bool.and_eq_true, Bool.or_eq_true, decide_eq_true_eq, not_and, not_or] at h
  exact ⟨h.1, fun k hk hholds ↦ (h.2 k hk hholds).1⟩

theorem fork_eq_some {kernel kernel' : Kernel τ} {tag : τ} {pid : ℤ}
    (h : kernel.fork tag pid = some kernel') :
    kernel'.count = kernel.count + 1 ∧ kernel'.child kernel.count = ⟨tag, pid, .running, ∅⟩ ∧
      ∀ k, k < kernel.count → kernel'.child k = kernel.child k := by
  unfold Kernel.fork at h
  split_ifs at h
  cases h
  refine ⟨rfl, ?_, fun k hk ↦ ?_⟩
  · simp
  · exact setChild_child_of_ne kernel _ hk.ne

theorem Sound.fork {kernel kernel' : Kernel τ} (h : kernel.Sound) {tag : τ} {pid : ℤ}
    (hfork : kernel.fork tag pid = some kernel') : kernel'.Sound := by
  unfold Kernel.fork at hfork
  split_ifs at hfork with hfree
  cases hfork
  obtain ⟨hother, hchildren⟩ := notTaken hfree.2
  have hold : ∀ k, k < kernel.count →
      (kernel.setChild kernel.count ⟨tag, pid, .running, ∅⟩).child k = kernel.child k :=
    fun k hk ↦ setChild_child_of_ne kernel _ hk.ne
  constructor
  · intro k hk
    obtain hlt | rfl := Nat.lt_succ_iff_lt_or_eq.mp hk
    · simp only [hold k hlt]
      exact h.positive k hlt
    · simp only [setChild_child_self]
      exact hfree.1
  · intro j k hj hk hjholds hkholds hsame
    obtain hjlt | rfl := Nat.lt_succ_iff_lt_or_eq.mp hj <;>
      obtain hklt | rfl := Nat.lt_succ_iff_lt_or_eq.mp hk
    · simp only [hold j hjlt, hold k hklt] at hjholds hkholds hsame
      exact h.distinct j k hjlt hklt hjholds hkholds hsame
    · simp only [hold j hjlt, setChild_child_self] at hjholds hsame
      exact absurd hsame (hchildren j hjlt hjholds)
    · simp only [hold k hklt, setChild_child_self] at hkholds hsame
      exact absurd hsame.symm (hchildren k hklt hkholds)
    · rfl
  · intro k hk hkholds
    obtain hlt | rfl := Nat.lt_succ_iff_lt_or_eq.mp hk
    · simp only [hold k hlt] at hkholds ⊢
      exact h.apart k hlt hkholds
    · simp only [setChild_child_self]
      exact hother

theorem Sound.exit {kernel kernel' : Kernel τ} (h : kernel.Sound) {now k : ℕ} {status : WaitStatus}
    (hexit : kernel.exit now k status = some kernel') : kernel'.Sound := by
  unfold Kernel.exit at hexit
  split_ifs at hexit with hrunning
  cases hexit
  refine h.setChild rfl fun _ ↦ holds_of_unreaped ?_
  simp [Child.unreaped, hrunning.2, Life.unreaped]

theorem Sound.join {kernel kernel' : Kernel τ} (h : kernel.Sound) {k : ℕ} {pid : ℤ}
    (hjoin : kernel.join k pid = some kernel') : kernel'.Sound := by
  unfold Kernel.join at hjoin
  split_ifs at hjoin with halive
  cases hjoin
  exact h.setChild rfl fun _ ↦ holds_of_groupAlive halive.2.1

theorem Sound.leave {kernel kernel' : Kernel τ} (h : kernel.Sound) {k : ℕ} {pid : ℤ}
    (hleave : kernel.leave k pid = some kernel') : kernel'.Sound := by
  unfold Kernel.leave at hleave
  split_ifs at hleave with hmember
  cases hleave
  refine h.setChild rfl fun _ ↦ ?_
  have hne : (kernel.child k).members ≠ ∅ := Finset.ne_empty_of_mem hmember.2
  simp [Child.holds, hne]

theorem Sound.otherStarts {kernel kernel' : Kernel τ} (h : kernel.Sound) {pid : ℤ}
    (hstart : kernel.otherStarts pid = some kernel') : kernel'.Sound := by
  unfold Kernel.otherStarts at hstart
  split_ifs at hstart with hfree
  cases hstart
  refine ⟨h.positive, h.distinct, fun k hk hholds ↦ ?_⟩
  rw [Finset.mem_insert, not_or]
  exact ⟨(notTaken hfree.2).2 k hk hholds, h.apart k hk hholds⟩

theorem Sound.otherExits {kernel : Kernel τ} (h : kernel.Sound) (pid : ℤ) :
    (kernel.otherExits pid).Sound :=
  ⟨h.positive, h.distinct, fun k hk hholds hmem ↦
    h.apart k hk hholds (Finset.mem_of_mem_erase hmem)⟩

/-! ## Waiting -/

theorem find?_eq_some {kernel : Kernel τ} {pid : ℤ} {k : ℕ} (h : kernel.find? pid = some k) :
    k < kernel.count ∧ (kernel.child k).unreaped = true ∧ (kernel.child k).pid = pid := by
  have hfound := List.find?_some h
  simp only [Bool.and_eq_true, decide_eq_true_eq] at hfound
  exact ⟨List.mem_range.mp (List.mem_of_find?_eq_some h), hfound.1, hfound.2⟩

/-- An id finds the child that has it. -/
theorem Sound.find?_pid {kernel : Kernel τ} (h : kernel.Sound) {k : ℕ} (hk : k < kernel.count)
    (hunreaped : (kernel.child k).unreaped = true) :
    kernel.find? (kernel.child k).pid = some k := by
  cases hfind : kernel.find? (kernel.child k).pid with
  | none =>
    have hnone := List.find?_eq_none.mp hfind k (List.mem_range.mpr hk)
    simp [hunreaped] at hnone
  | some j =>
    obtain ⟨hj, hjunreaped, hpid⟩ := find?_eq_some hfind
    rw [h.distinct j k hj hk (holds_of_unreaped hjunreaped) (holds_of_unreaped hunreaped) hpid]

/-- A signal to the id of a child that has not been waited for reaches its group. -/
theorem Sound.receiver_pid {kernel : Kernel τ} (h : kernel.Sound) {k : ℕ} (hk : k < kernel.count)
    (hholds : (kernel.child k).holds = true) :
    kernel.receiver (kernel.child k).pid = some (.group k) := by
  unfold receiver
  cases hfind : (List.range kernel.count).find? fun j ↦
      (kernel.child j).holds && decide ((kernel.child j).pid = (kernel.child k).pid) with
  | none =>
    have hnone := List.find?_eq_none.mp hfind k (List.mem_range.mpr hk)
    simp [hholds] at hnone
  | some j =>
    have hfound := List.find?_some hfind
    simp only [Bool.and_eq_true, decide_eq_true_eq] at hfound
    have hj : j < kernel.count := List.mem_range.mp (List.mem_of_find?_eq_some hfind)
    rw [h.distinct j k hj hk hfound.1 hholds hfound.2]

/-- What a call of `waitpid` for a child that has not been waited for does. -/
theorem Sound.waitpid_cases {kernel : Kernel τ} (h : kernel.Sound) {k : ℕ} (hk : k < kernel.count)
    (hunreaped : (kernel.child k).unreaped = true) (fault : Option WaitFault) :
    (∃ fault', fault = some fault' ∧
      kernel.waitpid (kernel.child k).pid fault = (kernel, .fault fault')) ∨
    (fault = none ∧ (kernel.child k).life = .running ∧
      kernel.waitpid (kernel.child k).pid fault = (kernel, .none)) ∨
    ∃ status since, fault = none ∧ (kernel.child k).life = .zombie status since ∧
      kernel.waitpid (kernel.child k).pid fault =
        (kernel.setChild k { kernel.child k with life := .reaped status since },
          .status status) := by
  unfold waitpid
  rw [h.find?_pid hk hunreaped]
  cases fault with
  | some fault' => exact Or.inl ⟨fault', rfl, rfl⟩
  | none =>
    cases hlife : (kernel.child k).life with
    | running => exact Or.inr (Or.inl ⟨rfl, rfl, by simp [hlife]⟩)
    | zombie status since => exact Or.inr (Or.inr ⟨status, since, rfl, rfl, by simp [hlife]⟩)
    | reaped status since =>
      simp [Child.unreaped, hlife, Life.unreaped] at hunreaped

/-! ## The latest child with a tag -/

section Latest

variable [DecidableEq τ]

theorem latestBelow_eq_some {kernel : Kernel τ} {tag : τ} {n k : ℕ} :
    kernel.latestBelow tag n = some k ↔
      k < n ∧ (kernel.child k).tag = tag ∧ ∀ j, k < j → j < n → (kernel.child j).tag ≠ tag := by
  induction n with
  | zero => simp [latestBelow]
  | succ n ih =>
    unfold latestBelow
    split_ifs with hlast
    · rw [Option.some_inj]
      constructor
      · rintro rfl
        exact ⟨Nat.lt_succ_self _, hlast, by omega⟩
      · rintro ⟨hk, _, hlater⟩
        by_contra hne
        exact hlater n (by omega) (Nat.lt_succ_self n) hlast
    · rw [ih]
      constructor
      · rintro ⟨hk, htag, hlater⟩
        refine ⟨hk.trans (Nat.lt_succ_self n), htag, fun j hkj hj ↦ ?_⟩
        obtain hlt | rfl := Nat.lt_succ_iff_lt_or_eq.mp hj
        · exact hlater j hkj hlt
        · exact hlast
      · rintro ⟨hk, htag, hlater⟩
        have hne : k ≠ n := by
          rintro rfl
          exact hlast htag
        exact ⟨by omega, htag, fun j hkj hj ↦ hlater j hkj (hj.trans (Nat.lt_succ_self n))⟩

theorem latest_eq_some {kernel : Kernel τ} {tag : τ} {k : ℕ} :
    kernel.latest tag = some k ↔ k < kernel.count ∧ (kernel.child k).tag = tag ∧
      ∀ j, k < j → j < kernel.count → (kernel.child j).tag ≠ tag :=
  latestBelow_eq_some

theorem latestBelow_congr {kernel kernel' : Kernel τ} {tag : τ} {n : ℕ}
    (h : ∀ k, k < n → (kernel'.child k).tag = (kernel.child k).tag) :
    kernel'.latestBelow tag n = kernel.latestBelow tag n := by
  induction n with
  | zero => rfl
  | succ n ih =>
    unfold latestBelow
    rw [h n (Nat.lt_succ_self n), ih fun k hk ↦ h k (hk.trans (Nat.lt_succ_self n))]

theorem latest_setChild {kernel : Kernel τ} {k : ℕ} {child : Child τ}
    (htag : child.tag = (kernel.child k).tag) (tag : τ) :
    (kernel.setChild k child).latest tag = kernel.latest tag := by
  apply latestBelow_congr
  intro j _
  rw [setChild_child]
  split_ifs with hsame
  · rw [hsame, htag]
  · rfl

/-- The child that is forked becomes the latest of its tag. -/
theorem latest_fork {kernel kernel' : Kernel τ} {tag : τ} {pid : ℤ}
    (h : kernel.fork tag pid = some kernel') (tag' : τ) :
    kernel'.latest tag' = if tag' = tag then some kernel.count else kernel.latest tag' := by
  unfold fork at h
  split_ifs at h
  cases h
  unfold latest
  simp only [latestBelow, setChild_child_self]
  by_cases hsame : tag = tag'
  · rw [if_pos hsame, if_pos hsame.symm]
  · rw [if_neg hsame, if_neg (Ne.symm hsame)]
    apply latestBelow_congr
    intro k hk
    exact congrArg Child.tag (setChild_child_of_ne kernel _ hk.ne)

end Latest

end Kernel

end Posix
