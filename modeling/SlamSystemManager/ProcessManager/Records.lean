import Mathlib.Logic.Relation
import SlamSystemManager.Library.TransitionSystem
import SlamSystemManager.ProcessManager

/-!
# Records and children

The table of the process manager against the children of the kernel. Under the mutex only three
things happen to the two: a child that has exited is waited for, a child is forked for a name whose
last one has been waited for, and the table is replaced when all have been. None of them leaves a
child that has not been waited for without its record.
-/

namespace SlamSystemManager.ProcessManager

open Posix

/-- The record of a name and the child forked last for it know of each other. -/
structure Shared.Sound (s : Shared) : Prop where
  kernel : s.kernel.Sound
  owned : ∀ k, k < s.kernel.count → (s.kernel.child k).unreaped = true →
    (s.kernel.child k).tag ∈ s.table.names ∧
      s.kernel.latest (s.kernel.child k).tag = some k ∧
      (s.table.record (s.kernel.child k).tag).pid = (s.kernel.child k).pid
  recorded : ∀ name, name ∈ s.table.names → 0 < (s.table.record name).pid →
    ∃ k, s.kernel.latest name = some k ∧ (s.kernel.child k).unreaped = true ∧
      (s.kernel.child k).pid = (s.table.record name).pid
  exitCode : ∀ name, name ∈ s.table.names → ∀ code,
    (s.table.record name).lastExitCode = some code →
      ∃ k status since, s.kernel.latest name = some k ∧
        (s.kernel.child k).life = .reaped status since ∧ code = normalizedExitCode status

/-- The record and the child after the child has been waited for. -/
def Shared.reap (s : Shared) (name : String) (k : ℕ) (status : WaitStatus) (since : ℕ) :
    Shared where
  table := s.table.set name { s.table.record name with
    pid := -1, lastExitCode := some (normalizedExitCode status) }
  kernel := s.kernel.setChild k { s.kernel.child k with life := .reaped status since }

/-- What the sections under the mutex are made of. -/
inductive Move (s : Shared) : Shared → Prop
  | reap {name : String} {k : ℕ} {status : WaitStatus} {since : ℕ} (hname : name ∈ s.table.names)
    (hlatest : s.kernel.latest name = some k)
    (hlife : (s.kernel.child k).life = .zombie status since)
    (hpid : (s.table.record name).pid = (s.kernel.child k).pid) :
    Move s (s.reap name k status since)
  | fork {name : String} {pid : ℤ} {kernel : Kernel String} (hname : name ∈ s.table.names)
    (hidle : (s.table.record name).pid ≤ 0) (hfork : s.kernel.fork name pid = some kernel) :
    Move s { table := s.table.set name
               { s.table.record name with pid := pid, lastExitCode := none }, kernel := kernel }
  | replace (configs : ProcessConfigs)
    (hidle : ∀ name, name ∈ s.table.names → (s.table.record name).pid ≤ 0) :
    Move s { s with table := configs.table }

abbrev Moves := Relation.ReflTransGen Move

/-! ## Tables -/

@[simp]
theorem ProcessTable.set_names (table : ProcessTable) (name : String) (record : ProcessRecord) :
    (table.set name record).names = table.names := rfl

theorem ProcessTable.set_record (table : ProcessTable) (name : String) (record : ProcessRecord)
    (other : String) :
    (table.set name record).record other = if other = name then record else table.record other := by
  simp [set, Function.update_apply]

@[simp]
theorem ProcessTable.set_self (table : ProcessTable) (name : String) :
    table.set name (table.record name) = table := by
  simp [set]

namespace Shared.Sound

variable {s s' : Shared}

/-- A name without a running process has no child left to wait for. -/
theorem reaped_of_idle (h : s.Sound) {name : String} (hidle : (s.table.record name).pid ≤ 0) {k : ℕ}
    (hk : k < s.kernel.count) (htag : (s.kernel.child k).tag = name) :
    (s.kernel.child k).unreaped = false := by
  by_contra hunreaped
  rw [Bool.not_eq_false] at hunreaped
  obtain ⟨_, _, hpid⟩ := h.owned k hk hunreaped
  have hpositive := h.kernel.positive k hk
  rw [htag] at hpid
  omega

/-- The child a record has the id of is the one that `waitpid` finds. -/
theorem refresh_cases (h : s.Sound) {name : String} (hname : name ∈ s.table.names)
    (fault : Option WaitFault) :
    ((s.table.record name).pid ≤ 0 ∧ s.refresh name fault = (s, false)) ∨
    ∃ k, s.kernel.latest name = some k ∧ (s.table.record name).pid = (s.kernel.child k).pid ∧
      ((s.kernel.child k).unreaped = true ∧
          (fault.isSome = true ∨ (s.kernel.child k).life = .running) ∧
          s.refresh name fault = (s, true) ∨
        ∃ status since, fault = none ∧ (s.kernel.child k).life = .zombie status since ∧
          s.refresh name fault = (s.reap name k status since, false)) := by
  by_cases hidle : (s.table.record name).pid ≤ 0
  · left
    refine ⟨hidle, ?_⟩
    simp [refresh, refreshProcessLocked, hidle]
  · right
    obtain ⟨k, hlatest, hunreaped, hpid⟩ := h.recorded name hname (not_le.mp hidle)
    have hk := (Kernel.latest_eq_some.mp hlatest).1
    refine ⟨k, hlatest, hpid.symm, ?_⟩
    have hwait := h.kernel.waitpid_cases hk hunreaped fault
    rw [hpid] at hwait
    obtain ⟨fault', hfault, hwait⟩ | ⟨hfault, hlife, hwait⟩ |
        ⟨status, since, hfault, hlife, hwait⟩ :=
      hwait
    · left
      refine ⟨hunreaped, Or.inl (by simp [hfault]), ?_⟩
      cases fault' <;> simp [refresh, refreshProcessLocked, hidle, hwait]
    · left
      refine ⟨hunreaped, Or.inr hlife, ?_⟩
      simp [refresh, refreshProcessLocked, hidle, hwait]
    · right
      refine ⟨status, since, hfault, hlife, ?_⟩
      simp [refresh, refreshProcessLocked, hidle, hwait, Shared.reap]

/-! ## The moves keep it -/

theorem unreaped_of_zombie {child : Child String} {status : WaitStatus} {since : ℕ}
    (h : child.life = .zombie status since) : child.unreaped = true := by
  simp [Child.unreaped, h, Life.unreaped]

theorem reap_child (s : Shared) (name : String) (k : ℕ) (status : WaitStatus) (since j : ℕ) :
    (s.reap name k status since).kernel.child j =
      if j = k then { s.kernel.child k with life := .reaped status since }
      else s.kernel.child j :=
  Kernel.setChild_child s.kernel k _ j

theorem reap_latest (s : Shared) (name : String) (k : ℕ) (status : WaitStatus) (since : ℕ)
    (other : String) :
    (s.reap name k status since).kernel.latest other = s.kernel.latest other := by
  unfold Shared.reap
  exact Kernel.latest_setChild (by rfl) other

theorem reap_keeps (h : s.Sound) {name : String} {k : ℕ} {status : WaitStatus} {since : ℕ}
    (hlatest : s.kernel.latest name = some k)
    (hlife : (s.kernel.child k).life = .zombie status since) :
    (s.reap name k status since).Sound := by
  have htag : (s.kernel.child k).tag = name := (Kernel.latest_eq_some.mp hlatest).2.1
  have hdone : ((s.reap name k status since).kernel.child k).unreaped = false := by
    simp [reap_child, Child.unreaped, Life.unreaped]
  have hkeeps : ∀ j, j ≠ k → (s.reap name k status since).kernel.child j = s.kernel.child j :=
    fun j hj ↦ by rw [reap_child, if_neg hj]
  constructor
  · exact h.kernel.setChild rfl fun _ ↦ Kernel.holds_of_unreaped (unreaped_of_zombie hlife)
  · intro j hj hunreaped
    have hne : j ≠ k := by
      rintro rfl
      rw [hdone] at hunreaped
      cases hunreaped
    rw [hkeeps j hne] at hunreaped ⊢
    obtain ⟨hmem, hlast, hpid⟩ := h.owned j hj hunreaped
    have hother : (s.kernel.child j).tag ≠ name := by
      intro hsame
      rw [hsame, hlatest, Option.some_inj] at hlast
      exact hne hlast.symm
    refine ⟨hmem, (reap_latest s name k status since _).trans hlast, ?_⟩
    rw [← hpid]
    simp only [Shared.reap, ProcessTable.set_record, if_neg hother]
  · intro other hother hpositive
    simp only [Shared.reap, ProcessTable.set_record] at hpositive ⊢
    split_ifs at hpositive ⊢ with hsame
    · simp at hpositive
    · obtain ⟨j, hlast, hunreaped, hpid⟩ := h.recorded other hother hpositive
      have hne : j ≠ k := by
        rintro rfl
        exact hsame ((Kernel.latest_eq_some.mp hlast).2.1.symm.trans htag)
      refine ⟨j, (reap_latest s name k status since _).trans hlast, ?_⟩
      rw [Kernel.setChild_child_of_ne _ _ hne]
      exact ⟨hunreaped, hpid⟩
  · intro other hother code hcode
    simp only [Shared.reap, ProcessTable.set_record] at hcode
    split_ifs at hcode with hsame
    · subst hsame
      refine ⟨k, status, since, (reap_latest s other k status since _).trans hlatest, ?_, ?_⟩
      · rw [reap_child, if_pos rfl]
      · simpa using hcode.symm
    · obtain ⟨j, status', since', hlast, hreaped, hsame'⟩ := h.exitCode other hother code hcode
      have hne : j ≠ k := by
        rintro rfl
        exact hsame ((Kernel.latest_eq_some.mp hlast).2.1.symm.trans htag)
      refine ⟨j, status', since', (reap_latest s name k status since _).trans hlast, ?_, hsame'⟩
      rw [hkeeps j hne]
      exact hreaped

theorem fork_keeps (h : s.Sound) {name : String} {pid : ℤ} {kernel : Kernel String}
    (hname : name ∈ s.table.names) (hidle : (s.table.record name).pid ≤ 0)
    (hfork : s.kernel.fork name pid = some kernel) :
    Shared.Sound { table := s.table.set name
                     { s.table.record name with pid := pid, lastExitCode := none },
                   kernel := kernel } := by
  obtain ⟨hcount, hnew, hold⟩ := Kernel.fork_eq_some hfork
  have hlatest := Kernel.latest_fork hfork
  have hbelow : ∀ k other, s.kernel.latest other = some k → k < s.kernel.count :=
    fun k other hlast ↦ (Kernel.latest_eq_some.mp hlast).1
  constructor
  · exact h.kernel.fork hfork
  · intro k hk hunreaped
    obtain hlt | rfl := Nat.lt_succ_iff_lt_or_eq.mp (hcount ▸ hk)
    · simp only [hold k hlt] at hunreaped ⊢
      have hother : (s.kernel.child k).tag ≠ name := by
        intro hsame
        rw [h.reaped_of_idle hidle hlt hsame] at hunreaped
        cases hunreaped
      obtain ⟨hmem, hlast, hpid⟩ := h.owned k hlt hunreaped
      rw [hlatest, if_neg hother, ProcessTable.set_record, if_neg hother]
      exact ⟨hmem, hlast, hpid⟩
    · simp only [hnew]
      rw [hlatest, if_pos rfl, ProcessTable.set_record, if_pos rfl]
      exact ⟨hname, rfl, rfl⟩
  · intro other hother hpositive
    simp only [ProcessTable.set_record] at hpositive ⊢
    rw [hlatest]
    split_ifs at hpositive ⊢ with hsame
    · refine ⟨s.kernel.count, rfl, ?_⟩
      rw [hnew]
      exact ⟨rfl, rfl⟩
    · obtain ⟨k, hlast, hunreaped, hpid⟩ := h.recorded other hother hpositive
      refine ⟨k, hlast, ?_⟩
      rw [hold k (hbelow k other hlast)]
      exact ⟨hunreaped, hpid⟩
  · intro other hother code hcode
    simp only [ProcessTable.set_record] at hcode
    rw [hlatest]
    split_ifs at hcode ⊢ with hsame
    obtain ⟨k, status, since, hlast, hreaped, hcode'⟩ := h.exitCode other hother code hcode
    refine ⟨k, status, since, hlast, ?_, hcode'⟩
    rw [hold k (hbelow k other hlast)]
    exact hreaped

theorem replace_keeps (h : s.Sound) (configs : ProcessConfigs)
    (hidle : ∀ name, name ∈ s.table.names → (s.table.record name).pid ≤ 0) :
    Shared.Sound { s with table := configs.table } := by
  constructor
  · exact h.kernel
  · intro k hk hunreaped
    obtain ⟨hmem, _, _⟩ := h.owned k hk hunreaped
    rw [h.reaped_of_idle (hidle _ hmem) hk rfl] at hunreaped
    cases hunreaped
  · intro name _ hpositive
    simp [ProcessConfigs.table] at hpositive
  · intro name _ code hcode
    simp [ProcessConfigs.table] at hcode

theorem move (h : s.Sound) (hmove : Move s s') : s'.Sound := by
  cases hmove with
  | reap hname hlatest hlife hpid => exact h.reap_keeps hlatest hlife
  | fork hname hidle hfork => exact h.fork_keeps hname hidle hfork
  | replace configs hidle => exact h.replace_keeps configs hidle

theorem moves (h : s.Sound) (hmoves : Moves s s') : s'.Sound := by
  induction hmoves with
  | refl => exact h
  | tail _ hmove ih => exact ih.move hmove

end Shared.Sound

/-! ## What the moves do to a child -/

/-- A child is left as it is, or it had exited and has been waited for. -/
def Awaited (child child' : Child String) : Prop :=
  child' = child ∨ ∃ status since, child.life = .zombie status since ∧
    child' = { child with life := .reaped status since }

theorem Awaited.trans {child₁ child₂ child₃ : Child String} (h : Awaited child₁ child₂)
    (h' : Awaited child₂ child₃) : Awaited child₁ child₃ := by
  obtain rfl | ⟨status, since, hlife, rfl⟩ := h
  · exact h'
  · obtain rfl | ⟨_, _, hzombie, _⟩ := h'
    · exact Or.inr ⟨status, since, hlife, rfl⟩
    · cases hzombie

theorem Move.child {s s' : Shared} (hmove : Move s s') {k : ℕ} (hk : k < s.kernel.count) :
    k < s'.kernel.count ∧ Awaited (s.kernel.child k) (s'.kernel.child k) := by
  cases hmove with
  | @reap name j status since hname hlatest hlife hpid =>
    refine ⟨hk, ?_⟩
    rw [Shared.Sound.reap_child]
    split_ifs with hsame
    · subst hsame
      exact Or.inr ⟨status, since, hlife, rfl⟩
    · exact Or.inl rfl
  | fork hname hidle hfork =>
    obtain ⟨hcount, _, hold⟩ := Kernel.fork_eq_some hfork
    exact ⟨hcount ▸ hk.trans (Nat.lt_succ_self _), Or.inl (hold k hk)⟩
  | replace configs hidle => exact ⟨hk, Or.inl rfl⟩

theorem Moves.child {s s' : Shared} (hmoves : Moves s s') {k : ℕ} (hk : k < s.kernel.count) :
    k < s'.kernel.count ∧ Awaited (s.kernel.child k) (s'.kernel.child k) := by
  induction hmoves with
  | refl => exact ⟨hk, Or.inl rfl⟩
  | tail _ hmove ih =>
    obtain ⟨hk', hawaited⟩ := hmove.child ih.1
    exact ⟨hk', ih.2.trans hawaited⟩

theorem Move.new {s s' : Shared} (hmove : Move s s') {k : ℕ} (hk : ¬k < s.kernel.count)
    (hk' : k < s'.kernel.count) : (s'.kernel.child k).life = .running := by
  cases hmove with
  | reap => exact absurd hk' hk
  | fork hname hidle hfork =>
    obtain ⟨hcount, hnew, _⟩ := Kernel.fork_eq_some hfork
    have hlast : k = s.kernel.count := by
      simp only [hcount] at hk'
      omega
    rw [hlast, hnew]
  | replace => exact absurd hk' hk

/-- A child that has been forked under the mutex is running when the section ends. -/
theorem Moves.new {s s' : Shared} (hmoves : Moves s s') {k : ℕ} (hk : ¬k < s.kernel.count)
    (hk' : k < s'.kernel.count) : (s'.kernel.child k).life = .running := by
  induction hmoves with
  | refl => exact absurd hk' hk
  | @tail middle last _ hmove ih =>
    by_cases hmiddle : k < middle.kernel.count
    · have hrunning := ih hmiddle
      obtain ⟨_, hsame | ⟨_, _, hzombie, _⟩⟩ := hmove.child hmiddle
      · rw [hsame, hrunning]
      · rw [hrunning] at hzombie
        cases hzombie
    · exact hmove.new hmiddle hk'

/-! ## What refreshes do -/

/-- Records are as before, or their children had exited and have been waited for. -/
structure Refreshed (s s' : Shared) : Prop where
  names : s'.table.names = s.table.names
  count : s'.kernel.count = s.kernel.count
  child : ∀ k, s'.kernel.child k = s.kernel.child k ∨
    ∃ status since, (s.kernel.child k).life = .zombie status since ∧
      s'.kernel.child k = { s.kernel.child k with life := .reaped status since }
  record : ∀ name, s'.table.record name = s.table.record name ∨
    ∃ k status since, s.kernel.latest name = some k ∧ 0 < (s.table.record name).pid ∧
      (s.kernel.child k).life = .zombie status since ∧
      (s'.kernel.child k).life = .reaped status since ∧
      s'.table.record name = { s.table.record name with
        pid := -1, lastExitCode := some (normalizedExitCode status) }

namespace Refreshed

variable {s₁ s₂ s₃ : Shared}

theorem refl (s : Shared) : Refreshed s s :=
  ⟨rfl, rfl, fun _ ↦ Or.inl rfl, fun _ ↦ Or.inl rfl⟩

theorem tag (h : Refreshed s₁ s₂) (k : ℕ) :
    (s₂.kernel.child k).tag = (s₁.kernel.child k).tag := by
  obtain hsame | ⟨_, _, _, hsame⟩ := h.child k <;> rw [hsame]

theorem latest (h : Refreshed s₁ s₂) (name : String) :
    s₂.kernel.latest name = s₁.kernel.latest name := by
  unfold Kernel.latest
  rw [h.count]
  exact Kernel.latestBelow_congr fun k _ ↦ h.tag k

/-- A child that has been waited for stays so. -/
theorem reaped (h : Refreshed s₁ s₂) {k : ℕ} {status : WaitStatus} {since : ℕ}
    (hlife : (s₁.kernel.child k).life = .reaped status since) :
    (s₂.kernel.child k).life = .reaped status since := by
  obtain hsame | ⟨_, _, hzombie, _⟩ := h.child k
  · rw [hsame, hlife]
  · rw [hlife] at hzombie
    cases hzombie

theorem zombie (h : Refreshed s₁ s₂) {k : ℕ} {status : WaitStatus} {since : ℕ}
    (hlife : (s₂.kernel.child k).life = .zombie status since) :
    s₂.kernel.child k = s₁.kernel.child k := by
  obtain hsame | ⟨_, _, _, hreaped⟩ := h.child k
  · exact hsame
  · rw [hreaped] at hlife
    cases hlife

/-- An id is taken from a record and never given to it. -/
theorem idle (h : Refreshed s₁ s₂) {name : String} (hidle : (s₁.table.record name).pid ≤ 0) :
    (s₂.table.record name).pid ≤ 0 := by
  obtain hsame | ⟨_, _, _, _, _, _, _, hrecord⟩ := h.record name
  · rw [hsame]
    exact hidle
  · rw [hrecord]
    simp

theorem trans (h : Refreshed s₁ s₂) (h' : Refreshed s₂ s₃) : Refreshed s₁ s₃ where
  names := h'.names.trans h.names
  count := h'.count.trans h.count
  child k := by
    obtain hsame | ⟨status, since, hlife, hchild⟩ := h'.child k
    · rw [hsame]
      exact h.child k
    · right
      have hbefore := h.zombie hlife
      rw [hbefore] at hlife hchild
      exact ⟨status, since, hlife, hchild⟩
  record name := by
    obtain hsame | ⟨k, status, since, hlatest, hpid, hlife, hreaped, hrecord⟩ := h'.record name
    · rw [hsame]
      obtain hfirst | ⟨k, status, since, hlatest, hpid, hlife, hreaped, hrecord⟩ := h.record name
      · exact Or.inl hfirst
      · exact Or.inr ⟨k, status, since, hlatest, hpid, hlife, h'.reaped hreaped, hrecord⟩
    · right
      obtain hfirst | ⟨_, _, _, _, _, _, _, hfirst⟩ := h.record name
      · rw [hfirst] at hpid hrecord
        rw [h.latest] at hlatest
        rw [h.zombie hlife] at hlife
        exact ⟨k, status, since, hlatest, hpid, hlife, hreaped, hrecord⟩
      · rw [hfirst] at hpid
        exact absurd hpid (by simp)

theorem reap {s : Shared} (hsound : s.Sound) {name : String} {k : ℕ} {status : WaitStatus}
    {since : ℕ} (hlatest : s.kernel.latest name = some k)
    (hlife : (s.kernel.child k).life = .zombie status since)
    (hpid : (s.table.record name).pid = (s.kernel.child k).pid) :
    Refreshed s (s.reap name k status since) where
  names := rfl
  count := rfl
  child j := by
    rw [Shared.Sound.reap_child]
    split_ifs with hsame
    · subst hsame
      exact Or.inr ⟨status, since, hlife, rfl⟩
    · exact Or.inl rfl
  record other := by
    simp only [Shared.reap, ProcessTable.set_record]
    split_ifs with hsame
    · subst hsame
      have hpositive := hsound.kernel.positive k (Kernel.latest_eq_some.mp hlatest).1
      exact Or.inr ⟨k, status, since, hlatest, hpid ▸ hpositive, hlife, by simp, rfl⟩
    · exact Or.inl rfl

end Refreshed

namespace Shared.Sound

variable {s : Shared}

theorem refresh_moves (h : s.Sound) {name : String} (hname : name ∈ s.table.names)
    (fault : Option WaitFault) :
    Moves s (s.refresh name fault).1 ∧ Refreshed s (s.refresh name fault).1 ∧
      ((s.refresh name fault).2 = false →
        ((s.refresh name fault).1.table.record name).pid ≤ 0) := by
  obtain ⟨hidle, hrefresh⟩ | ⟨k, hlatest, hpid, ⟨_, _, hrefresh⟩ |
    ⟨status, since, _, hlife, hrefresh⟩⟩ := h.refresh_cases hname fault
  · rw [hrefresh]
    exact ⟨.refl, .refl s, fun _ ↦ hidle⟩
  · rw [hrefresh]
    exact ⟨.refl, .refl s, fun hfalse ↦ by cases hfalse⟩
  · rw [hrefresh]
    refine ⟨.single (.reap hname hlatest hlife hpid), .reap h hlatest hlife hpid, fun _ ↦ ?_⟩
    simp [Shared.reap, ProcessTable.set_record]

theorem refreshAll_moves (h : s.Sound) (faults : String → Option WaitFault) {names : List String}
    (hnames : ∀ name, name ∈ names → name ∈ s.table.names) :
    Moves s (refreshAll faults s names) ∧ Refreshed s (refreshAll faults s names) := by
  induction names generalizing s with
  | nil => exact ⟨.refl, .refl s⟩
  | cons name names ih =>
    obtain ⟨hmoves, hrefreshed, _⟩ := h.refresh_moves (hnames name (by simp)) (faults name)
    have hrest := ih (h.moves hmoves) fun other hother ↦ by
      rw [hrefreshed.names]
      exact hnames other (by simp [hother])
    exact ⟨hmoves.trans hrest.1, hrefreshed.trans hrest.2⟩

/-- When no process is found to be running, none of the records has an id any more. -/
theorem refreshUntilRunning_moves (h : s.Sound) (faults : String → Option WaitFault)
    {names : List String} (hnames : ∀ name, name ∈ names → name ∈ s.table.names) :
    Moves s (refreshUntilRunning faults s names).1 ∧
      Refreshed s (refreshUntilRunning faults s names).1 ∧
      ((refreshUntilRunning faults s names).2 = false → ∀ name, name ∈ names →
        ((refreshUntilRunning faults s names).1.table.record name).pid ≤ 0) := by
  induction names generalizing s with
  | nil => exact ⟨.refl, .refl s, fun _ name hname ↦ by cases hname⟩
  | cons name names ih =>
    obtain ⟨hmoves, hrefreshed, hidle⟩ := h.refresh_moves (hnames name (by simp)) (faults name)
    unfold refreshUntilRunning
    by_cases hrunning : (s.refresh name (faults name)).2 = true
    · simp only [hrunning, if_true]
      exact ⟨hmoves, hrefreshed, fun hfalse ↦ by cases hfalse⟩
    · rw [Bool.not_eq_true] at hrunning
      obtain ⟨hmoves', hrefreshed', hidle'⟩ := ih (h.moves hmoves) fun other hother ↦ by
        rw [hrefreshed.names]
        exact hnames other (by simp [hother])
      simp only [hrunning]
      refine ⟨hmoves.trans hmoves', hrefreshed.trans hrefreshed', fun hfalse other hother ↦ ?_⟩
      obtain rfl | hother := List.mem_cons.mp hother
      · exact hrefreshed'.idle (hidle hrunning)
      · exact hidle' hfalse other hother

end Shared.Sound

/-! ## The sections -/

namespace Shared.Sound

variable {s : Shared}

theorem isProcessRunning_moves (h : s.Sound) (name : String) (fault : Option WaitFault) :
    Moves s (isProcessRunning s name fault).1 ∧
      Refreshed s (isProcessRunning s name fault).1 := by
  unfold isProcessRunning
  split_ifs with hname
  · obtain ⟨hmoves, hrefreshed, _⟩ := h.refresh_moves hname fault
    exact ⟨hmoves, hrefreshed⟩
  · exact ⟨.refl, .refl s⟩

theorem lastExitCode_moves (h : s.Sound) (name : String) (fault : Option WaitFault) :
    Moves s (lastExitCode s name fault).1 ∧ Refreshed s (lastExitCode s name fault).1 := by
  unfold lastExitCode
  split_ifs with hname
  · obtain ⟨hmoves, hrefreshed, _⟩ := h.refresh_moves hname fault
    exact ⟨hmoves, hrefreshed⟩
  · exact ⟨.refl, .refl s⟩

theorem look_moves (h : s.Sound) (stop : Stop) (fault : Option WaitFault) :
    Moves s (stop.look s fault).1 ∧ Refreshed s (stop.look s fault).1 := by
  unfold Stop.look
  split_ifs with hsame
  · obtain ⟨hmoves, hrefreshed, _⟩ := h.refresh_moves hsame.1 fault
    exact ⟨hmoves, hrefreshed⟩
  · exact ⟨.refl, .refl s⟩

/-- What `startProcess` does: nothing but a refresh, or a refresh and a fork. -/
theorem startProcess_cases (h : s.Sound) {name : String} {substitutions : Substitutions}
    {fault : Option WaitFault} {forked : ForkResult} {s' : Shared} {result : Except String Unit}
    (hstart : startProcess s name substitutions fault forked = some (s', result)) :
    (∃ what, result = .error what ∧ Moves s s' ∧ Refreshed s s') ∨
    ∃ middle pid kernel, result = .ok () ∧ name ∈ s.table.names ∧ forked = .ok pid ∧
      Moves s middle ∧ Refreshed s middle ∧ (middle.table.record name).pid ≤ 0 ∧
      middle.kernel.fork name pid = some kernel ∧
      s' = { table := middle.table.set name
               { middle.table.record name with pid := pid, lastExitCode := none },
             kernel := kernel } := by
  unfold startProcess ProcessTable.find? at hstart
  by_cases hname : name ∈ s.table.names
  · obtain ⟨hmoves, hrefreshed, hidle⟩ := h.refresh_moves hname fault
    simp only [hname, if_true] at hstart
    split_ifs at hstart with hrunning horder
    · cases hstart
      exact Or.inl ⟨_, rfl, hmoves, hrefreshed⟩
    · rw [Bool.not_eq_true] at hrunning
      cases hexpand : expandCommand (s.table.record name).config.command substitutions.order with
      | error what =>
        simp only [hexpand] at hstart
        cases hstart
        exact Or.inl ⟨_, rfl, hmoves, hrefreshed⟩
      | ok command =>
        simp only [hexpand] at hstart
        cases forked with
        | error what =>
          cases hstart
          exact Or.inl ⟨_, rfl, hmoves, hrefreshed⟩
        | ok pid =>
          obtain ⟨kernel, hfork, hs'⟩ := Option.map_eq_some_iff.mp hstart
          cases hs'
          exact Or.inr ⟨_, pid, kernel, rfl, hname, rfl, hmoves, hrefreshed, hidle hrunning, hfork,
            rfl⟩
  · simp only [hname, if_false] at hstart
    cases hstart
    exact Or.inl ⟨_, rfl, .refl, .refl s⟩

theorem startProcess_moves (h : s.Sound) {name : String} {substitutions : Substitutions}
    {fault : Option WaitFault} {forked : ForkResult} {s' : Shared} {result : Except String Unit}
    (hstart : startProcess s name substitutions fault forked = some (s', result)) :
    Moves s s' := by
  obtain ⟨_, _, hmoves, _⟩ | ⟨middle, pid, kernel, _, hname, _, hmoves, hrefreshed, hidle, hfork,
    rfl⟩ := h.startProcess_cases hstart
  · exact hmoves
  · rw [← hrefreshed.names] at hname
    exact hmoves.tail (.fork hname hidle hfork)

/-- What `loadConfig` does: nothing but refreshes, or a replacement of the table when no record has
an id any more. -/
theorem loadConfig_cases (h : s.Sound) (loaded : Except String ProcessConfigs)
    (faults : String → Option WaitFault) :
    (∃ what, (loadConfig s loaded faults).2 = .error what ∧
      Moves s (loadConfig s loaded faults).1 ∧ Refreshed s (loadConfig s loaded faults).1) ∨
    ∃ configs middle, loaded = .ok configs ∧ (loadConfig s loaded faults).2 = .ok () ∧
      Moves s middle ∧ Refreshed s middle ∧
      (∀ name, name ∈ middle.table.names → (middle.table.record name).pid ≤ 0) ∧
      (loadConfig s loaded faults).1 = { middle with table := configs.table } := by
  cases loaded with
  | error what => exact Or.inl ⟨what, rfl, .refl, .refl s⟩
  | ok configs =>
    obtain ⟨hmoves, hrefreshed, hidle⟩ := h.refreshUntilRunning_moves faults fun _ hname ↦ hname
    unfold loadConfig
    by_cases hrunning : (refreshUntilRunning faults s s.table.names).2 = true
    · simp only [hrunning, if_true]
      exact Or.inl ⟨_, rfl, hmoves, hrefreshed⟩
    · rw [Bool.not_eq_true] at hrunning
      simp only [hrunning]
      refine Or.inr ⟨configs, _, rfl, rfl, hmoves, hrefreshed, fun name hname ↦ ?_, rfl⟩
      rw [hrefreshed.names] at hname
      exact hidle hrunning name hname

theorem loadConfig_moves (h : s.Sound) (loaded : Except String ProcessConfigs)
    (faults : String → Option WaitFault) : Moves s (loadConfig s loaded faults).1 := by
  obtain ⟨_, _, hmoves, _⟩ | ⟨configs, middle, _, _, hmoves, _, hidle, hload⟩ :=
    h.loadConfig_cases loaded faults
  · exact hmoves
  · rw [hload]
    exact hmoves.tail (.replace configs hidle)

theorem threadStep_moves (h : s.Sound) {now : ℕ} {choice : Choice} {thread : Thread} {s' : Shared}
    {point : Point} (hstep : thread.step now s choice = some (s', point)) : Moves s s' := by
  unfold Thread.step at hstep
  cases hpoint : thread.point with
  | running =>
    simp only [hpoint] at hstep
    cases hstep
    exact (h.isProcessRunning_moves thread.name choice.fault).1
  | lookup =>
    simp only [hpoint, ProcessTable.find?] at hstep
    by_cases hname : thread.name ∈ s.table.names
    · simp only [hname, if_true] at hstep
      have hmoves := (h.refresh_moves hname choice.fault).1
      split_ifs at hstep
      · obtain ⟨child, _, hnext⟩ := Option.map_eq_some_iff.mp hstep
        cases hnext
        exact hmoves
      · cases hstep
        exact hmoves
    · simp only [hname, if_false] at hstep
      cases hstep
      exact .refl
  | signal stop signal expired =>
    simp only [hpoint] at hstep
    cases hstep
    exact .refl
  | clock stop signal =>
    simp only [hpoint] at hstep
    cases hstep
    exact .refl
  | look stop signal deadline =>
    simp only [hpoint] at hstep
    have hmoves := (h.look_moves stop choice.fault).1
    split_ifs at hstep
    · cases hstep
      exact hmoves
    · cases hstep
      exact hmoves
  | pause stop signal deadline wake =>
    simp only [hpoint] at hstep
    split_ifs at hstep
    · cases hstep
      exact .refl
    · cases signal <;> cases hstep <;> exact .refl
  | start =>
    simp only [hpoint] at hstep
    obtain ⟨⟨s'', result⟩, hstart, hnext⟩ := Option.map_eq_some_iff.mp hstep
    cases hnext
    exact h.startProcess_moves hstart
  | returned result => simp [hpoint] at hstep

end Shared.Sound

/-! ## Every step -/

/-- A change in the kernel that is none of the manager's; the children for which `exits` holds may
exit. -/
structure Outside (exits : ℕ → WaitStatus → ℕ → Prop) (kernel kernel' : Kernel String) : Prop where
  sound : kernel.Sound → kernel'.Sound
  count : kernel'.count = kernel.count
  tag : ∀ k, (kernel'.child k).tag = (kernel.child k).tag
  pid : ∀ k, (kernel'.child k).pid = (kernel.child k).pid
  life : ∀ k, (kernel'.child k).life = (kernel.child k).life ∨
    ∃ status since, exits k status since ∧ (kernel.child k).life = .running ∧
      (kernel'.child k).life = .zombie status since
  ended : ∀ k, (kernel.child k).groupAlive = false → (kernel'.child k).groupAlive = false

namespace Outside

variable {exits : ℕ → WaitStatus → ℕ → Prop} {kernel kernel' : Kernel String}

theorem latest (h : Outside exits kernel kernel') (name : String) :
    kernel'.latest name = kernel.latest name := by
  unfold Kernel.latest
  rw [h.count]
  exact Kernel.latestBelow_congr fun k _ ↦ h.tag k

theorem unreaped (h : Outside exits kernel kernel') (k : ℕ) :
    (kernel'.child k).unreaped = (kernel.child k).unreaped := by
  unfold Child.unreaped
  obtain hsame | ⟨_, _, _, hrunning, hzombie⟩ := h.life k
  · rw [hsame]
  · rw [hrunning, hzombie]
    rfl

theorem reaped (h : Outside exits kernel kernel') {k : ℕ} {status : WaitStatus} {since : ℕ}
    (hlife : (kernel.child k).life = .reaped status since) :
    (kernel'.child k).life = .reaped status since := by
  obtain hsame | ⟨_, _, _, hrunning, _⟩ := h.life k
  · rw [hsame, hlife]
  · rw [hlife] at hrunning
    cases hrunning

theorem setChild {k : ℕ} {child : Child String}
    (hsound : kernel.Sound → (kernel.setChild k child).Sound)
    (htag : child.tag = (kernel.child k).tag) (hpid : child.pid = (kernel.child k).pid)
    (hlife : child.life = (kernel.child k).life ∨
      ∃ status since, exits k status since ∧ (kernel.child k).life = .running ∧
        child.life = .zombie status since)
    (halive : (kernel.child k).groupAlive = true) :
    Outside exits kernel (kernel.setChild k child) where
  sound := hsound
  count := rfl
  tag j := by
    rw [Kernel.setChild_child]
    split_ifs with hsame
    · rw [hsame, htag]
    · rfl
  pid j := by
    rw [Kernel.setChild_child]
    split_ifs with hsame
    · rw [hsame, hpid]
    · rfl
  life j := by
    rw [Kernel.setChild_child]
    split_ifs with hsame
    · rw [hsame]
      exact hlife
    · exact Or.inl rfl
  ended j hended := by
    rw [Kernel.setChild_child]
    split_ifs with hsame
    · rw [hsame, halive] at hended
      cases hended
    · exact hended

theorem exit {now k : ℕ} {status : WaitStatus} (hexits : exits k status now)
    (h : kernel.exit now k status = some kernel') : Outside exits kernel kernel' := by
  have hsound : kernel.Sound → kernel'.Sound := fun hkernel ↦ hkernel.exit h
  unfold Kernel.exit at h
  split_ifs at h with hrunning
  cases h
  exact setChild hsound rfl rfl (Or.inr ⟨status, now, hexits, hrunning.2, rfl⟩)
    (by simp [Child.groupAlive, hrunning.2])

theorem join {k : ℕ} {pid : ℤ} (h : kernel.join k pid = some kernel') :
    Outside exits kernel kernel' := by
  have hsound : kernel.Sound → kernel'.Sound := fun hkernel ↦ hkernel.join h
  unfold Kernel.join at h
  split_ifs at h with halive
  cases h
  exact setChild hsound rfl rfl (Or.inl rfl) halive.2.1

theorem leave {k : ℕ} {pid : ℤ} (h : kernel.leave k pid = some kernel') :
    Outside exits kernel kernel' := by
  have hsound : kernel.Sound → kernel'.Sound := fun hkernel ↦ hkernel.leave h
  unfold Kernel.leave at h
  split_ifs at h with hmember
  cases h
  have hne : (kernel.child k).members ≠ ∅ := Finset.ne_empty_of_mem hmember.2
  exact setChild hsound rfl rfl (Or.inl rfl) (by simp [Child.groupAlive, hne])

theorem otherStarts {pid : ℤ} (h : kernel.otherStarts pid = some kernel') :
    Outside exits kernel kernel' := by
  have hsound : kernel.Sound → kernel'.Sound := fun hkernel ↦ hkernel.otherStarts h
  unfold Kernel.otherStarts at h
  split_ifs at h
  cases h
  exact ⟨hsound, rfl, fun _ ↦ rfl, fun _ ↦ rfl, fun _ ↦ Or.inl rfl, fun _ hended ↦ hended⟩

theorem otherExits (kernel : Kernel String) (pid : ℤ) : 
    Outside exits kernel (kernel.otherExits pid) :=
  ⟨fun h ↦ h.otherExits pid, rfl, fun _ ↦ rfl, fun _ ↦ rfl, fun _ ↦ Or.inl rfl,
    fun _ hended ↦ hended⟩

end Outside

theorem Shared.Sound.outside {s : Shared} (h : s.Sound) {exits : ℕ → WaitStatus → ℕ → Prop}
    {kernel : Kernel String} (houtside : Outside exits s.kernel kernel) :
    Shared.Sound { s with kernel := kernel } := by
  constructor
  · exact houtside.sound h.kernel
  · intro k hk hunreaped
    simp only [houtside.count, houtside.unreaped, houtside.tag, houtside.pid, houtside.latest] at *
    exact h.owned k hk hunreaped
  · intro name hname hpositive
    simp only [houtside.unreaped, houtside.pid, houtside.latest]
    exact h.recorded name hname hpositive
  · intro name hname code hcode
    obtain ⟨k, status, since, hlatest, hreaped, hcode'⟩ := h.exitCode name hname code hcode
    exact ⟨k, status, since, (houtside.latest name).trans hlatest, houtside.reaped hreaped, hcode'⟩

/-- A child exits in a step of a system. -/
def Sys.Exits (s : Sys) (a : Action) (k : ℕ) (status : WaitStatus) (since : ℕ) : Prop :=
  a = .childExits k status ∧ since = s.now

/-- A step makes moves under the mutex, or changes the kernel from outside. -/
theorem Sys.step_shared {s s' : Sys} (h : s.shared.Sound) {a : Action}
    (hstep : s.step a = some s') :
    Moves s.shared s'.shared ∨
      ∃ kernel, Outside (s.Exits a) s.shared.kernel kernel ∧
        s'.shared = { s.shared with kernel := kernel } := by
  have houtside : ∀ kernel? : Option (Kernel String),
      (∀ kernel, kernel? = some kernel → Outside (s.Exits a) s.shared.kernel kernel) →
      kernel?.map s.setKernel = some s' →
      ∃ kernel, Outside (s.Exits a) s.shared.kernel kernel ∧
        s'.shared = { s.shared with kernel := kernel } := by
    intro kernel? hkernel hmap
    obtain ⟨kernel, hsome, rfl⟩ := Option.map_eq_some_iff.mp hmap
    exact ⟨kernel, hkernel kernel hsome, rfl⟩
  cases a with
  | startProcess name substitutions choice =>
    obtain ⟨⟨shared, result⟩, hstart, rfl⟩ := Option.map_eq_some_iff.mp hstep
    exact Or.inl (h.startProcess_moves hstart)
  | isProcessRunning name choice =>
    cases hstep
    exact Or.inl (h.isProcessRunning_moves name choice.fault).1
  | lastExitCode name choice =>
    cases hstep
    exact Or.inl (h.lastExitCode_moves name choice.fault).1
  | loadConfig loaded faults =>
    cases hstep
    exact Or.inl (h.loadConfig_moves loaded faults)
  | monitorRound faults =>
    cases hstep
    exact Or.inl (h.refreshAll_moves faults fun _ hname ↦ hname).1
  | stopProcess name =>
    cases hstep
    exact Or.inl .refl
  | restartProcess name substitutions =>
    cases hstep
    exact Or.inl .refl
  | thread index choice =>
    simp only [Sys.step] at hstep
    cases hthread : s.threads[index]? with
    | none => simp [hthread] at hstep
    | some thread =>
      simp only [hthread] at hstep
      obtain ⟨⟨shared, point⟩, hnext, rfl⟩ := Option.map_eq_some_iff.mp hstep
      exact Or.inl (h.threadStep_moves hnext)
  | childExits child status =>
    exact Or.inr (houtside _ (fun _ hexit ↦ .exit ⟨rfl, rfl⟩ hexit) hstep)
  | memberStarts child pid => exact Or.inr (houtside _ (fun _ hjoin ↦ .join hjoin) hstep)
  | memberExits child pid => exact Or.inr (houtside _ (fun _ hleave ↦ .leave hleave) hstep)
  | otherStarts pid => exact Or.inr (houtside _ (fun _ hstart ↦ .otherStarts hstart) hstep)
  | otherExits pid =>
    cases hstep
    exact Or.inr ⟨_, .otherExits s.shared.kernel pid, rfl⟩
  | tick duration =>
    simp only [Sys.step] at hstep
    split_ifs at hstep
    cases hstep
    exact Or.inl .refl

theorem Sys.sound_step {s s' : Sys} (h : s.shared.Sound) {a : Action}
    (hstep : s.step a = some s') : s'.shared.Sound := by
  obtain hmoves | ⟨kernel, houtside, hshared⟩ := Sys.step_shared h hstep
  · exact h.moves hmoves
  · rw [hshared]
    exact h.outside houtside

/-- What a step does to a child: it is waited for, it exits, or it goes on as it was. -/
theorem Sys.step_child {s s' : Sys} (h : s.shared.Sound) {a : Action} (hstep : s.step a = some s')
    {k : ℕ} (hk : k < s.shared.kernel.count) :
    k < s'.shared.kernel.count ∧
      (s'.shared.kernel.child k).tag = (s.shared.kernel.child k).tag ∧
      (s'.shared.kernel.child k).pid = (s.shared.kernel.child k).pid ∧
      ((s'.shared.kernel.child k).life = (s.shared.kernel.child k).life ∨
        (∃ status since, (s.shared.kernel.child k).life = .zombie status since ∧
          (s'.shared.kernel.child k).life = .reaped status since) ∨
        ∃ status, a = .childExits k status ∧ (s.shared.kernel.child k).life = .running ∧
          (s'.shared.kernel.child k).life = .zombie status s.now) := by
  obtain hmoves | ⟨kernel, houtside, hshared⟩ := Sys.step_shared h hstep
  · obtain ⟨hk', hsame | ⟨status, since, hlife, hchild⟩⟩ := hmoves.child hk
    · rw [hsame]
      exact ⟨hk', rfl, rfl, Or.inl rfl⟩
    · rw [hchild]
      exact ⟨hk', rfl, rfl, Or.inr (Or.inl ⟨status, since, hlife, rfl⟩)⟩
  · rw [hshared]
    refine ⟨houtside.count.symm ▸ hk, houtside.tag k, houtside.pid k, ?_⟩
    obtain hsame | ⟨status, since, ⟨haction, rfl⟩, hrunning, hzombie⟩ := houtside.life k
    · exact Or.inl hsame
    · exact Or.inr (Or.inr ⟨status, haction, hrunning, hzombie⟩)

theorem Sys.Initial.sound {s : Sys} (h : s.Initial) : s.shared.Sound := by
  constructor
  · exact Kernel.sound_of_count h.children
  · intro k hk
    rw [h.children] at hk
    exact absurd hk (Nat.not_lt_zero k)
  · intro name hname
    simp [h.names] at hname
  · intro name hname
    simp [h.names] at hname

open TransitionSystem

/-- In every run, whatever the interleaving of the sections with the exits of the children. -/
theorem Sys.sound_of_reaches {ok : Sys → Action → Prop} {s : Sys}
    (h : Reaches Sys.step ok Sys.Initial s) : s.shared.Sound :=
  h.invariant (fun _ hinit ↦ hinit.sound) fun _ _ _ hsound _ hstep ↦ Sys.sound_step hsound hstep

end SlamSystemManager.ProcessManager
