import SlamSystemManager.ProcessManager.Records

/-!
# One live leader for each name

For every interleaving of the sections under the mutex with the exits of the children: a name has
at most one child that has not been waited for, and its record has the id of that child exactly as
long as there is one. A table is replaced when no child is left to wait for. A load that is refused
keeps the definitions, and has waited for the children it found to have exited.
-/

namespace SlamSystemManager.ProcessManager

open Posix TransitionSystem

/-- What the records say of the children. -/
structure OneLeader (s : Shared) : Prop where
  unique : ∀ j k, j < s.kernel.count → k < s.kernel.count →
    (s.kernel.child j).tag = (s.kernel.child k).tag → (s.kernel.child j).unreaped = true →
    (s.kernel.child k).unreaped = true → j = k
  running : ∀ name, name ∈ s.table.names → (0 < (s.table.record name).pid ↔
    ∃ k, s.kernel.latest name = some k ∧ (s.kernel.child k).unreaped = true)
  pid : ∀ name, name ∈ s.table.names → ∀ k, s.kernel.latest name = some k →
    (s.kernel.child k).unreaped = true → (s.table.record name).pid = (s.kernel.child k).pid
  exitCode : ∀ name, name ∈ s.table.names → ∀ code,
    (s.table.record name).lastExitCode = some code → ∃ k status since,
      s.kernel.latest name = some k ∧ (s.kernel.child k).life = .reaped status since ∧
      code = normalizedExitCode status
  owned : ∀ k, k < s.kernel.count → (s.kernel.child k).unreaped = true →
    (s.kernel.child k).tag ∈ s.table.names ∧
      (s.table.record (s.kernel.child k).tag).pid = (s.kernel.child k).pid

/-- The table has been replaced and no child is left to wait for. -/
def Replaced (loaded : Except String ProcessConfigs) (s' : Shared) : Prop :=
  (∃ configs, loaded = .ok configs ∧ s'.table = configs.table) ∧
    ∀ k, k < s'.kernel.count → (s'.kernel.child k).unreaped = false

/-- The table has its names and definitions still. A record is as before, or its child had exited
and has been waited for. -/
def Kept (s s' : Shared) : Prop :=
  s'.table.names = s.table.names ∧ ∀ name,
    s'.table.record name = s.table.record name ∨
    ∃ k status since, s.kernel.latest name = some k ∧
      (s.kernel.child k).life = .zombie status since ∧
      (s'.kernel.child k).life = .reaped status since ∧
      s'.table.record name = { s.table.record name with
        pid := -1, lastExitCode := some (normalizedExitCode status) }

theorem Shared.Sound.oneLeader {s : Shared} (h : s.Sound) : OneLeader s where
  unique j k hj hk htag hjunreaped hkunreaped := by
    have hjlast := (h.owned j hj hjunreaped).2.1
    have hklast := (h.owned k hk hkunreaped).2.1
    rw [htag, hklast, Option.some_inj] at hjlast
    exact hjlast.symm
  running name hname := by
    constructor
    · intro hpositive
      obtain ⟨k, hlatest, hunreaped, _⟩ := h.recorded name hname hpositive
      exact ⟨k, hlatest, hunreaped⟩
    · rintro ⟨k, hlatest, hunreaped⟩
      obtain ⟨hk, rfl, _⟩ := Kernel.latest_eq_some.mp hlatest
      rw [(h.owned k hk hunreaped).2.2]
      exact h.kernel.positive k hk
  pid name _ k hlatest hunreaped := by
    obtain ⟨hk, rfl, _⟩ := Kernel.latest_eq_some.mp hlatest
    exact (h.owned k hk hunreaped).2.2
  exitCode := h.exitCode
  owned k hk hunreaped := by
    obtain ⟨hname, _, hpid⟩ := h.owned k hk hunreaped
    exact ⟨hname, hpid⟩

/-- A load replaces the table when no child is left, or keeps it. -/
theorem Shared.Sound.loadConfig_replaced_or_kept {s : Shared} (h : s.Sound)
    (loaded : Except String ProcessConfigs) (faults : String → Option WaitFault) :
    ((loadConfig s loaded faults).2 = .ok () ∧ Replaced loaded (loadConfig s loaded faults).1) ∨
      (∃ what, (loadConfig s loaded faults).2 = .error what) ∧
        Kept s (loadConfig s loaded faults).1 := by
  obtain ⟨what, hresult, _, hrefreshed⟩ | ⟨configs, middle, hloaded, hresult, hmoves, _, hidle,
    hload⟩ := h.loadConfig_cases loaded faults
  · refine Or.inr ⟨⟨what, hresult⟩, hrefreshed.names, fun name ↦ ?_⟩
    obtain hsame | ⟨k, status, since, hlatest, _, hlife, hreaped, hrecord⟩ := hrefreshed.record name
    · exact Or.inl hsame
    · exact Or.inr ⟨k, status, since, hlatest, hlife, hreaped, hrecord⟩
  · left
    rw [hload]
    refine ⟨hresult, ⟨configs, hloaded, rfl⟩, fun k hk ↦ ?_⟩
    by_contra hunreaped
    rw [Bool.not_eq_false] at hunreaped
    have hmiddle := h.moves hmoves
    have hname := (hmiddle.owned k hk hunreaped).1
    rw [hmiddle.reaped_of_idle (hidle _ hname) hk rfl] at hunreaped
    cases hunreaped

/-- In every run each name has at most one leader to wait for, the records know the leaders, and
loading definitions leaves none without its record. -/
theorem one_live_leader (s : Sys) (h : Reaches Sys.step anyAction Sys.Initial s) :
    OneLeader s.shared ∧
      ∀ (loaded : Except String ProcessConfigs) (faults : String → Option WaitFault),
        ((loadConfig s.shared loaded faults).2 = .ok () ∧
          Replaced loaded (loadConfig s.shared loaded faults).1) ∨
        (∃ what, (loadConfig s.shared loaded faults).2 = .error what) ∧
          Kept s.shared (loadConfig s.shared loaded faults).1 := by
  have hsound := Sys.sound_of_reaches h
  exact ⟨hsound.oneLeader, fun loaded faults ↦ hsound.loadConfig_replaced_or_kept loaded faults⟩

/-! ## Runs -/

/-- A manager without definitions. -/
def constructed : Sys where
  now := 0
  shared := ⟨⟨[], .nil, fun _ ↦ { config := default }⟩, .empty⟩
  threads := []

theorem constructed_initial : constructed.Initial := ⟨rfl, rfl, rfl⟩

/-- Two definitions. -/
def twoProcesses : ProcessConfigs where
  names := ["a", "b"]
  sorted := by decide
  config _ := { command := "sleep 30" }

/-- A run that is replayed from the start and passes a test in its last state. -/
theorem exists_of_exec (actions : List Action) (test : Sys → Bool)
    (h : (exec Sys.step constructed actions).any test = true) :
    ∃ s, Reaches Sys.step anyAction Sys.Initial s ∧ test s = true :=
  (Reaches.start constructed_initial).exists_of_exec h

/-- Both processes have been started, and the first has exited. -/
def startBoth : List Action :=
  [.loadConfig (.ok twoProcesses) fun _ ↦ none, .startProcess "a" {} { forked := .ok 10 },
    .startProcess "b" {} { forked := .ok 11 }, .childExits 0 (.exited 0)]

theorem one_live_leader_started :
    ∃ s, (Reaches Sys.step anyAction Sys.Initial s ∧ (s.shared.table.record "b").pid = 11) ∧
      OneLeader s.shared ∧
      ∀ (loaded : Except String ProcessConfigs) (faults : String → Option WaitFault),
        ((loadConfig s.shared loaded faults).2 = .ok () ∧
          Replaced loaded (loadConfig s.shared loaded faults).1) ∨
        (∃ what, (loadConfig s.shared loaded faults).2 = .error what) ∧
          Kept s.shared (loadConfig s.shared loaded faults).1 := by
  obtain ⟨s, hreach, htest⟩ := exists_of_exec startBoth
    (fun s ↦ decide ((s.shared.table.record "b").pid = 11)) (by decide +kernel)
  exact ⟨s, ⟨hreach, by simpa using htest⟩, one_live_leader s hreach⟩

/-- A load that is refused because `b` is running has waited for `a`, so the table is not the one
there was. -/
theorem refused_load_changes_table :
    ¬∀ s, Reaches Sys.step anyAction Sys.Initial s → OneLeader s.shared ∧
      ∀ (loaded : Except String ProcessConfigs) (faults : String → Option WaitFault),
        Replaced loaded (loadConfig s.shared loaded faults).1 ∨
          (loadConfig s.shared loaded faults).1.table = s.shared.table := by
  intro hclaim
  obtain ⟨s, hreach, htest⟩ := exists_of_exec startBoth
    (fun s ↦
      let loaded := loadConfig s.shared (.ok twoProcesses) fun _ ↦ none
      decide ((s.shared.table.record "a").pid = 10) &&
        decide ((loaded.1.table.record "a").pid = -1) && decide (loaded.1.kernel.count = 2) &&
        (loaded.1.kernel.child 1).unreaped) (by decide +kernel)
  simp only [Bool.and_eq_true, decide_eq_true_eq] at htest
  obtain ⟨⟨⟨hbefore, hafter⟩, hcount⟩, hrunning⟩ := htest
  obtain ⟨_, hreplaced⟩ | hsame := (hclaim s hreach).2 (.ok twoProcesses) fun _ ↦ none
  · rw [hreplaced 1 (by omega)] at hrunning
    cases hrunning
  · rw [hsame, hbefore] at hafter
    cases hafter

end SlamSystemManager.ProcessManager
