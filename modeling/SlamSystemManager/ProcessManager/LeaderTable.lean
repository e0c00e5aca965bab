import SlamSystemManager.Library.Refinement
import SlamSystemManager.Manager.State
import SlamSystemManager.ProcessManager.Lifecycle

/-!
# The leaders in the process table

The system manager knows its two leaders by whether they run and by how they ended last. In the
process manager these are a record each, which sections under the mutex change while children exit
and other threads stop and restart processes. Seen from outside, the records are a table in which a
leader is forked when it does not run and reaped when it does.
-/

namespace SlamSystemManager.ProcessManager

open Posix TransitionSystem
open Manager (Leader)

/-! ## The table -/

structure LeaderRecord where
  alive : Bool := false
  lastExitCode : Option ℤ := none
  deriving DecidableEq

abbrev LeaderTable := Leader → LeaderRecord

inductive LeaderEvent where
  | fork (leader : Leader)
  | reap (leader : Leader) (exitCode : ℤ)

def LeaderTable.step (table : LeaderTable) : LeaderEvent → Option LeaderTable
  | .fork leader =>
    if (table leader).alive then none
    else some (Function.update table leader { alive := true, lastExitCode := none })
  | .reap leader exitCode =>
    if (table leader).alive then
      some (Function.update table leader { alive := false, lastExitCode := some exitCode })
    else none

abbrev LeaderTable.Run := Steps LeaderTable.step anyAction

def LeaderEvent.isReap : LeaderEvent → Bool
  | .reap _ _ => true
  | .fork _ => false

/-- Runs in which leaders end and none is forked. -/
abbrev LeaderTable.Reaping :=
  Steps LeaderTable.step fun _ (event : LeaderEvent) ↦ event.isReap = true

theorem LeaderTable.Reaping.run {table table' : LeaderTable} (h : Reaping table table') :
    Run table table' :=
  h.mono fun _ _ _ ↦ trivial

/-- No leader has been forked. -/
def LeaderTable.Fresh (table : LeaderTable) : Prop := table = fun _ ↦ {}

/-- What a record says about its process. -/
def ProcessRecord.leaderRecord (record : ProcessRecord) : LeaderRecord where
  alive := decide (0 < record.pid)
  lastExitCode := record.lastExitCode

/-- The leaders in the table of the process manager; one that is not configured never runs. -/
def ProcessTable.leaders (table : ProcessTable) : LeaderTable := fun leader ↦
  ((table.find? leader.name).map ProcessRecord.leaderRecord).getD {}

theorem leaderName_injective : Function.Injective Leader.name := by
  intro leader other h
  cases leader <;> cases other <;> simp_all [Leader.name]

theorem leaders_of_mem {table : ProcessTable} {leader : Leader} (h : leader.name ∈ table.names) :
    table.leaders leader = (table.record leader.name).leaderRecord := by
  simp [ProcessTable.leaders, ProcessTable.find?, h]

theorem leaders_of_not_mem {table : ProcessTable} {leader : Leader}
    (h : leader.name ∉ table.names) : table.leaders leader = {} := by
  simp [ProcessTable.leaders, ProcessTable.find?, h]

/-- A change of one leader's record. -/
theorem leaders_of_update (table table' : ProcessTable) (leader : Leader)
    (hnames : table'.names = table.names) (hname : leader.name ∈ table.names)
    (hother : ∀ name, name ≠ leader.name → table'.record name = table.record name) :
    table'.leaders =
      Function.update table.leaders leader (table'.record leader.name).leaderRecord := by
  funext other
  by_cases hsame : other = leader
  · subst hsame
    rw [Function.update_self, leaders_of_mem (hnames ▸ hname)]
  · have hrecord := hother other.name fun h ↦ hsame (leaderName_injective h)
    rw [Function.update_of_ne hsame]
    simp only [ProcessTable.leaders, ProcessTable.find?, hnames, hrecord]

/-! ## What the sections do to it -/

theorem reaping_of_record {record record' : ProcessRecord} {table : LeaderTable} {leader : Leader}
    (hbefore : table leader = record.leaderRecord)
    (hafter : record' = record ∨ ∃ code, 0 < record.pid ∧
      record' = { record with pid := -1, lastExitCode := some code }) :
    LeaderTable.Reaping table (Function.update table leader record'.leaderRecord) := by
  obtain rfl | ⟨code, halive, rfl⟩ := hafter
  · rw [← hbefore, Function.update_eq_self]
    exact .refl
  · have hreap : table.step (.reap leader code) = some (Function.update table leader
        { record with pid := -1, lastExitCode := some code : ProcessRecord }.leaderRecord) := by
      simp [LeaderTable.step, hbefore, ProcessRecord.leaderRecord, halive]
    exact Steps.refl.tail rfl hreap

/-- Refreshes are seen as the ends of the leaders that they find. -/
theorem Refreshed.leaders {s s' : Shared} (h : Refreshed s s') :
    LeaderTable.Reaping s.table.leaders s'.table.leaders := by
  have hrecord (name : String) : s'.table.record name = s.table.record name ∨
      ∃ code, 0 < (s.table.record name).pid ∧
        s'.table.record name =
          { s.table.record name with pid := -1, lastExitCode := some code } := by
    obtain hsame | ⟨k, status, since, -, halive, -, -, hreaped⟩ := h.record name
    · exact Or.inl hsame
    · exact Or.inr ⟨_, halive, hreaped⟩
  -- one leader after the other takes its new record
  have hone (table : LeaderTable) (leader : Leader)
      (hbefore : table leader = s.table.leaders leader) :
      LeaderTable.Reaping table (Function.update table leader (s'.table.leaders leader)) := by
    by_cases hname : leader.name ∈ s.table.names
    · rw [leaders_of_mem (h.names ▸ hname)]
      exact reaping_of_record (hbefore.trans (leaders_of_mem hname)) (hrecord leader.name)
    · rw [leaders_of_not_mem (h.names ▸ hname), ← leaders_of_not_mem hname, ← hbefore,
        Function.update_eq_self]
      exact .refl
  have hfirst := hone s.table.leaders .mapping rfl
  have hsecond := hone (Function.update s.table.leaders .mapping (s'.table.leaders .mapping))
    .localization (Function.update_of_ne (by decide) _ _)
  have hall : s'.table.leaders =
      Function.update (Function.update s.table.leaders .mapping (s'.table.leaders .mapping))
        .localization (s'.table.leaders .localization) := by
    funext leader
    cases leader <;> simp [Function.update]
  rw [hall]
  exact hfirst.trans hsecond

/-- A fork for a leader that does not run. -/
theorem fork_leader {s : Shared} {leader : Leader} {pid : ℤ} {kernel : Kernel String}
    (hname : leader.name ∈ s.table.names) (hidle : (s.table.record leader.name).pid ≤ 0)
    (hfork : s.kernel.fork leader.name pid = some kernel) :
    s.table.leaders.step (.fork leader) = some
      (s.table.set leader.name
        { s.table.record leader.name with pid := pid, lastExitCode := none }).leaders := by
  have hpositive : 0 < pid := by
    unfold Kernel.fork at hfork
    split_ifs at hfork with hfree
    exact hfree.1
  have hafter := leaders_of_update s.table
    (s.table.set leader.name
      { s.table.record leader.name with pid := pid, lastExitCode := none })
    leader rfl hname fun name hne ↦ by rw [ProcessTable.set_record, if_neg hne]
  have hdead : (s.table.leaders leader).alive = false := by
    simp [leaders_of_mem hname, ProcessRecord.leaderRecord, hidle]
  rw [hafter, ProcessTable.set_record, if_pos rfl]
  simp [LeaderTable.step, hdead, ProcessRecord.leaderRecord, hpositive]

theorem fork_other {table : ProcessTable} {name : String} (record : ProcessRecord)
    (hother : ∀ leader : Leader, leader.name ≠ name) :
    (table.set name record).leaders = table.leaders := by
  funext leader
  simp only [ProcessTable.leaders, ProcessTable.find?, ProcessTable.set_names,
    ProcessTable.set_record, if_neg (hother leader)]

/-- What a start of a leader with a result has done to the table. -/
def LeaderTable.Started (table : LeaderTable) (leader : Leader) (table' : LeaderTable) :
    Except String Unit → Prop
  | .error _ => Reaping table table'
  | .ok () => ∃ middle, Reaping table middle ∧ middle.step (.fork leader) = some table'

/-- A `startProcess` for a leader reaps what has ended, and forks the leader if it succeeds. -/
theorem startProcess_leader {s s' : Shared} (hsound : s.Sound) {leader : Leader}
    {substitutions : Substitutions} {fault : Option WaitFault} {forked : ForkResult}
    {result : Except String Unit}
    (hstart : startProcess s leader.name substitutions fault forked = some (s', result)) :
    s.table.leaders.Started leader s'.table.leaders result := by
  obtain ⟨what, rfl, _, hrefreshed⟩ | ⟨middle, pid, kernel, rfl, hname, _, _, hrefreshed, hidle,
    hfork, rfl⟩ := hsound.startProcess_cases hstart
  · exact hrefreshed.leaders
  · rw [← hrefreshed.names] at hname
    exact ⟨middle.table.leaders, hrefreshed.leaders, fork_leader hname hidle hfork⟩

theorem startProcess_leaders {s s' : Shared} (hsound : s.Sound) {name : String}
    {substitutions : Substitutions} {fault : Option WaitFault} {forked : ForkResult}
    {result : Except String Unit}
    (hstart : startProcess s name substitutions fault forked = some (s', result)) :
    LeaderTable.Run s.table.leaders s'.table.leaders := by
  by_cases hleader : ∃ leader : Leader, leader.name = name
  · obtain ⟨leader, rfl⟩ := hleader
    have hrun := startProcess_leader hsound hstart
    cases result with
    | error what => exact LeaderTable.Reaping.run hrun
    | ok =>
      obtain ⟨middle, hreaping, hfork⟩ := hrun
      exact (LeaderTable.Reaping.run hreaping).tail trivial hfork
  · have hother (leader : Leader) : leader.name ≠ name := fun h ↦ hleader ⟨leader, h⟩
    obtain ⟨_, _, _, hrefreshed⟩ | ⟨middle, pid, kernel, _, _, _, _, hrefreshed, _, _, rfl⟩ :=
      hsound.startProcess_cases hstart
    · exact hrefreshed.leaders.run
    · rw [fork_other _ hother]
      exact hrefreshed.leaders.run

theorem isProcessRunning_leaders {s : Shared} (hsound : s.Sound) (name : String)
    (fault : Option WaitFault) :
    LeaderTable.Reaping s.table.leaders (isProcessRunning s name fault).1.table.leaders :=
  (hsound.isProcessRunning_moves name fault).2.leaders

/-! ## Runs -/

/-- The configuration is not loaded again. -/
def KeepsConfig (_ : Sys) : Action → Prop
  | .loadConfig _ _ => False
  | _ => True

/-- The manager when its first `loadConfig` has returned. -/
def Sys.Loaded (s : Sys) : Prop :=
  ∃ constructed configs faults, Sys.Initial constructed ∧
    constructed.step (.loadConfig (.ok configs) faults) = some s

/-- Whether an action is a call of `startProcess`, by itself or at the end of a restart. -/
def Sys.starts (s : Sys) : Action → Bool
  | .startProcess _ _ _ => true
  | .thread index _ =>
    match s.threads[index]? with
    | some ⟨_, _, .start⟩ => true
    | _ => false
  | _ => false

theorem Sys.reaping_step {s s' : Sys} (hsound : s.shared.Sound) {a : Action}
    (hkeeps : KeepsConfig s a) (hstarts : s.starts a = false) (hstep : s.step a = some s') :
    LeaderTable.Reaping s.shared.table.leaders s'.shared.table.leaders := by
  have houtside (kernel? : Option (Kernel String)) (hmap : kernel?.map s.setKernel = some s') :
      LeaderTable.Reaping s.shared.table.leaders s'.shared.table.leaders := by
    obtain ⟨kernel, -, rfl⟩ := Option.map_eq_some_iff.mp hmap
    exact .refl
  cases a with
  | startProcess name substitutions choice => cases hstarts
  | isProcessRunning name choice =>
    cases hstep
    exact isProcessRunning_leaders hsound name choice.fault
  | lastExitCode name choice =>
    cases hstep
    exact (hsound.lastExitCode_moves name choice.fault).2.leaders
  | loadConfig loaded faults => exact hkeeps.elim
  | monitorRound faults =>
    cases hstep
    exact (hsound.refreshAll_moves faults fun _ hname ↦ hname).2.leaders
  | stopProcess name =>
    cases hstep
    exact .refl
  | restartProcess name substitutions =>
    cases hstep
    exact .refl
  | thread index choice =>
    simp only [Sys.step] at hstep
    cases hthread : s.threads[index]? with
    | none => simp [hthread] at hstep
    | some thread =>
      simp only [hthread] at hstep
      obtain ⟨⟨shared, point⟩, hnext, rfl⟩ := Option.map_eq_some_iff.mp hstep
      refine (threadStep_refreshed hsound hnext fun hstart ↦ ?_).leaders
      obtain ⟨name, restart, _⟩ := thread
      cases hstart
      simp [Sys.starts, hthread] at hstarts
  | childExits child status => exact houtside _ hstep
  | memberStarts child pid => exact houtside _ hstep
  | memberExits child pid => exact houtside _ hstep
  | otherStarts pid => exact houtside _ hstep
  | otherExits pid =>
    cases hstep
    exact .refl
  | tick duration =>
    simp only [Sys.step] at hstep
    split_ifs at hstep
    cases hstep
    exact .refl

theorem Sys.leaders_step {s s' : Sys} (hsound : s.shared.Sound) {a : Action}
    (hkeeps : KeepsConfig s a) (hstep : s.step a = some s') :
    LeaderTable.Run s.shared.table.leaders s'.shared.table.leaders := by
  cases hstarts : s.starts a with
  | false => exact (Sys.reaping_step hsound hkeeps hstarts hstep).run
  | true =>
    cases a with
    | startProcess name substitutions choice =>
      obtain ⟨⟨shared, result⟩, hstart, rfl⟩ := Option.map_eq_some_iff.mp hstep
      exact startProcess_leaders hsound hstart
    | thread index choice =>
      simp only [Sys.starts] at hstarts
      split at hstarts
      · rename_i name restart hthread
        simp only [Sys.step, hthread] at hstep
        obtain ⟨⟨shared, point⟩, hnext, rfl⟩ := Option.map_eq_some_iff.mp hstep
        obtain ⟨⟨started, result⟩, hstart, hresult⟩ := Option.map_eq_some_iff.mp hnext
        cases hresult
        exact startProcess_leaders hsound hstart
      · cases hstarts
    | _ => cases hstarts

/-- The process manager refines the table of the leaders. -/
theorem refines_leaderTable :
    Refines Sys.step KeepsConfig (fun s ↦ s.shared.Sound) LeaderTable.step anyAction
      fun s ↦ s.shared.table.leaders where
  keeps _ _ _ hsound _ hstep := Sys.sound_step hsound hstep
  seen _ _ _ hsound hkeeps hstep := Sys.leaders_step hsound hkeeps hstep

theorem Sys.Loaded.sound {s : Sys} (h : s.Loaded) : s.shared.Sound := by
  obtain ⟨constructed, configs, faults, hinit, hstep⟩ := h
  exact Sys.sound_step hinit.sound hstep

theorem Sys.Loaded.fresh {s : Sys} (h : s.Loaded) : s.shared.table.leaders.Fresh := by
  obtain ⟨constructed, configs, faults, hinit, hstep⟩ := h
  cases hstep
  funext leader
  simp only [loadConfig, hinit.names, refreshUntilRunning, Bool.false_eq_true, if_false]
  by_cases hname : leader.name ∈ configs.table.names
  · rw [leaders_of_mem hname]
    rfl
  · exact leaders_of_not_mem hname

/-! ## The calls of the system manager -/

/-- What calls about a leader find and do, in terms of the table. -/
structure Answers (s : Shared) : Prop where
  isProcessRunning : ∀ (leader : Leader) fault,
    let asked := isProcessRunning s leader.name fault
    LeaderTable.Reaping s.table.leaders asked.1.table.leaders ∧
      asked.2 = (asked.1.table.leaders leader).alive
  lastExitCode : ∀ (leader : Leader) fault,
    let asked := lastExitCode s leader.name fault
    LeaderTable.Reaping s.table.leaders asked.1.table.leaders ∧
      asked.2 = (asked.1.table.leaders leader).lastExitCode
  startProcess : ∀ (leader : Leader) substitutions fault forked s' result,
    startProcess s leader.name substitutions fault forked = some (s', result) →
      s.table.leaders.Started leader s'.table.leaders result

theorem Shared.Sound.answers {s : Shared} (h : s.Sound) : Answers s where
  isProcessRunning leader fault := by
    refine ⟨isProcessRunning_leaders h leader.name fault, ?_⟩
    unfold ProcessManager.isProcessRunning
    split_ifs with hname
    · obtain ⟨-, hrefreshed, hidle⟩ := h.refresh_moves hname fault
      rw [leaders_of_mem (hrefreshed.names ▸ hname)]
      cases hrunning : (s.refresh leader.name fault).2 with
      | false => simp [ProcessRecord.leaderRecord, hidle hrunning]
      | true =>
        obtain ⟨hsame, k, hlatest, -, hpid⟩ := h.refresh_true hname hrunning
        have hpositive := h.kernel.positive k (Kernel.latest_eq_some.mp hlatest).1
        rw [← hpid] at hpositive
        simp [ProcessRecord.leaderRecord, hsame, hpositive]
    · rw [leaders_of_not_mem hname]
  lastExitCode leader fault := by
    refine ⟨(h.lastExitCode_moves leader.name fault).2.leaders, ?_⟩
    unfold ProcessManager.lastExitCode
    split_ifs with hname
    · obtain ⟨-, hrefreshed, -⟩ := h.refresh_moves hname fault
      rw [leaders_of_mem (hrefreshed.names ▸ hname)]
      rfl
    · rw [leaders_of_not_mem hname]
  startProcess _ _ _ _ _ _ hstart := startProcess_leader h hstart

/-- A start fails beside a running leader for no other reason. -/
theorem startProcess_alive {s s' : Shared} (hsound : s.Sound) {leader : Leader}
    {substitutions : Substitutions} {fault : Option WaitFault} {forked : ForkResult} {what : String}
    (hstart : startProcess s leader.name substitutions fault forked = some (s', .error what))
    (halive : (s'.table.leaders leader).alive = true) :
    what = "Process is already running: " ++ leader.name := by
  unfold startProcess ProcessTable.find? at hstart
  by_cases hname : leader.name ∈ s.table.names
  · obtain ⟨-, hrefreshed, hidle⟩ := hsound.refresh_moves hname fault
    simp only [hname, if_true] at hstart
    split_ifs at hstart with hrunning
    · cases hstart
      rfl
    · have hafter : s' = (s.refresh leader.name fault).1 := by
        split at hstart
        · cases hstart
          rfl
        · split at hstart
          · cases hstart
            rfl
          · obtain ⟨kernel, -, hresult⟩ := Option.map_eq_some_iff.mp hstart
            cases hresult
      rw [hafter, leaders_of_mem (hrefreshed.names ▸ hname)] at halive
      have hpositive : 0 < ((s.refresh leader.name fault).1.table.record leader.name).pid := by
        simpa [ProcessRecord.leaderRecord] using halive
      exact absurd (hidle ((Bool.not_eq_true _).mp hrunning)) (not_le.mpr hpositive)
  · simp only [hname, if_false] at hstart
    cases hstart
    rw [leaders_of_not_mem hname] at halive
    cases halive

/-- Whatever the children, the monitor and the threads that stop and restart processes do: the
leaders are seen to be forked and reaped in turn, and the calls answer from what is seen. -/
theorem leader_table_refined (s : Sys) (h : Reaches Sys.step KeepsConfig Sys.Loaded s) :
    Reaches LeaderTable.step anyAction LeaderTable.Fresh s.shared.table.leaders ∧
      Answers s.shared := by
  have hsound : s.shared.Sound :=
    h.invariant (fun _ hloaded ↦ hloaded.sound) refines_leaderTable.keeps
  have hreaches := refines_leaderTable.reaches (fun _ hloaded ↦ hloaded.sound)
    (fun _ hloaded ↦ hloaded.fresh) h
  exact ⟨hreaches, hsound.answers⟩

/-- The two leaders as they are configured. -/
def bothLeaders : ProcessConfigs where
  names := ["localization", "mapping"]
  sorted := by decide
  config _ := { command := "roslaunch" }

/-- Both leaders have been started, mapping has crashed, and the monitor has been round. -/
def mappingFails : List Action :=
  [.startProcess "mapping" {} { forked := .ok 10 },
    .startProcess "localization" {} { forked := .ok 11 }, .childExits 0 (.signaled 11),
    .monitorRound fun _ ↦ none]

def keepsConfig (_ : Sys) : Action → Bool
  | .loadConfig _ _ => false
  | _ => true

theorem keepsConfig_of_test (s : Sys) (a : Action) (h : keepsConfig s a = true) :
    KeepsConfig s a := by
  cases a <;> first | exact trivial | cases h

theorem leader_table_refined_failed :
    ∃ s, (Reaches Sys.step KeepsConfig Sys.Loaded s ∧
        s.shared.table.leaders .mapping = ⟨false, some 139⟩ ∧
        (s.shared.table.leaders .localization).alive = true) ∧
      Reaches LeaderTable.step anyAction LeaderTable.Fresh s.shared.table.leaders ∧
        Answers s.shared := by
  have hloaded : Reaches Sys.step KeepsConfig Sys.Loaded
      { constructed with shared := ⟨bothLeaders.table, .empty⟩ } :=
    .start ⟨constructed, bothLeaders, fun _ ↦ none, constructed_initial, rfl⟩
  have hrun : (execWith Sys.step keepsConfig { constructed with
      shared := ⟨bothLeaders.table, .empty⟩ } mappingFails).any (fun s ↦
        decide (s.shared.table.leaders .mapping = ⟨false, some 139⟩) &&
          (s.shared.table.leaders .localization).alive) = true := by decide +kernel
  obtain ⟨s, hreach, htest⟩ := hloaded.exists_of_execWith keepsConfig_of_test hrun
  simp only [Bool.and_eq_true, decide_eq_true_eq] at htest
  exact ⟨s, ⟨hreach, htest⟩, leader_table_refined s hreach⟩

end SlamSystemManager.ProcessManager
