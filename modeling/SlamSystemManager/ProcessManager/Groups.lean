import SlamSystemManager.ProcessManager.Leaders
import SlamSystemManager.ProcessManager.Threads

/-!
# Process groups

Signals go to a whole group, but a stop is over when its leader has been waited for. What is left of
a group then is never signalled again. Where every leader is the last of its group to be there when
it is waited for, a stop that succeeds leaves nothing of the group behind.
-/

namespace SlamSystemManager.ProcessManager

open Posix TransitionSystem

/-- A leader is waited for when the other members of its group are gone. -/
def LeaderLast (s : Sys) (a : Action) : Prop :=
  ∀ s', s.step a = some s' → ∀ k, k < s.shared.kernel.count →
    (s.shared.kernel.child k).unreaped = true → (s'.shared.kernel.child k).unreaped = false →
    (s.shared.kernel.child k).members = ∅

/-- What is left when a step says that a process is gone. -/
structure LeavesNothing (s : Sys) (a : Action) (s' : Sys) : Prop where
  /-- The last look of a stop that returns true. -/
  stopped : ∀ index choice thread stop signal deadline, a = .thread index choice →
    s.threads[index]? = some thread → thread.point = .look stop signal deadline →
    (stop.look s.shared choice.fault).2 = false →
      (s'.shared.kernel.child stop.child).groupAlive = false
  notRunning : ∀ name choice, a = .isProcessRunning name choice →
    (isProcessRunning s.shared name choice.fault).2 = false →
      ∀ k, k < s'.shared.kernel.count → (s'.shared.kernel.child k).tag = name →
        (s'.shared.kernel.child k).groupAlive = false
  /-- The same in `restartProcess`. -/
  restarts : ∀ index choice thread, a = .thread index choice → s.threads[index]? = some thread →
    thread.point = .running → (isProcessRunning s.shared thread.name choice.fault).2 = false →
      ∀ k, k < s'.shared.kernel.count → (s'.shared.kernel.child k).tag = thread.name →
        (s'.shared.kernel.child k).groupAlive = false

/-- Only the instance of a name started last has members that are alive. -/
def NoSurvivors (s : Sys) : Prop :=
  ∀ j k, j < k → k < s.shared.kernel.count →
    (s.shared.kernel.child j).tag = (s.shared.kernel.child k).tag →
    (s.shared.kernel.child j).groupAlive = false

/-- The groups of leaders that have been waited for are empty. -/
def Sys.Emptied (s : Sys) : Prop :=
  ∀ k, k < s.shared.kernel.count → (s.shared.kernel.child k).unreaped = false →
    (s.shared.kernel.child k).groupAlive = false

theorem groupAlive_of_reaped {child : Child String} {status : WaitStatus} {since : ℕ}
    (hlife : child.life = .reaped status since) (hmembers : child.members = ∅) :
    child.groupAlive = false := by
  simp [Child.groupAlive, hlife, hmembers]

theorem Sys.Emptied.step {s s' : Sys} {a : Action} (h : s.Emptied) (hsound : s.shared.Sound)
    (hok : LeaderLast s a) (hstep : s.step a = some s') : s'.Emptied := by
  intro k hk' hreaped
  obtain hmoves | ⟨kernel, houtside, hshared⟩ := Sys.step_shared hsound hstep
  · by_cases hk : k < s.shared.kernel.count
    · obtain ⟨_, hsame | ⟨status, since, hzombie, hchild⟩⟩ := hmoves.child hk
      · rw [hsame] at hreaped ⊢
        exact h k hk hreaped
      · have hunreaped := Shared.Sound.unreaped_of_zombie hzombie
        have hmembers := hok s' hstep k hk hunreaped hreaped
        rw [hchild]
        exact groupAlive_of_reaped rfl hmembers
    · have hrunning := hmoves.new hk hk'
      simp [Child.unreaped, hrunning, Life.unreaped] at hreaped
  · rw [hshared] at hk' hreaped ⊢
    simp only [houtside.count, houtside.unreaped] at hk' hreaped
    exact houtside.ended k (h k hk' hreaped)

theorem Sys.emptied_of_reaches {s : Sys} (h : Reaches Sys.step LeaderLast Sys.Initial s) :
    s.Emptied := by
  refine h.invariant_of (P := Sys.Emptied) (fun s hs ↦ Sys.sound_of_reaches hs) (fun s hinit ↦ ?_)
    fun s a s' hsound hemptied hok hstep ↦ hemptied.step hsound hok hstep
  intro k hk
  rw [hinit.children] at hk
  cases hk

/-! ## Who has been waited for -/

namespace Shared.Sound

variable {s : Shared}

/-- After an unsuccessful refresh the children of the name have all been waited for. -/
theorem reaped_of_refresh_false (h : s.Sound) {name : String} (hname : name ∈ s.table.names)
    {fault : Option WaitFault} (hfalse : (s.refresh name fault).2 = false) {k : ℕ}
    (hk : k < (s.refresh name fault).1.kernel.count)
    (htag : ((s.refresh name fault).1.kernel.child k).tag = name) :
    ((s.refresh name fault).1.kernel.child k).unreaped = false := by
  obtain ⟨hmoves, _, hidle⟩ := h.refresh_moves hname fault
  exact (h.moves hmoves).reaped_of_idle (hidle hfalse) hk htag

/-- A child whose name has no record has been waited for. -/
theorem reaped_of_notMem (h : s.Sound) {name : String} (hname : name ∉ s.table.names) {k : ℕ}
    (hk : k < s.kernel.count) (htag : (s.kernel.child k).tag = name) :
    (s.kernel.child k).unreaped = false := by
  by_contra hunreaped
  rw [Bool.not_eq_false] at hunreaped
  exact hname (htag ▸ (h.owned k hk hunreaped).1)

theorem reaped_of_notRunning (h : s.Sound) {name : String} {fault : Option WaitFault}
    (hfalse : (isProcessRunning s name fault).2 = false) {k : ℕ}
    (hk : k < (isProcessRunning s name fault).1.kernel.count)
    (htag : ((isProcessRunning s name fault).1.kernel.child k).tag = name) :
    ((isProcessRunning s name fault).1.kernel.child k).unreaped = false := by
  unfold isProcessRunning at hfalse hk htag ⊢
  by_cases hname : name ∈ s.table.names
  · simp only [hname, if_true] at hfalse hk htag ⊢
    exact h.reaped_of_refresh_false hname hfalse hk htag
  · simp only [hname, if_false] at hk htag ⊢
    exact h.reaped_of_notMem hname hk htag

/-- The child of a stop has been waited for when its last look ends the stop. -/
theorem reaped_of_look_false (h : s.Sound) {stop : Stop} (hknows : stop.Knows s.kernel)
    {fault : Option WaitFault} (hfalse : (stop.look s fault).2 = false) :
    ((stop.look s fault).1.kernel.child stop.child).unreaped = false := by
  obtain ⟨hk, htag, hpid⟩ := hknows
  unfold Stop.look at hfalse ⊢
  by_cases hsame : stop.name ∈ s.table.names ∧ (s.table.record stop.name).pid = stop.pid
  · rw [if_pos hsame] at hfalse ⊢
    obtain ⟨hmoves, hrefreshed, _⟩ := h.refresh_moves hsame.1 fault
    exact h.reaped_of_refresh_false hsame.1 hfalse (hmoves.child hk).1
      ((hrefreshed.tag stop.child).trans htag)
  · rw [if_neg hsame]
    by_contra hunreaped
    rw [Bool.not_eq_false] at hunreaped
    obtain ⟨hname, _, hrecord⟩ := h.owned stop.child hk hunreaped
    rw [htag] at hname hrecord
    exact hsame ⟨hname, hrecord.trans hpid⟩

end Shared.Sound

theorem Sys.Emptied.noSurvivors {s : Sys} (h : s.Emptied) (hsound : s.shared.Sound) :
    NoSurvivors s := by
  intro j k hjk hk htag
  have hj := hjk.trans hk
  refine h j hj ?_
  by_contra hunreaped
  rw [Bool.not_eq_false] at hunreaped
  have hlatest := (hsound.owned j hj hunreaped).2.1
  exact (Kernel.latest_eq_some.mp hlatest).2.2 k hjk hk htag.symm

/-- A step of a thread at a look leaves what the look leaves. -/
theorem Sys.step_look {s s' : Sys} {index : ℕ} {choice : Choice} {thread : Thread} {stop : Stop}
    {signal : StopSignal} {deadline : ℕ} (hindex : s.threads[index]? = some thread)
    (hpoint : thread.point = .look stop signal deadline)
    (hfalse : (stop.look s.shared choice.fault).2 = false)
    (hstep : s.step (.thread index choice) = some s') :
    s'.shared = (stop.look s.shared choice.fault).1 := by
  simp only [Sys.step, hindex, Thread.step, hpoint, hfalse] at hstep
  cases hstep
  rfl

theorem Sys.step_running {s s' : Sys} {index : ℕ} {choice : Choice} {thread : Thread}
    (hindex : s.threads[index]? = some thread) (hpoint : thread.point = .running)
    (hstep : s.step (.thread index choice) = some s') :
    s'.shared = (isProcessRunning s.shared thread.name choice.fault).1 := by
  simp only [Sys.step, hindex, Thread.step, hpoint] at hstep
  cases hstep
  rfl

/-- In every run in which a leader is waited for when its group is otherwise empty: a stop that
returns true leaves no member of the group alive, a process that is said not to be running has none,
and no instance is started beside survivors of an earlier one. -/
theorem stop_leaves_nothing (s : Sys) (h : Reaches Sys.step LeaderLast Sys.Initial s) :
    NoSurvivors s ∧ ∀ a s', LeaderLast s a → s.step a = some s' → LeavesNothing s a s' := by
  have hsound := Sys.sound_of_reaches h
  have htracks := Sys.tracks_of_reaches h
  have hemptied := Sys.emptied_of_reaches h
  refine ⟨hemptied.noSurvivors hsound, fun a s' hok hstep ↦ ⟨?_, ?_, ?_⟩⟩
  · rintro index choice thread stop signal deadline rfl hindex hpoint hfalse
    have hknows := htracks thread (List.mem_of_getElem? hindex) stop (by rw [hpoint]; rfl)
    have hreaped := hsound.reaped_of_look_false hknows hfalse
    rw [← Sys.step_look hindex hpoint hfalse hstep] at hreaped
    exact hemptied.step hsound hok hstep stop.child (hknows.step hsound hstep).1 hreaped
  · rintro name choice rfl hfalse k hk htag
    have hemptied' := hemptied.step hsound hok hstep
    cases hstep
    exact hemptied' k hk (hsound.reaped_of_notRunning hfalse hk htag)
  · rintro index choice thread rfl hindex hpoint hfalse k hk htag
    have hshared := Sys.step_running hindex hpoint hstep
    have hreaped : (s'.shared.kernel.child k).unreaped = false := by
      rw [hshared] at hk htag ⊢
      exact hsound.reaped_of_notRunning hfalse hk htag
    exact hemptied.step hsound hok hstep k hk hreaped

/-- Once the latest child of a name has been waited for, the process is said not to be running. -/
theorem Shared.Sound.notRunning_of_reaped {s : Shared} (h : s.Sound) {name : String} {k : ℕ}
    (hlatest : s.kernel.latest name = some k) (hreaped : (s.kernel.child k).unreaped = false)
    (fault : Option WaitFault) : (isProcessRunning s name fault).2 = false := by
  unfold isProcessRunning
  split_ifs with hname
  · obtain ⟨_, hrefresh⟩ | ⟨j, hlast, _, ⟨hunreaped, _, _⟩ | ⟨_, _, _, hzombie, _⟩⟩ :=
      h.refresh_cases hname fault
    · rw [hrefresh]
    · rw [hlatest, Option.some_inj] at hlast
      rw [← hlast, hreaped] at hunreaped
      cases hunreaped
    · rw [hlatest, Option.some_inj] at hlast
      rw [hlast, unreaped_of_zombie hzombie] at hreaped
      cases hreaped
  · rfl

/-- The condition is needed: a leader that is waited for too early leaves a group alive, and its
name is said not to be running, or has been started again. -/
theorem survivor_of_not_leaderLast {s s' : Sys} {a : Action}
    (h : Reaches Sys.step anyAction Sys.Initial s) (hstep : s.step a = some s')
    (hearly : ¬LeaderLast s a) :
    ∃ k, k < s'.shared.kernel.count ∧ (s'.shared.kernel.child k).groupAlive = true ∧
      ((isProcessRunning s'.shared (s'.shared.kernel.child k).tag none).2 = false ∨
        ¬NoSurvivors s') := by
  simp only [LeaderLast, not_forall, exists_prop] at hearly
  obtain ⟨s'', hstep', k, hk, hunreaped, hreaped, hmembers⟩ := hearly
  rw [hstep, Option.some_inj] at hstep'
  subst hstep'
  have hsound := Sys.sound_of_reaches h
  have halive : (s'.shared.kernel.child k).groupAlive = true ∧ k < s'.shared.kernel.count := by
    obtain hmoves | ⟨kernel, houtside, hshared⟩ := Sys.step_shared hsound hstep
    · obtain ⟨hk', hsame | ⟨_, _, _, hchild⟩⟩ := hmoves.child hk
      · rw [hsame, hunreaped] at hreaped
        cases hreaped
      · rw [hchild]
        exact ⟨by simp [Child.groupAlive, hmembers], hk'⟩
    · rw [hshared] at hreaped
      simp only [houtside.unreaped, hunreaped] at hreaped
      cases hreaped
  refine ⟨k, halive.2, halive.1, ?_⟩
  by_cases hlatest : s'.shared.kernel.latest (s'.shared.kernel.child k).tag = some k
  · exact Or.inl ((Sys.sound_step hsound hstep).notRunning_of_reaped hlatest hreaped none)
  · right
    intro hnone
    apply hlatest
    refine Kernel.latest_eq_some.mpr ⟨halive.2, rfl, fun j hkj hj htag ↦ ?_⟩
    have hdead := hnone k j hkj hj htag.symm
    rw [halive.1] at hdead
    cases hdead

/-! ## Runs -/

/-- `LeaderLast`, for runs that are replayed. -/
def leaderLast (s : Sys) (a : Action) : Bool :=
  match s.step a with
  | none => true
  | some s' => (List.range s.shared.kernel.count).all fun k ↦
    !(s.shared.kernel.child k).unreaped || (s'.shared.kernel.child k).unreaped ||
      decide ((s.shared.kernel.child k).members = ∅)

theorem leaderLast_of_test (s : Sys) (a : Action) (h : leaderLast s a = true) :
    LeaderLast s a := by
  intro s' hstep k hk hunreaped hreaped
  simp only [leaderLast, hstep, List.all_eq_true, List.mem_range] at h
  simpa [hunreaped, hreaped] using h k hk

/-- A launch file with a node, stopped with SIGINT: the launch exits, and the stop looks. -/
def interrupted : List Action :=
  [.loadConfig (.ok twoProcesses) fun _ ↦ none, .startProcess "a" {} { forked := .ok 10 },
    .memberStarts 0 20, .stopProcess "a", .thread 0 {}, .thread 0 {}, .thread 0 {},
    .childExits 0 (.signaled 2)]

/-- The node exits too before the stop looks. -/
theorem stop_leaves_nothing_interrupted :
    ∃ s, Reaches Sys.step LeaderLast Sys.Initial s ∧ s.shared.kernel.count = 1 ∧
      NoSurvivors s ∧ ∀ a s', LeaderLast s a → s.step a = some s' → LeavesNothing s a s' := by
  have hrun : (execWith Sys.step leaderLast constructed
      (interrupted ++ [.memberExits 0 20, .thread 0 {}])).any
        (fun s ↦ decide (s.shared.kernel.count = 1)) = true := by
    decide +kernel
  obtain ⟨s, hreach, htest⟩ :=
    (Reaches.start constructed_initial).exists_of_execWith leaderLast_of_test hrun
  exact ⟨s, hreach, by simpa using htest, stop_leaves_nothing s hreach⟩

/-- The one stop there is looks at child 0 and finds it gone, and the round it makes leaves
members of the group alive. -/
def looksBesideMember (s : Sys) : Bool :=
  match s.threads with
  | [⟨_, _, .look stop _ _⟩] =>
    !(stop.look s.shared none).2 && decide (stop.child = 0) &&
      (s.step (.thread 0 {})).any fun s' ↦ (s'.shared.kernel.child 0).groupAlive
  | _ => false

/-- The node has ignored SIGINT: the stop returns true beside it. -/
theorem stop_leaves_member :
    ¬∀ s, Reaches Sys.step anyAction Sys.Initial s →
      NoSurvivors s ∧ ∀ a s', s.step a = some s' → LeavesNothing s a s' := by
  intro hclaim
  obtain ⟨s, hreach, htest⟩ := exists_of_exec interrupted looksBesideMember (by decide +kernel)
  unfold looksBesideMember at htest
  split at htest
  · rename_i name restart stop signal deadline hthreads
    simp only [Bool.and_eq_true, Bool.not_eq_true', decide_eq_true_eq] at htest
    obtain ⟨⟨hfalse, hchild⟩, halive⟩ := htest
    obtain ⟨s', hstep, halive⟩ := (Option.any_eq_true _ _).mp halive
    have hempty := ((hclaim s hreach).2 _ s' hstep).stopped 0 {} _ stop signal deadline rfl
      (by rw [hthreads]; rfl) rfl hfalse
    rw [hchild, halive] at hempty
    cases hempty
  · cases htest

end SlamSystemManager.ProcessManager
