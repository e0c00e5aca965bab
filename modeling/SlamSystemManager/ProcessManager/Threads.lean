import SlamSystemManager.ProcessManager.Records

/-!
# Threads that stop a process

What a thread in `stopProcess` or `restartProcess` has found at its lookup stays true of the child
it is for: the id of a child and the name it was forked for never change, whoever waits for it.
-/

namespace SlamSystemManager.ProcessManager

open Posix TransitionSystem

theorem Sys.step_now {s s' : Sys} {a : Action} (hstep : s.step a = some s') : s.now ≤ s'.now := by
  cases a with
  | tick duration =>
    simp only [Sys.step] at hstep
    split_ifs at hstep
    cases hstep
    exact Nat.le_add_right _ _
  | thread index choice =>
    simp only [Sys.step] at hstep
    cases hthread : s.threads[index]? with
    | none => simp [hthread] at hstep
    | some thread =>
      simp only [hthread] at hstep
      obtain ⟨_, _, rfl⟩ := Option.map_eq_some_iff.mp hstep
      exact le_rfl
  | startProcess | childExits | memberStarts | memberExits | otherStarts =>
    obtain ⟨_, _, rfl⟩ := Option.map_eq_some_iff.mp hstep
    exact le_rfl
  | isProcessRunning | lastExitCode | loadConfig | monitorRound | stopProcess | restartProcess |
    otherExits =>
    cases hstep
    exact le_rfl

/-- Only a step of its own moves a thread, and new threads stand before their first section. -/
theorem Sys.threads_of_step {s s' : Sys} {a : Action} (hstep : s.step a = some s')
    {thread' : Thread}
    (hthread : thread' ∈ s'.threads) :
    thread' ∈ s.threads ∨ thread'.point = .running ∨ thread'.point = .lookup ∨
      ∃ index choice thread point, a = .thread index choice ∧ s.threads[index]? = some thread ∧
        thread.step s.now s.shared choice = some (s'.shared, point) ∧ s'.now = s.now ∧
        thread' = { thread with point := point } := by
  cases a with
  | thread index choice =>
    simp only [Sys.step] at hstep
    cases hindex : s.threads[index]? with
    | none => simp [hindex] at hstep
    | some thread =>
      simp only [hindex] at hstep
      obtain ⟨⟨shared, point⟩, hnext, rfl⟩ := Option.map_eq_some_iff.mp hstep
      obtain hbefore | rfl := List.mem_or_eq_of_mem_set hthread
      · exact Or.inl hbefore
      · exact Or.inr (Or.inr (Or.inr ⟨index, choice, thread, point, rfl, hindex, hnext, rfl, rfl⟩))
  | stopProcess name =>
    cases hstep
    obtain hbefore | hnew := List.mem_append.mp hthread
    · exact Or.inl hbefore
    · rw [List.mem_singleton.mp hnew]
      exact Or.inr (Or.inr (Or.inl rfl))
  | restartProcess name substitutions =>
    cases hstep
    obtain hbefore | hnew := List.mem_append.mp hthread
    · exact Or.inl hbefore
    · rw [List.mem_singleton.mp hnew]
      exact Or.inr (Or.inl rfl)
  | tick duration =>
    simp only [Sys.step] at hstep
    split_ifs at hstep
    cases hstep
    exact Or.inl hthread
  | startProcess | childExits | memberStarts | memberExits | otherStarts =>
    obtain ⟨_, _, rfl⟩ := Option.map_eq_some_iff.mp hstep
    exact Or.inl hthread
  | isProcessRunning | lastExitCode | loadConfig | monitorRound | otherExits =>
    cases hstep
    exact Or.inl hthread

/-- A process that is found to be running is left as it is. -/
theorem Shared.Sound.refresh_true {s : Shared} (h : s.Sound) {name : String}
    (hname : name ∈ s.table.names) {fault : Option WaitFault}
    (hrunning : (s.refresh name fault).2 = true) :
    (s.refresh name fault).1 = s ∧ ∃ k, s.kernel.latest name = some k ∧
      (s.kernel.child k).unreaped = true ∧
      (s.table.record name).pid = (s.kernel.child k).pid := by
  obtain ⟨_, hrefresh⟩ | ⟨k, hlatest, hpid, ⟨hunreaped, _, hrefresh⟩ |
    ⟨status, since, _, _, hrefresh⟩⟩ := h.refresh_cases hname fault
  · simp [hrefresh] at hrunning
  · rw [hrefresh]
    exact ⟨rfl, k, hlatest, hunreaped, hpid⟩
  · simp [hrefresh] at hrunning

theorem Shared.Sound.look_true {s : Shared} (h : s.Sound) {stop : Stop} {fault : Option WaitFault}
    (hrunning : (stop.look s fault).2 = true) : (stop.look s fault).1 = s := by
  unfold Stop.look at hrunning ⊢
  split_ifs at hrunning ⊢ with hsame
  exact (h.refresh_true hsame.1 hrunning).1

/-- A thread that is not about to start a process refreshes at most. -/
theorem threadStep_refreshed {now : ℕ} {s s' : Shared} (hsound : s.Sound) {choice : Choice}
    {thread : Thread} {point : Point} (hnext : thread.step now s choice = some (s', point))
    (hstart : thread.point ≠ .start) : Refreshed s s' := by
  unfold Thread.step at hnext
  cases hpoint : thread.point with
  | running =>
    simp only [hpoint] at hnext
    cases hnext
    exact (hsound.isProcessRunning_moves thread.name choice.fault).2
  | lookup =>
    simp only [hpoint, ProcessTable.find?] at hnext
    by_cases hname : thread.name ∈ s.table.names
    · simp only [hname, if_true] at hnext
      have hrefreshed := (hsound.refresh_moves hname choice.fault).2.1
      split_ifs at hnext
      · obtain ⟨child, _, hresult⟩ := Option.map_eq_some_iff.mp hnext
        cases hresult
        exact hrefreshed
      · cases hnext
        exact hrefreshed
    · simp only [hname, if_false] at hnext
      cases hnext
      exact .refl s
  | signal stop signal expired =>
    simp only [hpoint] at hnext
    cases hnext
    exact .refl s
  | clock stop signal =>
    simp only [hpoint] at hnext
    cases hnext
    exact .refl s
  | look stop signal deadline =>
    simp only [hpoint] at hnext
    have hrefreshed := (hsound.look_moves stop choice.fault).2
    split_ifs at hnext
    · cases hnext
      exact hrefreshed
    · cases hnext
      exact hrefreshed
  | pause stop signal deadline wake =>
    simp only [hpoint] at hnext
    split_ifs at hnext
    · cases hnext
      exact .refl s
    · cases signal <;> cases hnext <;> exact .refl s
  | start => exact absurd hpoint hstart
  | returned result => simp [hpoint] at hnext

/-! ## The child of a stop -/

/-- The stop a thread is midway through at a point. -/
def Point.stop? : Point → Option Stop
  | .signal stop _ _ => some stop
  | .clock stop _ => some stop
  | .look stop _ _ => some stop
  | .pause stop _ _ _ => some stop
  | _ => none

/-- The child a stop is for. -/
def Stop.Knows (stop : Stop) (kernel : Kernel String) : Prop :=
  stop.child < kernel.count ∧ (kernel.child stop.child).tag = stop.name ∧
    (kernel.child stop.child).pid = stop.pid

def Sys.Tracks (s : Sys) : Prop :=
  ∀ thread, thread ∈ s.threads → ∀ stop, thread.point.stop? = some stop → stop.Knows s.shared.kernel

theorem Stop.Knows.step {s s' : Sys} {a : Action} {stop : Stop}
    (h : stop.Knows s.shared.kernel) (hsound : s.shared.Sound)
    (hstep : s.step a = some s') : stop.Knows s'.shared.kernel := by
  obtain ⟨hk, htag, hpid, _⟩ := Sys.step_child hsound hstep h.1
  exact ⟨hk, htag.trans h.2.1, hpid.trans h.2.2⟩

/-! ## The steps of a thread -/

/-- The signal that follows when another has not been enough. -/
def StopSignal.stronger? : StopSignal → Option StopSignal
  | .sigint => some .sigterm
  | .sigterm => some .sigkill
  | .sigkill => none

/-- From where to where a step takes a thread. Apart from the steps that leave a stop it finds the
records and children as it leaves them. -/
inductive Advances (now : ℕ) (s : Shared) (choice : Choice) : Point → Shared → Point → Prop
  | free {point point' : Point} {s' : Shared} (hfree : point'.stop? = none) :
    Advances now s choice point s' point'
  | begins {stop : Stop} (hknows : stop.Knows s.kernel)
    (hunreaped : (s.kernel.child stop.child).unreaped = true) :
    Advances now s choice .lookup s (.signal stop .sigint now)
  | sends {stop : Stop} {signal : StopSignal} {expired : ℕ} :
    Advances now s choice (.signal stop signal expired) s (.clock stop signal)
  | reads {stop : Stop} {signal : StopSignal} :
    Advances now s choice (.clock stop signal) s (.look stop signal (now + stop.timeout signal))
  | finds {stop : Stop} {signal : StopSignal} {deadline : ℕ}
    (hrunning : (stop.look s choice.fault).2 = true) :
    Advances now s choice (.look stop signal deadline) s
      (.pause stop signal deadline choice.wake)
  | wakes {stop : Stop} {signal : StopSignal} {deadline wake : ℕ} (hearly : now < deadline) :
    Advances now s choice (.pause stop signal deadline wake) s (.look stop signal deadline)
  | escalates {stop : Stop} {signal stronger : StopSignal} {deadline wake : ℕ} (hwake : now = wake)
    (hexpired : deadline ≤ now) (hstronger : signal.stronger? = some stronger) :
    Advances now s choice (.pause stop signal deadline wake) s (.signal stop stronger deadline)

theorem Thread.stopped_free (thread : Thread) : thread.stopped.stop? = none := by
  unfold Thread.stopped
  cases thread.restart <;> rfl

/-- A lookup that finds a process running finds the child that its name was forked for last. -/
theorem Shared.Sound.lookup_knows {s : Shared} (h : s.Sound) {name : String}
    (hname : name ∈ s.table.names) {fault : Option WaitFault}
    (hrunning : (s.refresh name fault).2 = true) :
    (s.refresh name fault).1 = s ∧ ∃ k, s.kernel.find? (s.table.record name).pid = some k ∧
      k < s.kernel.count ∧ (s.kernel.child k).tag = name ∧
      (s.kernel.child k).pid = (s.table.record name).pid ∧
      (s.kernel.child k).unreaped = true := by
  obtain ⟨hsame, k, hlatest, hunreaped, hpid⟩ := h.refresh_true hname hrunning
  obtain ⟨hk, htag, _⟩ := Kernel.latest_eq_some.mp hlatest
  refine ⟨hsame, k, ?_, hk, htag, hpid.symm, hunreaped⟩
  rw [hpid]
  exact h.kernel.find?_pid hk hunreaped

theorem Thread.advances {now : ℕ} {s : Shared} (hsound : s.Sound) {choice : Choice}
    {thread : Thread} {s' : Shared} {point : Point}
    (hnext : thread.step now s choice = some (s', point)) :
    Advances now s choice thread.point s' point := by
  unfold Thread.step at hnext
  cases hpoint : thread.point with
  | running =>
    simp only [hpoint] at hnext
    cases hrunning : (isProcessRunning s thread.name choice.fault).2 with
    | true =>
      simp only [hrunning, if_true] at hnext
      cases hnext
      exact .free rfl
    | false =>
      simp only [hrunning] at hnext
      cases hnext
      exact .free rfl
  | lookup =>
    simp only [hpoint, ProcessTable.find?] at hnext
    by_cases hname : thread.name ∈ s.table.names
    · simp only [hname, if_true] at hnext
      split_ifs at hnext with hrunning
      · obtain ⟨hsame, k, hfound, hk, htag, hpid, hunreaped⟩ := hsound.lookup_knows hname hrunning
        rw [hsame, hfound] at hnext
        cases hnext
        exact .begins ⟨hk, htag, hpid⟩ hunreaped
      · cases hnext
        exact .free rfl
    · simp only [hname, if_false] at hnext
      cases hnext
      exact .free rfl
  | signal stop signal expired =>
    simp only [hpoint] at hnext
    cases hnext
    exact .sends
  | clock stop signal =>
    simp only [hpoint] at hnext
    cases hnext
    exact .reads
  | look stop signal deadline =>
    simp only [hpoint] at hnext
    split_ifs at hnext with hrunning
    · have hsame := hsound.look_true hrunning
      cases hnext
      rw [hsame]
      exact .finds hrunning
    · cases hnext
      exact .free thread.stopped_free
  | pause stop signal deadline wake =>
    simp only [hpoint] at hnext
    split_ifs at hnext with hwake hearly
    · cases hnext
      exact .wakes hearly
    · rw [not_not] at hwake
      cases signal with
      | sigint =>
        cases hnext
        exact .escalates hwake (not_lt.mp hearly) rfl
      | sigterm =>
        cases hnext
        exact .escalates hwake (not_lt.mp hearly) rfl
      | sigkill =>
        cases hnext
        exact .free rfl
  | start =>
    simp only [hpoint] at hnext
    obtain ⟨started, _, hresult⟩ := Option.map_eq_some_iff.mp hnext
    cases hresult
    exact .free rfl
  | returned result => simp [hpoint] at hnext

/-! ## Runs -/

theorem Sys.Tracks.step {s s' : Sys} {a : Action} (h : s.Tracks) (hsound : s.shared.Sound)
    (hstep : s.step a = some s') : s'.Tracks := by
  intro thread' hthread stop hstop
  obtain hbefore | hpoint | hpoint | ⟨index, choice, thread, point, rfl, hindex, hnext, _, rfl⟩ :=
    Sys.threads_of_step hstep hthread
  · exact (h thread' hbefore stop hstop).step hsound hstep
  · simp [Point.stop?, hpoint] at hstop
  · simp [Point.stop?, hpoint] at hstop
  · have hadvances := Thread.advances hsound hnext
    have hbefore := h thread (List.mem_of_getElem? hindex) stop
    refine Stop.Knows.step ?_ hsound hstep
    generalize thread.point = before at hadvances hbefore
    generalize s'.shared = shared at hadvances
    cases hadvances with
    | free hfree =>
      rw [hfree] at hstop
      cases hstop
    | begins hknows hunreaped =>
      cases hstop
      exact hknows
    | sends | reads | finds | wakes | escalates =>
      cases hstop
      exact hbefore rfl

theorem Sys.tracks_of_reaches {ok : Sys → Action → Prop} {s : Sys}
    (h : Reaches Sys.step ok Sys.Initial s) : s.Tracks := by
  refine h.invariant_of (P := Sys.Tracks) (fun s hs ↦ Sys.sound_of_reaches hs) (fun s hinit ↦ ?_)
    fun s a s' hsound htracks _ hstep ↦ htracks.step hsound hstep
  intro thread hthread
  rw [hinit.threads] at hthread
  cases hthread

end SlamSystemManager.ProcessManager
