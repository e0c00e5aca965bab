import SlamSystemManager.ProcessManager.Leaders
import SlamSystemManager.ProcessManager.Threads

/-!
# Signals and the child they are for

A stop keeps the id of a child while others may wait for the child, and it sleeps before it looks at
the clock. From the lookup to SIGINT, and from the last look of a stage to the signal that follows,
nothing tells it that the child is gone. Where no child exits or is waited for there, every signal
reaches the group of the child that is being stopped.
-/

namespace SlamSystemManager.ProcessManager

open Posix TransitionSystem

/-- The child has not exited before a time. -/
def aliveAt (time : ℕ) : Life → Prop
  | .running => True
  | .zombie _ since => time ≤ since
  | .reaped _ since => time ≤ since

instance (time : ℕ) : (life : Life) → Decidable (aliveAt time life)
  | .running => inferInstanceAs (Decidable True)
  | .zombie _ since => inferInstanceAs (Decidable (time ≤ since))
  | .reaped _ since => inferInstanceAs (Decidable (time ≤ since))

/-- What a stop that is about to send a signal, or to give up, takes for granted. -/
structure StopSafe (s : Sys) : Prop where
  /-- The child has not been waited for, and the signal is for its group. -/
  target : ∀ thread, thread ∈ s.threads → ∀ stop signal expired,
    thread.point = .signal stop signal expired →
      (s.shared.kernel.child stop.child).unreaped = true ∧
      signalProcessGroup s.shared.kernel stop.pid = some (.group stop.child)
  /-- A stronger signal follows a timeout that the child has lived to see. -/
  escalation : ∀ thread, thread ∈ s.threads → ∀ stop signal expired,
    thread.point = .signal stop signal expired → signal ≠ .sigint →
      aliveAt expired (s.shared.kernel.child stop.child).life
  /-- A stop that gives up leaves the child alive. -/
  gaveUp : ∀ thread, thread ∈ s.threads → ∀ stop deadline wake,
    thread.point = .pause stop .sigkill deadline wake → s.now = wake → ¬s.now < deadline →
      (s.shared.kernel.child stop.child).life = .running

/-- The child at which a thread will not look again before its next signal, or before it gives
up. -/
def Thread.blind? (thread : Thread) : Option ℕ :=
  match thread.point with
  | .signal stop _ _ => some stop.child
  | .pause stop _ deadline wake => if deadline ≤ wake then some stop.child else none
  | _ => none

/-- A step that happens to no child behind the back of a thread. -/
structure Undisturbed (s : Sys) (a : Action) : Prop where
  /-- Nobody waits for the child of a thread that will not look at it again. -/
  reap : ∀ thread, thread ∈ s.threads → ∀ k, thread.blind? = some k →
    ∀ s', s.step a = some s' →
      (s.shared.kernel.child k).unreaped = true → (s'.shared.kernel.child k).unreaped = true
  /-- In the last pause of SIGINT or SIGTERM a child may exit once the timeout has expired, in the
  last pause of SIGKILL it does not exit. -/
  exit : ∀ thread, thread ∈ s.threads → ∀ stop signal deadline wake,
    thread.point = .pause stop signal deadline wake → deadline ≤ wake → ∀ status,
      a = .childExits stop.child status → signal ≠ .sigkill ∧ deadline ≤ s.now
  /-- The look before the last pause sees the child itself and sees that it is running, unless it
  exited after the timeout; `waitpid` may fail over a child that has exited, and a later child may
  have the same id. -/
  look : ∀ index choice thread stop signal deadline, a = .thread index choice →
    s.threads[index]? = some thread → thread.point = .look stop signal deadline →
    (stop.look s.shared choice.fault).2 = true → deadline ≤ choice.wake →
      (s.shared.kernel.child stop.child).unreaped = true ∧
      ((s.shared.kernel.child stop.child).life = .running ∨
        signal ≠ .sigkill ∧ aliveAt deadline (s.shared.kernel.child stop.child).life)

/-- What holds of the child of a thread where the thread stands. -/
def Thread.Covered (s : Sys) (thread : Thread) : Prop :=
  match thread.point with
  | .signal stop signal expired =>
    expired ≤ s.now ∧ (s.shared.kernel.child stop.child).unreaped = true ∧
      (signal ≠ .sigint → aliveAt expired (s.shared.kernel.child stop.child).life)
  | .pause stop signal deadline wake => deadline ≤ wake →
      (s.shared.kernel.child stop.child).unreaped = true ∧
      ((s.shared.kernel.child stop.child).life = .running ∨
        signal ≠ .sigkill ∧ aliveAt deadline (s.shared.kernel.child stop.child).life)
  | _ => True

section Steps

variable {s s' : Sys} {a : Action}

/-- What an undisturbed step leaves of the child of a thread that will not look again: it is still
there to wait for, and if it exits it does so now. -/
theorem Undisturbed.child (hok : Undisturbed s a) (hsound : s.shared.Sound)
    (hstep : s.step a = some s') {thread : Thread} (hthread : thread ∈ s.threads) {k : ℕ}
    (hblind : thread.blind? = some k) (hk : k < s.shared.kernel.count)
    (hunreaped : (s.shared.kernel.child k).unreaped = true) :
    (s'.shared.kernel.child k).unreaped = true ∧
      ((s'.shared.kernel.child k).life = (s.shared.kernel.child k).life ∨
        ∃ status, a = .childExits k status ∧ (s.shared.kernel.child k).life = .running ∧
          (s'.shared.kernel.child k).life = .zombie status s.now) := by
  have hkept := hok.reap thread hthread k hblind s' hstep hunreaped
  refine ⟨hkept, ?_⟩
  obtain ⟨_, _, _, hsame | ⟨status, since, _, hreaped⟩ | hexits⟩ := Sys.step_child hsound hstep hk
  · exact Or.inl hsame
  · simp [Child.unreaped, hreaped, Life.unreaped] at hkept
  · exact Or.inr hexits

/-- A thread that does not move stays covered. -/
theorem Thread.Covered.stays {thread : Thread} (h : thread.Covered s) (hsound : s.shared.Sound)
    (htracks : s.Tracks) (hok : Undisturbed s a) (hstep : s.step a = some s')
    (hthread : thread ∈ s.threads) : thread.Covered s' := by
  unfold Thread.Covered at h ⊢
  cases hpoint : thread.point with
  | running | lookup | start | returned | clock | look => trivial
  | signal stop signal expired =>
    simp only [hpoint] at h
    obtain ⟨hexpired, hunreaped, halive⟩ := h
    have hknows := htracks thread hthread stop (by rw [hpoint]; rfl)
    have hblind : thread.blind? = some stop.child := by simp [Thread.blind?, hpoint]
    obtain ⟨hkept, hlife⟩ := hok.child hsound hstep hthread hblind hknows.1 hunreaped
    refine ⟨hexpired.trans (Sys.step_now hstep), hkept, fun hstronger ↦ ?_⟩
    obtain hsame | ⟨status, _, _, hzombie⟩ := hlife
    · rw [hsame]
      exact halive hstronger
    · rw [hzombie]
      exact hexpired
  | pause stop signal deadline wake =>
    simp only [hpoint] at h
    intro hwake
    obtain ⟨hunreaped, halive⟩ := h hwake
    have hknows := htracks thread hthread stop (by rw [hpoint]; rfl)
    have hblind : thread.blind? = some stop.child := by simp [Thread.blind?, hpoint, hwake]
    obtain ⟨hkept, hlife⟩ := hok.child hsound hstep hthread hblind hknows.1 hunreaped
    refine ⟨hkept, ?_⟩
    obtain hsame | ⟨status, rfl, _, hzombie⟩ := hlife
    · rw [hsame]
      exact halive
    · obtain ⟨hsignal, hdeadline⟩ :=
        hok.exit thread hthread stop signal deadline wake hpoint hwake status rfl
      rw [hzombie]
      exact Or.inr ⟨hsignal, hdeadline⟩

/-- A thread is covered again where its step takes it. -/
theorem Thread.Covered.moves {index : ℕ} {choice : Choice} {thread : Thread} {point : Point}
    (h : thread.Covered s) (hsound : s.shared.Sound) (hok : Undisturbed s (.thread index choice))
    (hindex : s.threads[index]? = some thread)
    (hnext : thread.step s.now s.shared choice = some (s'.shared, point)) (hnow : s'.now = s.now) :
    ({ thread with point := point } : Thread).Covered s' := by
  have hadvances := Thread.advances hsound hnext
  have hlook := hok.look index choice thread
  unfold Thread.Covered at h ⊢
  generalize thread.point = before at hadvances hlook h
  generalize s'.shared = shared at hadvances ⊢
  rw [hnow]
  cases hadvances with
  | free hfree => cases point <;> trivial
  | begins hknows hunreaped => exact ⟨le_rfl, hunreaped, fun hne ↦ absurd rfl hne⟩
  | sends | reads | wakes => trivial
  | finds hrunning =>
    intro hwake
    exact hlook _ _ _ rfl hindex rfl hrunning hwake
  | escalates hwake hexpired hstronger =>
    obtain ⟨hunreaped, halive⟩ := h (hwake ▸ hexpired)
    refine ⟨hexpired, hunreaped, fun _ ↦ ?_⟩
    obtain hrunning | ⟨_, halive⟩ := halive
    · rw [hrunning]
      trivial
    · exact halive

end Steps

/-! ## Runs -/

def Sys.Covered (s : Sys) : Prop := ∀ thread, thread ∈ s.threads → thread.Covered s

theorem Sys.Covered.step {s s' : Sys} {a : Action} (h : s.Covered) (hsound : s.shared.Sound)
    (htracks : s.Tracks) (hok : Undisturbed s a) (hstep : s.step a = some s') : s'.Covered := by
  intro thread' hthread
  obtain hbefore | hpoint | hpoint |
      ⟨index, choice, thread, point, rfl, hindex, hnext, hnow, rfl⟩ :=
    Sys.threads_of_step hstep hthread
  · exact (h thread' hbefore).stays hsound htracks hok hstep hbefore
  · simp [Thread.Covered, hpoint]
  · simp [Thread.Covered, hpoint]
  · exact (h thread (List.mem_of_getElem? hindex)).moves hsound hok hindex hnext hnow

/-- Covered threads send and give up safely. -/
theorem Sys.Covered.stopSafe {s : Sys} (h : s.Covered) (hsound : s.shared.Sound)
    (htracks : s.Tracks) : StopSafe s where
  target thread hthread stop signal expired hpoint := by
    have hcovered := h thread hthread
    simp only [Thread.Covered, hpoint] at hcovered
    obtain ⟨hk, _, hpid⟩ := htracks thread hthread stop (by rw [hpoint]; rfl)
    refine ⟨hcovered.2.1, ?_⟩
    rw [signalProcessGroup, ← hpid]
    exact hsound.kernel.receiver_pid hk (Kernel.holds_of_unreaped hcovered.2.1)
  escalation thread hthread stop signal expired hpoint hstronger := by
    have hcovered := h thread hthread
    simp only [Thread.Covered, hpoint] at hcovered
    exact hcovered.2.2 hstronger
  gaveUp thread hthread stop deadline wake hpoint hwake hexpired := by
    have hcovered := h thread hthread
    simp only [Thread.Covered, hpoint] at hcovered
    obtain ⟨_, hrunning | ⟨hsignal, _⟩⟩ := hcovered (hwake ▸ not_lt.mp hexpired)
    · exact hrunning
    · exact absurd rfl hsignal

/-- In every run that disturbs no stop, each signal is sent while its child has not been waited for
and reaches the group of the child, a stronger signal only follows a timeout the child has lived to
see, and a stop that gives up leaves the child alive. -/
theorem stop_safe_of_undisturbed (s : Sys) (h : Reaches Sys.step Undisturbed Sys.Initial s) :
    StopSafe s := by
  have hcovered : s.Covered := by
    refine h.invariant_of (P := Sys.Covered)
      (fun s hs ↦ And.intro (Sys.sound_of_reaches hs) (Sys.tracks_of_reaches hs)) (fun s hinit ↦ ?_)
      fun s a s' hbase hcovered hok hstep ↦ hcovered.step hbase.1 hbase.2 hok hstep
    intro thread hthread
    rw [hinit.threads] at hthread
    cases hthread
  exact hcovered.stopSafe (Sys.sound_of_reaches h) (Sys.tracks_of_reaches h)

/-- `Undisturbed`, for runs that are replayed. -/
def undisturbed (s : Sys) (a : Action) : Bool :=
  (s.threads.all fun thread ↦
    match thread.blind?, s.step a with
    | some k, some s' =>
      !(s.shared.kernel.child k).unreaped || (s'.shared.kernel.child k).unreaped
    | _, _ => true) &&
  match a with
  | .childExits k _ => s.threads.all fun thread ↦
    match thread.point with
    | .pause stop signal deadline wake =>
      !decide (stop.child = k ∧ deadline ≤ wake) ||
        decide (signal ≠ .sigkill ∧ deadline ≤ s.now)
    | _ => true
  | .thread index choice =>
    match s.threads[index]? with
    | some ⟨_, _, .look stop signal deadline⟩ =>
      let child := s.shared.kernel.child stop.child
      !((stop.look s.shared choice.fault).2 && decide (deadline ≤ choice.wake)) ||
        child.unreaped &&
          decide (child.life = .running ∨ signal ≠ .sigkill ∧ aliveAt deadline child.life)
    | _ => true
  | _ => true

theorem undisturbed_of_test (s : Sys) (a : Action) (h : undisturbed s a = true) :
    Undisturbed s a := by
  obtain ⟨hreap, hcase⟩ := Bool.and_eq_true_iff.mp h
  constructor
  · intro thread hthread k hblind s' hstep hunreaped
    have hthread := List.all_eq_true.mp hreap thread hthread
    simpa [hblind, hstep, hunreaped] using hthread
  · rintro thread hthread stop signal deadline wake hpoint hwake status rfl
    have hthread := List.all_eq_true.mp hcase thread hthread
    simpa [hpoint, hwake] using hthread
  · rintro index choice thread stop signal deadline rfl hindex hpoint hrunning hwake
    obtain ⟨name, restart, point⟩ := thread
    cases hpoint
    simpa [hindex, hrunning, hwake] using hcase

/-- A definition whose stop gives SIGINT less than the pause between two looks. -/
def hastyProcess : ProcessConfigs where
  names := ["a"]
  sorted := by decide
  config _ := { command := "sleep 30", sigintTimeout := 40000000 }

/-- The child outlives SIGINT, and SIGTERM is due. -/
def outlivesSigint : List Action :=
  [.loadConfig (.ok hastyProcess) fun _ ↦ none, .startProcess "a" {} { forked := .ok 10 },
    .stopProcess "a", .thread 0 {}, .thread 0 {}, .thread 0 {}, .thread 0 { wake := 50000000 },
    .monitorRound fun _ ↦ none, .tick 50000000, .thread 0 {}]

/-- The one stop there is has sent SIGINT and is about to send SIGTERM. -/
def sendsSigterm (s : Sys) : Bool :=
  match s.threads with
  | [⟨_, _, .signal _ .sigterm _⟩] => true
  | _ => false

theorem stop_safe_of_undisturbed_sigterm :
    ∃ s, (Reaches Sys.step Undisturbed Sys.Initial s ∧ ∃ thread stop expired,
      s.threads = [thread] ∧ thread.point = .signal stop .sigterm expired) ∧ StopSafe s := by
  have hrun :
      (execWith Sys.step undisturbed constructed outlivesSigint).any sendsSigterm = true := by
    decide +kernel
  obtain ⟨s, hreach, htest⟩ :=
    (Reaches.start constructed_initial).exists_of_execWith undisturbed_of_test hrun
  refine ⟨s, ⟨hreach, ?_⟩, stop_safe_of_undisturbed s hreach⟩
  unfold sendsSigterm at htest
  split at htest
  · rename_i name restart stop expired hthreads
    exact ⟨_, stop, expired, hthreads, rfl⟩
  · cases htest

/-- The child exits in the pause before the timeout, the monitor waits for it, and its id goes to a
process that is none of the manager's before the pause is over. -/
def reapedInPause : List Action :=
  [.loadConfig (.ok hastyProcess) fun _ ↦ none, .startProcess "a" {} { forked := .ok 10 },
    .stopProcess "a", .thread 0 {}, .thread 0 {}, .thread 0 {}, .thread 0 { wake := 50000000 },
    .tick 10000000, .childExits 0 (.signaled 2), .monitorRound fun _ ↦ none, .otherStarts 10,
    .tick 40000000, .thread 0 {}]

/-- The one stop there is is about to send SIGTERM to process 10, which is none of the manager's. -/
def signalsStranger (s : Sys) : Bool :=
  match s.threads with
  | [⟨_, _, .signal stop .sigterm _⟩] =>
    !(s.shared.kernel.child stop.child).unreaped &&
      decide (signalProcessGroup s.shared.kernel stop.pid = some (.other 10))
  | _ => false

/-- SIGTERM is sent to a process that has nothing to do with the one that is stopped. -/
theorem signal_after_reap : ¬∀ s, Reaches Sys.step anyAction Sys.Initial s → StopSafe s := by
  intro hclaim
  obtain ⟨s, hreach, htest⟩ := exists_of_exec reapedInPause signalsStranger (by decide +kernel)
  unfold signalsStranger at htest
  split at htest
  · rename_i name restart stop expired hthreads
    have hsafe := (hclaim s hreach).target _ (by rw [hthreads]; exact List.mem_singleton_self _)
      stop .sigterm expired rfl
    simp [hsafe.1] at htest
  · cases htest

end SlamSystemManager.ProcessManager
