import SlamSystemManager.ProcessManager.Groups

/-!
# The first and the last calls

`startAutoStartProcesses`, which the constructor of the system manager calls, and `stopAll`, which
the destructor of the process manager calls. Each takes the mutex many times, with the monitor, the
children and the clock going on in between. No other thread calls the manager meanwhile.
-/

namespace SlamSystemManager.ProcessManager

open Posix TransitionSystem

/-! ## What goes on beside them -/

/-- The monitor, the processes and the clock. -/
def Action.beside : Action → Bool
  | .monitorRound _ | .childExits _ _ | .memberStarts _ _ | .memberExits _ _ | .otherStarts _
  | .otherExits _ | .tick _ => true
  | _ => false

/-- No child is forked, and none that has been waited for comes back. -/
structure Dwindles (s s' : Shared) : Prop where
  count : s'.kernel.count = s.kernel.count
  tag : ∀ k, (s'.kernel.child k).tag = (s.kernel.child k).tag
  unreaped : ∀ k, (s'.kernel.child k).unreaped = true → (s.kernel.child k).unreaped = true

namespace Dwindles

variable {s s' s'' : Shared}

theorem refl (s : Shared) : Dwindles s s := ⟨rfl, fun _ ↦ rfl, fun _ ↦ id⟩

theorem latest (h : Dwindles s s') (name : String) :
    s'.kernel.latest name = s.kernel.latest name := by
  unfold Kernel.latest
  rw [h.count]
  exact Kernel.latestBelow_congr fun k _ ↦ h.tag k

theorem of_refreshed (h : Refreshed s s') : Dwindles s s' where
  count := h.count
  tag := h.tag
  unreaped k hk := by
    obtain hsame | ⟨status, since, -, hreaped⟩ := h.child k
    · rwa [hsame] at hk
    · rw [hreaped] at hk
      cases hk

theorem of_outside {exits : ℕ → WaitStatus → ℕ → Prop} {kernel : Kernel String}
    (h : Outside exits s.kernel kernel) : Dwindles s { s with kernel := kernel } :=
  ⟨h.count, h.tag, fun k hk ↦ (h.unreaped k).symm.trans hk⟩

end Dwindles

theorem dwindles_of_beside {s s' : Sys} (hsound : s.shared.Sound) {a : Action}
    (hbeside : a.beside = true) (hstep : s.step a = some s') :
    Dwindles s.shared s'.shared ∧ s'.threads = s.threads := by
  cases a with
  | monitorRound faults =>
    cases hstep
    exact ⟨.of_refreshed (hsound.refreshAll_moves faults fun _ hname ↦ hname).2, rfl⟩
  | childExits child status =>
    obtain ⟨kernel, hexit, rfl⟩ := Option.map_eq_some_iff.mp hstep
    have houtside : Outside (s.Exits (.childExits child status)) s.shared.kernel kernel :=
      .exit ⟨rfl, rfl⟩ hexit
    exact ⟨.of_outside houtside, rfl⟩
  | memberStarts child pid =>
    obtain ⟨kernel, hjoin, rfl⟩ := Option.map_eq_some_iff.mp hstep
    have houtside : Outside (s.Exits (.memberStarts child pid)) s.shared.kernel kernel :=
      .join hjoin
    exact ⟨.of_outside houtside, rfl⟩
  | memberExits child pid =>
    obtain ⟨kernel, hleave, rfl⟩ := Option.map_eq_some_iff.mp hstep
    have houtside : Outside (s.Exits (.memberExits child pid)) s.shared.kernel kernel :=
      .leave hleave
    exact ⟨.of_outside houtside, rfl⟩
  | otherStarts pid =>
    obtain ⟨kernel, hstart, rfl⟩ := Option.map_eq_some_iff.mp hstep
    have houtside : Outside (s.Exits (.otherStarts pid)) s.shared.kernel kernel :=
      .otherStarts hstart
    exact ⟨.of_outside houtside, rfl⟩
  | otherExits pid =>
    cases hstep
    have houtside : Outside (s.Exits (.otherExits pid)) s.shared.kernel
        (s.shared.kernel.otherExits pid) :=
      .otherExits s.shared.kernel pid
    exact ⟨.of_outside houtside, rfl⟩
  | tick duration =>
    simp only [Sys.step] at hstep
    split_ifs at hstep
    cases hstep
    exact ⟨.refl _, rfl⟩
  | _ => cases hbeside

/-! ## The automatic starts -/

/-- Where `startAutoStartProcesses` stands, with the calls of `startProcess` it has made as a
history variable. -/
structure AutoStart where
  sys : Sys
  pending : List String
  success : Bool := true
  combinedError : String := ""
  attempts : List (String × Except String Unit) := []

inductive AutoStartAction where
  | run (a : Action)
  | start (order : List (String × String)) (choice : Choice)

/-- The names its first section collects. -/
def autoStartNames (s : Shared) (excluded : List String) : List String :=
  s.table.names.filter fun name ↦
    (s.table.record name).config.autoStart && decide (name ∉ excluded)

def AutoStart.begin (s : Sys) (excluded : List String) : AutoStart :=
  { sys := s, pending := autoStartNames s.shared excluded }

/-- The accumulators after a call of `startProcess`. -/
def AutoStart.take (s : AutoStart) (name : String) : Except String Unit → AutoStart
  | .ok () => { s with attempts := s.attempts ++ [(name, .ok ())] }
  | .error what =>
    { s with
      success := false
      combinedError :=
        (if s.combinedError ≠ "" then s.combinedError ++ "; " else s.combinedError) ++ what
      attempts := s.attempts ++ [(name, .error what)] }

def AutoStart.step (s : AutoStart) : AutoStartAction → Option AutoStart
  | .run a =>
    if a.beside then (s.sys.step a).map fun sys ↦ { s with sys := sys } else none
  | .start order choice =>
    match s.pending with
    | [] => none
    | name :: pending =>
      (startProcess s.sys.shared name { order := order } choice.fault choice.forked).map
        fun started ↦
          AutoStart.take
            { s with sys := { s.sys with shared := started.1 }, pending := pending }
            name started.2

/-- The states of `startAutoStartProcesses` with some excluded names, called in a state of the
manager. -/
def AutoStarts (sys : Sys) (excluded : List String) (s : AutoStart) : Prop :=
  Reaches AutoStart.step anyAction (· = .begin sys excluded) s

namespace AutoStart

/-- The names for which `startProcess` has returned true, in the order of the calls. -/
def started (attempts : List (String × Except String Unit)) : List String :=
  attempts.filterMap fun attempt ↦
    match attempt.2 with
    | .ok () => some attempt.1
    | .error _ => none

/-- The errors of the calls of `startProcess`, in their order. -/
def errors (attempts : List (String × Except String Unit)) : List String :=
  attempts.filterMap fun attempt ↦
    match attempt.2 with
    | .ok () => none
    | .error what => some what

/-- No error text is empty, so that the separator follows every one but the last. -/
theorem error_ne_empty {s s' : Shared} {name what : String} {substitutions : Substitutions}
    {fault : Option WaitFault} {forked : ForkResult}
    (h : startProcess s name substitutions fault forked = some (s', .error what)) :
    what ≠ "" := by
  unfold startProcess at h
  split at h
  · cases h
    simp
  · dsimp only at h
    split at h
    · cases h
      simp
    · split at h
      · split at h
        · rename_i hexpand
          cases h
          unfold expandCommand at hexpand
          dsimp only at hexpand
          split at hexpand <;> cases hexpand
          simp
        · split at h
          · cases h
            simp
          · obtain ⟨kernel, -, hnone⟩ := Option.map_eq_some_iff.mp h
            cases hnone
      · cases h

/-- What has been collected is what the calls have returned, and the children forked since the
beginning are those of the successful calls. -/
structure Invariant (sys : Sys) (excluded : List String) (s : AutoStart) : Prop where
  sound : s.sys.shared.Sound
  names : s.attempts.map Prod.fst ++ s.pending = autoStartNames sys.shared excluded
  success : s.success = (errors s.attempts).isEmpty
  nonempty : ∀ what ∈ errors s.attempts, what ≠ ""
  combined : s.combinedError = "; ".intercalate (errors s.attempts)
  count : s.sys.shared.kernel.count = sys.shared.kernel.count + (started s.attempts).length
  forked : ∀ i (h : i < (started s.attempts).length),
    (s.sys.shared.kernel.child (sys.shared.kernel.count + i)).tag = (started s.attempts)[i]

theorem Invariant.run {sys sys' : Sys} {excluded : List String} {s : AutoStart} {a : Action}
    (h : Invariant sys excluded s) (hbeside : a.beside = true)
    (hstep : s.sys.step a = some sys') : Invariant sys excluded { s with sys := sys' } := by
  obtain ⟨hdwindles, -⟩ := dwindles_of_beside h.sound hbeside hstep
  exact ⟨Sys.sound_step h.sound hstep, h.names, h.success, h.nonempty, h.combined,
    hdwindles.count.trans h.count, fun i hi ↦ (hdwindles.tag _).trans (h.forked i hi)⟩

theorem combined_error {errors : List String} {what : String}
    (hnonempty : ∀ what ∈ errors, what ≠ "") :
    (if "; ".intercalate errors ≠ "" then "; ".intercalate errors ++ "; "
      else "; ".intercalate errors) ++ what = "; ".intercalate (errors ++ [what]) := by
  cases errors with
  | nil => simp
  | cons first rest =>
    have hfirst := hnonempty first (by simp)
    have hne : "; ".intercalate (first :: rest) ≠ "" := by
      cases rest with
      | nil => simpa using hfirst
      | cons second rest => simp [String.intercalate_cons_cons]
    rw [if_pos hne, String.intercalate_append_of_ne_nil (by simp) (by simp),
      String.intercalate_singleton]

theorem Invariant.start {sys : Sys} {excluded : List String} {s s' : AutoStart}
    {order : List (String × String)} {choice : Choice} (h : Invariant sys excluded s)
    (hstep : s.step (.start order choice) = some s') : Invariant sys excluded s' := by
  simp only [AutoStart.step] at hstep
  split at hstep
  · cases hstep
  · rename_i name pending hpending
    obtain ⟨⟨shared, result⟩, hstart, rfl⟩ := Option.map_eq_some_iff.mp hstep
    have hsound := h.sound.moves (h.sound.startProcess_moves hstart)
    have hnames : (s.attempts ++ [(name, result)]).map Prod.fst ++ pending =
        autoStartNames sys.shared excluded := by
      rw [← h.names, hpending]
      simp
    rcases h.sound.startProcess_cases hstart with ⟨what, rfl, -, hrefreshed⟩ |
      ⟨middle, pid, kernel, rfl, -, -, -, hrefreshed, -, hfork, rfl⟩
    · have hdwindles := Dwindles.of_refreshed hrefreshed
      have herrors : errors (s.attempts ++ [(name, .error what)]) =
          errors s.attempts ++ [what] := by
        simp [errors]
      have hstarted : started (s.attempts ++ [(name, .error what)]) = started s.attempts := by
        simp [started]
      refine ⟨hsound, hnames, ?_, ?_, ?_, ?_, ?_⟩
      · simp [take, herrors]
      · intro other hother
        simp only [take, herrors, List.mem_append, List.mem_singleton] at hother
        rcases hother with hother | rfl
        · exact h.nonempty other hother
        · exact error_ne_empty hstart
      · simp only [take, herrors, h.combined]
        exact combined_error h.nonempty
      · simp only [take, hstarted]
        exact hdwindles.count.trans h.count
      · simp only [take, hstarted]
        exact fun i hi ↦ (hdwindles.tag _).trans (h.forked i hi)
    · have hdwindles := Dwindles.of_refreshed hrefreshed
      obtain ⟨hcount, hnew, hold⟩ := Kernel.fork_eq_some hfork
      have herrors : errors (s.attempts ++ [(name, .ok ())]) = errors s.attempts := by
        simp [errors]
      have hstarted : started (s.attempts ++ [(name, .ok ())]) =
          started s.attempts ++ [name] := by
        simp [started]
      have hbefore : middle.kernel.count =
          sys.shared.kernel.count + (started s.attempts).length :=
        hdwindles.count.trans h.count
      refine ⟨hsound, hnames, ?_, ?_, ?_, ?_, ?_⟩
      · simpa [take, herrors] using h.success
      · simpa [take, herrors] using h.nonempty
      · simpa [take, herrors] using h.combined
      · simp only [take, hstarted, List.length_append, List.length_singleton]
        rw [hcount, hbefore, Nat.add_assoc]
      · simp only [take, hstarted]
        intro i hi
        rw [List.length_append, List.length_singleton] at hi
        rcases Nat.lt_succ_iff_lt_or_eq.mp hi with hlt | rfl
        · rw [hold _ (by omega), hdwindles.tag, h.forked i hlt]
          simp [List.getElem_append_left hlt]
        · rw [← hbefore, hnew]
          simp

theorem Invariant.step {sys : Sys} {excluded : List String} {s s' : AutoStart}
    {a : AutoStartAction} (h : Invariant sys excluded s) (hstep : s.step a = some s') :
    Invariant sys excluded s' := by
  cases a with
  | run a =>
    simp only [AutoStart.step] at hstep
    split_ifs at hstep with hbeside
    obtain ⟨sys', hsys, rfl⟩ := Option.map_eq_some_iff.mp hstep
    exact h.run hbeside hsys
  | start order choice => exact h.start hstep

end AutoStart

/-- When `startAutoStartProcesses` has come to its end, it has called `startProcess` for every name
with `auto_start` that is not excluded, in the order of the names; it returns true exactly when all
of them have been started, the text it gives joins the errors of the others, and the children forked
meanwhile are those of the names started, in their order. -/
theorem auto_start_exact (sys : Sys) (hreach : Reaches Sys.step anyAction Sys.Initial sys)
    (excluded : List String) (s : AutoStart) (h : AutoStarts sys excluded s)
    (hpending : s.pending = []) :
    s.attempts.map Prod.fst = autoStartNames sys.shared excluded ∧
      (s.success = true ↔ ∀ attempt ∈ s.attempts, attempt.2 = .ok ()) ∧
      s.combinedError = "; ".intercalate (AutoStart.errors s.attempts) ∧
      (List.range (s.sys.shared.kernel.count - sys.shared.kernel.count)).map
          (fun i ↦ (s.sys.shared.kernel.child (sys.shared.kernel.count + i)).tag) =
        AutoStart.started s.attempts := by
  have hinvariant : AutoStart.Invariant sys excluded s := by
    refine h.invariant (fun s hinit ↦ ?_) fun s a s' hs _ hstep ↦ hs.step hstep
    rw [hinit]
    exact ⟨Sys.sound_of_reaches hreach, rfl, rfl, by simp [AutoStart.begin, AutoStart.errors],
      rfl, rfl, fun i hi ↦ by simp [AutoStart.begin, AutoStart.started] at hi⟩
  refine ⟨?_, ?_, hinvariant.combined, ?_⟩
  · have hnames := hinvariant.names
    rwa [hpending, List.append_nil] at hnames
  · rw [hinvariant.success, List.isEmpty_iff, AutoStart.errors, List.filterMap_eq_nil_iff]
    refine forall₂_congr fun attempt _ ↦ ?_
    split <;> simp_all
  · rw [hinvariant.count, Nat.add_sub_cancel_left]
    apply List.ext_getElem
    · simp
    · intro i hi hi'
      simpa using hinvariant.forked i hi'

/-- Three definitions, two of which are started automatically. -/
def autoStarted : ProcessConfigs where
  names := ["a", "b", "c"]
  sorted := by decide
  config name := { command := "sleep 30", autoStart := decide (name ≠ "b") }

/-- The last of the automatic starts fails. -/
def startAutomatically : List AutoStartAction :=
  [.start [] { forked := .ok 10 }, .run (.childExits 0 (.signaled 2)),
    .start [] { forked := .error "Resource temporarily unavailable" }]

theorem auto_start_exact_failed :
    ∃ sys s, AutoStarts sys [] s ∧ s.success = false ∧
      s.attempts.map Prod.fst = autoStartNames sys.shared [] ∧
      s.combinedError = "; ".intercalate (AutoStart.errors s.attempts) ∧
      (List.range (s.sys.shared.kernel.count - sys.shared.kernel.count)).map
          (fun i ↦ (s.sys.shared.kernel.child (sys.shared.kernel.count + i)).tag) =
        AutoStart.started s.attempts := by
  have hstarted : (exec Sys.step constructed [.loadConfig (.ok autoStarted) fun _ ↦ none]).any
      (fun sys ↦ (exec AutoStart.step (.begin sys []) startAutomatically).any fun s ↦
        s.pending.isEmpty && !s.success) = true := by decide +kernel
  obtain ⟨sys, hrun, hcalled⟩ := (Option.any_eq_true _ _).mp hstarted
  have hreach := (Reaches.start constructed_initial).steps (steps_of_exec hrun)
  have hbegin : AutoStarts sys [] (.begin sys []) := .start rfl
  obtain ⟨s, hs, hend⟩ := hbegin.exists_of_exec hcalled
  simp only [Bool.and_eq_true, List.isEmpty_iff, Bool.not_eq_true'] at hend
  obtain ⟨hnames, -, hcombined, hforked⟩ := auto_start_exact sys hreach [] s hs hend.1
  exact ⟨sys, s, hs, hend.2, hnames, hcombined, hforked⟩

/-! ## The destructor -/

/-- Where `stopAll` stands in the destructor: the names it has still to look at, the place of the
thread whose `stopProcess` it is in, and what it has logged. -/
structure Destruction where
  sys : Sys
  pending : List String
  stopping : Option ℕ := none
  logged : List String := []

/-- `look` is `isProcessRunning` for the next name, with the call of `stopProcess`. -/
inductive DestructionAction where
  | run (a : Action)
  | look (choice : Choice)
  | stop (choice : Choice)
  | returns

/-- The destructor begins `stopAll` with the names of the table. -/
def Destruction.begin (s : Sys) : Destruction := { sys := s, pending := s.shared.table.names }

def Destruction.step (s : Destruction) : DestructionAction → Option Destruction
  | .run a =>
    if a.beside then (s.sys.step a).map fun sys ↦ { s with sys := sys } else none
  | .look choice =>
    match s.stopping, s.pending with
    | none, name :: pending =>
      (s.sys.step (.isProcessRunning name choice)).bind fun sys ↦
        if (isProcessRunning s.sys.shared name choice.fault).2 then
          (sys.step (.stopProcess name)).map fun sys' ↦
            { s with sys := sys', pending := pending, stopping := some sys.threads.length }
        else some { s with sys := sys, pending := pending }
    | _, _ => none
  | .stop choice =>
    s.stopping.bind fun index ↦
      (s.sys.step (.thread index choice)).map fun sys ↦ { s with sys := sys }
  | .returns =>
    s.stopping.bind fun index ↦ (s.sys.threads[index]?).bind fun thread ↦
      match thread.point with
      | .returned (.ok ()) => some { s with stopping := none }
      | .returned (.error what) =>
        some { s with stopping := none, logged := s.logged ++ [what] }
      | _ => none

/-- The states of a destructor that is called in some state of the manager. -/
def Destroys (s : Destruction) : Prop :=
  Reaches Destruction.step anyAction
    (fun s ↦ ∃ sys, Reaches Sys.step anyAction Sys.Initial sys ∧ s = .begin sys) s

/-- The message of a stop that has failed. -/
def unreapable (name : String) : String := "Process could not be reaped after SIGKILL: " ++ name

namespace Destruction

/-- Every child of a name has been waited for. -/
def Reaped (s : Shared) (name : String) : Prop :=
  ∀ k, k < s.kernel.count → (s.kernel.child k).tag = name → (s.kernel.child k).unreaped = false

theorem Reaped.dwindles {s s' : Shared} {name : String} (h : Reaped s name)
    (hstep : Dwindles s s') : Reaped s' name := by
  intro k hk htag
  by_contra hunreaped
  rw [Bool.not_eq_false] at hunreaped
  have hbefore := h k (hstep.count ▸ hk) (hstep.tag k ▸ htag)
  rw [hstep.unreaped k hunreaped] at hbefore
  cases hbefore

/-- Where the stop of a name stands. -/
def Stopping (s : Shared) (name : String) : Point → Prop
  | .lookup => True
  | .signal stop _ _ | .clock stop _ | .look stop _ _ | .pause stop _ _ _ =>
    stop.name = name ∧ s.kernel.latest name = some stop.child
  | .returned (.ok ()) => Reaped s name
  | .returned (.error what) => what = unreapable name ∨ Reaped s name
  | .running | .start => False

theorem Stopping.dwindles {s s' : Shared} {name : String} {point : Point}
    (h : Stopping s name point) (hstep : Dwindles s s') : Stopping s' name point := by
  have hlatest := hstep.latest name
  cases point with
  | signal | clock | look | pause => exact ⟨h.1, hlatest.trans h.2⟩
  | returned result =>
    cases result with
    | error what => exact h.imp id fun hreaped ↦ hreaped.dwindles hstep
    | ok value => exact Reaped.dwindles h hstep
  | lookup | running | start => exact h

/-- A section that finds the process of a name not running leaves none of its children. -/
theorem reaped_of_isProcessRunning {s : Shared} (hsound : s.Sound) {name : String}
    {fault : Option WaitFault} (hfalse : (isProcessRunning s name fault).2 = false) :
    Reaped (isProcessRunning s name fault).1 name :=
  fun _ hk htag ↦ hsound.reaped_of_notRunning hfalse hk htag

/-- The child a stop is for was the latest of its name, and no later one has been forked. -/
theorem reaped_of_look {s : Shared} (hsound : s.Sound) {stop : Stop}
    (hlatest : s.kernel.latest stop.name = some stop.child) (hknows : stop.Knows s.kernel)
    {fault : Option WaitFault} (hfalse : (stop.look s fault).2 = false) :
    Reaped (stop.look s fault).1 stop.name := by
  intro k hk htag
  have hmoves := hsound.look_moves stop fault
  have hreaped := hsound.reaped_of_look_false hknows hfalse
  by_contra hunreaped
  rw [Bool.not_eq_false] at hunreaped
  have howned := ((hsound.moves hmoves.1).owned k hk hunreaped).2.1
  rw [htag, hmoves.2.latest, hlatest] at howned
  cases howned
  rw [hreaped] at hunreaped
  cases hunreaped

/-- A step of `stopProcess`. -/
theorem stopping_step {now : ℕ} {s s' : Shared} (hsound : s.Sound) {choice : Choice}
    {thread : Thread} {point : Point} (hplain : thread.restart = none)
    (hknows : ∀ stop, thread.point.stop? = some stop → stop.Knows s.kernel)
    (h : Stopping s thread.name thread.point)
    (hstep : thread.step now s choice = some (s', point)) :
    Dwindles s s' ∧ Stopping s' thread.name point := by
  unfold Thread.step at hstep
  cases hpoint : thread.point with
  | running | start =>
    rw [hpoint] at h
    exact h.elim
  | lookup =>
    simp only [hpoint, ProcessTable.find?] at hstep
    by_cases hname : thread.name ∈ s.table.names
    · obtain ⟨-, hrefreshed, -⟩ := hsound.refresh_moves hname choice.fault
      simp only [hname, if_true] at hstep
      split_ifs at hstep with hrunning
      · obtain ⟨hsame, k, hfound, hk, htag, -, hunreaped⟩ := hsound.lookup_knows hname hrunning
        rw [hsame, hfound] at hstep
        cases hstep
        exact ⟨.refl s, rfl, htag ▸ (hsound.owned k hk hunreaped).2.1⟩
      · cases hstep
        rw [Bool.not_eq_true] at hrunning
        exact ⟨.of_refreshed hrefreshed, Or.inr fun k hk htag ↦
          hsound.reaped_of_refresh_false hname hrunning hk htag⟩
    · simp only [hname, if_false] at hstep
      cases hstep
      exact ⟨.refl s, Or.inr fun k hk htag ↦ hsound.reaped_of_notMem hname hk htag⟩
  | signal stop signal expired | clock stop signal =>
    simp only [hpoint] at hstep h
    cases hstep
    exact ⟨.refl s, h⟩
  | look stop signal deadline =>
    simp only [hpoint] at hstep h
    split_ifs at hstep with hrunning
    · cases hstep
      rw [hsound.look_true hrunning]
      exact ⟨.refl s, h⟩
    · cases hstep
      rw [Bool.not_eq_true] at hrunning
      obtain ⟨hname, hlatest⟩ := h
      have hreaped := reaped_of_look hsound (hname ▸ hlatest)
        (hknows stop (by rw [hpoint]; rfl)) hrunning
      rw [hname] at hreaped
      refine ⟨.of_refreshed (hsound.look_moves stop choice.fault).2, ?_⟩
      rw [Thread.stopped, hplain]
      exact hreaped
  | pause stop signal deadline wake =>
    simp only [hpoint] at hstep h
    split_ifs at hstep
    · cases hstep
      exact ⟨.refl s, h⟩
    · cases signal
      · cases hstep
        exact ⟨.refl s, h⟩
      · cases hstep
        exact ⟨.refl s, h⟩
      · cases hstep
        exact ⟨.refl s, Or.inl rfl⟩
  | returned result => simp [hpoint] at hstep

/-! ## Every run of the destructor -/

/-- What the destructor has still to do for a child. -/
def Remains (s : Destruction) (name : String) : Prop :=
  name ∈ s.pending ∨
    (∃ index thread, s.stopping = some index ∧ s.sys.threads[index]? = some thread ∧
      thread.name = name) ∨
    unreapable name ∈ s.logged

structure Invariant (s : Destruction) : Prop where
  reaches : Reaches Sys.step anyAction Sys.Initial s.sys
  left : ∀ k, k < s.sys.shared.kernel.count →
    (s.sys.shared.kernel.child k).unreaped = true →
      s.Remains (s.sys.shared.kernel.child k).tag
  stops : ∀ index, s.stopping = some index → ∃ thread, s.sys.threads[index]? = some thread ∧
    thread.restart = none ∧ Stopping s.sys.shared thread.name thread.point

theorem Invariant.run {s : Destruction} {sys : Sys} {a : Action} (h : s.Invariant)
    (hbeside : a.beside = true) (hstep : s.sys.step a = some sys) :
    Invariant { s with sys := sys } := by
  obtain ⟨hdwindles, hthreads⟩ :=
    dwindles_of_beside (Sys.sound_of_reaches h.reaches) hbeside hstep
  refine ⟨h.reaches.tail trivial hstep, fun k hk hunreaped ↦ ?_, fun index hindex ↦ ?_⟩
  · have hremains := h.left k (hdwindles.count ▸ hk) (hdwindles.unreaped k hunreaped)
    simpa [Remains, hthreads, hdwindles.tag k] using hremains
  · obtain ⟨thread, hthread, hplain, hstopping⟩ := h.stops index hindex
    exact ⟨thread, by rw [hthreads, hthread], hplain, hstopping.dwindles hdwindles⟩

theorem Invariant.look {s s' : Destruction} {choice : Choice} (h : s.Invariant)
    (hstep : s.step (.look choice) = some s') : s'.Invariant := by
  have hsound := Sys.sound_of_reaches h.reaches
  simp only [step] at hstep
  split at hstep
  · rename_i name pending hstopping hpending
    obtain ⟨sys, hlook, hnext⟩ := Option.bind_eq_some_iff.mp hstep
    have hreaches := h.reaches.tail trivial hlook
    cases hlook
    have hdwindles := Dwindles.of_refreshed (hsound.isProcessRunning_moves name choice.fault).2
    -- of the names before it only this one is dealt with
    have hleft (k : ℕ) (hk : k < (isProcessRunning s.sys.shared name choice.fault).1.kernel.count)
        (hunreaped : ((isProcessRunning s.sys.shared name choice.fault).1.kernel.child k).unreaped =
          true) :
        ((isProcessRunning s.sys.shared name choice.fault).1.kernel.child k).tag = name ∨
          ((isProcessRunning s.sys.shared name choice.fault).1.kernel.child k).tag ∈ pending ∨
          unreapable ((isProcessRunning s.sys.shared name choice.fault).1.kernel.child k).tag ∈
            s.logged := by
      have hremains := h.left k (hdwindles.count ▸ hk) (hdwindles.unreaped k hunreaped)
      rw [hdwindles.tag k]
      simpa [Remains, hstopping, hpending, or_assoc] using hremains
    split_ifs at hnext with hrunning
    · obtain ⟨sys', hcall, rfl⟩ := Option.map_eq_some_iff.mp hnext
      have hreaches' := hreaches.tail trivial hcall
      cases hcall
      refine ⟨hreaches', fun k hk hunreaped ↦ ?_, fun index hindex ↦ ?_⟩
      · rcases hleft k hk hunreaped with hname | hwaits | hlogged
        · exact Or.inr (Or.inl ⟨_, ⟨name, none, .lookup⟩, rfl, by simp, hname.symm⟩)
        · exact Or.inl hwaits
        · exact Or.inr (Or.inr hlogged)
      · cases hindex
        exact ⟨⟨name, none, .lookup⟩, by simp, rfl, trivial⟩
    · cases hnext
      rw [Bool.not_eq_true] at hrunning
      refine ⟨hreaches, fun k hk hunreaped ↦ ?_, fun index hindex ↦ ?_⟩
      · rcases hleft k hk hunreaped with hname | hwaits | hlogged
        · have hreaped := reaped_of_isProcessRunning hsound hrunning k hk hname
          rw [hunreaped] at hreaped
          cases hreaped
        · exact Or.inl hwaits
        · exact Or.inr (Or.inr hlogged)
      · rw [hstopping] at hindex
        cases hindex
  · cases hstep

theorem Invariant.stop {s s' : Destruction} {choice : Choice} (h : s.Invariant)
    (hstep : s.step (.stop choice) = some s') : s'.Invariant := by
  have hsound := Sys.sound_of_reaches h.reaches
  obtain ⟨index, hindex, hnext⟩ := Option.bind_eq_some_iff.mp hstep
  obtain ⟨sys, hsys, rfl⟩ := Option.map_eq_some_iff.mp hnext
  obtain ⟨thread, hthread, hplain, hstopping⟩ := h.stops index hindex
  have hreaches := h.reaches.tail trivial hsys
  simp only [Sys.step, hthread] at hsys
  obtain ⟨⟨shared, point⟩, hpoint, rfl⟩ := Option.map_eq_some_iff.mp hsys
  have hknows := Sys.tracks_of_reaches h.reaches thread (List.mem_of_getElem? hthread)
  obtain ⟨hdwindles, hstopping'⟩ := stopping_step hsound hplain hknows hstopping hpoint
  have hset : (s.sys.threads.set index { thread with point := point })[index]? =
      some { thread with point := point } := by
    rw [List.getElem?_set_self (List.getElem?_eq_some_iff.mp hthread).1]
  refine ⟨hreaches, fun k hk hunreaped ↦ ?_, fun other hother ↦ ?_⟩
  · have hremains := h.left k (hdwindles.count ▸ hk) (hdwindles.unreaped k hunreaped)
    rw [show (shared.kernel.child k).tag = _ from hdwindles.tag k]
    rcases hremains with hwaits | ⟨other, stopped, hother, hstopped, hname⟩ | hlogged
    · exact Or.inl hwaits
    · cases hindex.symm.trans hother
      cases hthread.symm.trans hstopped
      exact Or.inr (Or.inl ⟨index, _, hindex, hset, hname⟩)
    · exact Or.inr (Or.inr hlogged)
  · cases hindex.symm.trans hother
    exact ⟨_, hset, hplain, hstopping'⟩

theorem Invariant.returns {s s' : Destruction} (h : s.Invariant)
    (hstep : s.step .returns = some s') : s'.Invariant := by
  obtain ⟨index, hindex, hnext⟩ := Option.bind_eq_some_iff.mp hstep
  obtain ⟨thread, hthread, hplain, hstopping⟩ := h.stops index hindex
  simp only [hthread, Option.bind_some] at hnext
  -- what is left of the stop is in the log
  have hleft (k : ℕ) (hk : k < s.sys.shared.kernel.count)
      (hunreaped : (s.sys.shared.kernel.child k).unreaped = true) :
      (s.sys.shared.kernel.child k).tag ∈ s.pending ∨
        (s.sys.shared.kernel.child k).tag = thread.name ∨
        unreapable (s.sys.shared.kernel.child k).tag ∈ s.logged := by
    rcases h.left k hk hunreaped with hwaits | ⟨other, stopped, hother, hstopped, hname⟩ | hlogged
    · exact Or.inl hwaits
    · cases hindex.symm.trans hother
      cases hthread.symm.trans hstopped
      exact Or.inr (Or.inl hname.symm)
    · exact Or.inr (Or.inr hlogged)
  have hgone (hreaped : Reaped s.sys.shared thread.name) (k : ℕ)
      (hk : k < s.sys.shared.kernel.count)
      (hunreaped : (s.sys.shared.kernel.child k).unreaped = true) :
      (s.sys.shared.kernel.child k).tag ≠ thread.name := by
    intro hname
    rw [hreaped k hk hname] at hunreaped
    cases hunreaped
  split at hnext
  · rename_i hpoint
    cases hnext
    rw [hpoint] at hstopping
    refine ⟨h.reaches, fun k hk hunreaped ↦ ?_, by simp⟩
    rcases hleft k hk hunreaped with hwaits | hname | hlogged
    · exact Or.inl hwaits
    · exact absurd hname (hgone hstopping k hk hunreaped)
    · exact Or.inr (Or.inr hlogged)
  · rename_i what hpoint
    cases hnext
    rw [hpoint] at hstopping
    refine ⟨h.reaches, fun k hk hunreaped ↦ ?_, by simp⟩
    rcases hleft k hk hunreaped with hwaits | hname | hlogged
    · exact Or.inl hwaits
    · rcases hstopping with rfl | hreaped
      · exact Or.inr (Or.inr (by simp [hname]))
      · exact absurd hname (hgone hreaped k hk hunreaped)
    · exact Or.inr (Or.inr (by simp [hlogged]))
  · cases hnext

theorem Invariant.step {s s' : Destruction} {a : DestructionAction} (h : s.Invariant)
    (hstep : s.step a = some s') : s'.Invariant := by
  cases a with
  | run a =>
    simp only [Destruction.step] at hstep
    split_ifs at hstep with hbeside
    obtain ⟨sys, hsys, rfl⟩ := Option.map_eq_some_iff.mp hstep
    exact h.run hbeside hsys
  | look choice => exact h.look hstep
  | stop choice => exact h.stop hstep
  | returns => exact h.returns hstep

theorem invariant_begin {sys : Sys} (h : Reaches Sys.step anyAction Sys.Initial sys) :
    Invariant (begin sys) :=
  ⟨h, fun k hk hunreaped ↦ Or.inl ((Sys.sound_of_reaches h).owned k hk hunreaped).1,
    fun index hindex ↦ by cases hindex⟩

end Destruction

/-- When `stopAll` has come to its end in the destructor, every child ever forked has been waited
for, unless the log says that it could not be. -/
theorem destruction_leaves_no_child (s : Destruction) (h : Destroys s) (hpending : s.pending = [])
    (hstopping : s.stopping = none) (k : ℕ) (hk : k < s.sys.shared.kernel.count) :
    (s.sys.shared.kernel.child k).unreaped = false ∨
      unreapable (s.sys.shared.kernel.child k).tag ∈ s.logged := by
  have hinvariant : s.Invariant := by
    refine h.invariant (fun s hinit ↦ ?_) fun s a s' hs _ hstep ↦ hs.step hstep
    obtain ⟨sys, hreach, rfl⟩ := hinit
    exact Destruction.invariant_begin hreach
  cases hunreaped : (s.sys.shared.kernel.child k).unreaped with
  | false => exact Or.inl rfl
  | true =>
    rcases hinvariant.left k hk hunreaped with hwaits | ⟨index, thread, hindex, -⟩ | hlogged
    · rw [hpending] at hwaits
      cases hwaits
    · rw [hstopping] at hindex
      cases hindex
    · exact Or.inr hlogged

/-- A signal is sent and its time passes. -/
def outlives (wake duration : ℕ) : List DestructionAction :=
  [.stop {}, .stop {}, .stop { wake := wake }, .run (.tick duration), .stop {}]

/-- Of two processes the first exits after SIGINT, and the second outlives every signal. -/
def destroyBoth : List DestructionAction :=
  [.look {}, .stop {}, .stop {}, .stop {}, .run (.childExits 0 (.signaled 2)), .stop {}, .returns,
    .look {}, .stop {}] ++ outlives 5000000000 5000000000 ++ outlives 7000000000 2000000000 ++
    outlives 9000000000 2000000000 ++ [.returns]

theorem destruction_leaves_no_child_both :
    ∃ s, Destroys s ∧ s.pending = [] ∧ s.stopping = none ∧ s.sys.shared.kernel.count = 2 ∧
      ∀ k, k < 2 → (s.sys.shared.kernel.child k).unreaped = false ∨
        unreapable (s.sys.shared.kernel.child k).tag ∈ s.logged := by
  have hstarted : (exec Sys.step constructed (startBoth.take 3)).any
      (fun sys ↦ (exec Destruction.step (.begin sys) destroyBoth).any fun s ↦
        s.pending.isEmpty && s.stopping.isNone && decide (s.sys.shared.kernel.count = 2)) =
      true := by decide +kernel
  obtain ⟨sys, hrun, hdestroyed⟩ := (Option.any_eq_true _ _).mp hstarted
  have hreach := (Reaches.start constructed_initial).steps (steps_of_exec hrun)
  have hbegin : Destroys (.begin sys) := .start ⟨sys, hreach, rfl⟩
  obtain ⟨s, hs, hend⟩ := hbegin.exists_of_exec hdestroyed
  simp only [Bool.and_eq_true, List.isEmpty_iff, Option.isNone_iff_eq_none,
    decide_eq_true_eq] at hend
  obtain ⟨⟨hpending, hstopping⟩, hcount⟩ := hend
  exact ⟨s, hs, hpending, hstopping, hcount, fun k hk ↦
    destruction_leaves_no_child s hs hpending hstopping k (hcount ▸ hk)⟩

end SlamSystemManager.ProcessManager
