import Mathlib.Data.Nat.Notation
import Mathlib.Logic.Function.Basic
import Mathlib.Tactic.SplitIfs
import SlamSystemManager.Library.TransitionSystem

/-!
# Files that are replaced whole

A file is replaced by writing a temporary file next to it and renaming that. `replace` is one such
write with the place where it fails. Below it the writers of a directory take their steps in any
order, and the process they belong to may end at any of them and be started again under another
process id, which the names of the temporary files carry. What holds of every document that is
written holds of the files at every moment.
-/

namespace Replacement

open TransitionSystem

/-- The entries of a directory, by their names. -/
abbrev Files (γ : Type*) := String → Option γ

variable {ι γ : Type*}

/-! ## One write -/

/-- Where a write fails; one that fails within the temporary file has left something in it. -/
inductive Fault (γ : Type*) where
  | serialize
  | openTemporary
  | write (left : γ)
  | rename (what : String)

/-- The files after a write, and how it has failed. -/
def replace (temporary target : String) (fault : Option (Fault γ)) (contents : γ)
    (files : Files γ) : Files γ × Option (Fault γ) :=
  match fault with
  | some .serialize => (files, fault)
  | some .openTemporary => (files, fault)
  | some (.write left) => (Function.update files temporary (some left), fault)
  | some (.rename _) =>
    (Function.update (Function.update files temporary (some contents)) temporary none, fault)
  | none =>
    (Function.update (Function.update files target (some contents)) temporary none, none)

theorem replace_target {temporary target : String} (h : target ≠ temporary)
    (fault : Option (Fault γ)) (contents : γ) (files : Files γ) :
    (replace temporary target fault contents files).1 target =
      if fault.isNone then some contents else files target := by
  rcases fault with _ | _ | _ | _ | _ <;> simp [replace, h]

theorem replace_other {temporary target file : String} (htarget : file ≠ target)
    (htemporary : file ≠ temporary) (fault : Option (Fault γ)) (contents : γ) (files : Files γ) :
    (replace temporary target fault contents files).1 file = files file := by
  rcases fault with _ | _ | _ | _ | _ <;> simp [replace, htarget, htemporary]

/-! ## Writers that share a directory -/

/-- The file that each writer replaces, and its temporary file under a process id. -/
structure Layout (ι : Type*) where
  target : ι → String
  temporary : ℕ → ι → String
  target_injective : Function.Injective target
  temporary_injective : ∀ pid, Function.Injective (temporary pid)
  target_ne_temporary : ∀ i pid j, target i ≠ temporary pid j

inductive Stage (γ : Type*) where
  | idle
  | writing (contents : γ)
  | written (contents : γ)
  /-- The rename has failed and the temporary file is to be removed. -/
  | refused

structure State (ι γ : Type*) where
  files : Files γ
  stage : ι → Stage γ
  pid : ℕ

/-- What is in a temporary file before it is complete is anything. -/
inductive Action (ι γ : Type*) where
  | openTemporary (i : ι) (contents left : γ)
  | write (i : ι) (left : γ)
  | complete (i : ι)
  | abandon (i : ι)
  | rename (i : ι)
  | renameFails (i : ι)
  | remove (i : ι)
  | restart (pid : ℕ)

variable [DecidableEq ι]

def State.move (s : State ι γ) (i : ι) (stage : Stage γ) (files : Files γ) : State ι γ :=
  { s with files := files, stage := Function.update s.stage i stage }

def step (layout : Layout ι) (s : State ι γ) : Action ι γ → Option (State ι γ)
  | .openTemporary i contents left =>
    match s.stage i with
    | .idle => some (s.move i (.writing contents)
        (Function.update s.files (layout.temporary s.pid i) (some left)))
    | _ => none
  | .write i left =>
    match s.stage i with
    | .writing contents => some (s.move i (.writing contents)
        (Function.update s.files (layout.temporary s.pid i) (some left)))
    | _ => none
  | .complete i =>
    match s.stage i with
    | .writing contents => some (s.move i (.written contents)
        (Function.update s.files (layout.temporary s.pid i) (some contents)))
    | _ => none
  | .abandon i =>
    match s.stage i with
    | .writing _ => some (s.move i .idle s.files)
    | _ => none
  | .rename i =>
    match s.stage i with
    | .written _ => some (s.move i .idle
        (Function.update (Function.update s.files (layout.target i)
          (s.files (layout.temporary s.pid i))) (layout.temporary s.pid i) none))
    | _ => none
  | .renameFails i =>
    match s.stage i with
    | .written _ => some (s.move i .refused s.files)
    | _ => none
  | .remove i =>
    match s.stage i with
    | .refused => some (s.move i .idle
        (Function.update s.files (layout.temporary s.pid i) none))
    | _ => none
  | .restart pid => some { s with stage := fun _ ↦ .idle, pid := pid }

/-- The documents that are written are of the kind of their writer. -/
def Writes (kind : ι → γ → Prop) (_ : State ι γ) : Action ι γ → Prop
  | .openTemporary i contents _ => kind i contents
  | _ => True

/-- Every writer is idle. -/
def Begins (files : Files γ) (s : State ι γ) : Prop := s.files = files ∧ ∀ i, s.stage i = .idle

/-- Documents that are on their way to their files. -/
structure Pending (layout : Layout ι) (kind : ι → γ → Prop) (s : State ι γ) : Prop where
  writing : ∀ i contents, s.stage i = .writing contents → kind i contents
  written : ∀ i contents, s.stage i = .written contents →
    kind i contents ∧ s.files (layout.temporary s.pid i) = some contents

variable {layout : Layout ι} {kind : ι → γ → Prop}

@[simp]
theorem move_files (s : State ι γ) (i : ι) (stage : Stage γ) (files : Files γ) :
    (s.move i stage files).files = files := rfl

@[simp]
theorem move_pid (s : State ι γ) (i : ι) (stage : Stage γ) (files : Files γ) :
    (s.move i stage files).pid = s.pid := rfl

@[simp]
theorem move_stage_self (s : State ι γ) (i : ι) (stage : Stage γ) (files : Files γ) :
    (s.move i stage files).stage i = stage := Function.update_self ..

theorem move_stage_of_ne (s : State ι γ) {i j : ι} (h : j ≠ i) (stage : Stage γ)
    (files : Files γ) : (s.move i stage files).stage j = s.stage j := Function.update_of_ne h ..

/-- A writer moves on and leaves the temporary files of the others alone. -/
theorem Pending.move {s : State ι γ} (h : Pending layout kind s) {i : ι} {stage : Stage γ}
    {files : Files γ}
    (hothers : ∀ j, j ≠ i → files (layout.temporary s.pid j) = s.files (layout.temporary s.pid j))
    (hwriting : ∀ contents, stage = .writing contents → kind i contents)
    (hwritten : ∀ contents, stage = .written contents →
      kind i contents ∧ files (layout.temporary s.pid i) = some contents) :
    Pending layout kind (s.move i stage files) where
  writing j contents hstage := by
    by_cases hj : j = i
    · subst hj
      rw [move_stage_self] at hstage
      exact hwriting contents hstage
    · rw [move_stage_of_ne s hj] at hstage
      exact h.writing j contents hstage
  written j contents hstage := by
    by_cases hj : j = i
    · subst hj
      rw [move_stage_self] at hstage
      exact hwritten contents hstage
    · rw [move_stage_of_ne s hj] at hstage
      rw [move_files, move_pid, hothers j hj]
      exact h.written j contents hstage

omit [DecidableEq ι] in
theorem update_temporary_of_ne (layout : Layout ι) (files : Files γ) (pid : ℕ) (value : Option γ)
    {i j : ι} (h : j ≠ i) :
    Function.update files (layout.temporary pid i) value (layout.temporary pid j) =
      files (layout.temporary pid j) :=
  Function.update_of_ne ((layout.temporary_injective pid).ne h) ..

theorem Pending.step {s s' : State ι γ} {action : Action ι γ} (h : Pending layout kind s)
    (hwrites : Writes kind s action) (hstep : step layout s action = some s') :
    Pending layout kind s' := by
  cases action with
  | openTemporary i contents left =>
    simp only [Replacement.step] at hstep
    split at hstep <;> cases hstep
    refine h.move (fun j ↦ update_temporary_of_ne layout s.files s.pid _) ?_ nofun
    rintro _ ⟨⟩
    exact hwrites
  | write i left =>
    simp only [Replacement.step] at hstep
    split at hstep <;> cases hstep
    next contents hstage =>
      refine h.move (fun j ↦ update_temporary_of_ne layout s.files s.pid _) ?_ nofun
      rintro _ ⟨⟩
      exact h.writing i contents hstage
  | complete i =>
    simp only [Replacement.step] at hstep
    split at hstep <;> cases hstep
    next contents hstage =>
      refine h.move (fun j ↦ update_temporary_of_ne layout s.files s.pid _) nofun ?_
      rintro _ ⟨⟩
      exact ⟨h.writing i contents hstage, Function.update_self ..⟩
  | abandon i =>
    simp only [Replacement.step] at hstep
    split at hstep <;> cases hstep
    exact h.move (fun _ _ ↦ rfl) nofun nofun
  | rename i =>
    simp only [Replacement.step] at hstep
    split at hstep <;> cases hstep
    refine h.move (fun j hj ↦ ?_) nofun nofun
    rw [update_temporary_of_ne layout _ s.pid none hj,
      Function.update_of_ne (layout.target_ne_temporary i s.pid j).symm]
  | renameFails i =>
    simp only [Replacement.step] at hstep
    split at hstep <;> cases hstep
    exact h.move (fun _ _ ↦ rfl) nofun nofun
  | remove i =>
    simp only [Replacement.step] at hstep
    split at hstep <;> cases hstep
    exact h.move (fun j ↦ update_temporary_of_ne layout s.files s.pid _) nofun nofun
  | restart pid =>
    cases hstep
    exact ⟨fun _ _ ↦ nofun, fun _ _ ↦ nofun⟩

theorem pending_of_reaches {files : Files γ} {s : State ι γ}
    (h : Reaches (step layout) (Writes kind) (Begins files) s) : Pending layout kind s := by
  refine h.invariant (P := Pending layout kind) (fun s hs ↦ ?_)
    fun s action s' hs hwrites hstep ↦ hs.step hwrites hstep
  constructor
  all_goals
    intro i contents hstage
    rw [hs.2 i] at hstage
    cases hstage

/-- Apart from temporary files a step changes nothing, or puts a document in its place. -/
theorem Pending.files {s s' : State ι γ} {action : Action ι γ} (h : Pending layout kind s)
    (hstep : Replacement.step layout s action = some s') :
    (∀ file, (∀ j, file ≠ layout.temporary s.pid j) → s'.files file = s.files file) ∨
      ∃ i contents, kind i contents ∧ ∀ file, (∀ j, file ≠ layout.temporary s.pid j) →
        s'.files file = Function.update s.files (layout.target i) (some contents) file := by
  have hunseen (i : ι) (value : Option γ) (file : String)
      (hfile : ∀ j, file ≠ layout.temporary s.pid j) :
      Function.update s.files (layout.temporary s.pid i) value file = s.files file :=
    Function.update_of_ne (hfile i) ..
  cases action with
  | rename i =>
    simp only [Replacement.step] at hstep
    split at hstep <;> cases hstep
    next contents hstage =>
      obtain ⟨hkind, htemporary⟩ := h.written i contents hstage
      refine .inr ⟨i, contents, hkind, fun file hfile ↦ ?_⟩
      rw [move_files, Function.update_of_ne (hfile i), htemporary]
  | restart pid =>
    cases hstep
    exact .inl fun _ _ ↦ rfl
  | openTemporary i | write i | complete i | remove i =>
    simp only [Replacement.step] at hstep
    split at hstep <;> cases hstep
    exact .inl (hunseen i _)
  | abandon i | renameFails i =>
    simp only [Replacement.step] at hstep
    split at hstep <;> cases hstep
    exact .inl fun _ _ ↦ rfl

/-- What a writer replaces holds what it held at first or a document of the writer. -/
theorem whole_of_reaches {files : Files γ} {s : State ι γ}
    (h : Reaches (step layout) (Writes kind) (Begins files) s) (i : ι) :
    s.files (layout.target i) = files (layout.target i) ∨
      ∃ contents, kind i contents ∧ s.files (layout.target i) = some contents := by
  refine h.invariant_of (P := fun s ↦ s.files (layout.target i) = files (layout.target i) ∨
    ∃ contents, kind i contents ∧ s.files (layout.target i) = some contents)
    (fun s hs ↦ pending_of_reaches hs) (fun s hs ↦ .inl (by rw [hs.1]))
    fun s action s' hpending hs _ hstep ↦ ?_
  have hseen (j : ι) : layout.target i ≠ layout.temporary s.pid j :=
    layout.target_ne_temporary i s.pid j
  rcases hpending.files hstep with hkept | ⟨j, contents, hkind, hput⟩
  · rw [hkept _ hseen]
    exact hs
  · rw [hput _ hseen]
    by_cases hj : i = j
    · subst hj
      exact .inr ⟨contents, hkind, Function.update_self ..⟩
    · rw [Function.update_of_ne (layout.target_injective.ne hj)]
      exact hs

/-! ## Whole writes -/

/-- A writer that has come back to where it was has changed files alone. -/
theorem move_idle {s : State ι γ} {i : ι} (hidle : s.stage i = .idle) (stage : Stage γ)
    (files files' : Files γ) :
    (s.move i stage files).move i .idle files' = { s with files := files' } := by
  have hstage : Function.update (Function.update s.stage i stage) i .idle = s.stage := by
    rw [Function.update_idem, ← hidle, Function.update_eq_self]
  simp only [State.move, hstage]

variable (layout) in
/-- A write of a writer that is idle is a run of it. -/
theorem steps_replace {i : ι} {contents : γ} (hkind : kind i contents) (fault : Option (Fault γ))
    {s : State ι γ} (hidle : s.stage i = .idle) :
    Steps (step layout) (Writes kind) s
      { s with files :=
          (replace (layout.temporary s.pid i) (layout.target i) fault contents s.files).1 } := by
  have hopened (left : γ) : Steps (step layout) (Writes kind) s (s.move i (.writing contents)
      (Function.update s.files (layout.temporary s.pid i) (some left))) := by
    refine Steps.refl.tail (a := .openTemporary i contents left) hkind ?_
    simp only [step, hidle]
  have hcomplete : Steps (step layout) (Writes kind) s (s.move i (.written contents)
      (Function.update s.files (layout.temporary s.pid i) (some contents))) := by
    refine (hopened contents).tail (a := .complete i) trivial ?_
    simp [step, State.move]
  cases fault with
  | none =>
    refine hcomplete.tail (a := .rename i) trivial ?_
    have hfiles : Function.update (Function.update (Function.update s.files
          (layout.temporary s.pid i) (some contents)) (layout.target i) (some contents))
          (layout.temporary s.pid i) none =
        (replace (layout.temporary s.pid i) (layout.target i) none contents s.files).1 := by
      simp only [replace]
      rw [Function.update_comm (layout.target_ne_temporary i s.pid i), Function.update_idem,
        Function.update_comm (layout.target_ne_temporary i s.pid i).symm]
    simp only [step, move_stage_self, move_files, move_pid, Function.update_self, hfiles,
      move_idle hidle]
  | some fault =>
    cases fault with
    | serialize => exact .refl
    | openTemporary => exact .refl
    | write left =>
      refine (hopened left).tail (a := .abandon i) trivial ?_
      simp only [step, move_stage_self, move_files, move_idle hidle, replace]
    | rename what =>
      have hrefused : Steps (step layout) (Writes kind) s (s.move i .refused
          (Function.update s.files (layout.temporary s.pid i) (some contents))) := by
        refine hcomplete.tail (a := .renameFails i) trivial ?_
        simp [step, State.move]
      refine hrefused.tail (a := .remove i) trivial ?_
      simp only [step, move_stage_self, move_files, move_pid, move_idle hidle, replace]

end Replacement
