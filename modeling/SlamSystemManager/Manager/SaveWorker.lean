import SlamSystemManager.Library.Mailbox
import SlamSystemManager.Manager.LastPose

/-!
# The save worker

The slot of the save worker is a mailbox: it keeps the order in which requests are put in, it loses
none but to a later one, and a worker that returns has emptied it. What it cannot restore is an
order lost before: a saver captures the trusted pose in one section and puts it in in another, and
the other saver may do both in between. As long as no request is overtaken in this way, last poses
reach the disk in the order in which they were captured and the one captured last stays there.
-/

open TransitionSystem

namespace SlamSystemManager.Manager

open MapManager

/-! ## The life of the adapter -/

/-- The manager with the flag that tells the save worker to stop. -/
structure Lifetime where
  sys : Sys
  /-- `stop_worker_`. -/
  stopWorker : Bool := false
  /-- The save worker has returned. -/
  exited : Bool := false

inductive LifetimeAction where
  | run (a : Action)
  | destroy
  | exitWorker

/-- What still happens while the adapter is destroyed: the save worker and the leaders. -/
def Action.outlivesManager : Action → Bool
  | .takeSave | .writeSave _ | .exit _ _ | .writeMap _ => true
  | _ => false

/-- The adapter is destroyed when the executor has returned and the operation thread has been
joined; its worker returns when it is told to stop and finds the slot empty. -/
def Lifetime.step (config : Config) (s : Lifetime) : LifetimeAction → Option Lifetime
  | .run a =>
    if s.stopWorker && !a.outlivesManager then none
    else (s.sys.step config a).map fun sys ↦ { s with sys := sys }
  | .destroy =>
    if s.stopWorker || s.sys.handler.isSome || s.sys.operation.isSome then none
    else some { s with stopWorker := true }
  | .exitWorker =>
    if s.stopWorker && !s.exited && s.sys.shared.adapter.pendingSave.isNone &&
        s.sys.shared.adapter.saving.isNone then
      some { s with exited := true }
    else none

/-- The manager when its constructor has returned, with the save worker running. -/
structure Lifetime.Initial (s : Lifetime) : Prop where
  sys : s.sys.Initial
  running : s.stopWorker = false ∧ s.exited = false

/-! ## The order of captures -/

/-- A request with its place in the order of captures. -/
structure Captured where
  number : ℕ
  request : SaveRequest
  deriving DecidableEq

/-- What has become of the captured requests. -/
structure SaveHistory where
  /-- The number of captures. -/
  captures : ℕ := 0
  /-- The number of the last capture of each saver. -/
  inHand : Saver → ℕ := fun _ ↦ 0
  box : Mailbox Captured := {}
  /-- The map of the request written last has been removed since. -/
  removed : Bool := false

/-- Whether the map of the request written last has no last pose. -/
def SaveHistory.gone (h : SaveHistory) (store : MapStore) : Bool :=
  h.box.done.head?.any fun last ↦
    ((directory? store last.request.map).bind MapDirectory.lastPose).isNone

def SaveHistory.noteRun (h : SaveHistory) (s : Sys) (a : Action) : SaveHistory :=
  match a with
  | .takeSave => { h with box := h.box.take }
  | .writeSave _ => { h with box := h.box.finish, removed := false }
  | _ =>
    match s.captures a, s.enqueues a with
    | some (saver, _), _ =>
      { h with
        captures := h.captures + 1
        inHand := Function.update h.inHand saver (h.captures + 1) }
    | none, some (saver, request) => { h with box := h.box.put ⟨h.inHand saver, request⟩ }
    | none, none => h

def SaveHistory.note (h : SaveHistory) (s : Lifetime) (a : LifetimeAction) (s' : Lifetime) :
    SaveHistory :=
  match a with
  | .run a =>
    let noted := h.noteRun s.sys a
    { noted with removed := noted.removed || noted.gone s'.sys.shared.maps }
  | _ => h

/-- The manager beside the history of its save requests. -/
abbrev saveStep (config : Config) : Lifetime × SaveHistory → LifetimeAction →
    Option (Lifetime × SaveHistory) :=
  noting (Lifetime.step config) SaveHistory.note

/-- File writes succeed. -/
def writesSucceed (s : Lifetime) : LifetimeAction → Prop
  | .run (.writeSave error) => error = none ∧
      ∀ request, s.sys.shared.adapter.saving = some request →
        (directory? s.sys.shared.maps request.map).isSome = true
  | _ => True

/-- No saver hands over a request after the other one has handed over a later one. -/
def notOvertaken (s : Lifetime × SaveHistory) : LifetimeAction → Prop
  | .run a => ∀ saver request, s.1.sys.enqueues a = some (saver, request) →
      ¬ ∃ accepted ∈ s.2.box.sent, s.2.inHand saver < accepted.number
  | _ => True

/-- Last poses reach the disk in the order in which they were captured, and none is lost but to a
later one. -/
structure SavedInOrder (s : Lifetime) (h : SaveHistory) : Prop where
  written : h.box.done.Pairwise fun later earlier ↦ earlier.number < later.number
  superseded : ∀ accepted ∈ h.box.sent, accepted ∈ h.box.pipeline ∨
    ∃ later ∈ h.box.sent, accepted.number < later.number
  drained : s.exited = true → h.box.done.head? = h.box.sent.head?
  latest : ∀ last, h.box.sent.head? = some last →
    ∀ accepted ∈ h.box.sent, accepted.number ≤ last.number
  onDisk : ∀ last, h.box.done.head? = some last → h.removed = false →
    ∃ contents, directory? s.sys.shared.maps last.request.map = some contents ∧
      contents.lastPose = some (.ok (RelocalizationAdapter.lastPoseFile last.request))

/-! ## Steps of the history -/

theorem saver_of_captures {s : Sys} {a : Action} {saver : Saver} {request : SaveRequest}
    (h : s.captures a = some (saver, request)) : a.saver = some saver := by
  obtain ⟨map, hstep, -⟩ := captures_eq_some_iff.mp h
  exact (savingStep_eq_some_iff.mp hstep).1

theorem captures_of_enqueues {s : Sys} {a : Action} {saver : Saver} {request : SaveRequest}
    (h : s.enqueues a = some (saver, request)) : s.captures a = none := by
  rw [enqueues_eq_some_iff] at h
  simp [Sys.captures, h]

theorem noteRun_capture (h : SaveHistory) {s : Sys} {a : Action} {saver : Saver}
    {request : SaveRequest} (hcaptures : s.captures a = some (saver, request)) :
    h.noteRun s a =
      { h with
        captures := h.captures + 1
        inHand := Function.update h.inHand saver (h.captures + 1) } := by
  have hsaver := saver_of_captures hcaptures
  cases a with
  | handler | operation => simp only [SaveHistory.noteRun, hcaptures]
  | _ => cases hsaver

theorem noteRun_put (h : SaveHistory) {s : Sys} {a : Action} {saver : Saver}
    {request : SaveRequest} (henqueues : s.enqueues a = some (saver, request)) :
    h.noteRun s a = { h with box := h.box.put ⟨h.inHand saver, request⟩ } := by
  have hcaptures := captures_of_enqueues henqueues
  have hsaver := (savingStep_eq_some_iff.mp (enqueues_eq_some_iff.mp henqueues)).1
  cases a with
  | handler | operation => simp only [SaveHistory.noteRun, hcaptures, henqueues]
  | _ => cases hsaver

theorem noteRun_same (h : SaveHistory) {s : Sys} {a : Action} (hcaptures : s.captures a = none)
    (henqueues : s.enqueues a = none) (haction : a ≠ .takeSave ∧ ∀ error, a ≠ .writeSave error) :
    h.noteRun s a = h := by
  cases a with
  | takeSave => exact absurd rfl haction.1
  | writeSave error => exact absurd rfl (haction.2 error)
  | _ => simp only [SaveHistory.noteRun, hcaptures, henqueues]

/-! ## The slot is the mailbox -/

/-- The mailbox mirrors the slot and the request being written, and the numbers that the savers hold
are their own. -/
structure Tracked (s : Sys) (h : SaveHistory) : Prop where
  slot : h.box.slot.map Captured.request = s.shared.adapter.pendingSave
  taken : h.box.taken.map Captured.request = s.shared.adapter.saving
  ordered : h.box.Ordered
  inHand : ∀ saver, h.inHand saver ≤ h.captures
  counted : ∀ accepted ∈ h.box.sent, accepted.number ≤ h.captures
  unsent : ∀ saver request, s.saver saver = some (.enqueue request) →
    ∀ accepted ∈ h.box.sent, accepted.number ≠ h.inHand saver
  apart : ∀ saver request, s.saver saver = some (.enqueue request) →
    ∀ other, other ≠ saver → h.inHand other ≠ h.inHand saver
  sorted : h.box.sent.Pairwise fun later earlier ↦ earlier.number < later.number

/-- A saver that holds a request after a step has just captured it, or held it and stands still. -/
theorem inHand_of_step {config : Config} {s s' : Sys} {a : Action}
    (hstarts : ∀ handler, s.handler = some handler → handler.StartsSaving)
    (hstep : s.step config a = some s') {saver : Saver} {request : SaveRequest}
    (h : s'.saver saver = some (.enqueue request)) :
    s.captures a = some (saver, request) ∨
      (s.saver saver = some (.enqueue request) ∧ a.saver ≠ some saver) := by
  cases saverMove_of_step hstarts hstep h with
  | stays hstays hmoved => exact Or.inr ⟨hstays, hmoved⟩
  | begins hpc => cases hpc
  | moves before hbefore hnext => exact Or.inl (captures_of_next hbefore hnext)

namespace Tracked

variable {config : Config} {s s' : Sys} {a : Action} {h : SaveHistory}

theorem capture (htracked : Tracked s h)
    (hstarts : ∀ handler, s.handler = some handler → handler.StartsSaving)
    (hstep : s.step config a = some s') {saver : Saver} {request : SaveRequest}
    (hcaptures : s.captures a = some (saver, request))
    (hsame : SameSlot s'.shared.adapter s.shared.adapter) :
    Tracked s'
      { h with
        captures := h.captures + 1
        inHand := Function.update h.inHand saver (h.captures + 1) } := by
  refine ⟨?_, ?_, htracked.ordered, fun other ↦ ?_, fun accepted haccepted ↦ ?_, ?_, ?_,
    htracked.sorted⟩
  · rw [hsame.pendingSave]
    exact htracked.slot
  · rw [hsame.saving]
    exact htracked.taken
  · by_cases hother : other = saver
    · simp [hother]
    · simpa [hother] using (htracked.inHand other).trans (Nat.le_succ _)
  · exact (htracked.counted accepted haccepted).trans (Nat.le_succ _)
  · intro holder held hheld accepted haccepted
    rcases inHand_of_step hstarts hstep hheld with hnew | ⟨hbefore, hmoved⟩
    · -- the number just given exceeds every number given before
      rw [hcaptures] at hnew
      cases hnew
      have hcounted := htracked.counted accepted haccepted
      simp only [Function.update_self]
      omega
    · have hother : holder ≠ saver := by
        rintro rfl
        exact hmoved (saver_of_captures hcaptures)
      simpa [hother] using htracked.unsent holder held hbefore accepted haccepted
  · intro holder held hheld other hother
    rcases inHand_of_step hstarts hstep hheld with hnew | ⟨hbefore, hmoved⟩
    · rw [hcaptures] at hnew
      cases hnew
      have hcounted := htracked.inHand other
      simp only [Function.update_self, Function.update_of_ne hother]
      omega
    · have hholder : holder ≠ saver := by
        rintro rfl
        exact hmoved (saver_of_captures hcaptures)
      have hcounted := htracked.inHand holder
      by_cases hsame : other = saver
      · simp only [hsame, Function.update_self, Function.update_of_ne hholder]
        omega
      · simpa [hsame, hholder] using htracked.apart holder held hbefore other hother

theorem put (htracked : Tracked s h)
    (hstarts : ∀ handler, s.handler = some handler → handler.StartsSaving)
    (hstep : s.step config a = some s') {saver : Saver} {request : SaveRequest}
    (henqueues : s.enqueues a = some (saver, request))
    (hovertaken : ¬ ∃ accepted ∈ h.box.sent, h.inHand saver < accepted.number)
    (hadapter : s'.shared.adapter = { s.shared.adapter with pendingSave := some request }) :
    Tracked s' { h with box := h.box.put ⟨h.inHand saver, request⟩ } := by
  obtain ⟨hmoved, hsaver⟩ := savingStep_eq_some_iff.mp (enqueues_eq_some_iff.mp henqueues)
  have hcaptures := captures_of_enqueues henqueues
  have hkept {holder : Saver} {held : SaveRequest}
      (hheld : s'.saver holder = some (.enqueue held)) :
      s.saver holder = some (.enqueue held) ∧ holder ≠ saver := by
    rcases inHand_of_step hstarts hstep hheld with hnew | ⟨hbefore, hother⟩
    · rw [hcaptures] at hnew
      cases hnew
    · refine ⟨hbefore, ?_⟩
      rintro rfl
      exact hother hmoved
  refine ⟨?_, ?_, htracked.ordered.put _, htracked.inHand, ?_, ?_, ?_, ?_⟩
  · rw [hadapter]
    rfl
  · rw [hadapter]
    exact htracked.taken
  · intro accepted haccepted
    rcases List.mem_cons.mp haccepted with rfl | hbefore
    · exact htracked.inHand saver
    · exact htracked.counted accepted hbefore
  · intro holder held hheld accepted haccepted
    obtain ⟨hbefore, hother⟩ := hkept hheld
    rcases List.mem_cons.mp haccepted with rfl | hsent
    · exact htracked.apart holder held hbefore saver hother.symm
    · exact htracked.unsent holder held hbefore accepted hsent
  · intro holder held hheld
    exact htracked.apart holder held (hkept hheld).1
  · refine List.pairwise_cons.mpr ⟨fun accepted hsent ↦ ?_, htracked.sorted⟩
    have hdistinct := htracked.unsent saver request hsaver accepted hsent
    have hnot : ¬ h.inHand saver < accepted.number := fun hlater ↦
      hovertaken ⟨accepted, hsent, hlater⟩
    exact lt_of_le_of_ne (not_lt.mp hnot) hdistinct

theorem step (htracked : Tracked s h)
    (hstarts : ∀ handler, s.handler = some handler → handler.StartsSaving)
    (hovertaken : ∀ saver request, s.enqueues a = some (saver, request) →
      ¬ ∃ accepted ∈ h.box.sent, h.inHand saver < accepted.number)
    (hstep : s.step config a = some s') : Tracked s' (h.noteRun s a) := by
  have hkept {holder : Saver} {held : SaveRequest} (hnone : s.captures a = none)
      (hheld : s'.saver holder = some (.enqueue held)) :
      s.saver holder = some (.enqueue held) := by
    rcases inHand_of_step hstarts hstep hheld with hnew | ⟨hbefore, -⟩
    · rw [hnone] at hnew
      cases hnew
    · exact hbefore
  cases slotMove_of_step hstep with
  | same hnone haction hsame =>
    cases hcaptures : s.captures a with
    | some captured =>
      obtain ⟨saver, request⟩ := captured
      rw [noteRun_capture h hcaptures]
      exact htracked.capture hstarts hstep hcaptures hsame
    | none =>
      rw [noteRun_same h hcaptures hnone haction]
      exact ⟨htracked.slot.trans hsame.pendingSave.symm, htracked.taken.trans hsame.saving.symm,
        htracked.ordered, htracked.inHand, htracked.counted,
        fun holder held hheld ↦ htracked.unsent holder held (hkept hcaptures hheld),
        fun holder held hheld ↦ htracked.apart holder held (hkept hcaptures hheld),
        htracked.sorted⟩
  | enqueue saver request henqueues hadapter =>
    rw [noteRun_put h henqueues]
    exact htracked.put hstarts hstep henqueues (hovertaken saver request henqueues) hadapter
  | take request haction hidle hpending hadapter =>
    subst haction
    have hfree : h.box.taken = none := by
      simpa [hidle] using htracked.taken
    refine ⟨?_, ?_, htracked.ordered.take hfree, htracked.inHand, htracked.counted,
      fun holder held hheld ↦ htracked.unsent holder held (hkept rfl hheld),
      fun holder held hheld ↦ htracked.apart holder held (hkept rfl hheld), htracked.sorted⟩
    · rw [hadapter]
      rfl
    · rw [hadapter]
      exact htracked.slot.trans hpending
  | write request error haction hsaving hshared =>
    subst haction
    refine ⟨?_, ?_, htracked.ordered.finish, htracked.inHand, htracked.counted,
      fun holder held hheld ↦ htracked.unsent holder held (hkept rfl hheld),
      fun holder held hheld ↦ htracked.apart holder held (hkept rfl hheld), htracked.sorted⟩
    · rw [hshared]
      exact htracked.slot
    · rw [hshared]
      rfl

end Tracked

theorem Sys.Initial.tracked {s : Sys} (h : s.Initial) : Manager.Tracked s {} := by
  have hsaver (saver : Saver) : s.saver saver = none := by
    cases saver <;> simp [Sys.saver, h.handler, h.operation]
  refine ⟨?_, ?_, Mailbox.ordered_empty, by simp, by simp, ?_, ?_, List.Pairwise.nil⟩
  · rw [h.adapter]
    rfl
  · rw [h.adapter]
    rfl
  · intro saver request hheld
    rw [hsaver] at hheld
    cases hheld
  · intro saver request hheld
    rw [hsaver] at hheld
    cases hheld

/-! ## The file written last -/

/-- The request written last is the one on disk unless its map has been removed since. -/
def OnDisk (s : Sys) (h : SaveHistory) : Prop :=
  ∀ last, h.box.done.head? = some last → h.removed = false →
    ∃ contents, directory? s.shared.maps last.request.map = some contents ∧
      contents.lastPose = some (.ok (RelocalizationAdapter.lastPoseFile last.request))

/-- The files are left alone by every step but a write. -/
theorem onDisk_of_step {config : Config} {s s' : Sys} {a : Action} {h : SaveHistory}
    (hdisk : OnDisk s h) (hwrite : ∀ error, a ≠ .writeSave error)
    (hstep : s.step config a = some s') {last : Captured} (hlast : h.box.done.head? = some last)
    (hremoved : h.removed = false) (hexists :
      ((directory? s'.shared.maps last.request.map).bind MapDirectory.lastPose).isSome = true) :
    ∃ contents, directory? s'.shared.maps last.request.map = some contents ∧
      contents.lastPose = some (.ok (RelocalizationAdapter.lastPoseFile last.request)) := by
  obtain ⟨file, hfound⟩ := Option.isSome_iff_exists.mp hexists
  obtain ⟨contents, hcontents, hpose⟩ := Option.bind_eq_some_iff.mp hfound
  obtain ⟨before, hbefore, hfile⟩ := hdisk last hlast hremoved
  refine ⟨contents, hcontents, ?_⟩
  cases lastPoseMove_of_step hstep hcontents with
  | same other hother hsame =>
    rw [hbefore] at hother
    cases hother
    exact hsame.trans hfile
  | none hnone =>
    rw [hpose] at hnone
    cases hnone
  | written request _ haction => exact absurd haction (hwrite none)

theorem noteRun_done (h : SaveHistory) (s : Sys) {a : Action}
    (hwrite : ∀ error, a ≠ .writeSave error) :
    (h.noteRun s a).box.done = h.box.done ∧ (h.noteRun s a).removed = h.removed := by
  cases a with
  | takeSave => exact ⟨rfl, rfl⟩
  | writeSave error => exact absurd rfl (hwrite error)
  | _ =>
    simp only [SaveHistory.noteRun]
    split <;> exact ⟨rfl, rfl⟩

theorem SaveHistory.lastPose_of_not_gone {h : SaveHistory} {store : MapStore} {last : Captured}
    (hlast : h.box.done.head? = some last) (hgone : h.gone store = false) :
    ((directory? store last.request.map).bind MapDirectory.lastPose).isSome = true := by
  rw [SaveHistory.gone, hlast, Option.any_some] at hgone
  cases hpose : (directory? store last.request.map).bind MapDirectory.lastPose with
  | none =>
    rw [hpose] at hgone
    cases hgone
  | some file => rfl

theorem OnDisk.step {config : Config} {s s' : Sys} {a : Action} {h : SaveHistory}
    (htracked : Tracked s h) (hdisk : OnDisk s h) (hstep : s.step config a = some s')
    (hsucceeds : ∀ error, a = .writeSave error → error = none ∧
      ∀ request, s.shared.adapter.saving = some request →
        (directory? s.shared.maps request.map).isSome = true) :
    OnDisk s' { h.noteRun s a with
      removed := (h.noteRun s a).removed || (h.noteRun s a).gone s'.shared.maps } := by
  intro last hlast hremoved
  simp only [Bool.or_eq_false_iff] at hremoved
  by_cases hwrite : ∃ error, a = .writeSave error
  · obtain ⟨error, rfl⟩ := hwrite
    obtain ⟨rfl, hexists⟩ := hsucceeds error rfl
    obtain ⟨request, hsaving, rfl⟩ := Option.map_eq_some_iff.mp hstep
    obtain ⟨written, hwritten, rfl⟩ := Option.map_eq_some_iff.mp (htracked.taken.trans hsaving)
    have hsame : written = last := by
      simpa [SaveHistory.noteRun, Mailbox.finish, hwritten] using hlast
    subst hsame
    obtain ⟨before, hbefore⟩ := Option.isSome_iff_exists.mp (hexists _ hsaving)
    exact ⟨storeLastPose written.request before, by
      simp [Shared.writeSave, directory?_updateDirectory, hbefore, storeLastPose], rfl⟩
  · have hnot : ∀ error, a ≠ .writeSave error := fun error haction ↦ hwrite ⟨error, haction⟩
    obtain ⟨hdone, hkept⟩ := noteRun_done h s hnot
    have hexists := SaveHistory.lastPose_of_not_gone hlast hremoved.2
    exact onDisk_of_step hdisk hnot hstep (hdone ▸ hlast) (hkept ▸ hremoved.1) hexists

/-! ## Runs -/

/-- What holds of the manager, the history and the save worker. -/
structure Lifetime.Tracks (s : Lifetime) (h : SaveHistory) : Prop where
  starts : ∀ handler, s.sys.handler = some handler → handler.StartsSaving
  tracked : Tracked s.sys h
  onDisk : OnDisk s.sys h
  exited : s.exited = true → s.stopWorker = true ∧ s.sys.shared.adapter.pendingSave = none ∧
    s.sys.shared.adapter.saving = none

/-- A worker that has returned finds nothing more to do. -/
theorem Lifetime.exited_of_step {config : Config} {s s' : Sys} {a : Action}
    (hpending : s.shared.adapter.pendingSave = none) (hsaving : s.shared.adapter.saving = none)
    (houtlives : a.outlivesManager = true) (hstep : s.step config a = some s') :
    s'.shared.adapter.pendingSave = none ∧ s'.shared.adapter.saving = none := by
  cases slotMove_of_step hstep with
  | same _ _ hsame => exact ⟨hsame.pendingSave.trans hpending, hsame.saving.trans hsaving⟩
  | enqueue saver request henqueues hadapter =>
    have hsaver := (savingStep_eq_some_iff.mp (enqueues_eq_some_iff.mp henqueues)).1
    cases a with
    | handler | operation => cases houtlives
    | _ => cases hsaver
  | take request _ _ hrequest _ =>
    rw [hpending] at hrequest
    cases hrequest
  | write request error _ hrequest _ =>
    rw [hsaving] at hrequest
    cases hrequest

theorem Lifetime.Tracks.step {config : Config} {s s' : Lifetime} {a : LifetimeAction}
    {h : SaveHistory} (htracks : s.Tracks h) (hsucceeds : writesSucceed s a)
    (hovertaken : notOvertaken (s, h) a) (hstep : s.step config a = some s') :
    s'.Tracks (h.note s a s') := by
  cases a with
  | run a =>
    simp only [Lifetime.step] at hstep
    split at hstep
    · cases hstep
    · rename_i halive
      obtain ⟨sys, hsys, rfl⟩ := Option.map_eq_some_iff.mp hstep
      refine ⟨startsSaving_step htracks.starts hsys, ?_, ?_, fun hexited ↦ ?_⟩
      · have htracked := htracks.tracked.step htracks.starts hovertaken hsys
        exact ⟨htracked.slot, htracked.taken, htracked.ordered, htracked.inHand,
          htracked.counted, htracked.unsent, htracked.apart, htracked.sorted⟩
      · refine htracks.onDisk.step htracks.tracked hsys fun error haction ↦ ?_
        subst haction
        exact hsucceeds
      · obtain ⟨hstopped, hpending, hsaving⟩ := htracks.exited hexited
        refine ⟨hstopped, exited_of_step hpending hsaving ?_ hsys⟩
        simpa [hstopped] using halive
  | destroy =>
    simp only [Lifetime.step] at hstep
    split at hstep <;> cases hstep
    exact ⟨htracks.starts, htracks.tracked, htracks.onDisk,
      fun hexited ↦ ⟨rfl, (htracks.exited hexited).2⟩⟩
  | exitWorker =>
    simp only [Lifetime.step] at hstep
    split at hstep <;> cases hstep
    rename_i hempty
    simp only [Bool.and_eq_true, Option.isNone_iff_eq_none] at hempty
    exact ⟨htracks.starts, htracks.tracked, htracks.onDisk,
      fun _ ↦ ⟨hempty.1.1.1, hempty.1.2, hempty.2⟩⟩

theorem Lifetime.Tracks.savedInOrder {s : Lifetime} {h : SaveHistory} (htracks : s.Tracks h) :
    SavedInOrder s h := by
  obtain ⟨-, htracked, hdisk, hexited⟩ := htracks
  have hlatest : ∀ last, h.box.sent.head? = some last →
      ∀ accepted ∈ h.box.sent, accepted = last ∨ accepted.number < last.number := by
    intro last hlast accepted haccepted
    obtain ⟨earlier, hsent⟩ := List.head?_eq_some_iff.mp hlast
    have hsorted := htracked.sorted
    rw [hsent] at haccepted hsorted
    exact (List.mem_cons.mp haccepted).imp id fun hbefore ↦
      (List.pairwise_cons.mp hsorted).1 accepted hbefore
  refine ⟨htracked.ordered.pairwise_done htracked.sorted, fun accepted haccepted ↦ ?_,
    fun hreturned ↦ ?_, fun last hlast accepted haccepted ↦ ?_, hdisk⟩
  · -- the request accepted last is on its way or was written last
    obtain ⟨last, hlast⟩ : ∃ last, h.box.sent.head? = some last := by
      cases hsent : h.box.sent with
      | nil =>
        rw [hsent] at haccepted
        cases haccepted
      | cons last earlier => exact ⟨last, rfl⟩
    rcases hlatest last hlast accepted haccepted with rfl | hearlier
    · exact Or.inl (List.mem_of_mem_head? (htracked.ordered.latest.trans hlast))
    · exact Or.inr ⟨last, List.mem_of_mem_head? hlast, hearlier⟩
  · obtain ⟨-, hpending, hsaving⟩ := hexited hreturned
    apply htracked.ordered.drained
    · simpa [hpending] using htracked.slot
    · simpa [hsaving] using htracked.taken
  · rcases hlatest last hlast accepted haccepted with rfl | hearlier
    · exact le_rfl
    · exact hearlier.le

/-- Last poses are saved in the order in which they were captured, and the one captured last stays
on disk, in every run in which writes succeed and no saver hands over a request after the other one
has handed over a later one. -/
theorem saves_in_order (config : Config) (s : Lifetime) (h : SaveHistory)
    (hreach : Reaches (saveStep config) (fun s a ↦ writesSucceed s.1 a ∧ notOvertaken s a)
      (fun s ↦ s.1.Initial ∧ s.2 = {}) (s, h)) : SavedInOrder s h := by
  apply Lifetime.Tracks.savedInOrder
  refine Reaches.invariant (P := fun s : Lifetime × SaveHistory ↦ s.1.Tracks s.2)
    (fun s hinit ↦ ?_) (fun s a s' hs hok hstep ↦ ?_) hreach
  · obtain ⟨hinit, hnothing⟩ := hinit
    rw [hnothing]
    refine ⟨by simp [hinit.sys.handler], hinit.sys.tracked, fun last hlast ↦ ?_,
      by simp [hinit.running.2]⟩
    cases hlast
  · obtain ⟨hsys, hnote⟩ := noting_eq_some hstep
    rw [hnote]
    exact hs.step hok.1 hok.2 hsys

/-! ## Replays -/

/-- Tests of the two conditions. -/
def Lifetime.writeSucceeds (s : Lifetime) : LifetimeAction → Bool
  | .run (.writeSave error) => error.isNone && s.sys.shared.adapter.saving.all fun request ↦
      (directory? s.sys.shared.maps request.map).isSome
  | _ => true

def keepsOrder (s : Lifetime × SaveHistory) : LifetimeAction → Bool
  | .run a => (s.1.sys.enqueues a).all fun enqueued ↦
      s.2.box.sent.all fun accepted ↦ decide (accepted.number ≤ s.2.inHand enqueued.1)
  | _ => true

theorem writesSucceed_of_test {s : Lifetime} {a : LifetimeAction} (h : s.writeSucceeds a = true) :
    writesSucceed s a := by
  unfold Lifetime.writeSucceeds at h
  unfold writesSucceed
  split
  · simp only [Bool.and_eq_true, Option.isNone_iff_eq_none, Option.all_eq_true] at h
    exact h
  · trivial

theorem notOvertaken_of_test {s : Lifetime × SaveHistory} {a : LifetimeAction}
    (h : keepsOrder s a = true) : notOvertaken s a := by
  cases a with
  | run a =>
    rintro saver request henqueues ⟨accepted, hsent, hlater⟩
    simp only [keepsOrder, henqueues, Option.all_some, List.all_eq_true, decide_eq_true_eq] at h
    exact absurd (h accepted hsent) (not_le.mpr hlater)
  | destroy | exitWorker => trivial

/-- The manager on a root with one map, with nothing captured. -/
def savingStart : Lifetime × SaveHistory := ({ sys := Sys.initial (storedMaps ["m"]) }, {})

theorem reaches_savingStart (config : Config)
    (ok : Lifetime × SaveHistory → LifetimeAction → Prop) :
    Reaches (saveStep config) ok (fun s ↦ s.1.Initial ∧ s.2 = {}) savingStart :=
  .start ⟨⟨initial_initial _, rfl, rfl⟩, rfl⟩

def storeOdometry (x : ℚ) (stamp : Time) : List Action :=
  runCallback 1 (.rawOdometry (poseAt (.fin x) stamp)) 4 stamp

/-- A stop of localization is launched, and the timer takes a number of steps into `saveLastPose`.
-/
def stopAndSave (steps : ℕ) : List Action :=
  trustedRun ++ storeOdometry 1 2 ++ [.call .stopLocalization, .handler {}, .handler {},
    .call .lastPoseTimer] ++ List.replicate steps (.handler {}) ++ storeOdometry 2 3

/-- What is left of a run after `saveLastPose` of the operation. -/
def finishAndDestroy (actions : List Action) : List LifetimeAction :=
  (actions ++ List.replicate 8 (Action.operation {})).map LifetimeAction.run ++
    [.destroy, .exitWorker]

/-- The timer and the operation save one after the other, and the worker finds both requests in the
slot: the later one is written. -/
theorem saves_in_order_stopAndSave :
    ∃ (s : Lifetime) (h : SaveHistory), s.exited = true ∧ h.captures = 2 ∧ SavedInOrder s h := by
  have hrun : ((execWith (saveStep {}) (fun s a ↦ s.1.writeSucceeds a && keepsOrder s a)
      savingStart (finishAndDestroy (stopAndSave 5 ++ List.replicate 5 (.operation {}) ++
        [.takeSave, .writeSave none]))).any fun s ↦
          s.1.exited && decide (s.2.captures = 2)) = true := by
    decide +kernel
  obtain ⟨⟨s, h⟩, hreach, htest⟩ :=
    (reaches_savingStart {} _).exists_of_execWith (fun _ _ hpasses ↦ hpasses) hrun
  simp only [Bool.and_eq_true, decide_eq_true_eq] at htest
  refine ⟨s, h, htest.1, htest.2, saves_in_order {} s h (hreach.mono fun s a hpasses ↦ ?_)⟩
  rw [Bool.and_eq_true] at hpasses
  exact ⟨writesSucceed_of_test hpasses.1, notOvertaken_of_test hpasses.2⟩

/-- The worker has written two poses, the later one first, and the file holds the earlier one. -/
def keepsEarlier (s : Lifetime × SaveHistory) : Bool :=
  match s.2.box.done with
  | [earlier, later] => decide (earlier.number < later.number ∧
    ((directory? s.1.sys.shared.maps later.request.map).bind MapDirectory.lastPose).bind
      Except.toOption = some (RelocalizationAdapter.lastPoseFile earlier.request) ∧
    RelocalizationAdapter.lastPoseFile earlier.request ≠
      RelocalizationAdapter.lastPoseFile later.request)
  | _ => false

/-- The timer captures a pose, the operation captures and hands over a later one, and the timer
hands over its own: the earlier pose is written last and stays on disk. -/
theorem saves_out_of_order :
    ∃ (s : Lifetime) (h : SaveHistory) (earlier later : Captured),
      Reaches (saveStep {}) (fun s a ↦ writesSucceed s.1 a) (fun s ↦ s.1.Initial ∧ s.2 = {})
        (s, h) ∧
      s.exited = true ∧ h.box.done = [earlier, later] ∧ earlier.number < later.number ∧
      ((directory? s.sys.shared.maps later.request.map).bind MapDirectory.lastPose).bind
        Except.toOption = some (RelocalizationAdapter.lastPoseFile earlier.request) ∧
      RelocalizationAdapter.lastPoseFile earlier.request ≠
        RelocalizationAdapter.lastPoseFile later.request := by
  have hrun : ((execWith (saveStep {}) (fun s a ↦ s.1.writeSucceeds a)
      savingStart (finishAndDestroy (stopAndSave 4 ++ List.replicate 5 (.operation {}) ++
        [.takeSave, .writeSave none, .handler {}, .takeSave, .writeSave none]))).any fun s ↦
          s.1.exited && keepsEarlier s) = true := by
    decide +kernel
  obtain ⟨⟨s, h⟩, hreach, htest⟩ :=
    (reaches_savingStart {} _).exists_of_execWith (fun _ _ ↦ writesSucceed_of_test) hrun
  simp only [Bool.and_eq_true] at htest
  obtain ⟨hexited, htest⟩ := htest
  unfold keepsEarlier at htest
  split at htest
  · rename_i earlier later hdone
    exact ⟨s, h, earlier, later, hreach, hexited, hdone, of_decide_eq_true htest⟩
  · cases htest

end SlamSystemManager.Manager
