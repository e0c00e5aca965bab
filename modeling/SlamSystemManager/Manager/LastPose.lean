import SlamSystemManager.Manager.SaveRequests
import SlamSystemManager.Manager.TrustedPose

/-!
# Last poses are loadable

`validatePose` stands in front of every pose that enters the adapter but one: `handleRawOdometry`
composes and stores what arrives. A trusted pose with a value that is not finite, or with a zero
quaternion, is saved like any other and refused by `loadLastPose`. Every other check of the reader
is met by what the writer saves: the frame is that of the map and the directory lies in the root.
-/

open Numeric TransitionSystem

namespace SlamSystemManager

/-! ## Poses that `validatePose` accepts -/

def Quaternion.map {α β : Type} (f : α → β) (orientation : Quaternion α) : Quaternion β :=
  ⟨f orientation.x, f orientation.y, f orientation.z, f orientation.w⟩

namespace RelocalizationAdapter

/-- A finite position, and a finite orientation that is not too short to be normalised. -/
def storable (math : Cmath) (pose : Pose Double) : Bool :=
  finitePosition pose.position &&
    match finiteValue pose.orientation.x, finiteValue pose.orientation.y,
        finiteValue pose.orientation.z, finiteValue pose.orientation.w with
    | some x, some y, some z, some w =>
      decide (1 / 10 ^ 6 ≤ math.sqrt (Quaternion.normSquared ⟨x, y, z, w⟩))
    | _, _, _, _ => false

/-- The second orientation is the first one divided by its length. -/
def Normalised (math : Cmath) (before after : Quaternion Double) : Prop :=
  ∃ orientation : Quaternion ℚ, before = orientation.map .fin ∧
    after = orientation.map fun value ↦ .fin (value / math.sqrt orientation.normSquared)

theorem finiteValue_eq_some {x : Double} {value : ℚ} (h : finiteValue x = some value) :
    x = .fin value := by
  cases x <;> cases h
  rfl

theorem orientation_of_storable {math : Cmath} {pose : Pose Double}
    (h : storable math pose = true) :
    finitePosition pose.position = true ∧ ∃ orientation : Quaternion ℚ,
      pose.orientation = orientation.map .fin ∧
        1 / 10 ^ 6 ≤ math.sqrt orientation.normSquared := by
  obtain ⟨position, ⟨x, y, z, w⟩⟩ := pose
  simp only [storable, Bool.and_eq_true] at h
  obtain ⟨hposition, horientation⟩ := h
  refine ⟨hposition, ?_⟩
  split at horientation
  · rename_i hx hy hz hw
    cases finiteValue_eq_some hx
    cases finiteValue_eq_some hy
    cases finiteValue_eq_some hz
    cases finiteValue_eq_some hw
    exact ⟨⟨_, _, _, _⟩, rfl, by simpa using horientation⟩
  · cases horientation

/-- A storable pose in the map frame passes the check of the reader. -/
theorem validatePose_of_storable {math : Cmath} {mapFrame : String} (pose : StampedPose)
    (hframe : pose.frameId = mapFrame) (hstorable : storable math pose.pose = true) :
    ∃ validated, validatePose math mapFrame pose = .ok validated ∧
      validated.frameId = mapFrame ∧ validated.pose.position = pose.pose.position ∧
      Normalised math pose.pose.orientation validated.pose.orientation := by
  obtain ⟨hposition, orientation, horientation, hlength⟩ := orientation_of_storable hstorable
  have hfilled : (if pose.frameId = "" then mapFrame else pose.frameId) = mapFrame := by
    rw [hframe]
    split <;> rfl
  refine ⟨{ pose with
    frameId := mapFrame
    pose :=
      { pose.pose with
        orientation := orientation.map fun value ↦
          .fin (value / math.sqrt orientation.normSquared) } }, ?_, rfl, rfl, orientation,
    horientation, rfl⟩
  have hlong : ¬ math.sqrt orientation.normSquared < 1 / 10 ^ 6 := not_lt.mpr hlength
  simp only [validatePose, hfilled, hposition, horientation, Quaternion.map, finiteValue, ne_eq,
    not_true_eq_false, Bool.not_true, Bool.false_eq_true, if_false]
  rw [if_neg hlong]

end RelocalizationAdapter

namespace Manager

open MapManager

/-! ## The condition -/

/-- A run in which every trusted pose that a saver copies is finite and has a quaternion that can be
normalised. -/
def capturesStorable (config : Config) (s : Sys) (a : Action) : Prop :=
  ∀ saver request, s.captures a = some (saver, request) →
    RelocalizationAdapter.storable config.math request.pose.value.pose = true

/-- `loadLastPose` on a map of the store. -/
def Config.loadLastPose (config : Config) (store : MapStore) (name : String) :
    Except String StampedPose :=
  RelocalizationAdapter.loadLastPose config.math config.mapFrame config.mapRoot
    (decide (config.mapRoot = config.configuredRoot)) store name

/-- The `last_pose.yaml` of a directory is absent or loadable. -/
def Config.LastPoseLoads (config : Config) (store : MapStore) (name : String) : Prop :=
  ∀ contents, directory? store name = some contents →
    contents.lastPose = none ∨ ∃ pose, config.loadLastPose store name = .ok pose

/-- The reader yields the frame and the position of a request, and its orientation normalised. -/
def Config.LoadsSaved (config : Config) (store : MapStore) (request : SaveRequest) : Prop :=
  ∃ pose, config.loadLastPose store request.map = .ok pose ∧
    pose.frameId = request.pose.value.frameId ∧
    pose.pose.position = request.pose.value.pose.position ∧
    RelocalizationAdapter.Normalised config.math request.pose.value.pose.orientation
      pose.pose.orientation

/-- What makes the file of a request loadable. -/
structure Loadable (config : Config) (request : SaveRequest) : Prop where
  root : config.mapRoot = config.configuredRoot
  frame : request.pose.value.frameId = config.mapFrame
  storable : RelocalizationAdapter.storable config.math request.pose.value.pose = true

theorem Loadable.loadsSaved {config : Config} {request : SaveRequest} (h : Loadable config request)
    {store : MapStore} {contents : MapDirectory}
    (hdirectory : directory? store request.map = some contents)
    (hwritten : contents.lastPose = some (.ok (RelocalizationAdapter.lastPoseFile request))) :
    config.LoadsSaved store request := by
  obtain ⟨validated, hvalidated, hframe, hposition, hnormalised⟩ :=
    RelocalizationAdapter.validatePose_of_storable
      ⟨request.pose.value.frameId, 0, request.pose.value.pose⟩ h.frame h.storable
  refine ⟨validated, ?_, hframe.trans h.frame.symm, hposition, hnormalised⟩
  simp only [Config.loadLastPose, RelocalizationAdapter.loadLastPose, h.root, decide_true,
    Bool.not_true, Bool.false_eq_true, if_false, hdirectory, Option.bind_some, hwritten,
    RelocalizationAdapter.lastPoseFile]
  exact hvalidated

/-- What the reader returns depends on the file alone. -/
theorem loadLastPose_congr (config : Config) {store other : MapStore} {name : String}
    {contents before : MapDirectory} (hdirectory : directory? store name = some contents)
    (hbefore : directory? other name = some before)
    (hsame : contents.lastPose = before.lastPose) :
    config.loadLastPose store name = config.loadLastPose other name := by
  simp only [Config.loadLastPose, RelocalizationAdapter.loadLastPose, hdirectory, hbefore,
    Option.bind_some, hsame]

/-! ## Frames of the poses -/

/-- The unified pose with which a raw-odometry callback is on its way. -/
def Callback.unified : Callback → Option StampedPose
  | .publishPose pose _ => some pose.value
  | .storePose pose => some pose.value
  | _ => none

/-- Every unified pose is in the map frame. -/
structure Sys.Framed (config : Config) (s : Sys) : Prop where
  inFlight : ∀ id callback pose, s.callbacks id = some callback → callback.unified = some pose →
    pose.frameId = config.mapFrame
  trusted : ∀ pose, s.shared.adapter.latestTrustedPose = some pose →
    pose.value.frameId = config.mapFrame

theorem frameId_of_callback {config : Config} {env : Env} {s : Shared} {before callback : Callback}
    {pose : StampedPose} (hstep : (before.step config env s).2 = some callback)
    (hpose : callback.unified = some pose) :
    before.unified = some pose ∨ pose.frameId = config.mapFrame := by
  cases before with
  | publishOdometry message copied localized =>
    cases hstep
    cases hpose
    exact Or.inr rfl
  | publishPose before localized =>
    simp only [Callback.step] at hstep
    split at hstep <;> cases hstep
    exact Or.inl hpose
  | _ =>
    simp only [Callback.step] at hstep
    repeat' split at hstep
    all_goals cases hstep
    all_goals cases hpose

theorem Sys.Framed.step {config : Config} {s s' : Sys} {a : Action} (h : s.Framed config)
    (hstep : s.step config a = some s') : s'.Framed config := by
  refine ⟨fun id callback pose hsome hpose ↦ ?_, fun pose hpose ↦ ?_⟩
  · cases Sys.move_of_step hstep with
    | @deliver other message hfree =>
      by_cases hsame : id = other
      · subst hsame
        simp only [Sys.setCallback, Function.update_self, Option.some.injEq] at hsome
        subst hsome
        cases message <;> cases hpose
      · exact h.inFlight id callback pose (by simpa [Sys.setCallback, hsame] using hsome) hpose
    | @callback other env before hbefore =>
      by_cases hsame : id = other
      · subst hsame
        simp only [Function.update_self] at hsome
        rcases frameId_of_callback hsome hpose with hcarried | hframe
        · exact h.inFlight id before pose hbefore hcarried
        · exact hframe
      · exact h.inFlight id callback pose (by simpa [hsame] using hsome) hpose
    | _ => exact h.inFlight id callback pose hsome hpose
  · cases dataMove_of_step hstep with
    | same hsame => exact h.trusted pose (hsame.latestTrustedPose ▸ hpose)
    | reset now _ hadapter =>
      rw [hadapter] at hpose
      cases hpose
    | accept id message validated _ hstamp hadapter _ =>
      rw [hadapter, RelocalizationAdapter.acceptCorrection, if_neg (not_le.mpr hstamp)] at hpose
      exact h.trusted pose hpose
    | setLocalized id env _ _ hadapter =>
      rw [hadapter] at hpose
      exact h.trusted pose hpose
    | store id stored hcallback hadapter =>
      rw [hadapter, RelocalizationAdapter.storeTrustedPose] at hpose
      split at hpose
      · cases hpose
        exact h.inFlight id _ _ hcallback rfl
      · exact h.trusted pose hpose

theorem Sys.Initial.framed {config : Config} {s : Sys} (h : s.Initial) : s.Framed config :=
  ⟨by simp [h.callbacks], by simp [h.adapter]⟩

/-! ## Runs -/

/-- What holds of the requests on their way and of the file of a directory. -/
structure Sys.SavesLoadable (config : Config) (name : String) (s : Sys) : Prop where
  framed : s.Framed config
  root : ∀ saver map, s.saver saver = some (.capture map) → config.mapRoot = config.configuredRoot
  requests : ∀ request, s.OnItsWay request → Loadable config request
  file : config.LastPoseLoads s.shared.maps name

theorem root_of_checkPath {config : Config} {s : Shared} {before : SaveLastPose} {map : String}
    (h : (saveLastPoseStep config s before).2 = .next (.capture map)) :
    config.mapRoot = config.configuredRoot := by
  cases before with
  | checkPath other =>
    simp only [saveLastPoseStep] at h
    split at h
    · cases h
    · split at h <;> cases h
      simp_all
  | poseValid | readMap | capture other =>
    simp only [saveLastPoseStep] at h
    split at h <;> cases h
  | enqueue request => cases h

/-- A request that has just been captured is loadable if the trusted pose is storable. -/
theorem Sys.SavesLoadable.captured {config : Config} {name : String} {s : Sys} {a : Action}
    (h : s.SavesLoadable config name) (hok : capturesStorable config s a) {saver : Saver}
    {request : SaveRequest} (hcaptures : s.captures a = some (saver, request)) :
    Loadable config request := by
  obtain ⟨map, hstep, hcaptured⟩ := captures_eq_some_iff.mp hcaptures
  simp only [RelocalizationAdapter.capturePose] at hcaptured
  split at hcaptured
  · obtain ⟨pose, hpose, rfl⟩ := Option.map_eq_some_iff.mp hcaptured
    exact ⟨h.root saver map (savingStep_eq_some_iff.mp hstep).2, h.framed.trusted pose hpose,
      hok saver _ hcaptures⟩
  · cases hcaptured

/-- The file a step leaves in a directory is that of before, none, or one just written. -/
theorem Sys.SavesLoadable.file_step {config : Config} {name : String} {s s' : Sys} {a : Action}
    (h : s.SavesLoadable config name) (hstep : s.step config a = some s') :
    config.LastPoseLoads s'.shared.maps name := by
  intro contents hdirectory
  cases lastPoseMove_of_step hstep hdirectory with
  | same before hbefore hsame =>
    rcases h.file before hbefore with hnone | ⟨pose, hload⟩
    · exact Or.inl (hsame.trans hnone)
    · exact Or.inr ⟨pose, (loadLastPose_congr config hdirectory hbefore hsame).trans hload⟩
  | none hnone => exact Or.inl hnone
  | written request before _ hsaving hname _ hwritten =>
    subst hname
    obtain ⟨pose, hload, -⟩ :=
      (h.requests request (Or.inl (Or.inr hsaving))).loadsSaved hdirectory hwritten
    exact Or.inr ⟨pose, hload⟩

theorem Sys.SavesLoadable.step {config : Config} {name : String} {s s' : Sys} {a : Action}
    (hstarts : ∀ handler, s.handler = some handler → handler.StartsSaving)
    (h : s.SavesLoadable config name) (hok : capturesStorable config s a)
    (hstep : s.step config a = some s') : s'.SavesLoadable config name := by
  refine ⟨h.framed.step hstep, fun saver map hsaver ↦ ?_, fun request hrequest ↦ ?_,
    h.file_step hstep⟩
  · cases saverMove_of_step hstarts hstep hsaver with
    | stays hstays _ => exact h.root saver map hstays
    | begins hpc => cases hpc
    | moves before _ hnext => exact root_of_checkPath hnext
  · rcases onItsWay_of_step hstarts hstep hrequest with hbefore | ⟨saver, hcaptures⟩
    · exact h.requests request hbefore
    · exact h.captured hok hcaptures

theorem savesLoadable_of_reaches {config : Config} {name : String} {s : Sys}
    (h : Reaches (Sys.step config) (capturesStorable config)
      (fun s ↦ s.Initial ∧ config.LastPoseLoads s.shared.maps name) s) :
    s.SavesLoadable config name := by
  refine Reaches.invariant_of
    (Q := fun s : Sys ↦ ∀ handler, s.handler = some handler → handler.StartsSaving)
    (fun s hs ↦ ?_) (fun s hinit ↦ ?_)
    (fun s a s' hstarts hs hok hstep ↦ hs.step hstarts hok hstep) h
  · obtain ⟨start, hinit, hsteps⟩ := hs
    exact Reachable.startsSaving ⟨start, hinit.1, hsteps.mono fun _ _ _ ↦ trivial⟩
  · obtain ⟨hinit, hfile⟩ := hinit
    refine ⟨hinit.framed, fun saver map hsaver ↦ ?_, fun request hrequest ↦ ?_, hfile⟩
    · cases saver <;> simp [Sys.saver, hinit.handler, hinit.operation] at hsaver
    · rcases hrequest with hrequested | ⟨saver, hsaver⟩
      · rw [Requested, hinit.adapter] at hrequested
        rcases hrequested with hnone | hnone <;> cases hnone
      · cases saver <;> simp [Sys.saver, hinit.handler, hinit.operation] at hsaver

/-- Last poses are loadable in a run that copies no trusted pose with a value that is not finite or
with a zero quaternion: in a directory where the run has begun with a file that is absent or
loadable, the file is absent or loadable, and after a write the reader yields the frame and the
position that were saved and the orientation normalised. -/
theorem last_pose_loadable (config : Config) (name : String) (s : Sys)
    (h : Reaches (Sys.step config) (capturesStorable config)
      (fun s ↦ s.Initial ∧ config.LastPoseLoads s.shared.maps name) s) :
    config.LastPoseLoads s.shared.maps name ∧
      ∀ request s', s.shared.adapter.saving = some request →
        s.step config (.writeSave none) = some s' →
        (directory? s.shared.maps request.map).isSome = true →
        config.LoadsSaved s'.shared.maps request := by
  have hsaves := savesLoadable_of_reaches h
  refine ⟨hsaves.file, fun request s' hsaving hwrite hexists ↦ ?_⟩
  obtain ⟨before, hbefore⟩ := Option.isSome_iff_exists.mp hexists
  simp only [Sys.step, hsaving, Option.map_some, Option.some.injEq] at hwrite
  subst hwrite
  have hwritten : directory? (s.shared.writeSave request none).maps request.map =
      some (storeLastPose request before) := by
    simp [Shared.writeSave, directory?_updateDirectory, hbefore, storeLastPose]
  exact (hsaves.requests request (Or.inl (Or.inr hsaving))).loadsSaved hwritten rfl

/-! ## Replays -/

/-- A number of ticks of the quality timer. -/
def evaluateQuality (frames : ℕ) : List Action :=
  (List.replicate frames (.call .qualityTimer :: List.replicate 3 (.handler readyEnv))).flatten

/-- A confirmed localization whose start has finished and whose pose the quality monitor calls
valid. -/
def trustedRun : List Action :=
  localizedRun ++ List.replicate 2 (.operation {}) ++
    [.callback 0 {}, .observe (.odometry (originAt 1) 0), .observe (.pose (originAt 1) 0),
      .observe (.correction (originAt 1) 0)] ++ evaluateQuality 10

/-- A pose on the x axis of the map frame, at a time. -/
def poseAt (x : Double) (stamp : Time) : StampedPose :=
  { frameId := "map"
    stamp := stamp
    pose := ⟨⟨x, .fin 0, .fin 0⟩, ⟨.fin 0, .fin 0, .fin 0, .fin 1⟩⟩ }

/-- A tick of the timer of the last pose that leaves a request, which the save worker takes. -/
def requestSave : List Action :=
  .call .lastPoseTimer :: List.replicate 5 (.handler {}) ++ [.takeSave]

theorem lastPose_storedMaps (names : List String) {name : String} {contents : MapDirectory}
    (h : directory? (storedMaps names) name = some contents) : contents.lastPose = none := by
  induction names with
  | nil => simp [storedMaps, directory?] at h
  | cons first names ih =>
    simp only [storedMaps, List.foldr_cons, directory?_insert] at h
    split at h
    · cases h
      rfl
    · exact ih h

theorem lastPoseLoads_storedMaps (config : Config) (names : List String) (name : String) :
    config.LastPoseLoads (storedMaps names) name :=
  fun _ h ↦ Or.inl (lastPose_storedMaps names h)

theorem capturesStorable_of_all {config : Config} {s : Sys} {a : Action}
    (h : ((s.captures a).all fun captured ↦
      RelocalizationAdapter.storable config.math captured.2.pose.value.pose) = true) :
    capturesStorable config s a := by
  intro saver request hcaptures
  rw [hcaptures] at h
  exact h

theorem reaches_storedMap (ok : Sys → Action → Prop) :
    Reaches (Sys.step {}) ok
      (fun s ↦ s.Initial ∧ ∀ name, Config.LastPoseLoads {} s.shared.maps name)
      (Sys.initial (storedMaps ["m"])) :=
  .start ⟨initial_initial _, lastPoseLoads_storedMaps {} ["m"]⟩

/-- A finite pose is saved and read back. -/
theorem last_pose_loadable_trustedRun :
    ∃ (s s' : Sys) (request : SaveRequest), s.shared.adapter.saving = some request ∧
      s.step {} (.writeSave none) = some s' ∧ Config.LoadsSaved {} s'.shared.maps request := by
  have hrun : ((execWith (Sys.step {}) (fun s a ↦ (s.captures a).all fun captured ↦
      RelocalizationAdapter.storable (Config.math {}) captured.2.pose.value.pose)
      (Sys.initial (storedMaps ["m"]))
      (trustedRun ++ runCallback 1 (.rawOdometry (poseAt (.fin 1) 2)) 4 2 ++ requestSave)).any
        fun s : Sys ↦ s.shared.adapter.saving.any fun request ↦
          (directory? s.shared.maps request.map).isSome) = true := by
    decide +kernel
  obtain ⟨s, hreach, htest⟩ :=
    (reaches_storedMap (capturesStorable {})).exists_of_execWith
      (fun _ _ ↦ capturesStorable_of_all) hrun
  obtain ⟨request, hsaving, hexists⟩ := (Option.any_eq_true _ _).mp htest
  obtain ⟨s', hwrite⟩ : ∃ s', s.step {} (.writeSave none) = some s' := by
    simp [Sys.step, hsaving]
  exact ⟨s, s', request, hsaving, hwrite,
    (last_pose_loadable {} request.map s
      (hreach.of_init fun _ hinit ↦ ⟨hinit.1, hinit.2 _⟩)).2 request s' hsaving hwrite hexists⟩

/-- Between a good evaluation and the next tick of the timer the trusted pose becomes a NaN; what is
written replaces a loadable file and is not loadable itself. -/
theorem last_pose_not_loadable :
    ∃ (s s' : Sys) (request : SaveRequest),
      Reaches (Sys.step {}) anyAction
        (fun s ↦ s.Initial ∧ Config.LastPoseLoads {} s.shared.maps request.map) s ∧
      s.shared.adapter.saving = some request ∧ s.step {} (.writeSave none) = some s' ∧
      (∃ pose, Config.loadLastPose {} s.shared.maps request.map = .ok pose) ∧
      ∃ what, Config.loadLastPose {} s'.shared.maps request.map = .error what := by
  have hrun : ((exec (Sys.step {}) (Sys.initial (storedMaps ["m"]))
      (trustedRun ++ runCallback 1 (.rawOdometry (poseAt (.fin 1) 2)) 4 2 ++ requestSave ++
        [.writeSave none] ++ runCallback 1 (.rawOdometry (poseAt .nan 3)) 4 3 ++ requestSave)).any
        fun s : Sys ↦ s.shared.adapter.saving.any fun request ↦
          (Config.loadLastPose {} s.shared.maps request.map).isOk &&
            (s.step {} (.writeSave none)).any fun s' : Sys ↦
              !(Config.loadLastPose {} s'.shared.maps request.map).isOk) = true := by
    decide +kernel
  obtain ⟨s, hreach, htest⟩ := (reaches_storedMap anyAction).exists_of_exec hrun
  obtain ⟨request, hsaving, htest⟩ := (Option.any_eq_true _ _).mp htest
  simp only [Bool.and_eq_true, Option.any_eq_true, Bool.not_eq_true'] at htest
  obtain ⟨hloads, s', hwrite, hfails⟩ := htest
  refine ⟨s, s', request, hreach.of_init fun _ hinit ↦ ⟨hinit.1, hinit.2 _⟩, hsaving, hwrite, ?_,
    ?_⟩
  · cases hload : Config.loadLastPose {} s.shared.maps request.map with
    | ok pose => exact ⟨pose, rfl⟩
    | error what =>
      rw [hload] at hloads
      cases hloads
  · cases hload : Config.loadLastPose {} s'.shared.maps request.map with
    | ok pose =>
      rw [hload] at hfails
      cases hfails
    | error what => exact ⟨what, rfl⟩

end Manager

end SlamSystemManager
