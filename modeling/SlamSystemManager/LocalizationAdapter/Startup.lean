import SlamSystemManager.LocalizationAdapter

/-!
# Whether a healthy start succeeds

The loop returns ready in an iteration that begins before the deadline and reads the clock again at
the stability time or later. The check of the configuration leaves no room between the two where
they are equal, and the clock need not meet the room it leaves.
-/

open Numeric PosixPath TransitionSystem

namespace SlamSystemManager.LocalizationAdapter

/-- The clock goes forward, and an iteration that goes on sleeps for 100 ms. -/
structure Advances (around : Surroundings) : Prop where
  starts : around.startedAt ≤ (around.polls 0).loopTime
  checks : ∀ index, (around.polls index).loopTime ≤ (around.polls index).checkTime
  sleeps : ∀ index,
    (around.polls index).checkTime + 100000000 ≤ (around.polls (index + 1)).loopTime

/-- The process stays alive and every required topic has a publisher from the beginning. -/
def Healthy (config : LocalizationAdapterConfig) (around : Surroundings) : Prop :=
  ∀ index, (around.polls index).running = true ∧
    ∀ topic ∈ config.requiredTopics, (around.polls index).published topic = true

/-- A healthy process is started, whatever the bound on the iterations from some on, and no process
is left behind by a start that fails. -/
structure StartsReliably (config : LocalizationAdapterConfig) (around : Surroundings)
    (mapPath : Option Path) : Prop where
  succeeds : Healthy config around →
    ∃ bound, ∀ fuel ≥ bound, start config around mapPath fuel = some ⟨.ok (), true⟩
  stops : ∀ fuel outcome, start config around mapPath fuel = some outcome →
    outcome.result.isOk = false → around.stopProcess = .ok () → outcome.running = false

/-- Some iteration begins before the deadline and reads the clock again when the process counts as
stable. -/
def PollsInWindow (config : LocalizationAdapterConfig) (around : Surroundings) : Prop :=
  ∃ index, ((around.polls index).loopTime : ℤ) < deadline config around ∧
    stableAt config around ≤ (around.polls index).checkTime

section Loop

variable {config : LocalizationAdapterConfig} {around : Surroundings} {mapPath : Option Path}

theorem Advances.next (h : Advances around) (index : ℕ) :
    (around.polls index).loopTime + 100000000 ≤ (around.polls (index + 1)).loopTime :=
  (Nat.add_le_add_right (h.checks index) _).trans (h.sleeps index)

theorem Advances.loopTime_mono (h : Advances around) :
    Monotone fun index ↦ (around.polls index).loopTime :=
  monotone_nat_of_le_succ fun index ↦ (Nat.le_add_right _ _).trans (h.next index)

/-- The loop ends: every iteration takes 100 ms of what is left until the deadline. -/
theorem pollLoop_isSome (h : Advances around) {fuel index : ℕ} {missing : List String}
    (hfuel : deadline config around ≤ (around.polls index).loopTime + fuel * 100000000) :
    (pollLoop config.requiredTopics (deadline config around) (stableAt config around) around.polls
      (fuel + 1) index missing).isSome = true := by
  induction fuel generalizing index missing with
  | zero =>
    have hlate : deadline config around ≤ (around.polls index).loopTime := by simpa using hfuel
    simp [pollLoop, Poll.result, hlate]
  | succ fuel ih =>
    rw [pollLoop]
    cases (around.polls index).result config.requiredTopics (deadline config around)
        (stableAt config around) with
    | timedOut => rfl
    | exited exitCode => rfl
    | ready => rfl
    | again missing =>
      apply ih
      have hnext : ((around.polls index).loopTime : ℤ) + 100000000 ≤
          (around.polls (index + 1)).loopTime := by exact_mod_cast h.next index
      push_cast at hfuel
      omega

theorem window_of_ready {fuel index : ℕ} {missing : List String}
    (h : pollLoop config.requiredTopics (deadline config around) (stableAt config around)
      around.polls fuel index missing = some .ready) : PollsInWindow config around := by
  induction fuel generalizing index missing with
  | zero => cases h
  | succ fuel ih =>
    rw [pollLoop] at h
    cases hresult : (around.polls index).result config.requiredTopics (deadline config around)
        (stableAt config around) with
    | timedOut =>
      rw [hresult] at h
      cases h
    | exited exitCode =>
      rw [hresult] at h
      cases h
    | ready =>
      unfold Poll.result at hresult
      split_ifs at hresult with hlate hexited hstable
      exact ⟨index, not_le.mp hlate, hstable⟩
    | again missing =>
      rw [hresult] at h
      exact ih h

theorem missingTopics_of_healthy (h : Healthy config around) (index : ℕ) :
    (around.polls index).missingTopics config.requiredTopics = [] := by
  unfold Poll.missingTopics
  rw [List.filter_eq_nil_iff]
  intro topic hmem
  simp [(h index).2 topic hmem]

/-- A healthy loop goes on until an iteration is in the window. -/
theorem ready_of_window (hclock : Advances around) (hhealthy : Healthy config around)
    {last : ℕ} (hearly : ((around.polls last).loopTime : ℤ) < deadline config around)
    (hstable : stableAt config around ≤ (around.polls last).checkTime) {fuel index : ℕ}
    {missing : List String} (hindex : index ≤ last) (hfuel : last < index + fuel) :
    pollLoop config.requiredTopics (deadline config around) (stableAt config around) around.polls
      fuel index missing = some .ready := by
  induction fuel generalizing index missing with
  | zero => omega
  | succ fuel ih =>
    have hnow : ¬ deadline config around ≤ (around.polls index).loopTime := by
      have hle : ((around.polls index).loopTime : ℤ) ≤ (around.polls last).loopTime := by
        exact_mod_cast hclock.loopTime_mono hindex
      omega
    have hrunning := (hhealthy index).1
    rw [pollLoop]
    by_cases hcheck : stableAt config around ≤ (around.polls index).checkTime
    · simp [Poll.result, hnow, hrunning, hcheck, missingTopics_of_healthy hhealthy]
    · have hlast : index ≠ last := by
        rintro rfl
        exact hcheck hstable
      simp only [Poll.result, hnow, if_false, hrunning, Bool.true_eq_false, hcheck]
      exact ih (by omega) (by omega)

theorem start_of_checks (hmap : checkMap around mapPath = .ok ())
    (hstarted : around.startProcess = .ok ()) (fuel : ℕ) :
    start config around mapPath fuel =
      (pollLoop config.requiredTopics (deadline config around) (stableAt config around)
        around.polls fuel 0 []).map (afterLoop config around) := by
  simp [start, hmap, hstarted]

/-- `start` returns, whatever happens to the process and the topics. -/
theorem start_returns (h : Advances around) (mapPath : Option Path) :
    ∃ fuel, (start config around mapPath fuel).isSome = true := by
  unfold start
  cases checkMap around mapPath with
  | error what => exact ⟨0, rfl⟩
  | ok _ =>
    cases around.startProcess with
    | error what => exact ⟨0, rfl⟩
    | ok _ =>
      refine ⟨(deadline config around - around.startedAt).toNat + 1, ?_⟩
      rw [Option.isSome_map]
      apply pollLoop_isSome h
      have hstarts : (around.startedAt : ℤ) ≤ (around.polls 0).loopTime := by
        exact_mod_cast h.starts
      omega

theorem stops_of_failure {e : LoopEnd} (h : (afterLoop config around e).result.isOk = false)
    (hstop : around.stopProcess = .ok ()) : (afterLoop config around e).running = false := by
  cases e with
  | ready => cases h
  | exited exitCode => rfl
  | timedOut missing => simp [afterLoop, hstop]

end Loop

/-! ## Room between the two times -/

/-- The iterations follow one another within a period, the first one included. -/
structure WithinPeriod (config : LocalizationAdapterConfig) (around : Surroundings) (period : ℤ) :
    Prop where
  first : ((around.polls 0).loopTime : ℤ) < stableAt config around + period
  next : ∀ index,
    ((around.polls (index + 1)).loopTime : ℤ) ≤ (around.polls index).checkTime + period

/-- A timeout that exceeds the stability time by a period is enough. -/
theorem window_of_margin {config : LocalizationAdapterConfig} {around : Surroundings} {period : ℤ}
    (hclock : Advances around) (hperiod : WithinPeriod config around period)
    (hmargin : stableAt config around + period ≤ deadline config around) :
    PollsInWindow config around := by
  have hreached : ∃ index, stableAt config around ≤ (around.polls index).checkTime := by
    have hlower : ∀ index : ℕ, (index : ℤ) ≤ (around.polls index).checkTime := by
      intro index
      induction index with
      | zero => exact_mod_cast Nat.zero_le _
      | succ index ih =>
        have hsleeps : ((around.polls index).checkTime : ℤ) + 100000000 ≤
            (around.polls (index + 1)).loopTime := by exact_mod_cast hclock.sleeps index
        have hchecks : ((around.polls (index + 1)).loopTime : ℤ) ≤
            (around.polls (index + 1)).checkTime := by exact_mod_cast hclock.checks (index + 1)
        push_cast
        omega
    exact ⟨(stableAt config around).toNat, (Int.self_le_toNat _).trans (hlower _)⟩
  obtain ⟨index, hstable, hfirst⟩ := Nat.findX hreached
  refine ⟨index, ?_, hstable⟩
  cases index with
  | zero => exact hperiod.first.trans_le hmargin
  | succ index =>
    have hbefore := hfirst index (Nat.lt_succ_self index)
    have hnext := hperiod.next index
    omega

/-! ## Starts -/

/-- An iteration in the window is enough: a healthy process is started, and none is left behind by a
start that fails. -/
theorem startsReliably_of_window {config : LocalizationAdapterConfig} {around : Surroundings}
    {mapPath : Option Path} (hclock : Advances around) (hmap : checkMap around mapPath = .ok ())
    (hstarted : around.startProcess = .ok ())
    (hwindow : Healthy config around → PollsInWindow config around) :
    StartsReliably config around mapPath := by
  constructor
  · intro hhealthy
    obtain ⟨last, hearly, hstable⟩ := hwindow hhealthy
    refine ⟨last + 1, ?_⟩
    intro fuel hfuel
    rw [start_of_checks hmap hstarted,
      ready_of_window hclock hhealthy hearly hstable (Nat.zero_le _) (by omega)]
    rfl
  · intro fuel outcome hstart hfailed hstop
    rw [start_of_checks hmap hstarted, Option.map_eq_some_iff] at hstart
    obtain ⟨loopEnd, _, rfl⟩ := hstart
    exact stops_of_failure hfailed hstop

/-- What a configuration can promise before a start: with a timeout that exceeds the stability time
by the longest iteration, a healthy process is always started. -/
theorem startsReliably_of_margin {config : LocalizationAdapterConfig} {around : Surroundings}
    {mapPath : Option Path} {period : ℤ} (hclock : Advances around)
    (hmap : checkMap around mapPath = .ok ()) (hstarted : around.startProcess = .ok ())
    (hperiod : WithinPeriod config around period)
    (hmargin : stableAt config around + period ≤ deadline config around) :
    StartsReliably config around mapPath :=
  startsReliably_of_window hclock hmap hstarted fun _ ↦ window_of_margin hclock hperiod hmargin

/-- For every configuration, every clock and every start of the process with a valid map: a healthy
process is started and none is left behind exactly when an iteration falls into the window. -/
theorem startsReliably_iff (config : LocalizationAdapterConfig) (around : Surroundings)
    (mapPath : Option Path) (hclock : Advances around) (hmap : checkMap around mapPath = .ok ())
    (hstarted : around.startProcess = .ok ()) :
    StartsReliably config around mapPath ↔
      (Healthy config around → PollsInWindow config around) := by
  constructor
  · intro h hhealthy
    obtain ⟨bound, hbound⟩ := h.succeeds hhealthy
    have hstart := hbound bound le_rfl
    rw [start_of_checks hmap hstarted, Option.map_eq_some_iff] at hstart
    obtain ⟨loopEnd, hloop, hafter⟩ := hstart
    cases loopEnd with
    | ready => exact window_of_ready hloop
    | exited exitCode => cases hafter
    | timedOut missing => cases hafter
  · exact startsReliably_of_window hclock hmap hstarted

/-- Iterations that take their sleep and nothing else. -/
def steadyClock : Surroundings where
  startedAt := 0
  polls index := { loopTime := index * 100000000, checkTime := index * 100000000 }

def mapFile : Option Path := some ⟨["maps", "lab", "map.pcd"]⟩

theorem advances_steadyClock : Advances steadyClock :=
  ⟨le_rfl, fun _ ↦ le_rfl, fun index ↦ (Nat.succ_mul index 100000000).ge⟩

theorem checkMap_mapFile : checkMap steadyClock mapFile = .ok () := by
  decide

/-- The default timing of 20 s and 1 s. -/
theorem startsReliably_iff_default :
    PollsInWindow {} steadyClock ∧
      (StartsReliably {} steadyClock mapFile ↔
        (Healthy {} steadyClock → PollsInWindow {} steadyClock)) := by
  refine ⟨⟨10, ?_, ?_⟩,
    startsReliably_iff {} steadyClock mapFile advances_steadyClock checkMap_mapFile rfl⟩
  · decide +kernel
  · decide +kernel

def equalTimes : LocalizationAdapterConfig where
  startupTimeoutSec := .fin 1
  startupStabilitySec := .fin 1

/-- A timing that is accepted and refuses a process with nothing wrong: the last iteration begins at
0.9 s, and at 1 s the loop is over. -/
theorem startsReliably_equalTimes :
    loadConfig (some ⟨some (.ok (.fin 1)), some (.ok (.fin 1)), some (.ok [])⟩) = .ok equalTimes ∧
      Advances steadyClock ∧ Healthy equalTimes steadyClock ∧
      checkMap steadyClock mapFile = .ok () ∧
      start equalTimes steadyClock mapFile 11 =
        some ⟨.error ("Localization was not ready within " ++
          " seconds (process did not remain stable)"), false⟩ ∧
      ¬ StartsReliably equalTimes steadyClock mapFile := by
  have hhealthy : Healthy equalTimes steadyClock := fun _ ↦ ⟨rfl, fun _ _ ↦ rfl⟩
  have hdeadline : deadline equalTimes steadyClock = 1000000000 := by decide +kernel
  have hstable : stableAt equalTimes steadyClock = 1000000000 := by decide +kernel
  have hnever : ¬ PollsInWindow equalTimes steadyClock := by
    rintro ⟨index, hearly, hlate⟩
    rw [hdeadline] at hearly
    rw [hstable] at hlate
    exact absurd hlate (not_le.mpr hearly)
  refine ⟨rfl, advances_steadyClock, hhealthy, checkMap_mapFile, ?_, ?_⟩
  · rw [start_of_checks checkMap_mapFile rfl, hdeadline, hstable]
    rfl
  · intro h
    obtain ⟨bound, hbound⟩ := h.succeeds hhealthy
    have hstart := hbound bound le_rfl
    rw [start_of_checks checkMap_mapFile rfl, Option.map_eq_some_iff] at hstart
    obtain ⟨loopEnd, hloop, hafter⟩ := hstart
    cases loopEnd with
    | ready => exact hnever (window_of_ready hloop)
    | exited exitCode => cases hafter
    | timedOut missing => cases hafter

/-! ## The loop of the operation thread -/

/-- Where the loop of the operation thread goes on when it ends so. -/
def LoopEnd.point : LoopEnd → Manager.StartLocalization
  | .timedOut missing => .stopTimedOut (joinTopics missing) .lookup
  | .exited _ => .readExitCode
  | .ready => .started

/-- A step of the start on the operation thread, for what it meets in the shared state and in its
environment. -/
def operationStep (config : Manager.Config) (map : String) (point : Manager.StartLocalization)
    (met : Manager.Shared × Manager.Env) : Option Manager.StartLocalization :=
  match (point.step config met.2 map met.1).2 with
  | .startLocalization _ next => some next
  | _ => none

/-- Whatever the loop does against the clock, the operation thread can do against its
environment. -/
theorem operation_of_pollLoop (config : Manager.Config) (map : String)
    {requiredTopics : List String} {deadline stableAt : ℤ} {polls : ℕ → Poll} {fuel index : ℕ}
    {missing : List String} {loopEnd : LoopEnd}
    (h : pollLoop requiredTopics deadline stableAt polls fuel index missing = some loopEnd) :
    Steps (operationStep config map) anyAction (.poll (joinTopics missing)) loopEnd.point := by
  induction fuel generalizing index missing with
  | zero => cases h
  | succ fuel ih =>
    rw [pollLoop] at h
    have hpoll :
        Steps (operationStep config map) anyAction (.poll (joinTopics missing)) .pollAlive :=
      Steps.refl.tail (a := ({}, {})) trivial rfl
    have halive : Steps (operationStep config map) anyAction (.poll (joinTopics missing))
        .pollTopics :=
      hpoll.tail (a := (({} : Manager.Shared).fork .localization map, {})) trivial
        (by simp [operationStep, Manager.StartLocalization.step, Manager.Shared.isRunning,
          Manager.Shared.fork, Manager.Shared.setProcess])
    cases hresult : (polls index).result requiredTopics deadline stableAt with
    | timedOut =>
      rw [hresult] at h
      cases h
      exact Steps.refl.tail (a := ({}, { timedOut := true })) trivial rfl
    | exited exitCode =>
      rw [hresult] at h
      cases h
      exact hpoll.tail (a := ({}, {})) trivial rfl
    | ready =>
      rw [hresult] at h
      cases h
      exact halive.tail (a := ({}, { available := true })) trivial rfl
    | again later =>
      rw [hresult] at h
      have hagain := halive.tail (a := ({}, { available := false, text := joinTopics later }))
        trivial rfl
      exact hagain.trans (ih h)

end SlamSystemManager.LocalizationAdapter
