import SlamSystemManager.HealthMonitor

/-!
# The window of samples

Pruning pops from the front and the rate is taken from the two ends, so both rest on the order of
the samples. They are in order as long as nobody takes the mutex with a later reading of the clock
while a callback of the same sensor still waits with an earlier one.
-/

open Numeric TransitionSystem

namespace SlamSystemManager.HealthMonitor

/-! ## Sorted samples -/

section Samples

variable {samples : List Time} {now : Time} {windowSec : Double}

theorem duration_lt_of_le {sample other : Time} (h : sample ≤ other)
    (hold : windowSec.lt (duration now other) = true) :
    windowSec.lt (duration now sample) = true := by
  apply Double.lt_fin_mono _ hold
  unfold secondsBetween
  have hcast : (((now : ℤ) - (other : ℤ) : ℤ) : ℚ) ≤ ((now : ℤ) - (sample : ℤ) : ℤ) :=
    Int.cast_le.mpr (Int.sub_le_sub_left (Int.ofNat_le.mpr h) _)
  exact div_le_div_of_nonneg_right hcast (by positivity)

theorem pruneSamples_sublist (samples : List Time) (now : Time) (windowSec : Double) :
    (pruneSamples samples now windowSec).Sublist samples :=
  List.dropWhile_sublist _

/-- In sorted samples nothing behind the first one that is kept is older. -/
theorem fresh_of_pruneSamples (hsorted : samples.Pairwise (· ≤ ·)) :
    ∀ sample ∈ pruneSamples samples now windowSec,
      windowSec.lt (duration now sample) = false := by
  induction samples with
  | nil => simp [pruneSamples]
  | cons first samples ih =>
    obtain ⟨hfirst, hrest⟩ := List.pairwise_cons.mp hsorted
    by_cases hold : windowSec.lt (duration now first) = true
    · have hdropped : pruneSamples (first :: samples) now windowSec =
          pruneSamples samples now windowSec := List.dropWhile_cons_of_pos hold
      rw [hdropped]
      exact ih hrest
    · have hkept : pruneSamples (first :: samples) now windowSec = first :: samples :=
        List.dropWhile_cons_of_neg hold
      rw [hkept]
      intro sample hmem
      rw [← Bool.not_eq_true]
      intro holder
      rcases List.mem_cons.mp hmem with rfl | hmember
      · exact hold holder
      · exact hold (duration_lt_of_le (hfirst sample hmember) holder)

/-- The rate of the samples of a window, whatever their order. -/
def windowRate (samples : List Time) : Double :=
  match samples.min?, samples.max? with
  | some oldest, some newest =>
    if oldest < newest then
      .fin (((samples.length - 1 : ℕ) : ℚ) / secondsBetween newest oldest)
    else .fin 0
  | _, _ => .fin 0

theorem secondsBetween_pos_iff {later earlier : Time} :
    0 < secondsBetween later earlier ↔ earlier < later := by
  constructor
  · intro hpos
    by_contra hle
    rw [not_lt] at hle
    have hcast : (((later : ℤ) - (earlier : ℤ) : ℤ) : ℚ) ≤ 0 := Int.cast_nonpos.mpr
      (Int.sub_nonpos_of_le (Int.ofNat_le.mpr hle))
    exact absurd hpos (not_lt.mpr (div_nonpos_of_nonpos_of_nonneg hcast (by positivity)))
  · exact secondsBetween_pos

/-- The ends of sorted samples are their extremes. -/
theorem calculateFrequency_eq (hsorted : samples.Pairwise (· ≤ ·)) :
    calculateFrequency samples = windowRate samples := by
  cases samples with
  | nil => rfl
  | cons first rest =>
    have hmin : (first :: rest).min? = some first := by
      rw [List.min?_eq_some_iff]
      refine ⟨List.mem_cons_self, ?_⟩
      intro other hmem
      rcases List.mem_cons.mp hmem with rfl | hmember
      · exact le_rfl
      · exact (List.pairwise_cons.mp hsorted).1 other hmember
    have hlast : (first :: rest).getLastD 0 = (first :: rest).getLast (List.cons_ne_nil _ _) := by
      rw [List.getLastD_eq_getLast?, List.getLast?_eq_getLast_of_ne_nil (List.cons_ne_nil _ _)]
      rfl
    have hmax : (first :: rest).max? = some ((first :: rest).getLastD 0) := by
      rw [hlast, List.max?_eq_some_iff]
      refine ⟨List.getLast_mem _, ?_⟩
      intro other hmem
      exact hsorted.rel_getLast hmem
    unfold calculateFrequency windowRate
    rw [hmin, hmax]
    by_cases hfew : (first :: rest).length < 2
    · have hrest : rest = [] := by
        cases rest with
        | nil => rfl
        | cons second rest => exact absurd hfew (by simp)
      subst hrest
      simp
    · simp only [hfew, if_false, List.headD_cons, secondsBetween_pos_iff]

end Samples

/-! ## One section -/

/-- What the section of a call that has read the time `now` has to leave behind. -/
structure Intact (monitor : HealthMonitor) (call : Call) (now : Time) : Prop where
  sorted : ∀ sensor, ((monitor.run now call).1.streams sensor).samples.Pairwise (· ≤ ·)
  fresh : ∀ sensor, call = .getStatus ∨ call.sensor? = some sensor →
    ∀ sample ∈ ((monitor.run now call).1.streams sensor).samples,
      monitor.config.frequencyWindowSec.lt (duration now sample) = false
  forward : ∀ sensor,
    (monitor.streams sensor).lastTime ≤ ((monitor.run now call).1.streams sensor).lastTime
  rate : ∀ status, (monitor.run now call).2 = some status →
    status.pointcloudHz = windowRate ((monitor.run now call).1.streams .pointcloud).samples ∧
      status.imuHz = windowRate ((monitor.run now call).1.streams .imu).samples

/-- The samples of a stream are in order, none after the last message. -/
structure Ordered (stream : SensorStream) : Prop where
  sorted : stream.samples.Pairwise (· ≤ ·)
  bounded : ∀ sample ∈ stream.samples, sample ≤ stream.lastTime

section Sections

variable {monitor : HealthMonitor} {now : Time}

theorem Ordered.observe {stream : SensorStream} (h : Ordered stream)
    (hlater : stream.lastTime ≤ now) (windowSec : Double) :
    Ordered (observe windowSec now stream) ∧
      ∀ sample ∈ (HealthMonitor.observe windowSec now stream).samples,
        windowSec.lt (duration now sample) = false := by
  have hsorted : (stream.samples ++ [now]).Pairwise (· ≤ ·) := by
    rw [List.pairwise_append]
    refine ⟨h.sorted, List.pairwise_singleton _ _, ?_⟩
    intro sample hsample other hother
    rw [List.mem_singleton.mp hother]
    exact (h.bounded sample hsample).trans hlater
  have hsublist := pruneSamples_sublist (stream.samples ++ [now]) now windowSec
  refine ⟨⟨hsorted.sublist hsublist, ?_⟩, fresh_of_pruneSamples hsorted⟩
  intro sample hsample
  rcases List.mem_append.mp (hsublist.subset hsample) with hbefore | hnew
  · exact (h.bounded sample hbefore).trans hlater
  · exact (List.mem_singleton.mp hnew).le

theorem ordered_prune (h : ∀ sensor, Ordered (monitor.streams sensor)) (sensor : Sensor) :
    Ordered ((monitor.prune now).streams sensor) := by
  have hsublist := pruneSamples_sublist (monitor.streams sensor).samples now
    monitor.config.frequencyWindowSec
  exact ⟨(h sensor).sorted.sublist hsublist,
    fun sample hsample ↦ (h sensor).bounded sample (hsublist.subset hsample)⟩

/-- A call of a sensor changes the stream of that sensor. -/
theorem streams_run_of_sensor (monitor : HealthMonitor) (now : Time) {call : Call}
    {sensor : Sensor} (h : call.sensor? = some sensor) :
    (monitor.run now call).1 = monitor.sensorCallback sensor now ∧
      (monitor.run now call).2 = none := by
  cases call with
  | pointcloudCallback =>
    cases h
    exact ⟨rfl, rfl⟩
  | imuCallback =>
    cases h
    exact ⟨rfl, rfl⟩
  | getStatus => cases h

theorem eq_getStatus_of_sensor {call : Call} (h : call.sensor? = none) : call = .getStatus := by
  cases call with
  | pointcloudCallback => cases h
  | imuCallback => cases h
  | getStatus => rfl

/-- The section of a call that comes after the last message of its sensor. -/
theorem intact_of_ordered (h : ∀ sensor, Ordered (monitor.streams sensor)) {call : Call}
    (hlater : ∀ sensor, call.sensor? = some sensor → (monitor.streams sensor).lastTime ≤ now) :
    Intact monitor call now ∧
      ∀ sensor, Ordered ((monitor.run now call).1.streams sensor) := by
  cases hcall : call.sensor? with
  | some sensor =>
    obtain ⟨hrun, hstatus⟩ := streams_run_of_sensor monitor now hcall
    obtain ⟨hobserved, hfresh⟩ :=
      (h sensor).observe (hlater sensor hcall) monitor.config.frequencyWindowSec
    have hordered : ∀ other, Ordered ((monitor.run now call).1.streams other) := by
      intro other
      rw [hrun]
      by_cases hsame : other = sensor
      · subst hsame
        simpa [sensorCallback] using hobserved
      · simpa [sensorCallback, hsame] using h other
    refine ⟨⟨fun other ↦ (hordered other).sorted, ?_, ?_, ?_⟩, hordered⟩
    · intro other hother sample hsample
      have hsame : sensor = other := by
        rcases hother with rfl | hother
        · cases hcall
        · rw [hcall] at hother
          exact Option.some.inj hother
      subst hsame
      rw [hrun] at hsample
      exact hfresh sample (by simpa [sensorCallback] using hsample)
    · intro other
      rw [hrun]
      by_cases hsame : other = sensor
      · subst hsame
        simpa [sensorCallback, observe] using hlater other hcall
      · simp [sensorCallback, hsame]
    · intro status hsome
      rw [hstatus] at hsome
      cases hsome
  | none =>
    obtain rfl := eq_getStatus_of_sensor hcall
    have hordered : ∀ sensor, Ordered ((monitor.prune now).streams sensor) := ordered_prune h
    refine ⟨⟨fun sensor ↦ (hordered sensor).sorted, ?_, fun _ ↦ le_rfl, ?_⟩, hordered⟩
    · intro sensor _
      exact fresh_of_pruneSamples (h sensor).sorted
    · intro status hsome
      cases hsome
      exact ⟨calculateFrequency_eq (hordered .pointcloud).sorted,
        calculateFrequency_eq (hordered .imu).sorted⟩

end Sections

/-! ## Every run -/

/-- Nobody takes the mutex for a message while a message of the same sensor with an earlier time
still waits. -/
def InReadingOrder (s : Sys) : Action → Prop
  | .lock caller => ∀ call now sensor, s.waiting caller = some (call, now) →
      call.sensor? = some sensor →
      ∀ other call' now', s.waiting other = some (call', now') → call'.sensor? = some sensor →
        now ≤ now'
  | _ => True

/-- The samples are in order, and whoever waits has read the clock after the last message. -/
structure Ahead (s : Sys) : Prop where
  ordered : ∀ sensor, Ordered (s.monitor.streams sensor)
  waiting : ∀ caller call now sensor, s.waiting caller = some (call, now) →
    call.sensor? = some sensor → (s.monitor.streams sensor).lastTime ≤ now
  clock : ∀ sensor, (s.monitor.streams sensor).lastTime ≤ s.clock
  read : ∀ caller call now, s.waiting caller = some (call, now) → now ≤ s.clock

theorem ahead_of_started {s : Sys} (h : Started s) : Ahead s := by
  obtain ⟨_, hstreams, hwaiting⟩ := h
  constructor
  · intro sensor
    rw [hstreams]
    exact ⟨.nil, by simp⟩
  · simp [hwaiting]
  · simp [hstreams]
  · simp [hwaiting]

/-- The time of the last message after a section. -/
theorem lastTime_run {monitor : HealthMonitor} (call : Call) (now : Time) (sensor : Sensor) :
    ((monitor.run now call).1.streams sensor).lastTime =
      if call.sensor? = some sensor then now else (monitor.streams sensor).lastTime := by
  cases hcall : call.sensor? with
  | some other =>
    rw [(streams_run_of_sensor monitor now hcall).1]
    by_cases hsame : sensor = other
    · subst hsame
      simp [sensorCallback, observe]
    · have hne : other ≠ sensor := fun h ↦ hsame h.symm
      simp [sensorCallback, hsame, hne]
  | none =>
    obtain rfl := eq_getStatus_of_sensor hcall
    rfl

theorem read_cases {s s' : Sys} {caller : ℕ} {call : Call}
    (h : step s (.read caller call) = some s') :
    s'.monitor = s.monitor ∧ s'.clock = s.clock ∧
      ∀ other reading, s'.waiting other = some reading →
        reading = (call, s.clock) ∨ s.waiting other = some reading := by
  rw [step, Option.ite_none_right_eq_some] at h
  obtain ⟨_, h⟩ := h
  cases h
  refine ⟨rfl, rfl, ?_⟩
  intro other reading hwaits
  by_cases hsame : other = caller
  · left
    simpa [hsame, eq_comm] using hwaits
  · right
    simpa [hsame] using hwaits

theorem lock_cases {s s' : Sys} {caller : ℕ} (h : step s (.lock caller) = some s') :
    ∃ call now, s.waiting caller = some (call, now) ∧ s'.monitor = (s.monitor.run now call).1 ∧
      s'.clock = s.clock ∧
      ∀ other reading, s'.waiting other = some reading → s.waiting other = some reading := by
  rw [step] at h
  split at h
  · cases h
  · rename_i call now hcaller
    cases h
    refine ⟨call, now, hcaller, rfl, rfl, ?_⟩
    intro other reading hwaits
    by_cases hsame : other = caller
    · simp [hsame] at hwaits
    · simpa [hsame] using hwaits

theorem Ahead.step {s s' : Sys} {action : Action} (h : Ahead s) (hok : InReadingOrder s action)
    (hstep : step s action = some s') : Ahead s' := by
  cases action with
  | pass elapsed =>
    cases hstep
    exact ⟨h.ordered, h.waiting, fun sensor ↦ (h.clock sensor).trans (Nat.le_add_right _ _),
      fun caller call now hwaits ↦ (h.read caller call now hwaits).trans (Nat.le_add_right _ _)⟩
  | read caller call =>
    obtain ⟨hmonitor, hclock, hwaiting⟩ := read_cases hstep
    refine ⟨by rw [hmonitor]; exact h.ordered, ?_, by rw [hmonitor, hclock]; exact h.clock, ?_⟩
    · intro other call' now sensor hwaits hsensor
      rw [hmonitor]
      rcases hwaiting other _ hwaits with hnew | hbefore
      · cases hnew
        exact h.clock sensor
      · exact h.waiting other call' now sensor hbefore hsensor
    · intro other call' now hwaits
      rw [hclock]
      rcases hwaiting other _ hwaits with hnew | hbefore
      · cases hnew
        exact le_rfl
      · exact h.read other call' now hbefore
  | lock caller =>
    obtain ⟨call, now, hcaller, hmonitor, hclock, hwaiting⟩ := lock_cases hstep
    have hordered := (intact_of_ordered h.ordered
      (fun sensor hsensor ↦ h.waiting caller call now sensor hcaller hsensor)).2
    refine ⟨by rw [hmonitor]; exact hordered, ?_, ?_, ?_⟩
    · intro other call' now' sensor hwaits hsensor
      have hbefore := hwaiting other _ hwaits
      rw [hmonitor, lastTime_run]
      split_ifs with hcall
      · exact hok call now sensor hcaller hcall other call' now' hbefore hsensor
      · exact h.waiting other call' now' sensor hbefore hsensor
    · intro sensor
      rw [hmonitor, hclock, lastTime_run]
      split_ifs
      · exact h.read caller call now hcaller
      · exact h.clock sensor
    · intro other call' now' hwaits
      rw [hclock]
      exact h.read other call' now' (hwaiting other _ hwaits)

def freshSys : Sys := ⟨{}, 1000000000, fun _ ↦ none⟩

theorem started_freshSys : Started freshSys := ⟨by decide, rfl, rfl⟩

/-- The message that has read the clock first stores its time last. -/
def overtaking : List Action :=
  [.read 0 .pointcloudCallback, .pass 1000000000, .read 1 .pointcloudCallback, .lock 1, .lock 0,
    .pass 1500000000, .read 2 .getStatus]

def overtaken : Sys := (exec step freshSys overtaking).getD freshSys

end SlamSystemManager.HealthMonitor
