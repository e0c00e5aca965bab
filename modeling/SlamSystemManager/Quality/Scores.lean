import SlamSystemManager.Quality.Registration

/-!
# Partial scores and their weighted average

Every partial score lies between zero and one and every accepted weight is not negative, unless it
is a NaN; a weight may be infinite, and a sum of weights may overflow. So is the confidence: it lies
between zero and one, or it is a NaN, which is below no threshold. Rounding changes none of this,
because it is monotone and keeps zero and one.
-/

open Numeric Numeric.Rounding

namespace SlamSystemManager.Quality

/-- A score between zero and one, or a NaN. -/
def UnitScore (score : Double) : Prop :=
  score = .nan ∨ ∃ q : ℚ, score = .fin q ∧ 0 ≤ q ∧ q ≤ 1

/-- What is read and passes the check for negative weights. -/
def AcceptedWeight [Rounding] (weight : Double) : Prop :=
  weight.IsValue ∧ (weight = .nan ∨ weight.NotNegative)

theorem acceptedWeight_of_not_lt [Rounding] {weight : Double} (hvalue : weight.IsValue)
    (h : weight.lt (.fin 0) = false) : AcceptedWeight weight := by
  refine ⟨hvalue, ?_⟩
  cases weight with
  | nan => exact Or.inl rfl
  | inf negative =>
    cases negative with
    | false => exact Or.inr rfl
    | true => cases h
  | fin q => exact Or.inr (Double.notNegative_fin (by simpa using h))

/-! ## The partial scores -/

theorem unitScore_fin {q : ℚ} (h0 : 0 ≤ q) (h1 : q ≤ 1) : UnitScore (.fin q) :=
  Or.inr ⟨q, rfl, h0, h1⟩

theorem clamp01_fin (q : ℚ) : clamp01 (.fin q) = .fin (max 0 (min q 1)) := by
  unfold clamp01 Double.clamp
  simp only [Double.lt_fin_fin, decide_eq_true_eq]
  split_ifs with hlow hhigh
  · rw [max_eq_left (min_le_of_left_le hlow.le)]
  · rw [min_eq_right hhigh.le, max_eq_right zero_le_one]
  · rw [min_eq_left (not_lt.mp hhigh), max_eq_right (not_lt.mp hlow)]

theorem unitScore_clamp01 (x : Double) : UnitScore (clamp01 x) := by
  cases x with
  | nan => exact Or.inl rfl
  | inf negative =>
    cases negative with
    | false => exact unitScore_fin zero_le_one le_rfl
    | true => exact unitScore_fin le_rfl zero_le_one
  | fin q =>
    rw [clamp01_fin]
    exact unitScore_fin (le_max_left _ _) (max_le zero_le_one (min_le_right _ _))

/-- A score is its own value between the bounds. -/
theorem clamp01_of_unitScore {score : Double} (h : UnitScore score) : clamp01 score = score := by
  obtain rfl | ⟨q, rfl, h0, h1⟩ := h
  · rfl
  · rw [clamp01_fin, min_eq_left h1, max_eq_right h0]

section Metrics

variable [Rounding]

theorem unitScore_freshnessScore (age timeout : Double) :
    UnitScore (freshnessScore age timeout) := by
  unfold freshnessScore
  dsimp only
  split_ifs
  · exact unitScore_fin le_rfl zero_le_one
  · exact unitScore_fin zero_le_one le_rfl
  · exact unitScore_clamp01 _

theorem unitScore_motionScore (config : Config) (monitor : Monitor) :
    UnitScore (monitor.motionScore config) := by
  unfold Monitor.motionScore
  dsimp only
  split_ifs
  · exact unitScore_fin zero_le_one le_rfl
  · exact unitScore_clamp01 _

/-- Two tenth weights that sum up to one keep the sum of two scores a score. -/
theorem unitScore_weighted (k : ℕ) (hk : k ≤ 10) {p q : ℚ} (hp0 : 0 ≤ p) (hp1 : p ≤ 1)
    (hq0 : 0 ≤ q) (hq1 : q ≤ 1) :
    UnitScore (((Double.ofRat (k / 10)).mul (.fin p)).add
      ((Double.ofRat ((10 - k) / 10)).mul (.fin q))) := by
  have hk' : (k : ℚ) ≤ 10 := by exact_mod_cast hk
  -- one weighted score is at most its weight
  have hterm {w x : ℚ} (hw0 : 0 ≤ w) (hw1 : w ≤ 1) (hx0 : 0 ≤ x) (hx1 : x ≤ 1) :
      ∃ z : ℚ, (Double.ofRat w).mul (.fin x) = .fin z ∧ 0 ≤ z ∧ z ≤ nearest w := by
    obtain ⟨hround, hround0, -⟩ := Double.ofRat_of_mem representable_one hw0 hw1
    have hweight : Representable (nearest w) :=
      Double.isValue_ofRat w _ hround
    obtain ⟨hproduct, hproduct0, hproduct1⟩ := Double.ofRat_of_mem hweight
      (mul_nonneg hround0 hx0) (mul_le_of_le_one_right hround0 hx1)
    exact ⟨nearest (nearest w * x), by rw [hround, Double.mul_fin, hproduct], hproduct0, hproduct1⟩
  obtain ⟨s, hs, hs0, hs1⟩ := hterm (w := k / 10) (by positivity) (by linarith) hp0 hp1
  obtain ⟨t, ht, ht0, ht1⟩ := hterm (w := (10 - k) / 10) (by linarith) (by
    have hk0 : (0 : ℚ) ≤ k := by positivity
    linarith) hq0 hq1
  have hsum : nearest (s + t) ≤ 1 := by
    rw [← nearest_tenths k hk]
    exact nearest_mono (add_le_add hs1 ht1)
  have hsum0 : 0 ≤ nearest (s + t) := nearest_nonneg (add_nonneg hs0 ht0)
  rw [hs, ht, Double.add_fin, Double.ofRat_of_inRange]
  · exact unitScore_fin hsum0 hsum
  · apply overflows_eq_false _ representable_one.inRange
    rwa [abs_of_nonneg hsum0, abs_one]

theorem unitScore_registrationScore (config : Config) (monitor : Monitor) :
    UnitScore (monitor.registrationScore config) := by
  unfold Monitor.registrationScore
  dsimp only
  split_ifs
  · exact unitScore_fin le_rfl zero_le_one
  · obtain hfitness | ⟨p, hfitness, hp0, hp1⟩ := unitScore_clamp01
      ((monitor.registration.fitness.sub config.minRegistrationFitness).div
        ((Double.fin 1).sub config.minRegistrationFitness))
    · rw [hfitness]
      exact Or.inl (by simp [Double.mul])
    · obtain hresidual | ⟨q, hresidual, hq0, hq1⟩ := unitScore_clamp01
        ((Double.fin 1).sub (monitor.registration.meanResidual.div config.maxRegistrationResidualM))
      · rw [hfitness, hresidual]
        exact Or.inl (by simp [Double.mul])
      · rw [hfitness, hresidual]
        have hweighted := unitScore_weighted 7 (by norm_num) hp0 hp1 hq0 hq1
        norm_num at hweighted ⊢
        exact hweighted

/-- Every metric has an accepted weight and a score between zero and one. -/
theorem metrics_bounds {config : Config} (hconfig : Checked config) (monitor : Monitor) (now : Time)
    {metric : Double × Double} (h : metric ∈ monitor.metrics config now) :
    AcceptedWeight metric.1 ∧ UnitScore metric.2 := by
  unfold Monitor.metrics at h
  simp only [List.mem_append] at h
  obtain (hupdate | hmotion) | hregistration := h
  · split_ifs at hupdate
    · rw [List.mem_singleton.mp hupdate]
      exact ⟨acceptedWeight_of_not_lt (hconfig.values _ (by simp [Config.numbers]))
        hconfig.updateWeight, unitScore_freshnessScore _ _⟩
    · cases hupdate
  · split_ifs at hmotion
    · rw [List.mem_singleton.mp hmotion]
      exact ⟨acceptedWeight_of_not_lt (hconfig.values _ (by simp [Config.numbers]))
        hconfig.motionWeight, unitScore_motionScore _ _⟩
    · cases hmotion
  · split_ifs at hregistration
    · rw [List.mem_singleton.mp hregistration]
      exact ⟨acceptedWeight_of_not_lt (hconfig.values _ (by simp [Config.numbers]))
        hconfig.registrationWeight, unitScore_registrationScore _ _⟩
    · cases hregistration

/-! ## The weighted average -/

/-- What the sum of weighted scores can be beside the sum of the weights: a NaN, or at most as
large, both of them possibly infinite. -/
def Totals (score weight : Double) : Prop :=
  score = .nan ∨ (score.NotNegative ∧ score.le weight = true)

/-- The weighted score of one metric is at most its weight. -/
theorem weighted_le {metric : Double × Double} (hweight : AcceptedWeight metric.1)
    (hscore : UnitScore metric.2) : Totals (metric.1.mul metric.2) metric.1 := by
  obtain ⟨weight, score⟩ := metric
  obtain ⟨hvalue, hnan | hnotNegative⟩ := hweight
  · dsimp only at hnan ⊢
    rw [hnan]
    exact Or.inl rfl
  · obtain hnan | ⟨q, hq, hq0, hq1⟩ := hscore
    · dsimp only at hnan ⊢
      rw [hnan, Double.mul_nan_right]
      exact Or.inl rfl
    · dsimp only at hvalue hnotNegative hq ⊢
      rw [hq]
      obtain rfl | ⟨w, rfl, hw⟩ := hnotNegative.cases
      · by_cases hzero : q = 0
        · left
          simp [Double.mul, Double.scaleInf, hzero]
        · right
          rw [show (Double.inf false).mul (.fin q) = .inf false by
            simp [Double.mul, Double.scaleInf, hzero, not_lt.mpr hq0]]
          exact ⟨hnotNegative, hnotNegative.le_self⟩
      · obtain ⟨hproduct, h0, h1⟩ := Double.ofRat_of_mem (hvalue w rfl) (mul_nonneg hw hq0)
          (mul_le_of_le_one_right hw hq1)
        rw [Double.mul_fin, hproduct]
        exact Or.inr ⟨Double.notNegative_fin h0, by simpa using h1⟩

/-- One more metric. -/
theorem Totals.add {score weight term added : Double} (h : Totals score weight)
    (hterm : Totals term added) : Totals (score.add term) (weight.add added) := by
  obtain hscore | ⟨hscore0, hscore⟩ := h
  · rw [hscore]
    exact Or.inl rfl
  · obtain hterm | ⟨hterm0, hterm⟩ := hterm
    · rw [hterm, Double.add_nan_right]
      exact Or.inl rfl
    · exact Or.inr ⟨hscore0.add hterm0, hscore0.add_mono hscore hterm0 hterm⟩

theorem totals (metrics : List (Double × Double))
    (h : ∀ metric, metric ∈ metrics → AcceptedWeight metric.1 ∧ UnitScore metric.2) :
    Totals (weightedScore metrics) (availableWeight metrics) := by
  induction metrics using List.reverseRecOn with
  | nil => exact Or.inr ⟨Double.notNegative_fin le_rfl, rfl⟩
  | append_singleton metrics metric ih =>
    have hlast := h metric (by simp)
    have hbefore := ih fun other hother ↦ h other (by simp [hother])
    simp only [weightedScore, availableWeight, List.foldl_append, List.foldl_cons, List.foldl_nil]
    exact hbefore.add (weighted_le hlast.1 hlast.2)

theorem totals_metrics {config : Config} (hconfig : Checked config) (monitor : Monitor)
    (now : Time) :
    Totals (weightedScore (monitor.metrics config now))
      (availableWeight (monitor.metrics config now)) :=
  totals _ fun _ hmetric ↦ metrics_bounds hconfig monitor now hmetric

/-- The score of a frame without a fault. -/
def averageScore (metrics : List (Double × Double)) : Double :=
  if (Double.fin 0).lt (availableWeight metrics) then
    (weightedScore metrics).div (availableWeight metrics)
  else .fin 0

/-- The weighted average is already between zero and one. -/
theorem unitScore_averageScore {metrics : List (Double × Double)}
    (h : Totals (weightedScore metrics) (availableWeight metrics)) :
    UnitScore (averageScore metrics) := by
  unfold averageScore
  split_ifs with hpositive
  · obtain hnan | ⟨hscore, hle⟩ := h
    · rw [hnan]
      exact Or.inl rfl
    · obtain hinf | ⟨s, hs, hs0⟩ := hscore.cases
      · rw [hinf] at hle ⊢
        rw [Double.NotNegative.eq_inf hle]
        exact Or.inl rfl
      · obtain hinf | ⟨w, hw, -⟩ := (hscore.of_le hle).cases
        · rw [hs, hinf]
          exact unitScore_fin le_rfl zero_le_one
        · rw [hs, hw] at hle
          rw [hw] at hpositive
          have hwpos : 0 < w := of_decide_eq_true hpositive
          obtain ⟨hquotient, h0, h1⟩ := Double.ofRat_of_mem representable_one
            (div_nonneg hs0 hwpos.le) ((div_le_one hwpos).mpr (of_decide_eq_true hle))
          rw [hs, hw, Double.div_fin s hwpos.ne', hquotient]
          exact unitScore_fin h0 h1
  · exact unitScore_fin le_rfl zero_le_one

/-! ## When the average is a number -/

variable {metrics : List (Double × Double)}

theorem availableWeight_concat (metrics : List (Double × Double)) (metric : Double × Double) :
    availableWeight (metrics ++ [metric]) = (availableWeight metrics).add metric.1 := by
  simp [availableWeight]

theorem weightedScore_concat (metrics : List (Double × Double)) (metric : Double × Double) :
    weightedScore (metrics ++ [metric]) =
      (weightedScore metrics).add (metric.1.mul metric.2) := by
  simp [weightedScore]

theorem isValue_availableWeight (metrics : List (Double × Double)) :
    (availableWeight metrics).IsValue := by
  induction metrics using List.reverseRecOn with
  | nil =>
    rintro _ ⟨⟩
    exact representable_zero
  | append_singleton metrics last _ =>
    rw [availableWeight_concat]
    exact Double.isValue_add

/-- A finite sum of weighted scores has finite weights and scores. -/
theorem isFinite_of_weightedScore {s : ℚ} (h : weightedScore metrics = .fin s)
    {metric : Double × Double} (hmetric : metric ∈ metrics) :
    metric.1.isFinite = true ∧ metric.2.isFinite = true := by
  induction metrics using List.reverseRecOn generalizing s with
  | nil => cases hmetric
  | append_singleton metrics last ih =>
    rw [weightedScore_concat] at h
    obtain ⟨a, b, ha, hb, -⟩ := Double.exists_of_add_eq_fin h
    obtain hbefore | hlast := List.mem_append.mp hmetric
    · exact ih ha hbefore
    · rw [List.mem_singleton.mp hlast]
      exact Double.isFinite_of_mul_eq_fin hb

/-- A positive sum of weights with a number as the average has finite terms only. -/
theorem isFinite_of_averageScore (h : Totals (weightedScore metrics) (availableWeight metrics))
    (hpositive : (Double.fin 0).lt (availableWeight metrics) = true)
    (hnumber : averageScore metrics ≠ .nan) {metric : Double × Double}
    (hmetric : metric ∈ metrics) :
    metric.1.isFinite = true ∧ metric.2.isFinite = true := by
  unfold averageScore at hnumber
  rw [if_pos hpositive] at hnumber
  obtain hnan | ⟨hscore, hle⟩ := h
  · rw [hnan] at hnumber
    exact absurd rfl hnumber
  · obtain hinf | ⟨s, hs, -⟩ := hscore.cases
    · rw [hinf] at hle hnumber
      rw [Double.NotNegative.eq_inf hle] at hnumber
      exact absurd rfl hnumber
    · exact isFinite_of_weightedScore hs hmetric

theorem exists_positive_weight (h : (Double.fin 0).lt (availableWeight metrics) = true) :
    ∃ metric ∈ metrics, (Double.fin 0).lt metric.1 = true := by
  induction metrics using List.reverseRecOn with
  | nil => cases h
  | append_singleton metrics last ih =>
    rw [availableWeight_concat] at h
    obtain hbefore | hlast := Double.pos_or_pos_of_add h
    · obtain ⟨metric, hmetric, hpositive⟩ := ih hbefore
      exact ⟨metric, List.mem_append_left _ hmetric, hpositive⟩
    · exact ⟨last, by simp, hlast⟩

/-- A sum of accepted weights that is not positive has a NaN in it or only zeros. -/
theorem weights_of_not_positive (haccepted : ∀ metric ∈ metrics, AcceptedWeight metric.1)
    (h : (Double.fin 0).lt (availableWeight metrics) = false) :
    (∃ metric ∈ metrics, metric.1 = .nan) ∨
      (availableWeight metrics = .fin 0 ∧ ∀ metric ∈ metrics, metric.1 = .fin 0) := by
  induction metrics using List.reverseRecOn with
  | nil => exact Or.inr ⟨rfl, by simp⟩
  | append_singleton metrics last ih =>
    obtain ⟨hvalue, hnan | hlast⟩ := haccepted last (by simp)
    · exact Or.inl ⟨last, by simp, hnan⟩
    rw [availableWeight_concat] at h ⊢
    -- a positive sum stays positive
    have hbefore : (Double.fin 0).lt (availableWeight metrics) = false := by
      by_contra hpositive
      rw [Bool.not_eq_false] at hpositive
      have hnotNegative : (availableWeight metrics).NotNegative := Double.le_of_lt hpositive
      rw [Double.pos_of_le hpositive
        (hnotNegative.le_add (isValue_availableWeight metrics) hlast)] at h
      cases h
    obtain ⟨metric, hmetric, hnan⟩ | ⟨hzero, hzeros⟩ :=
      ih (fun metric hmetric ↦ haccepted metric (by simp [hmetric])) hbefore
    · exact Or.inl ⟨metric, by simp [hmetric], hnan⟩
    · rw [hzero, Double.fin_zero_add hvalue] at h ⊢
      have hlastZero := hlast.eq_zero h
      refine Or.inr ⟨hlastZero, fun metric hmetric ↦ ?_⟩
      obtain hmember | hmember := List.mem_append.mp hmetric
      · exact hzeros metric hmember
      · rw [List.mem_singleton.mp hmember, hlastZero]

/-- With full scores both sums are the same, rounding included. -/
theorem weightedScore_of_full
    (hfull : ∀ metric ∈ metrics, metric.1.IsValue ∧ metric.2 = .fin 1) :
    weightedScore metrics = availableWeight metrics := by
  induction metrics using List.reverseRecOn with
  | nil => rfl
  | append_singleton metrics last ih =>
    obtain ⟨hvalue, hone⟩ := hfull last (by simp)
    calc
      weightedScore (metrics ++ [last]) = (availableWeight metrics).add (last.1.mul (.fin 1)) := by
        rw [weightedScore_concat, hone, ih fun metric hmetric ↦ hfull metric (by simp [hmetric])]
      _ = availableWeight (metrics ++ [last]) := by
        rw [availableWeight_concat, Double.mul_fin_one hvalue]

/-- With full scores the average is full, if the sum of the weights has not overflowed. -/
theorem averageScore_of_full
    (hfull : ∀ metric ∈ metrics, metric.1.IsValue ∧ metric.2 = .fin 1)
    (hpositive : (Double.fin 0).lt (availableWeight metrics) = true)
    (hfinite : (availableWeight metrics).isFinite = true) :
    averageScore metrics = .fin 1 := by
  obtain ⟨w, hw⟩ := Double.exists_of_isFinite hfinite
  have hwpos : 0 < w := by simpa [hw] using hpositive
  calc
    averageScore metrics = (Double.fin w).div (.fin w) := by
      rw [averageScore, if_pos hpositive, weightedScore_of_full hfull, hw]
    _ = .fin 1 := by rw [Double.div_fin w hwpos.ne', div_self hwpos.ne', Double.ofRat_one]

/-- An overflowed sum of weights leaves no average of full scores. -/
theorem isFinite_availableWeight_of_full
    (hfull : ∀ metric ∈ metrics, metric.1.IsValue ∧ metric.2 = .fin 1)
    (hpositive : (Double.fin 0).lt (availableWeight metrics) = true)
    (hnumber : averageScore metrics ≠ .nan) : (availableWeight metrics).isFinite = true := by
  rw [averageScore, if_pos hpositive, weightedScore_of_full hfull] at hnumber
  cases hweight : availableWeight metrics with
  | nan => simp [hweight] at hpositive
  | inf negative =>
    rw [hweight] at hnumber
    exact absurd rfl hnumber
  | fin w => rfl

/-- The confidence of an assessment. -/
theorem assess_confidence {config : Config} (hconfig : Checked config) (monitor : Monitor)
    (now : Time) (context : Context) :
    (monitor.assess config now context).confidence =
      if (monitor.assess config now context).critical = true then .fin 0
      else averageScore (monitor.metrics config now) := by
  have hunit := unitScore_averageScore (totals_metrics hconfig monitor now)
  have hclamped : (monitor.assess config now context).confidence =
      clamp01 (if (monitor.assess config now context).critical = true then .fin 0
        else averageScore (monitor.metrics config now)) := rfl
  rw [hclamped]
  split_ifs with hcritical
  · rfl
  · exact clamp01_of_unitScore hunit

end Metrics

end SlamSystemManager.Quality
