import Mathlib
import XrDelivery.Jitter
import XrDelivery.Proofs.WalkRanges
import XrDelivery.Proofs.DoubleMagnitudes

/-!
# Jitter samples are bounded, and sampling stops

A jitter sample of a valid configuration takes one draw, redraws at most `maxRedraws` times
while the value lies outside `[min, max]`, and clamps what it has. So it takes between one and
`maxRedraws + 1` normal draws, two unit draws each, and returns a double within the bounds
(`jitter_sample_bounded_and_terminates`).

Clamping keeps a NaN, so that needs every draw to be a double that is not NaN. A normal draw is
`√(-2 ln u₁) · cos(2π u₂)` with `u₁ = 1 - unit` in `(0, 1]` (`Random.one_sub_unit_mem`). Lean
leaves the logarithm and the cosine opaque, so they enter as a pair `f` with the ranges the C
maths library gives them (`Random.Elementary.Bounded`): then the square root is taken of a finite
double zero or more, and the draw is finite (`Random.normal_isFinite`). The jitter
`mean + stddev · z` may overflow to an infinity, but for a finite mean and spread it is never
NaN (`JitterSampler.draw_isNaN`).

A configuration without jitter (`Jitter.Off`: mean, spread and bounds zero) draws `0 + 0 · z`,
which is `+0` for a finite `z` and NaN otherwise (`Float.zero_add_zero_mul`). Neither lies outside
`[0, 0]`, so nothing is redrawn and clamping keeps the draw (`JitterSampler.sampleWith_off`).
-/

namespace XrDelivery

open Float.Model Float.Model.UnpackedFloat

namespace Random

/-- The bounds a normal draw needs of its logarithm and cosine, which the C maths library meets: the
logarithm maps `(0, 1]` into `[-745, 0]`, the cosine finite doubles into `[-1, 1]`. -/
structure Elementary.Bounded (f : Elementary) : Prop where
  log_mem : ∀ u : Float, 0 < u → u ≤ 1.0 → -745.0 ≤ f.log u ∧ f.log u ≤ 0
  cos_mem : ∀ t : Float, t.isFinite = true → -1.0 ≤ f.cos t ∧ f.cos t ≤ 1.0

theorem normal_iterate (f : Elementary) (k : Nat) (g : Stream) :
    (fun g => (g.normal f).2)^[k] g = (fun g : Stream => g.unit.2)^[2 * k] g := by
  rw [Function.iterate_mul]
  rfl

theorem one_sub_unit_mem (g : Stream) : 0 < 1.0 - g.unit.1 ∧ 1.0 - g.unit.1 ≤ 1.0 := by
  obtain ⟨p, hp, hp1⟩ := unit_value g
  exact ⟨Float.zero_lt_sub nonNegValue_one hp hp1, Float.sub_le_self nonNegValue_one hp⟩

variable {f : Elementary}

theorem neg_two_mul_log_nonNegValue (hf : f.Bounded) (g : Stream) :
    ∃ v, NonNegValue (-2.0 * f.log (1.0 - g.unit.1)).toModel.unpack v := by
  obtain ⟨hpos, hle⟩ := one_sub_unit_mem g
  obtain ⟨hlo, hhi⟩ := hf.log_mem _ hpos hle
  obtain ⟨β, hβ⟩ := Float.nonNegValue_of_isFinite (x := 745.0) (by decide) (by decide)
  obtain ⟨τ, hτ⟩ := Float.nonNegValue_of_isFinite (x := 2.0) (by decide) (by decide)
  obtain ⟨μ, hμ⟩ := Float.nonNegValue_of_isFinite (x := 2.0 * 745.0) (by decide) (by decide)
  have hneg := Float.neg_le_of_neg_le hlo
  obtain ⟨ℓ, hℓ, -⟩ := Float.nonNegValue_of_le (Float.zero_le_neg hhi) hneg hβ
  rw [Float.neg_mul]
  obtain ⟨v, hv, -⟩ := Float.nonNegValue_of_le (Float.zero_le_mul hτ hℓ)
    (Float.mul_le_mul_left hτ hℓ hβ hneg) hμ
  exact ⟨v, hv⟩

theorem twoPi_mul_unit_isFinite (g : Stream) : (2.0 * pi * g.unit.1).isFinite = true := by
  obtain ⟨q, hq, hq1⟩ := unit_value g
  obtain ⟨τ, hτ⟩ := Float.nonNegValue_of_isFinite (x := 2.0 * pi) (by decide) (by decide)
  have hle : 2.0 * pi * g.unit.1 ≤ 2.0 * pi :=
    Float.mul_le_of_value hτ hq hτ (mul_le_of_le_one_right hτ.nonneg hq1.le)
  obtain ⟨θ, hθ, -⟩ := Float.nonNegValue_of_le (Float.zero_le_mul hτ hq) hle hτ
  exact Float.isFinite_of_nonNegValue hθ

theorem normal_isFinite (hf : f.Bounded) (g : Stream) : (g.normal f).1.isFinite = true := by
  rw [Stream.normal_fst]
  obtain ⟨v, hv⟩ := neg_two_mul_log_nonNegValue hf g
  obtain ⟨σ, hσ⟩ := Float.nonNegValue_sqrt hv
  obtain ⟨hlo, hhi⟩ := hf.cos_mem _ (twoPi_mul_unit_isFinite g.unit.2)
  obtain ⟨c, hc, hc1⟩ := Float.magnitude_of_le nonNegValue_one hlo hhi
  exact (Float.magnitude_of_nonNegValue hσ).isFinite_mul hc hσ
    (mul_le_of_le_one_right hσ.nonneg hc1)

end Random

theorem Jitter.validate_eq_ok {j : Jitter} (h : j.validate = .ok ()) :
    j.min.isFinite = true ∧ j.max.isFinite = true ∧ j.min ≤ j.max ∧ j.stddev.isFinite = true ∧
      0 ≤ j.stddev ∧ j.mean.isFinite = true := by
  unfold Jitter.validate at h
  split at h
  · cases h
  rename_i hbounds
  split at h
  · cases h
  rename_i hspread
  split at h
  · cases h
  rename_i hmean
  simp only [Bool.or_eq_true, Bool.not_eq_true', not_or, Bool.not_eq_false,
    decide_eq_true_eq] at hbounds hspread hmean
  obtain ⟨⟨hmin, hmax⟩, hord⟩ := hbounds
  obtain ⟨hsd, hneg⟩ := hspread
  rw [show (0.0 : Float) = 0 by decide] at hneg
  exact ⟨hmin, hmax, Float.le_of_not_lt (Float.isNaN_of_isFinite hmax) (Float.isNaN_of_isFinite hmin)
    hord, hsd, Float.nonneg_of_not_lt_zero hneg (Float.isNaN_of_isFinite hsd), hmean⟩

theorem clampTo_mem {lo hi x : Float} (hle : lo ≤ hi) (hx : x.isNaN = false) :
    lo ≤ clampTo lo hi x ∧ clampTo lo hi x ≤ hi := by
  obtain ⟨r, hr, hlo, hhi⟩ := keepWithin_of_le hle hx
  rw [show keepWithin lo hi x = .ok (clampTo lo hi x) from if_pos hle] at hr
  cases hr
  exact ⟨hlo, hhi⟩

namespace JitterSampler

variable {f : Random.Elementary}

/-- A sample: the first draw, the redraws, then the clamp to the bounds. -/
theorem sampleWith_eq (f : Random.Elementary) (s : JitterSampler) :
    s.sampleWith f =
      (clampTo ((s.draw f).2.redraw f maxRedraws (s.draw f).1).2.config.min
        ((s.draw f).2.redraw f maxRedraws (s.draw f).1).2.config.max
        ((s.draw f).2.redraw f maxRedraws (s.draw f).1).1,
        ((s.draw f).2.redraw f maxRedraws (s.draw f).1).2) := by
  unfold sampleWith
  rcases s.draw f with ⟨x, s₁⟩
  dsimp only

theorem draw_isNaN (hf : f.Bounded) {s : JitterSampler} (hs : s.config.validate = .ok ()) :
    (s.draw f).1.isNaN = false := by
  obtain ⟨-, -, -, hsd, -, hmean⟩ := Jitter.validate_eq_ok hs
  obtain ⟨σ, hσ⟩ := Float.magnitude_of_isFinite hsd
  obtain ⟨ζ, hζ⟩ := Float.magnitude_of_isFinite (Random.normal_isFinite hf s.stream)
  show (s.config.mean + s.config.stddev * (s.stream.normal f).1).isNaN = false
  rw [Float.add_comm]
  exact Float.isNaN_add_of_isFinite (hσ.isNaN_mul hζ) hmean

/-- Redrawing keeps the configuration and a value that is not NaN, and takes at most `fuel`
normal draws. -/
theorem redraw_spec (hf : f.Bounded) (fuel : Nat) :
    ∀ (s : JitterSampler) (x : Float), s.config.validate = .ok () → x.isNaN = false →
      (s.redraw f fuel x).1.isNaN = false ∧ (s.redraw f fuel x).2.config = s.config ∧
        ∃ k ≤ fuel, (s.redraw f fuel x).2.stream = (fun g => (g.normal f).2)^[k] s.stream := by
  induction fuel with
  | zero => exact fun s x _ hx => ⟨hx, rfl, 0, le_rfl, rfl⟩
  | succ fuel ih =>
    intro s x hs hx
    by_cases hout : (x < s.config.min || x > s.config.max) = true
    · rw [redraw, if_pos hout]
      obtain ⟨hy, hcfg, k, hk, hstream⟩ := ih (s.draw f).2 (s.draw f).1 hs (draw_isNaN hf hs)
      refine ⟨hy, hcfg, k + 1, by omega, ?_⟩
      rw [hstream, Function.iterate_succ_apply]
      rfl
    · rw [redraw, if_neg hout]
      exact ⟨hx, rfl, 0, Nat.zero_le _, rfl⟩

end JitterSampler

/-- A jitter sample of a validated configuration, with a bounded logarithm and cosine, lies in
`[min, max]`, is not NaN, and takes between one and `maxRedraws + 1` normal draws. -/
theorem jitter_sample_bounded_and_terminates {f : Random.Elementary} (hf : f.Bounded) {j : Jitter}
    (hj : j.validate = .ok ()) (g : Random.Stream) :
    (∀ g : Random.Stream, 0 < 1.0 - g.unit.1 ∧ 1.0 - g.unit.1 ≤ 1.0) ∧ j.min ≤ j.max ∧
      j.min ≤ ((⟨j, g⟩ : JitterSampler).sampleWith f).1 ∧
      ((⟨j, g⟩ : JitterSampler).sampleWith f).1 ≤ j.max ∧
      ((⟨j, g⟩ : JitterSampler).sampleWith f).1.isNaN = false ∧
      ((⟨j, g⟩ : JitterSampler).sampleWith f).2.config = j ∧
      ∃ k, 1 ≤ k ∧ k ≤ maxRedraws + 1 ∧
        ((⟨j, g⟩ : JitterSampler).sampleWith f).2.stream = (fun g => g.unit.2)^[2 * k] g := by
  obtain ⟨-, -, hle, -, -, -⟩ := Jitter.validate_eq_ok hj
  have hj' : ((⟨j, g⟩ : JitterSampler).draw f).2.config.validate = .ok () := by
    rw [JitterSampler.draw_config]
    exact hj
  obtain ⟨hy, hcfg, k, hk, hstream⟩ := JitterSampler.redraw_spec hf maxRedraws _ _ hj'
    (JitterSampler.draw_isNaN hf (s := ⟨j, g⟩) hj)
  rw [JitterSampler.sampleWith_eq]
  generalize ((⟨j, g⟩ : JitterSampler).draw f).2.redraw f maxRedraws
    ((⟨j, g⟩ : JitterSampler).draw f).1 = r at hy hcfg hstream ⊢
  rw [JitterSampler.draw_config] at hcfg
  rw [JitterSampler.draw_stream] at hstream
  dsimp only at hcfg hstream ⊢
  obtain ⟨hlo, hhi⟩ := clampTo_mem hle hy
  rw [hcfg]
  refine ⟨Random.one_sub_unit_mem, hle, hlo, hhi, (Float.isNaN_of_le hlo).2, rfl, k + 1, by omega,
    by omega, ?_⟩
  rw [hstream, ← Random.normal_iterate, Function.iterate_succ_apply]

/-- The C maths library's logarithm and cosine at the draw of the default configuration's first
sample from seed 1, and at their bounds elsewhere. -/
def Random.Elementary.seedOne : Random.Elementary where
  log u := if u.toBits = 4583080670476320672 then Float.ofBits 13838794053044866626 else -745.0
  cos t := if t.toBits = 4616575983480164736 then Float.ofBits 13823544965743652096 else 1.0

theorem Random.Elementary.seedOne_bounded : Random.Elementary.seedOne.Bounded where
  log_mem u _ _ := by
    dsimp only [seedOne]
    split <;> exact ⟨by decide, by decide⟩
  cos_mem t _ := by
    dsimp only [seedOne]
    split <;> exact ⟨by decide, by decide⟩

/-- The default configuration, sampled from the stream of its seed with the maths library's
values at its draw: one normal draw `z ≈ -0.9763` gives `-1.9526`, within `[-5, 5]`. -/
theorem defaultJitter_sample_bounded :
    Random.Elementary.seedOne.Bounded ∧ ({} : Jitter).validate = .ok () ∧
      ((⟨{}, Random.Stream.ofSeed 1⟩ : JitterSampler).sampleWith .seedOne).1 =
        Float.ofBits 13834844601973000707 ∧
      ((∀ g : Random.Stream, 0 < 1.0 - g.unit.1 ∧ 1.0 - g.unit.1 ≤ 1.0) ∧
        ({} : Jitter).min ≤ ({} : Jitter).max ∧
        ({} : Jitter).min ≤
          ((⟨{}, Random.Stream.ofSeed 1⟩ : JitterSampler).sampleWith .seedOne).1 ∧
        ((⟨{}, Random.Stream.ofSeed 1⟩ : JitterSampler).sampleWith .seedOne).1 ≤
          ({} : Jitter).max ∧
        ((⟨{}, Random.Stream.ofSeed 1⟩ : JitterSampler).sampleWith .seedOne).1.isNaN = false ∧
        ((⟨{}, Random.Stream.ofSeed 1⟩ : JitterSampler).sampleWith .seedOne).2.config = {} ∧
        ∃ k, 1 ≤ k ∧ k ≤ maxRedraws + 1 ∧
          ((⟨{}, Random.Stream.ofSeed 1⟩ : JitterSampler).sampleWith .seedOne).2.stream =
            (fun g => g.unit.2)^[2 * k] (Random.Stream.ofSeed 1)) :=
  ⟨Random.Elementary.seedOne_bounded, rfl, by decide +kernel,
    jitter_sample_bounded_and_terminates Random.Elementary.seedOne_bounded rfl _⟩

end XrDelivery

/-! ### Without jitter -/

namespace Float

open Float.Model Float.Model.UnpackedFloat

theorem zero_add_zero_mul (z : Float) :
    0.0 + 0.0 * z = 0.0 ∨ (0.0 + 0.0 * z).isNaN = true := by
  have hsum : (0.0 + 0.0 * z).toModel = pack ((UnpackedFloat.zero .positive).add .binary64
      (pack ((UnpackedFloat.zero .positive).mul .binary64 z.toModel.unpack)).unpack) := rfl
  cases hz : z.toModel.unpack with
  | zero s =>
    left
    refine congrArg Float.ofModel (hsum.trans ?_)
    rw [hz]
    cases s <;> decide
  | finite s m e h =>
    left
    refine congrArg Float.ofModel (hsum.trans ?_)
    rw [hz]
    cases s <;> simp only [UnpackedFloat.mul] <;> decide
  | infinity s =>
    right
    rw [Float.isNaN_iff, hsum, hz]
    simp [UnpackedFloat.mul, UnpackedFloat.add]
  | notANumber =>
    right
    rw [Float.isNaN_iff, hsum, hz]
    simp [UnpackedFloat.mul, UnpackedFloat.add]

theorem not_outside_zero {x : Float} (hx : x = 0.0 ∨ x.isNaN = true) :
    ¬x < 0.0 ∧ ¬x > 0.0 := by
  rcases hx with rfl | hx
  · exact ⟨by decide, by decide⟩
  · constructor
    · intro h
      rw [(Float.isNaN_of_le (Float.le_of_lt h)).1] at hx
      cases hx
    · intro h
      rw [(Float.isNaN_of_le (Float.le_of_lt h)).2] at hx
      cases hx

end Float

namespace XrDelivery

/-- A jitter configuration that perturbs nothing: mean, spread and both bounds zero. -/
def Jitter.Off (j : Jitter) : Prop := j.mean = 0.0 ∧ j.stddev = 0.0 ∧ j.min = 0.0 ∧ j.max = 0.0

instance : DecidablePred Jitter.Off := fun _ => inferInstanceAs (Decidable (_ ∧ _))

namespace JitterSampler

theorem redraw_of_within {f : Random.Elementary} {s : JitterSampler} {x : Float}
    (h : ¬x < s.config.min ∧ ¬x > s.config.max) (fuel : Nat) : s.redraw f fuel x = (x, s) := by
  cases fuel with
  | zero => rfl
  | succ fuel => simp [redraw, h.1, h.2]

theorem sampleWith_off (f : Random.Elementary) {s : JitterSampler} (hs : s.config.Off) :
    (s.sampleWith f).2 = { s with stream := s.stream.unit.2.unit.2 } ∧
      ((s.sampleWith f).1 = 0.0 ∨ (s.sampleWith f).1.isNaN = true) := by
  obtain ⟨hmean, hsd, hmin, hmax⟩ := hs
  have hdraw : (s.draw f).1 = 0.0 + 0.0 * (s.stream.normal f).1 := by
    show s.config.mean + s.config.stddev * (s.stream.normal f).1 = _
    rw [hmean, hsd]
  have hx := Float.zero_add_zero_mul (s.stream.normal f).1
  rw [← hdraw] at hx
  have hout := Float.not_outside_zero hx
  have hwithin : ¬(s.draw f).1 < (s.draw f).2.config.min ∧
      ¬(s.draw f).1 > (s.draw f).2.config.max := by
    rw [draw_config, hmin, hmax]
    exact hout
  rw [sampleWith_eq, redraw_of_within hwithin, draw_config, hmin, hmax]
  refine ⟨rfl, ?_⟩
  simpa [clampTo, hout.1, hout.2] using hx

end JitterSampler

end XrDelivery
