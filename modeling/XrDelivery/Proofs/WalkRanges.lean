import Mathlib
import XrDelivery.Proofs.SignedOrder
import XrDelivery.Link.Walk

/-!
# A link's random walk stays within its profile

A link's walk starts at a random rate between the profile's least and greatest rate, at the base
delay and at a random loss up to a fifth of the greatest loss; each step moves the three by
random amounts up to the profile's step sizes and clamps them back within their bounds. Every
frame a sampling gives lies within the profile (`LinkProfile.Admits`): a delay of at least zero
and `base - range` and at most `base + range`, a loss between zero and the greatest, the
profile's jitter, and a rate exactly when the greatest rate is not zero, at least the least rate
and one and at most the greatest. A sampling over `d` with steps of `s`, at least a millisecond,
gives one frame at time zero and one per step after it, `⌈d / s⌉` steps capped at
`maxWalkSteps` (`walk_stays_within_profile`).

The walk's state is kept within the clamp bounds (`LinkWalk.InBounds`). The state the walk starts
from is not clamped; its bounds come from the arithmetic of doubles: a unit draw is a finite double
in `[0, 1)` (`unit_value`), so scaling by it never passes what is scaled, the least rate plus a
scaled range stays at or below the greatest rate, exact up to `2^53`, and `base - range ≤ base`
(`inBounds_new`). A step adds a finite amount to a double that is not NaN, so the sum is not NaN,
and clamping it into ordered bounds keeps it within them (`keepWithin_of_le`,
`LinkWalk.InBounds.step`).
-/

namespace XrDelivery

open Float.Model Float.Model.UnpackedFloat

theorem unpack_twoPow53 :
    Random.twoPow53.toModel.unpack = .finite .positive (2 ^ 52) 1 (by positivity) := rfl

theorem unit_value (g : Random.Stream) : ∃ p, NonNegValue g.unit.1.toModel.unpack p ∧ p < 1 := by
  unfold Random.Stream.unit
  generalize g.nextWide = r
  obtain ⟨w, g'⟩ := r
  dsimp only
  have hn : (w >>> 11).toNat < 2 ^ 53 := by
    have := w.toBitVec.isLt
    simp only [UInt64.toNat_shiftRight, Nat.shiftRight_eq_div_pow,
      show (11 : UInt64).toNat % 64 = 11 from rfl]
    simp only [UInt64.toNat_toBitVec] at this
    omega
  have hv := Float.nonNegValue_toFloat (w >>> 11) hn.le
  rw [Float.unpack_div, unpack_twoPow53]
  generalize (w >>> 11).toFloat.toModel.unpack = X at hv ⊢
  generalize (w >>> 11).toNat = n at hn hv
  generalize hq : (n : ℚ) = q at hv
  cases hv with
  | zero s =>
    refine ⟨0, ?_, one_pos⟩
    rw [show (UnpackedFloat.zero s).div .binary64 (.finite .positive (2 ^ 52) 1 _) =
      .zero (s / .positive) from rfl, Float.Model.unpack_pack_zero]
    exact .zero _
  | @finite m e hm hc he =>
    have hone : 1 ≤ value m e := by
      have hpos := value_pos hm e
      rw [← hq] at hpos ⊢
      exact_mod_cast Nat.one_le_iff_ne_zero.mpr (by rintro rfl; simp at hpos)
    have he52 := neg52_le_of_one_le hc hone
    have hnorm : 2 ^ 52 ≤ m := hc.2.2.resolve_right (by omega)
    have hc' : Canonical m (e - 53) := ⟨hc.1, by omega, Or.inl hnorm⟩
    refine ⟨value m (e - 53), ?_, ?_⟩
    · rw [div_twoPow53 hm hc he52, unpack_pack_finite hm hc' (by omega)]
      exact .finite hm hc' (by omega)
    · have hval : value m (e - 53) = value m e / 2 ^ 53 := by
        rw [value, value, zpow_sub₀ two_ne_zero]
        norm_num
        ring
      rw [hval, ← hq, div_lt_one (by positivity)]
      exact_mod_cast hn

theorem nonNegValue_mul_unit {u x : Float} {p q : ℚ} (hu : NonNegValue u.toModel.unpack p)
    (hp1 : p < 1) (hx : NonNegValue x.toModel.unpack q) :
    ∃ v, NonNegValue (u * x).toModel.unpack v ∧ v ≤ q :=
  Float.nonNegValue_of_le (Float.zero_le_mul hu hx)
    (Float.mul_le_of_value hu hx hx (mul_le_of_le_one_left hx.nonneg hp1.le)) hx

theorem signedStep_isFinite (g : Random.Stream) {maxStep : Float} (h : maxStep.isFinite = true) :
    (g.signedStep maxStep).1.isFinite = true := by
  unfold Random.Stream.signedStep
  split
  · show (0.0 : Float).isFinite = true
    decide
  · rename_i hpos
    have h0 : 0 ≤ maxStep :=
      Float.le_of_lt (Float.lt_of_not_le (Float.isNaN_of_isFinite h) rfl hpos)
    obtain ⟨q, hq⟩ := Float.nonNegValue_of_isFinite h0 h
    have hu := unit_value g
    generalize g.unit = r at hu ⊢
    obtain ⟨u, g₁⟩ := r
    obtain ⟨p, hp, hp1⟩ := hu
    dsimp only
    obtain ⟨v, hv, -⟩ := nonNegValue_mul_unit hp hp1 hq
    generalize g₁.coin = c
    obtain ⟨up, g₂⟩ := c
    cases up
    · exact Float.isFinite_neg (Float.isFinite_of_nonNegValue hv)
    · exact Float.isFinite_of_nonNegValue hv

theorem keepWithin_of_le {lo hi x : Float} (hle : lo ≤ hi) (hx : x.isNaN = false) :
    ∃ r, keepWithin lo hi x = .ok r ∧ lo ≤ r ∧ r ≤ hi := by
  obtain ⟨hlo, hhi⟩ := Float.isNaN_of_le hle
  unfold keepWithin
  rw [if_pos hle]
  refine ⟨_, rfl, ?_⟩
  by_cases hxl : x < lo
  · rw [if_pos hxl]
    by_cases hgt : lo > hi
    · rw [if_pos hgt]
      exact ⟨hle, Float.le_refl hhi⟩
    · rw [if_neg hgt]
      exact ⟨Float.le_refl hlo, hle⟩
  · rw [if_neg hxl]
    by_cases hgt : x > hi
    · rw [if_pos hgt]
      exact ⟨hle, Float.le_refl hhi⟩
    · rw [if_neg hgt]
      exact ⟨Float.le_of_not_lt hx hlo hxl, Float.le_of_not_lt hhi hx hgt⟩

/-! Raising to a floor gives at least the floor and at least the value, and no more than a
bound of both. -/

theorem le_atLeast_self {lo : Float} (hlo : lo.isNaN = false) (x : Float) : lo ≤ atLeast lo x := by
  unfold atLeast
  split
  · exact Float.le_of_lt ‹_›
  · exact Float.le_refl hlo

theorem le_atLeast {lo x : Float} (hlo : lo.isNaN = false) (hx : x.isNaN = false) :
    x ≤ atLeast lo x := by
  unfold atLeast
  split
  · exact Float.le_refl hx
  · exact Float.le_of_not_lt hlo hx ‹_›

theorem atLeast_le {lo x hi : Float} (hlo : lo ≤ hi) (hx : x ≤ hi) : atLeast lo x ≤ hi := by
  unfold atLeast
  split
  · exact hx
  · exact hlo

theorem nonNegValue_one :
    NonNegValue (1.0 : Float).toModel.unpack 1 := by
  rw [show (1.0 : Float).toModel.unpack = .finite .positive (2 ^ 52) (-52) (by positivity) from rfl,
    ← value_twoPow52]
  exact .finite _ ⟨by norm_num, by norm_num, Or.inl le_rfl⟩ (by norm_num)

theorem nonNegValue_fifth :
    NonNegValue (0.2 : Float).toModel.unpack (value 7205759403792794 (-55)) := by
  rw [show (0.2 : Float).toModel.unpack = .finite .positive 7205759403792794 (-55) (by norm_num)
    from rfl]
  exact .finite _ ⟨by norm_num, by norm_num, Or.inl (by norm_num)⟩ (by norm_num)

theorem value_fifth_le_one : value 7205759403792794 (-55) ≤ 1 := by
  rw [show (1 : ℚ) = value 1 0 by simp [value], value_le_value_iff]
  decide

/-- A walk's state within the bounds its steps clamp to: the rate within `[min, max]`, the delay
within `[max 0 (base - range), base + range]` and the loss within `[0, max loss]`. -/
structure LinkWalk.InBounds (w : LinkWalk) : Prop where
  rate_lo : w.profile.minRateKbit.toFloat ≤ w.rateKbit
  rate_hi : w.rateKbit ≤ w.profile.maxRateKbit.toFloat
  delay_lo : atLeast 0.0 (w.profile.baseDelayMs - w.profile.delayRangeMs) ≤ w.delayMs
  delay_hi : w.delayMs ≤ w.profile.baseDelayMs + w.profile.delayRangeMs
  loss_lo : 0.0 ≤ w.lossPercent
  loss_hi : w.lossPercent ≤ w.profile.maxLossPercent

theorem LinkWalk.InBounds.step {w : LinkWalk} (hw : w.InBounds)
    (hd : w.profile.delayStepMs.isFinite = true) (hl : w.profile.lossStepPercent.isFinite = true) :
    ∃ w', w.step = .ok w' ∧ w'.profile = w.profile ∧ w'.InBounds := by
  unfold LinkWalk.step
  dsimp only
  have hR := signedStep_isFinite w.stream (Float.isFinite_toFloat w.profile.rateStepKbit)
  generalize w.stream.signedStep w.profile.rateStepKbit.toFloat = sR at hR ⊢
  obtain ⟨dRate, g₁⟩ := sR
  have hD := signedStep_isFinite g₁ hd
  generalize g₁.signedStep w.profile.delayStepMs = sD at hD ⊢
  obtain ⟨dDelay, g₂⟩ := sD
  have hL := signedStep_isFinite g₂ hl
  generalize g₂.signedStep w.profile.lossStepPercent = sL at hL ⊢
  obtain ⟨dLoss, g₃⟩ := sL
  obtain ⟨rate, hrate, hr₁, hr₂⟩ := keepWithin_of_le (Float.le_trans hw.rate_lo hw.rate_hi)
    (Float.isNaN_add_of_isFinite (Float.isNaN_of_le hw.rate_lo).2 hR)
  obtain ⟨delay, hdelay, hd₁, hd₂⟩ := keepWithin_of_le (Float.le_trans hw.delay_lo hw.delay_hi)
    (Float.isNaN_add_of_isFinite (Float.isNaN_of_le hw.delay_lo).2 hD)
  obtain ⟨loss, hloss, hl₁, hl₂⟩ := keepWithin_of_le (Float.le_trans hw.loss_lo hw.loss_hi)
    (Float.isNaN_add_of_isFinite (Float.isNaN_of_le hw.loss_lo).2 hL)
  simp only [hrate, hdelay, hloss, bind, Except.bind, pure, Except.pure]
  exact ⟨_, rfl, rfl, ⟨hr₁, hr₂, hd₁, hd₂, hl₁, hl₂⟩⟩

section New

variable {p : LinkProfile} {b r l : ℚ}

/-- The walk starts within bounds: at a rate between the least and the greatest, at the base
delay and at a loss up to a fifth of the greatest. -/
theorem inBounds_new (seed : UInt64) (hrate : p.minRateKbit ≤ p.maxRateKbit)
    (hmax : p.maxRateKbit.toNat ≤ 2 ^ 53) (hbase : NonNegValue p.baseDelayMs.toModel.unpack b)
    (hrange : NonNegValue p.delayRangeMs.toModel.unpack r)
    (hloss : NonNegValue p.maxLossPercent.toModel.unpack l) : (LinkWalk.new p seed).InBounds := by
  have hle : p.minRateKbit.toNat ≤ p.maxRateKbit.toNat := UInt64.le_iff_toNat_le.mp hrate
  have hmin := Float.nonNegValue_toFloat p.minRateKbit (hle.trans hmax)
  have hmaxv := Float.nonNegValue_toFloat p.maxRateKbit hmax
  have hrangev := Float.nonNegValue_toFloat (p.maxRateKbit - p.minRateKbit)
    (by rw [UInt64.toNat_sub_of_le _ _ hrate]; omega)
  unfold LinkWalk.new
  simp only [ge_iff_le, hrate, if_true]
  generalize Random.Stream.ofSeed seed = g
  have hu := unit_value g
  generalize g.unit = r₁ at hu ⊢
  obtain ⟨u, g₁⟩ := r₁
  obtain ⟨pu, hpu, hpu1⟩ := hu
  have hv := unit_value g₁
  generalize g₁.unit = r₂ at hv ⊢
  obtain ⟨v, g₂⟩ := r₂
  obtain ⟨pv, hpv, hpv1⟩ := hv
  dsimp only
  obtain ⟨q, hq, hqle⟩ := nonNegValue_mul_unit hpu hpu1 hrangev
  obtain ⟨a, ha, hale⟩ := nonNegValue_mul_unit hpv hpv1 hloss
  refine ⟨?_, ?_, ?_, ?_, ?_, ?_⟩
  · exact Float.le_add_of_nonneg (Float.neg_inf_lt_of_isFinite (Float.isFinite_of_nonNegValue hmin))
      (Float.zero_le_mul hpu hrangev)
  · refine Float.add_le_of_value hmin hq hmaxv ?_
    rw [UInt64.toNat_sub_of_le _ _ hrate, Nat.cast_sub hle] at hqle
    linarith
  · unfold atLeast
    split
    · exact Float.sub_le_self hbase hrange
    · exact Float.zero_le_of_nonNegValue hbase
  · exact Float.le_add_of_nonneg (Float.neg_inf_lt_of_isFinite (Float.isFinite_of_nonNegValue hbase))
      (Float.zero_le_of_nonNegValue hrange)
  · exact Float.zero_le_mul ha nonNegValue_fifth
  · exact Float.mul_le_of_value ha nonNegValue_fifth hloss
      ((mul_le_of_le_one_right ha.nonneg value_fifth_le_one).trans hale)

end New

/-- Link conditions within a profile: a delay in `[max 0 (base - range), base + range]`, a loss up
to the greatest, the profile's jitter, and a rate in `[max 1 least, greatest]` when one is set. -/
structure LinkProfile.Admits (p : LinkProfile) (c : Conditions) : Prop where
  delay_nonneg : 0.0 ≤ c.delayMs
  delay_lo : p.baseDelayMs - p.delayRangeMs ≤ c.delayMs
  delay_hi : c.delayMs ≤ p.baseDelayMs + p.delayRangeMs
  loss_lo : 0.0 ≤ c.lossPercent
  loss_hi : c.lossPercent ≤ p.maxLossPercent
  jitter : c.packetJitterMs = p.packetJitterMs
  unlimited_iff : c.rateKbit = none ↔ p.maxRateKbit = 0
  rate : ∀ r, c.rateKbit = some r →
    p.minRateKbit.toFloat ≤ r ∧ 1.0 ≤ r ∧ r ≤ p.maxRateKbit.toFloat

/-- A state within bounds has conditions within its profile: the rate is raised to one only when
read, and a greatest rate that is not zero is at least one. -/
theorem LinkWalk.InBounds.admits {w : LinkWalk} {b r : ℚ} (hw : w.InBounds)
    (hmax : w.profile.maxRateKbit.toNat ≤ 2 ^ 53)
    (hbase : NonNegValue w.profile.baseDelayMs.toModel.unpack b)
    (hrange : NonNegValue w.profile.delayRangeMs.toModel.unpack r) :
    w.profile.Admits w.conditions := by
  have hsub : (w.profile.baseDelayMs - w.profile.delayRangeMs).isNaN = false :=
    (Float.isNaN_of_le (Float.sub_le_self hbase hrange)).1
  have hrateNaN := (Float.isNaN_of_le hw.rate_lo).2
  refine ⟨Float.le_trans (zero_le_atLeast _) hw.delay_lo,
    Float.le_trans (le_atLeast rfl hsub) hw.delay_lo, hw.delay_hi, hw.loss_lo, hw.loss_hi, rfl, ?_, ?_⟩
  · by_cases h : w.profile.maxRateKbit > 0
    · simp only [LinkWalk.conditions, LinkProfile.isRateLimited, h, decide_true, if_true,
        reduceCtorEq, false_iff]
      rintro h0
      simp [h0] at h
    · have h0 : w.profile.maxRateKbit = 0 := by simpa using h
      simp [LinkWalk.conditions, LinkProfile.isRateLimited, h0]
  · intro x hx
    by_cases h : w.profile.maxRateKbit > 0
    · simp only [LinkWalk.conditions, LinkProfile.isRateLimited, h, decide_true, if_true,
        Option.some.injEq] at hx
      subst hx
      have hone : 1.0 ≤ w.profile.maxRateKbit.toFloat := by
        rw [Float.le_iff_value nonNegValue_one (Float.nonNegValue_toFloat _ hmax)]
        have := UInt64.lt_iff_toNat_lt.mp h
        simp only [UInt64.toNat_zero] at this
        exact_mod_cast this
      exact ⟨Float.le_trans hw.rate_lo (le_atLeast rfl hrateNaN), le_atLeast_self rfl _,
        atLeast_le hone hw.rate_hi⟩
    · simp [LinkWalk.conditions, LinkProfile.isRateLimited, h] at hx

/-- Sampling from a state within bounds gives frames within the profile at their steps' times. -/
theorem framesFrom_admits {p : LinkProfile} {b r : ℚ} (hmax : p.maxRateKbit.toNat ≤ 2 ^ 53)
    (hbase : NonNegValue p.baseDelayMs.toModel.unpack b)
    (hrange : NonNegValue p.delayRangeMs.toModel.unpack r)
    (hd : p.delayStepMs.isFinite = true) (hl : p.lossStepPercent.isFinite = true)
    (step : Span) (total : Nat) (n : Nat) (w : LinkWalk) (acc : List LinkFrame)
    (hp : w.profile = p) (hw : w.InBounds) (hlen : acc.length + n = total + 1)
    (htimes : acc.reverse.map LinkFrame.time = (List.range acc.length).map step.scale)
    (hacc : ∀ f ∈ acc, p.Admits f.conditions) :
    ∃ fs w', LinkWalk.framesFrom step total n w acc = .ok (fs, w') ∧
      fs.map LinkFrame.time = (List.range (total + 1)).map step.scale ∧
      ∀ f ∈ fs, p.Admits f.conditions := by
  induction n generalizing w acc with
  | zero =>
    refine ⟨acc.reverse, w, rfl, ?_, fun f hf => hacc f (List.mem_reverse.mp hf)⟩
    rw [htimes, show acc.length = total + 1 by omega]
  | succ left ih =>
    obtain ⟨w₁, hw₁, hp₁, hin₁⟩ : ∃ w₁, (if total - left > 0 then w.step else .ok w) = .ok w₁ ∧
        w₁.profile = p ∧ w₁.InBounds := by
      split
      · obtain ⟨w', hstep, hp', hin'⟩ := hw.step (hp ▸ hd) (hp ▸ hl)
        exact ⟨w', hstep, hp'.trans hp, hin'⟩
      · exact ⟨w, rfl, hp, hw⟩
    have hk : total - left = acc.length := by omega
    have hadm : p.Admits w₁.conditions :=
      hp₁ ▸ hin₁.admits (hp₁ ▸ hmax) (hp₁ ▸ hbase) (hp₁ ▸ hrange)
    unfold LinkWalk.framesFrom
    dsimp only
    rw [hw₁]
    refine ih w₁ _ hp₁ hin₁ (by simp; omega) ?_ ?_
    · simp [htimes, hk, List.range_succ]
    · intro f hf
      rcases List.mem_cons.mp hf with rfl | hf
      · exact hadm
      · exact hacc f hf

/-- Every frame of a profile's walk lies within the profile for sound bounds; the sampling succeeds,
with one frame at time zero and one per step of `s = max step 1` ms, `⌈d / s⌉` steps capped at
`maxWalkSteps`. -/
theorem walk_stays_within_profile (p : LinkProfile) (seed : UInt64) (d : Span)
    (hrate : p.minRateKbit ≤ p.maxRateKbit) (hmax : p.maxRateKbit.toNat ≤ 2 ^ 53)
    (hbase : p.baseDelayMs.isFinite = true) (hbase0 : 0 ≤ p.baseDelayMs)
    (hrange : p.delayRangeMs.isFinite = true) (hrange0 : 0 ≤ p.delayRangeMs)
    (hloss : p.maxLossPercent.isFinite = true) (hloss0 : 0 ≤ p.maxLossPercent)
    (hdstep : p.delayStepMs.isFinite = true) (hlstep : p.lossStepPercent.isFinite = true) :
    ∃ fs w, (LinkWalk.new p seed).frames d = .ok (fs, w) ∧
      fs.map LinkFrame.time =
        (List.range (min (d.nanos ⌈/⌉ max p.step.nanos 1000000) maxWalkSteps + 1)).map
          (Span.scale ⟨max p.step.nanos 1000000⟩) ∧
      ∀ f ∈ fs, p.Admits f.conditions := by
  obtain ⟨b, hb⟩ := Float.nonNegValue_of_isFinite hbase0 hbase
  obtain ⟨r, hr⟩ := Float.nonNegValue_of_isFinite hrange0 hrange
  obtain ⟨l, hl⟩ := Float.nonNegValue_of_isFinite hloss0 hloss
  have hstep : (if p.step.nanos < 1000000 then (⟨1000000⟩ : Span) else p.step) =
      ⟨max p.step.nanos 1000000⟩ := by
    split
    · rename_i h
      rw [max_eq_right h.le]
    · rename_i h
      rw [max_eq_left (not_lt.mp h)]
  unfold LinkWalk.frames
  rw [show (LinkWalk.new p seed).profile = p from rfl, hstep]
  exact framesFrom_admits hmax hb hr hdstep hlstep _ _ _ _ [] rfl
    (inBounds_new seed hrate hmax hb hr hl) (by simp) (by simp) (by simp)

/-- The default profile, sampled over a quarter of a second: three steps of 100 ms after the
frame at time zero. -/
theorem defaultLink_walk_within :
    ∃ fs w, (LinkWalk.new {} 7).frames ⟨250000000⟩ = .ok (fs, w) ∧
      fs.map LinkFrame.time =
        (List.range (min ((⟨250000000⟩ : Span).nanos ⌈/⌉ max ({} : LinkProfile).step.nanos 1000000)
          maxWalkSteps + 1)).map (Span.scale ⟨max ({} : LinkProfile).step.nanos 1000000⟩) ∧
      ∀ f ∈ fs, ({} : LinkProfile).Admits f.conditions :=
  walk_stays_within_profile {} 7 ⟨250000000⟩ (by decide) (by decide) (by decide) (by decide)
    (by decide) (by decide) (by decide) (by decide) (by decide) (by decide)

end XrDelivery
