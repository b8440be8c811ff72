import Mathlib
import XrDelivery.Link.Timeline
import XrDelivery.Config.Resolved

/-!
# When a link's walk can be generated

Each step of a link's random walk keeps the rate, the delay and the loss within bounds taken
from the profile: `[min rate, max rate]`, `[max 0 (base - range), base + range]` and
`[0, max loss]`. Bounds that are not ordered, NaN among them, stop the walk. The bounds are the
same at every step, so a walk either never fails or fails at its first step.

So a timeline of a positive duration is generated exactly when the three pairs of bounds are
ordered as the walk compares them (`LinkProfile.BoundsOrdered`); a timeline of no duration takes
no step and is always generated. The check a configuration's link passes does not ensure the
order: a greatest rate of zero, meaning no rate limit, keeps the default least rate of
40000 kbit/s above it, and every step of such a walk fails.
-/
namespace XrDelivery

/-- The three clamps of a link's walk get ordered bounds, as the walk compares them. -/
def LinkProfile.BoundsOrdered (p : LinkProfile) : Prop :=
  p.minRateKbit.toFloat ≤ p.maxRateKbit.toFloat ∧
    atLeast 0.0 (p.baseDelayMs - p.delayRangeMs) ≤ p.baseDelayMs + p.delayRangeMs ∧
    0.0 ≤ p.maxLossPercent

instance (p : LinkProfile) : Decidable p.BoundsOrdered := by
  unfold LinkProfile.BoundsOrdered
  exact inferInstance

namespace LinkWalk

variable {w : LinkWalk}

theorem step_of_ordered (h : w.profile.BoundsOrdered) :
    ∃ w', w.step = .ok w' ∧ w'.profile = w.profile := by
  obtain ⟨hrate, hdelay, hloss⟩ := h
  unfold LinkWalk.step
  simp only [keepWithin, hrate, hdelay, hloss, if_true, bind, Except.bind, pure, Except.pure]
  exact ⟨_, rfl, rfl⟩

theorem step_of_not_ordered (h : ¬w.profile.BoundsOrdered) : w.step = .error .badBounds := by
  unfold LinkWalk.step
  by_cases hrate : w.profile.minRateKbit.toFloat ≤ w.profile.maxRateKbit.toFloat
  · by_cases hdelay : atLeast 0.0 (w.profile.baseDelayMs - w.profile.delayRangeMs) ≤
        w.profile.baseDelayMs + w.profile.delayRangeMs
    · have hloss : ¬0.0 ≤ w.profile.maxLossPercent := fun hloss => h ⟨hrate, hdelay, hloss⟩
      simp [keepWithin, hrate, hdelay, hloss, bind, Except.bind]
    · simp [keepWithin, hrate, hdelay, bind, Except.bind]
  · simp [keepWithin, hrate, bind, Except.bind]

theorem framesFrom_of_ordered (step : Span) (total : Nat) (n : Nat) (w : LinkWalk)
    (acc : List LinkFrame) (h : w.profile.BoundsOrdered) :
    ∃ r, LinkWalk.framesFrom step total n w acc = .ok r := by
  induction n generalizing w acc with
  | zero => exact ⟨_, rfl⟩
  | succ left ih =>
    unfold LinkWalk.framesFrom
    by_cases hk : total - left > 0
    · obtain ⟨w', hw', hp⟩ := step_of_ordered h
      simp only [hk, if_true, hw']
      exact ih w' _ (hp ▸ h)
    · simp only [hk, if_false]
      exact ih w _ h

theorem framesFrom_of_not_ordered {step : Span} {total left : Nat} {acc : List LinkFrame}
    (h : ¬w.profile.BoundsOrdered) (hk : 0 < total - left) :
    LinkWalk.framesFrom step total (left + 1) w acc = .error .badBounds := by
  unfold LinkWalk.framesFrom
  simp [hk, step_of_not_ordered h]

theorem frames_isOk_iff (w : LinkWalk) (d : Span) :
    (∃ r, w.frames d = .ok r) ↔ d.nanos = 0 ∨ w.profile.BoundsOrdered := by
  unfold LinkWalk.frames
  dsimp only
  generalize hs : (if w.profile.step.nanos < 1000000 then ⟨1000000⟩ else w.profile.step : Span) = s
  have hpos : 0 < s.nanos := by
    rw [← hs]
    split
    · decide
    · omega
  generalize ht : min ((d.nanos + s.nanos - 1) / s.nanos) maxWalkSteps = total
  have htotal : 0 < total ↔ 0 < d.nanos := by
    rw [← ht, lt_min_iff, Nat.div_pos_iff]
    simp only [maxWalkSteps]
    omega
  by_cases h : w.profile.BoundsOrdered
  · exact ⟨fun _ => Or.inr h, fun _ => framesFrom_of_ordered s total _ w [] h⟩
  · rcases Nat.eq_zero_or_pos d.nanos with hd | hd
    · have : total = 0 := by omega
      subst this
      exact ⟨fun _ => Or.inl hd, fun _ => ⟨_, rfl⟩⟩
    · obtain ⟨t, rfl⟩ : ∃ t, total = t + 1 := ⟨total - 1, by omega⟩
      have hfail : LinkWalk.framesFrom s (t + 1) (t + 1 + 1) w [] = .error .badBounds := by
        rw [LinkWalk.framesFrom]
        simp only [Nat.sub_self, gt_iff_lt, lt_irrefl, if_false]
        exact framesFrom_of_not_ordered h (by omega)
      rw [hfail]
      simp only [reduceCtorEq, exists_false, false_iff, not_or]
      exact ⟨by omega, h⟩

end LinkWalk

/-- A timeline of a profile's walk is generated, for any seed, exactly when the duration is zero
or the walk's three clamps get ordered bounds. -/
theorem generate_ok_iff (p : LinkProfile) (seed : UInt64) (d : Span) :
    (∃ tl, Timeline.generate p seed d = .ok tl) ↔ d.nanos = 0 ∨ p.BoundsOrdered := by
  have hframes := LinkWalk.frames_isOk_iff (LinkWalk.new p seed) d
  have hp : (LinkWalk.new p seed).profile = p := rfl
  rw [hp] at hframes
  rw [← hframes]
  unfold Timeline.generate
  cases (LinkWalk.new p seed).frames d with
  | error e => simp
  | ok r => simp

/-- A link that lifts the rate limit is accepted, but keeps the default least rate above the
greatest, so its walk cannot be generated over any positive duration. -/
theorem unlimitedRate_walk_fails :
    ∃ p, LinkInput.resolve { maxRateKbit := some 0 } = .ok p ∧
      ∀ seed d, 0 < d.nanos → ¬∃ tl, Timeline.generate p seed d = .ok tl := by
  refine ⟨_, rfl, fun seed d hd => ?_⟩
  rw [generate_ok_iff]
  rintro (h | h)
  · omega
  · revert h
    decide

end XrDelivery
