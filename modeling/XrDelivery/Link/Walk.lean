import XrDelivery.Link.Profile
import XrDelivery.Random.Draw
import XrDelivery.Bounds
/-!
# The random walk of a link

A link starts at a random rate between the profile's bounds, at its base delay, and at a
random loss up to a fifth of the greatest loss. Each step moves rate, delay and loss by a
random amount up to the profile's step, up or down with equal chance, and keeps each within
its bounds: the rate within `[min, max]`, the delay within `[max 0 (base - range), base +
range]`, the loss within `[0, max]`. A step of zero or less is no move and draws nothing; a
NaN step draws as a positive one does and moves by NaN, which the bounds then leave alone.

Bounds that are inverted or NaN cannot be kept: the walk stops with `WalkError.badBounds`.

`LinkWalk.frames` samples the walk over a duration: one frame at time zero, then one per
step until the duration is covered, at most 100 000 steps; steps shorter than a millisecond
count as a millisecond.
-/
namespace XrDelivery

/-- The largest number of steps one sampling takes. -/
def maxWalkSteps : Nat := 100000

/-- The walk met bounds that no value lies within. -/
inductive WalkError where
  | badBounds

/-- A link's walk: its profile, its word stream and its current rate, delay and loss. -/
structure LinkWalk where
  profile : LinkProfile
  stream : Random.Stream
  rateKbit : Float
  delayMs : Float
  lossPercent : Float

/-- The walk of a profile from a seed. -/
def LinkWalk.new (p : LinkProfile) (seed : UInt64) : LinkWalk :=
  let g := Random.Stream.ofSeed seed
  let range := (p.maxRateKbit - if p.maxRateKbit ≥ p.minRateKbit then p.minRateKbit else p.maxRateKbit).toFloat
  let (u, g) := g.unit
  let rate := p.minRateKbit.toFloat + u * range
  let (v, g) := g.unit
  ⟨p, g, rate, p.baseDelayMs, v * p.maxLossPercent * 0.2⟩

/-- The link's state now: the rate (at least 1 kbit/s) only for a rate-limited link. -/
def LinkWalk.conditions (w : LinkWalk) : Conditions :=
  { delayMs := w.delayMs, packetJitterMs := w.profile.packetJitterMs, lossPercent := w.lossPercent,
    rateKbit := if w.profile.isRateLimited then some (atLeast 1.0 w.rateKbit) else none }

/-- A move of random size up to `maxStep`, up or down; no move and no draw for a step that
is not positive. -/
def Random.Stream.signedStep (g : Random.Stream) (maxStep : Float) : Float × Random.Stream :=
  if maxStep <= 0.0 then (0.0, g)
  else
    let (u, g) := g.unit
    let mag := u * maxStep
    let (up, g) := g.coin
    (if up then mag else -mag, g)

/-- `x` kept within `[lo, hi]`; bounds that are inverted or NaN are an error. -/
def keepWithin (lo hi x : Float) : Except WalkError Float :=
  if lo <= hi then
    let x := if x < lo then lo else x
    .ok (if x > hi then hi else x)
  else .error .badBounds

/-- One step of the walk. -/
def LinkWalk.step (w : LinkWalk) : Except WalkError LinkWalk := do
  let p := w.profile
  let (dRate, g) := w.stream.signedStep p.rateStepKbit.toFloat
  let (dDelay, g) := g.signedStep p.delayStepMs
  let (dLoss, g) := g.signedStep p.lossStepPercent
  let rate ← keepWithin p.minRateKbit.toFloat p.maxRateKbit.toFloat (w.rateKbit + dRate)
  let delay ← keepWithin (atLeast 0.0 (p.baseDelayMs - p.delayRangeMs)) (p.baseDelayMs + p.delayRangeMs)
    (w.delayMs + dDelay)
  let loss ← keepWithin 0.0 p.maxLossPercent (w.lossPercent + dLoss)
  pure { w with stream := g, rateKbit := rate, delayMs := delay, lossPercent := loss }

/-- The state of a link from an instant on. -/
structure LinkFrame where
  time : Span
  conditions : Conditions

/-- Frames `k, k+1, …, total` of a sampling with step `step`: frame `k` is the state after
`k` steps, at `k` steps' time. -/
def LinkWalk.framesFrom (step : Span) (total : Nat) : Nat → LinkWalk → List LinkFrame → Except WalkError (List LinkFrame × LinkWalk)
  | 0, w, acc => .ok (acc.reverse, w)
  | left + 1, w, acc =>
    let k := total - left
    match (if k > 0 then w.step else .ok w) with
    | .error e => .error e
    | .ok w => LinkWalk.framesFrom step total left w (⟨step.scale k, w.conditions⟩ :: acc)

/-- Sample the walk over `duration`: a frame at time zero and one per step until the
duration is covered (at most `maxWalkSteps` steps). The walk goes on from where it stops. -/
def LinkWalk.frames (w : LinkWalk) (duration : Span) : Except WalkError (List LinkFrame × LinkWalk) :=
  let step : Span := if w.profile.step.nanos < 1000000 then ⟨1000000⟩ else w.profile.step
  let total := min ((duration.nanos + step.nanos - 1) / step.nanos) maxWalkSteps
  LinkWalk.framesFrom step total (total + 1) w []

end XrDelivery
