import XrDelivery.SetupError
import XrDelivery.Random.Draw
import XrDelivery.Bounds
/-!
# Frame-time jitter

The sender perturbs each frame interval by a jitter drawn from a normal distribution cut to
`[min, max]` milliseconds: a draw outside the bounds is drawn again, at most 1000 times, and
what is still outside after that is clamped to the nearer bound.

`Jitter.validate` checks the bounds first (finite, lower not above upper), then the spread
(finite, non-negative), then the mean (finite). Every sample of a valid configuration lies in
`[min, max]`.
-/
namespace XrDelivery

/-- The parameters of the jitter distribution, in milliseconds, and its seed. -/
structure Jitter where
  mean : Float := 0.0
  stddev : Float := 2.0
  min : Float := -5.0
  max : Float := 5.0
  seed : UInt64 := 1

/-- No jitter at all: every parameter zero, seed zero. -/
def Jitter.none : Jitter := ⟨0.0, 0.0, 0.0, 0.0, 0⟩

/-- The first parameter out of its range, if any. -/
def Jitter.validate (j : Jitter) : Except SetupError Unit :=
  if !j.min.isFinite || !j.max.isFinite || j.min > j.max then
    .error (.jitterBoundsInverted j.min j.max)
  else if !j.stddev.isFinite || j.stddev < 0.0 then .error (.jitterSpreadInvalid j.stddev)
  else if !j.mean.isFinite then .error (.jitterMeanInvalid j.mean)
  else .ok ()

/-- The most redraws of one sample. -/
def maxRedraws : Nat := 1000

/-- A jitter configuration checked by `Jitter.validate`, with its word stream. -/
structure JitterSampler where
  config : Jitter
  stream : Random.Stream

/-- The sampler of a valid configuration, seeded by it. -/
def JitterSampler.new (j : Jitter) : Except SetupError JitterSampler := do
  j.validate
  pure ⟨j, Random.Stream.ofSeed j.seed⟩

/-- One draw `mean + stddev · normal`, the normal drawn with the functions of `f`. -/
def JitterSampler.draw (f : Random.Elementary) (s : JitterSampler) : Float × JitterSampler :=
  let (z, g) := s.stream.normal f
  (s.config.mean + s.config.stddev * z, { s with stream := g })

@[simp] theorem JitterSampler.draw_config (f : Random.Elementary) (s : JitterSampler) :
    (s.draw f).2.config = s.config := rfl

@[simp] theorem JitterSampler.draw_stream (f : Random.Elementary) (s : JitterSampler) :
    (s.draw f).2.stream = (s.stream.normal f).2 := rfl

/-- Redraw while the value lies outside the bounds, at most `fuel` more times. -/
def JitterSampler.redraw (f : Random.Elementary) (s : JitterSampler) :
    Nat → Float → Float × JitterSampler
  | 0, x => (x, s)
  | fuel + 1, x =>
    if x < s.config.min || x > s.config.max then
      let (y, s) := s.draw f
      s.redraw f fuel y
    else (x, s)

/-- The next jitter sample, in `[min, max]`, its normals drawn with the functions of `f`. -/
def JitterSampler.sampleWith (f : Random.Elementary) (s : JitterSampler) :
    Float × JitterSampler :=
  let (x, s) := s.draw f
  let (x, s) := s.redraw f maxRedraws x
  (clampTo s.config.min s.config.max x, s)

/-- The next jitter sample, drawn with the C maths library. -/
def JitterSampler.sample (s : JitterSampler) : Float × JitterSampler := s.sampleWith .libm

end XrDelivery
