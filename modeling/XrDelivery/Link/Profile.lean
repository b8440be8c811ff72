import XrDelivery.Decimal.Layout
/-!
# Link profiles and spans of time

A link profile bounds a link's random walk: its rate in kbit/s between a least and a greatest
value (no rate limit when the greatest is zero), its delay within a range around a base delay,
its packet jitter, its loss percentage up to a greatest value, the largest change of each per
step, and the length of a step. The ideal link of a delay has no rate limit, no jitter, no
loss, and steps of one second.

A span of time is a count of nanoseconds, at most `2^64 - 1` seconds and `999 999 999`
nanoseconds; products beyond that stay at that greatest span.
-/
namespace XrDelivery

/-- Nanoseconds per second. -/
def nanosPerSecond : Nat := 1000000000

/-- The greatest span of time. -/
def Span.max : Nat := (Nat.pow 2 64 - 1) * nanosPerSecond + (nanosPerSecond - 1)

/-- A span of time in nanoseconds, at most `Span.max`. -/
structure Span where
  nanos : Nat
deriving DecidableEq, Repr

/-- The span of `ms` milliseconds. -/
def Span.ofMillis (ms : Nat) : Span := ⟨ms * 1000000⟩

/-- The span `k` times as long, or the greatest span if that is longer. -/
def Span.scale (s : Span) (k : Nat) : Span := ⟨min (s.nanos * k) Span.max⟩

/-- The span in seconds as a double: whole seconds plus the nanoseconds over `10^9`. -/
def Span.toSeconds (s : Span) : Float :=
  (s.nanos / nanosPerSecond).toUInt64.toFloat + (s.nanos % nanosPerSecond).toUInt64.toFloat / 1000000000.0

/-- Why a number of seconds is no span. -/
inductive SpanError where
  | negative
  | tooBigOrNaN

/-- The sentence of the error. -/
def SpanError.message : SpanError → String
  | .negative => "cannot convert float seconds to Duration: value is negative"
  | .tooBigOrNaN => "cannot convert float seconds to Duration: value is either too big or NaN"

/-- The span nearest to `x` seconds, a half nanosecond to the even count. Negative values,
NaN, the infinities and values of `2^64` seconds or more are no span. -/
def Span.ofSeconds (x : Float) : Except SpanError Span :=
  if x < 0.0 then .error .negative
  else
    let bits := x.toBits
    let e := ((bits >>> 52) &&& 0x7FF).toNat
    if e ≥ 1023 + 64 then .error .tooBigOrNaN
    else
      let b := Decimal.Binary.ofBits bits
      .ok ⟨Decimal.roundHalfEven (b.m * Nat.pow 2 b.q.toNat * nanosPerSecond) (Nat.pow 2 (-b.q).toNat)⟩

/-- The bounds of a link's random walk. -/
structure LinkProfile where
  minRateKbit : UInt64 := 40000
  maxRateKbit : UInt64 := 120000
  rateStepKbit : UInt64 := 5000
  baseDelayMs : Float := 8.0
  delayRangeMs : Float := 4.0
  delayStepMs : Float := 1.0
  packetJitterMs : Float := 2.0
  maxLossPercent : Float := 1.0
  lossStepPercent : Float := 0.2
  step : Span := Span.ofMillis 100

/-- The ideal link of a delay: fixed delay, no rate limit, no jitter, no loss. -/
def LinkProfile.ideal (delayMs : Float) : LinkProfile :=
  { minRateKbit := 0, maxRateKbit := 0, rateStepKbit := 0, baseDelayMs := delayMs,
    delayRangeMs := 0.0, delayStepMs := 0.0, packetJitterMs := 0.0, maxLossPercent := 0.0,
    lossStepPercent := 0.0, step := ⟨nanosPerSecond⟩ }

/-- The link limits its rate. -/
def LinkProfile.isRateLimited (p : LinkProfile) : Bool := p.maxRateKbit > 0

/-- The state of a link at an instant. -/
structure Conditions where
  delayMs : Float
  packetJitterMs : Float
  lossPercent : Float
  rateKbit : Option Float

/-- A perfect link: no delay, no jitter, no loss, no rate limit. -/
def Conditions.perfect : Conditions := ⟨0.0, 0.0, 0.0, none⟩

end XrDelivery
