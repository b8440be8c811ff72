import XrDelivery.Quality.Stream
/-!
# The global quality over all streams

Every receiver registers with one aggregator when it is set up and contributes its stream's
quality once, when it finishes. The aggregator adds up error sums, expected and on-time frame
counts and satisfied users. When the last registered stream has contributed, the global
summary is published: the mean error and the share of on-time frames over all expected
frames. It is published once; later contributions still add to the totals but publish
nothing.
-/
namespace XrDelivery

/-- The published summary over all streams. -/
structure GlobalQuality where
  streamCount : Nat
  satisfiedStreamCount : Nat
  totalExpectedFrames : UInt64
  totalOnTimeFrames : UInt64
  totalSumError : Float
  globalMeanError : Float
  globalDelayReliability : Float

/-- The running totals, and the summary once published. -/
structure Aggregator where
  streamCount : Nat := 0
  satisfiedStreamCount : Nat := 0
  totalSumError : Float := 0.0
  totalExpectedFrames : UInt64 := 0
  totalOnTimeFrames : UInt64 := 0
  finishedStreamCount : Nat := 0
  summaryPublished : Bool := false
  published : Option GlobalQuality := none

/-- Register one more stream; its number is the count of streams before it. -/
def Aggregator.register (a : Aggregator) : Nat × Aggregator :=
  (a.streamCount, { a with streamCount := a.streamCount + 1 })

/-- The summary of the current totals; ratios over zero expected frames are zero. -/
def Aggregator.summarize (a : Aggregator) : GlobalQuality :=
  let n := a.totalExpectedFrames.toFloat
  let zero := a.totalExpectedFrames = 0
  { streamCount := a.streamCount, satisfiedStreamCount := a.satisfiedStreamCount,
    totalExpectedFrames := a.totalExpectedFrames, totalOnTimeFrames := a.totalOnTimeFrames,
    totalSumError := a.totalSumError,
    globalMeanError := if zero then 0.0 else a.totalSumError / n,
    globalDelayReliability := if zero then 0.0 else a.totalOnTimeFrames.toFloat / n }

/-- Add one finished stream's quality. The summary is returned, and kept, by the
contribution that finishes the last registered stream while nothing is published yet. -/
def Aggregator.contribute (a : Aggregator) (q : StreamQuality) : Option GlobalQuality × Aggregator :=
  let a := { a with
    totalSumError := a.totalSumError + q.sumError
    totalExpectedFrames := a.totalExpectedFrames + q.totalFrames.toUInt64
    totalOnTimeFrames := a.totalOnTimeFrames + q.onTimeFrames.toUInt64
    satisfiedStreamCount := if q.userSatisfied then a.satisfiedStreamCount + 1 else a.satisfiedStreamCount
    finishedStreamCount := a.finishedStreamCount + 1 }
  if a.finishedStreamCount < a.streamCount || a.summaryPublished then (none, a)
  else
    let g := a.summarize
    (some g, { a with summaryPublished := true, published := some g })

end XrDelivery
