import XrDelivery.Reception.Loss
/-!
# The quality summary of a stream

Over the frame numbers `1, …, expected`, a frame is received when complete, and then on time
or late; otherwise it is lost, and partial if some of its fragments arrived. Each frame adds
its score to the error sum: the reconstruction error when on time, the penalty when late,
lost or unknown. Ratios are taken over the expected count (zero when none is expected), the
average delay over the received frames.

A user is satisfied when the share of frames on time reaches the reliability threshold; a
NaN threshold is never reached.
-/
namespace XrDelivery

/-- The quality of one stream. -/
structure StreamQuality where
  totalFrames : UInt32 := 0
  receivedFrames : UInt32 := 0
  onTimeFrames : UInt32 := 0
  lateFrames : UInt32 := 0
  lostFrames : UInt32 := 0
  partialFrames : UInt32 := 0
  sumError : Float := 0.0
  meanError : Float := 0.0
  deliveryRatio : Float := 0.0
  onTimeRatio : Float := 0.0
  lossRatio : Float := 0.0
  avgDelayMs : Float := 0.0
  delayReliability : Float := 0.0
  userSatisfied : Bool := false
  deadlineMs : Float := 0.0
  reliabilityThreshold : Float := 0.0

/-- Running counts while the frames are looked at in order. -/
structure Tally where
  received : Nat := 0
  onTime : Nat := 0
  late : Nat := 0
  lost : Nat := 0
  partials : Nat := 0
  sumError : Float := 0.0
  sumDelay : Float := 0.0

/-- Count one frame, given what the tracker knows of it. -/
def Tally.add (penalty : Float) (t : Tally) : Option FrameState → Tally
  | none => { t with lost := t.lost + 1, sumError := t.sumError + penalty }
  | some s =>
    let t := { t with sumError := t.sumError + s.effectiveError }
    match s.delayMs with
    | some d =>
      let t := { t with received := t.received + 1, sumDelay := t.sumDelay + d }
      if s.onTime then { t with onTime := t.onTime + 1 } else { t with late := t.late + 1 }
    | none =>
      let t := { t with lost := t.lost + 1 }
      if s.received > 0 then { t with partials := t.partials + 1 } else t

/-- The quality of the frames `1, …, expected` as the tracker knows them. -/
def StreamQuality.compute (t : Tracker) (expected : UInt32) (threshold : Float) : StreamQuality :=
  let tally := (frameNumbers expected.toNat).foldl
    (fun acc seq => acc.add t.deadline.penalty (t.get? seq)) ({} : Tally)
  let n := expected.toNat.toFloat
  let ratio (k : Nat) : Float := if expected = 0 then 0.0 else k.toFloat / n
  let onTimeRatio := ratio tally.onTime
  { totalFrames := expected, receivedFrames := tally.received.toUInt32,
    onTimeFrames := tally.onTime.toUInt32, lateFrames := tally.late.toUInt32,
    lostFrames := tally.lost.toUInt32, partialFrames := tally.partials.toUInt32,
    sumError := tally.sumError,
    meanError := if expected = 0 then 0.0 else tally.sumError / n,
    deliveryRatio := ratio tally.received, onTimeRatio, lossRatio := ratio tally.lost,
    avgDelayMs := if tally.received = 0 then 0.0 else tally.sumDelay / tally.received.toFloat,
    delayReliability := onTimeRatio, userSatisfied := onTimeRatio >= threshold,
    deadlineMs := t.deadline.deadlineMs, reliabilityThreshold := threshold }

end XrDelivery
