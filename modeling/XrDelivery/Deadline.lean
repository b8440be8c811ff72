import XrDelivery.SetupError
/-!
# Deadline classification

A frame is on time when its delay from sending to completion, in milliseconds, is at most the
deadline. An on-time frame is scored by its reconstruction error; a late one by the penalty.
A NaN delay is late.
-/
namespace XrDelivery

/-- How a completed frame is scored. -/
structure Classification where
  delayMs : Float
  onTime : Bool
  effectiveError : Float

/-- A deadline and a penalty, both finite and non-negative. -/
structure Deadline where
  deadlineMs : Float
  penalty : Float

/-- The classifier of a deadline and a penalty; the deadline is checked first. -/
def Deadline.new (deadlineMs penalty : Float) : Except SetupError Deadline :=
  if !deadlineMs.isFinite || deadlineMs < 0.0 then .error (.deadlineInvalid deadlineMs)
  else if !penalty.isFinite || penalty < 0.0 then .error (.penaltyInvalid penalty)
  else .ok ⟨deadlineMs, penalty⟩

/-- Score a frame sent at `sentAt`, completed at `completedAt`, with reconstruction `error`. -/
def Deadline.classify (d : Deadline) (sentAt completedAt error : Float) : Classification :=
  let delay := (completedAt - sentAt) * 1000.0
  let onTime := delay <= d.deadlineMs
  ⟨delay, onTime, if onTime then error else d.penalty⟩

end XrDelivery
