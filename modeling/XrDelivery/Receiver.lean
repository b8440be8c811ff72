import XrDelivery.Quality.Global
/-!
# The receiver

A receiver reassembles one stream: it takes in fragments as they arrive, counts what it sees,
and reports every completed frame as an event. When the stream ends it is finalized once:
the frames that never completed are reported lost, in frame order, the stream's quality is
computed and contributed to the global aggregator. After that it ignores fragments, and
finalizing again returns the same quality and losses without contributing.
-/
namespace XrDelivery

/-- What a receiver is told about its stream. -/
structure ReceiverConfig where
  deadlineMs : Float := 40.0
  reliabilityThreshold : Float := 0.99
  expectedFrames : UInt32 := 100
  penalty : Float := 1000.0

/-- The first value out of range: the threshold (which must lie in `[0, 1]`), then the
deadline, then the penalty. -/
def ReceiverConfig.validate (c : ReceiverConfig) : Except SetupError Unit :=
  if !(0.0 <= c.reliabilityThreshold && c.reliabilityThreshold <= 1.0) then
    .error (.thresholdInvalid c.reliabilityThreshold)
  else (Deadline.new c.deadlineMs c.penalty).map fun _ => ()

/-- One line of a stream's frame log. -/
structure FrameRecord where
  frameNumber : UInt32
  components : UInt32
  error : Float
  size : UInt32
  sentAt : Float
  receivedAt : Float
  delayMs : Float
  onTime : Bool
  effectiveError : Float
  deadlineMs : Float

/-- The record of a frame as the tracker holds it; an incomplete one shows its first arrival
and delay `-1`. -/
def FrameRecord.ofState (seq : UInt32) (s : FrameState) (deadlineMs : Float) : FrameRecord :=
  { frameNumber := seq, components := s.components, error := s.error, size := s.size,
    sentAt := s.sentAt, receivedAt := s.completedAt.getD s.firstArrival,
    delayMs := s.delayOrSentinel, onTime := s.onTime, effectiveError := s.effectiveError,
    deadlineMs }

/-- The record of a lost frame: no metadata, delay `-1`, scored by the penalty. -/
def FrameRecord.lost (seq : UInt32) (penalty deadlineMs : Float) : FrameRecord :=
  { frameNumber := seq, components := 0, error := 0.0, size := 0, sentAt := 0.0,
    receivedAt := 0.0, delayMs := -1.0, onTime := false, effectiveError := penalty,
    deadlineMs }

/-- What a receiver reports about a frame. -/
inductive ReceiverEvent where
  | completed (r : FrameRecord)
  | lost (r : FrameRecord)

/-- The record an event carries. -/
def ReceiverEvent.record : ReceiverEvent → FrameRecord
  | .completed r => r
  | .lost r => r

/-- What a receiver counted. -/
structure ReceiverStats where
  fragmentsReceived : UInt64 := 0
  bytesReceived : UInt64 := 0
  duplicateFragments : UInt64 := 0
  inconsistentFragmentCounts : UInt64 := 0
  malformedFragments : UInt64 := 0
  framesCompleted : UInt64 := 0
  firstArrivalAt : Option Float := none

/-- The share of duplicates among the fragments taken in, zero when there were none. -/
def ReceiverStats.duplicateRatio (s : ReceiverStats) : Float :=
  let total := s.fragmentsReceived + s.duplicateFragments
  if total = 0 then 0.0 else s.duplicateFragments.toFloat / total.toFloat

/-- The result of finalizing: the stream's quality, its losses, and the global summary if
this contribution published it. -/
structure FinalizeOutcome where
  quality : StreamQuality
  loss : LossReport
  global : Option GlobalQuality

/-- A receiver: its configuration, tracker, pending events and counters, and the outcome once
finalized. -/
structure Receiver where
  config : ReceiverConfig
  tracker : Tracker
  streamId : Nat
  outcome : Option FinalizeOutcome := none
  events : List ReceiverEvent := []
  stats : ReceiverStats := {}

/-- A receiver for a valid configuration, registered with the aggregator. -/
def Receiver.new (c : ReceiverConfig) (agg : Aggregator) : Except SetupError (Receiver × Aggregator) := do
  c.validate
  let d ← Deadline.new c.deadlineMs c.penalty
  let (id, agg) := agg.register
  pure ({ config := c, tracker := Tracker.new d, streamId := id }, agg)

namespace Receiver

variable {r : Receiver}

theorem new_eq (c : ReceiverConfig) (agg : Aggregator) :
    Receiver.new c agg = c.validate.map fun _ =>
      (({ config := c, tracker := Tracker.new ⟨c.deadlineMs, c.penalty⟩,
          streamId := agg.streamCount } : Receiver), agg.register.2) := by
  unfold Receiver.new
  cases hv : c.validate with
  | error e => rfl
  | ok u =>
    have hd : Deadline.new c.deadlineMs c.penalty = .ok ⟨c.deadlineMs, c.penalty⟩ := by
      unfold ReceiverConfig.validate at hv
      split at hv
      · cases hv
      · unfold Deadline.new at hv ⊢
        split at hv
        · cases hv
        · rename_i hdl
          split at hv
          · cases hv
          · rename_i hpen
            rw [if_neg hdl, if_neg hpen]
    simp [hd, bind, Except.bind, pure, Except.pure, Except.map, Aggregator.register]

theorem new_eq_ok_iff {c : ReceiverConfig} {agg agg' : Aggregator} :
    Receiver.new c agg = .ok (r, agg') ↔ c.validate = .ok () ∧
      r = { config := c, tracker := Tracker.new ⟨c.deadlineMs, c.penalty⟩,
            streamId := agg.streamCount } ∧ agg' = agg.register.2 := by
  rw [new_eq]
  cases c.validate with
  | error e => simp [Except.map]
  | ok u => simp [Except.map, eq_comm]

/-- A fresh receiver holds its configuration and an empty tracker under the configured deadline
and penalty; it is active and has no events. -/
theorem new_eq_ok {c : ReceiverConfig} {agg agg' : Aggregator}
    (h : Receiver.new c agg = .ok (r, agg')) :
    r.config = c ∧ r.tracker = Tracker.new ⟨c.deadlineMs, c.penalty⟩ ∧ r.outcome = none ∧
      r.events = [] := by
  obtain ⟨-, rfl, -⟩ := new_eq_ok_iff.mp h
  exact ⟨rfl, rfl, rfl, rfl⟩

end Receiver

/-- The receiver has been finalized. -/
def Receiver.isFinalized (r : Receiver) : Bool := r.outcome.isSome

/-- Take in a fragment that arrived at `arrival`. -/
def Receiver.onFragment (r : Receiver) (f : Fragment) (arrival : Float) : Receiver :=
  if r.isFinalized then r
  else
    let (ing, tracker) := r.tracker.ingest f arrival
    let r := { r with tracker }
    let r := if ing.countMismatch then
      { r with stats.inconsistentFragmentCounts := r.stats.inconsistentFragmentCounts + 1 } else r
    match ing.status with
    | .malformed => { r with stats.malformedFragments := r.stats.malformedFragments + 1 }
    | .duplicate => { r with stats.duplicateFragments := r.stats.duplicateFragments + 1 }
    | st =>
      let r := { r with stats.fragmentsReceived := r.stats.fragmentsReceived + 1,
                        stats.bytesReceived := r.stats.bytesReceived + f.payload.toUInt64,
                        stats.firstArrivalAt := r.stats.firstArrivalAt.orElse fun _ => some arrival }
      match st with
      | .completed _ =>
        let r := { r with stats.framesCompleted := r.stats.framesCompleted + 1 }
        match r.tracker.get? f.frameSeq with
        | some s => { r with events := r.events ++
            [.completed (FrameRecord.ofState f.frameSeq s r.config.deadlineMs)] }
        | none => r
      | _ => r

theorem Receiver.onFragment_of_finalized {r : Receiver} {f : Fragment} {a : Float}
    (h : r.outcome.isSome) : r.onFragment f a = r := by
  simp [Receiver.onFragment, Receiver.isFinalized, h]

/-- The quality of the stream as it stands. -/
def Receiver.quality (r : Receiver) : StreamQuality :=
  StreamQuality.compute r.tracker r.config.expectedFrames r.config.reliabilityThreshold

/-- Finalize: the first time, detect losses, report them in frame order, compute the quality
and contribute it; afterwards, the same quality and losses without a global summary. -/
def Receiver.finalize (r : Receiver) (agg : Aggregator) : FinalizeOutcome × Receiver × Aggregator :=
  match r.outcome with
  | some o => ({ o with global := none }, r, agg)
  | none =>
    let (loss, tracker) := r.tracker.detectLost r.config.expectedFrames
    let r := { r with tracker }
    let lostSeqs := (loss.absent ++ loss.incomplete).mergeSort (· ≤ ·)
    let lostEvents := lostSeqs.map fun seq =>
      ReceiverEvent.lost (FrameRecord.lost seq r.config.penalty r.config.deadlineMs)
    let r := { r with events := r.events ++ lostEvents }
    let q := r.quality
    let (global, agg) := agg.contribute q
    let o : FinalizeOutcome := ⟨q, loss, global⟩
    (o, { r with outcome := some { o with global := none } }, agg)

/-- Hand out the pending events, oldest first, and forget them. -/
def Receiver.drain (r : Receiver) : List ReceiverEvent × Receiver := (r.events, { r with events := [] })

end XrDelivery
