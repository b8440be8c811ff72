import Std.Data.TreeMap.Basic
import Std.Data.TreeMap.Lemmas
import XrDelivery.Frame
import XrDelivery.Deadline
/-!
# Reassembling frames from fragments

The tracker keeps, per frame number, what has arrived of the frame. The first fragment of a
frame fixes its metadata and fragment count; each later fragment adds one to the count of
fragments received, until the frame holds as many as its first fragment announced. Then the
frame is complete and is classified against the deadline with the first fragment's sending
instant and error, and the instant the last fragment arrived.

A fragment with count zero is malformed and changes nothing. A fragment for a frame that is
complete, or already holds as many fragments as announced, is a duplicate and changes
nothing. Whether a fragment's count disagrees with the first one's is reported either way.
-/
namespace XrDelivery

/-- What has arrived of one frame. A frame is complete exactly when it has a delay. -/
structure FrameState where
  components : UInt32
  error : Float
  size : UInt32
  sentAt : Float
  firstArrival : Float
  received : UInt16
  count : UInt16
  delayMs : Option Float
  completedAt : Option Float
  onTime : Bool
  effectiveError : Float

/-- The state a frame starts in with its first fragment: scored by the penalty until it is
complete. -/
def FrameState.first (f : Fragment) (arrival penalty : Float) : FrameState :=
  { components := f.components, error := f.error, size := f.frameSize, sentAt := f.sentAt,
    firstArrival := arrival, received := 1, count := f.count, delayMs := none,
    completedAt := none, onTime := false, effectiveError := penalty }

/-- The state of a frame that never arrived: no metadata, scored by the penalty. -/
def FrameState.lost (penalty : Float) : FrameState :=
  { components := 0, error := 0.0, size := 0, sentAt := 0.0, firstArrival := 0.0,
    received := 0, count := 0, delayMs := none, completedAt := none, onTime := false,
    effectiveError := penalty }

/-- All fragments of the frame have arrived. -/
def FrameState.isComplete (s : FrameState) : Bool := s.delayMs.isSome

/-- The delay, or `-1` for a frame that is not complete. -/
def FrameState.delayOrSentinel (s : FrameState) : Float := s.delayMs.getD (-1.0)

/-- The state after completion at `arrival` with classification `c`. -/
def FrameState.complete (s : FrameState) (c : Classification) (arrival : Float) : FrameState :=
  { s with delayMs := some c.delayMs, completedAt := some arrival, onTime := c.onTime,
           effectiveError := c.effectiveError }

/-- What a fragment did to the tracker. -/
inductive IngestStatus where
  | pending
  | completed (c : Classification)
  | duplicate
  | malformed

/-- The status of a fragment and whether its count disagreed with the frame's. -/
structure Ingest where
  status : IngestStatus
  countMismatch : Bool

/-- Frame states by frame number, and the deadline they are classified by. -/
structure Tracker where
  frames : Std.TreeMap UInt32 FrameState compare := {}
  deadline : Deadline

/-- An empty tracker. -/
def Tracker.new (d : Deadline) : Tracker := { deadline := d }

/-- The state of a frame. -/
def Tracker.get? (t : Tracker) (seq : UInt32) : Option FrameState := t.frames.get? seq

/-- The tracker knows the frame. -/
def Tracker.contains (t : Tracker) (seq : UInt32) : Bool := t.frames.contains seq

/-- The number of frames known. -/
def Tracker.size (t : Tracker) : Nat := t.frames.size

/-- The known frames in increasing frame number. -/
def Tracker.toList (t : Tracker) : List (UInt32 × FrameState) := t.frames.toList

/-- Complete the frame `seq` if it now holds all its fragments. -/
def Tracker.settle (t : Tracker) (seq : UInt32) (s : FrameState) (arrival : Float)
    (mismatch : Bool) : Ingest × Tracker :=
  if s.received = s.count then
    let c := t.deadline.classify s.sentAt arrival s.error
    (⟨.completed c, mismatch⟩, { t with frames := t.frames.insert seq (s.complete c arrival) })
  else (⟨.pending, mismatch⟩, { t with frames := t.frames.insert seq s })

/-- Take in a fragment that arrived at `arrival`. -/
def Tracker.ingest (t : Tracker) (f : Fragment) (arrival : Float) : Ingest × Tracker :=
  if f.count = 0 then (⟨.malformed, false⟩, t)
  else
    match t.frames.get? f.frameSeq with
    | none => t.settle f.frameSeq (FrameState.first f arrival t.deadline.penalty) arrival false
    | some s =>
      let mismatch := f.count != s.count
      if s.isComplete || s.received ≥ s.count then (⟨.duplicate, mismatch⟩, t)
      else t.settle f.frameSeq { s with received := s.received + 1 } arrival mismatch

/-- Record a frame that never arrived, if nothing is known of it; says whether it was new. -/
def Tracker.insertAbsent (t : Tracker) (seq : UInt32) : Bool × Tracker :=
  if t.frames.contains seq then (false, t)
  else (true, { t with frames := t.frames.insert seq (FrameState.lost t.deadline.penalty) })

namespace Tracker

@[simp] theorem get?_new (d : Deadline) (k : UInt32) : (Tracker.new d).get? k = none := by
  simp [Tracker.new, get?]

theorem get?_insert (t : Tracker) (k : UInt32) (s : FrameState) (j : UInt32) :
    ({ t with frames := t.frames.insert k s } : Tracker).get? j =
      if j = k then some s else t.get? j := by
  by_cases h : j = k
  · subst h
    simp [Tracker.get?, Std.TreeMap.get?_eq_getElem?]
  · have : ¬ k = j := fun h' => h h'.symm
    simp [Tracker.get?, Std.TreeMap.get?_eq_getElem?, Std.TreeMap.getElem?_insert, h, this]

theorem contains_eq_isSome (t : Tracker) (k : UInt32) : t.contains k = (t.get? k).isSome := by
  simp [Tracker.contains, Tracker.get?, Std.TreeMap.get?_eq_getElem?]

/-- Recording a frame absent, said through `get?`. -/
theorem insertAbsent_eq (t : Tracker) (k : UInt32) :
    t.insertAbsent k =
      if (t.get? k).isSome then (false, t)
      else (true, { t with frames := t.frames.insert k (FrameState.lost t.deadline.penalty) }) := by
  unfold insertAbsent
  rw [show t.frames.contains k = t.contains k from rfl, contains_eq_isSome]

@[simp] theorem deadline_insertAbsent (t : Tracker) (k : UInt32) :
    (t.insertAbsent k).2.deadline = t.deadline := by
  rw [insertAbsent_eq]
  split <;> rfl

theorem get?_insertAbsent (t : Tracker) (k j : UInt32) :
    (t.insertAbsent k).2.get? j =
      if j = k ∧ t.get? k = none then some (FrameState.lost t.deadline.penalty) else t.get? j := by
  rw [insertAbsent_eq]
  cases hk : t.get? k with
  | none => simp [get?_insert]
  | some s => simp

end Tracker

end XrDelivery
