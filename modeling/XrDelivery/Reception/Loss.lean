import XrDelivery.Reception.Tracker
/-!
# Loss detection

When a stream ends, every frame number from 1 to the expected count is looked at: a frame of
which nothing arrived is absent (and is recorded in the tracker as lost, scored by the
penalty); a frame of which some but not all fragments arrived is partial. Both count as lost.
-/
namespace XrDelivery

/-- The absent and the partial frames, each in increasing frame number. -/
structure LossReport where
  absent : List UInt32 := []
  incomplete : List UInt32 := []

/-- The number of lost frames. -/
def LossReport.lostCount (r : LossReport) : Nat := r.absent.length + r.incomplete.length

/-- The frame numbers `1, 2, …, n`. -/
def frameNumbers (n : Nat) : List UInt32 := (List.range n).map fun i => (i + 1).toUInt32

/-- Look at one frame number: record it absent if unknown, note it partial if it has
fragments but is not complete. -/
def Tracker.checkLost (acc : LossReport × Tracker) (seq : UInt32) : LossReport × Tracker :=
  let (r, t) := acc
  let (fresh, t) := t.insertAbsent seq
  if fresh then ({ r with absent := seq :: r.absent }, t)
  else
    match t.get? seq with
    | some s => if s.received > 0 && !s.isComplete then ({ r with incomplete := seq :: r.incomplete }, t) else (r, t)
    | none => (r, t)

/-- Detect the lost frames among `1, …, expected`; the tracker afterwards knows every one of
them. -/
def Tracker.detectLost (t : Tracker) (expected : UInt32) : LossReport × Tracker :=
  let (r, t) := (frameNumbers expected.toNat).foldl Tracker.checkLost ({}, t)
  ({ absent := r.absent.reverse, incomplete := r.incomplete.reverse }, t)

end XrDelivery
