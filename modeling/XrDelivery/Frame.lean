import XrDelivery.SetupError
/-!
# Frames and fragments

A frame is one compressed picture of the catalog: its number in the sequence, how many
principal components it keeps, the reconstruction error those leave, and its size in bytes.
To travel over datagrams a frame is cut into fragments of at most a given payload; each
fragment repeats the frame's metadata and says which piece of how many it is.

`Frame.fragments` cuts a frame: every fragment but the last carries the full payload
`min max size`, the last one the rest, so the payloads add up to the frame's size.
-/
namespace XrDelivery

/-- A frame of the catalog. -/
structure Frame where
  seq : UInt32
  components : UInt32
  error : Float
  size : UInt32

/-- A piece of a frame as it travels: the frame's number and metadata, the piece's index
among `count` pieces, its payload size and the instant the frame was sent. -/
structure Fragment where
  frameSeq : UInt32
  index : UInt16
  count : UInt16
  payload : UInt32
  sentAt : Float
  components : UInt32
  error : Float
  frameSize : UInt32

/-- The number of fragments of at most `maxPayload` bytes that `size` bytes need. -/
def fragmentCount (size : UInt32) (maxPayload : Nat) : Except SetupError Nat :=
  if maxPayload = 0 then .error (.payloadSizeZero maxPayload)
  else .ok ((size.toNat + maxPayload - 1) / maxPayload)

/-- The payload sizes of the pieces of a frame of `size` bytes cut into `count` pieces of
at most `piece` bytes: the last one takes what the others leave. -/
def pieceSizes (size piece count : Nat) : List Nat :=
  (List.range count).map fun i => if i + 1 < count then piece else size - (count - 1) * piece

/-- Cut a frame sent at `sentAt` into fragments of at most `maxPayload` bytes, checking the bound,
then the frame's size, then the fragment count against the 16-bit field. -/
def Frame.fragments (f : Frame) (maxPayload : Nat) (sentAt : Float) :
    Except SetupError (List Fragment) :=
  if maxPayload = 0 then .error (.payloadSizeZero maxPayload)
  else if f.size = 0 then .error (.emptyFrame f.seq)
  else
    let count := (f.size.toNat + maxPayload - 1) / maxPayload
    if count > 65535 then .error (.tooManyFragments f.seq count)
    else
      let piece := min maxPayload f.size.toNat
      .ok <| (List.range count).zip (pieceSizes f.size.toNat piece count) |>.map fun (i, p) =>
        { frameSeq := f.seq, index := i.toUInt16, count := count.toUInt16,
          payload := p.toUInt32, sentAt, components := f.components, error := f.error,
          frameSize := f.size }

end XrDelivery
