import XrDelivery.Frame
/-!
# Frame catalogs

A catalog is the list of frames a sender plays, in order; it is never empty. A compression
level picks the frames to play: level 0 keeps every frame, any other level keeps the frames
with exactly that many components. `Catalog.ofFrames` applies the level and refuses to build
an empty catalog.

The summary gives the frame count, the least and greatest frame size and the mean
reconstruction error, summed in catalog order.
-/
namespace XrDelivery

/-- Which frames of a sweep a user plays. -/
inductive Level where
  /-- Every frame. -/
  | all
  /-- The frames with this many components. -/
  | components (n : UInt32)
deriving DecidableEq, Repr

/-- The level of a compression setting: 0 is every frame. -/
def Level.ofNat (n : UInt32) : Level := if n = 0 then .all else .components n

/-- The level keeps the frame. -/
def Level.accepts : Level → Frame → Bool
  | .all, _ => true
  | .components n, f => f.components == n

/-- A non-empty list of frames to play. -/
structure Catalog where
  frames : List Frame
  frames_ne_nil : frames ≠ []

/-- The frames a level keeps, as a catalog; none kept is an error. -/
def Catalog.ofFrames (fs : List Frame) (level : Level) : Except SetupError Catalog :=
  let kept := fs.filter level.accepts
  if h : kept = [] then .error .emptyCatalog else .ok ⟨kept, h⟩

/-- The number of frames. -/
def Catalog.size (c : Catalog) : Nat := c.frames.length

/-- The frame at a position of the catalog. -/
def Catalog.get? (c : Catalog) (i : Nat) : Option Frame := c.frames[i]?

/-- Count, size range and mean error of a list of frames. -/
structure Summary where
  frames : Nat
  minSize : UInt32
  maxSize : UInt32
  meanError : Float

/-- The summary of a list of frames: sizes start from the greatest word and from zero, the
error sum from zero; an empty list has least size 0 and mean 0. -/
def Summary.ofFrames (fs : List Frame) : Summary :=
  let (lo, hi, sum) := fs.foldl (fun (lo, hi, sum) f => (min lo f.size, max hi f.size, sum + f.error))
    ((0xFFFFFFFF : UInt32), (0 : UInt32), (0.0 : Float))
  { frames := fs.length, minSize := if fs.isEmpty then 0 else lo, maxSize := hi,
    meanError := if fs.isEmpty then 0.0 else sum / fs.length.toFloat }

/-- The summary of the catalog. -/
def Catalog.summary (c : Catalog) : Summary := Summary.ofFrames c.frames

end XrDelivery
