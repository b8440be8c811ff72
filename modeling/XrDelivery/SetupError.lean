import XrDelivery.Decimal.Layout
import XrDelivery.Text.Quoted
/-!
# Setup errors

The reasons a stream cannot be set up: a parameter out of its range, a frame that cannot be
sent, a catalog without frames, an address that no peer answers to. Late and lost frames are
no errors; they are counted in the quality summary.

`SetupError.message` gives each reason its sentence; numbers in it are written as
`Float.plainText` writes them.
-/
namespace XrDelivery

/-- Why a stream cannot be set up. -/
inductive SetupError where
  /-- The largest payload of a fragment must be at least one byte. -/
  | payloadSizeZero (size : Nat)
  /-- A frame of zero bytes cannot be cut into fragments. -/
  | emptyFrame (seq : UInt32)
  /-- The fragment count of a frame does not fit the 16-bit header field. -/
  | tooManyFragments (seq : UInt32) (fragments : Nat)
  /-- No frame of the catalog is left to play. -/
  | emptyCatalog
  /-- The jitter bounds are not finite or the lower one exceeds the upper one. -/
  | jitterBoundsInverted (min max : Float)
  /-- The jitter spread is not finite or negative. -/
  | jitterSpreadInvalid (stddev : Float)
  /-- The jitter mean is not finite. -/
  | jitterMeanInvalid (mean : Float)
  /-- The frame rate is not finite or not positive. -/
  | frameRateInvalid (fps : Float)
  /-- The deadline is not finite or negative. -/
  | deadlineInvalid (deadline : Float)
  /-- The reliability threshold lies outside `[0, 1]` (NaN included). -/
  | thresholdInvalid (threshold : Float)
  /-- The penalty is not finite or negative. -/
  | penaltyInvalid (penalty : Float)
  /-- No peer is known under the destination address. -/
  | unresolvedDestination (address : String)

/-- The sentence that reports the error. -/
def SetupError.message : SetupError → String
  | .payloadSizeZero n => s!"maximum payload size must be positive (got {n})"
  | .emptyFrame seq => s!"frame {seq} has zero size"
  | .tooManyFragments seq k => s!"frame {seq} needs {k} fragments, more than the header can carry"
  | .emptyCatalog => "frame catalog contains no usable frames"
  | .jitterBoundsInverted lo hi =>
    "jitter bounds are inverted (min " ++ lo.plainText ++ " > max " ++ hi.plainText ++ ")"
  | .jitterSpreadInvalid x =>
    "jitter standard deviation must be finite and non-negative (got " ++ x.plainText ++ ")"
  | .jitterMeanInvalid x => "jitter mean must be finite (got " ++ x.plainText ++ " ms)"
  | .frameRateInvalid x => "frame rate must be finite and positive (got " ++ x.plainText ++ ")"
  | .deadlineInvalid x =>
    "deadline must be finite and non-negative (got " ++ x.plainText ++ " ms)"
  | .thresholdInvalid x => "reliability threshold must lie in [0, 1] (got " ++ x.plainText ++ ")"
  | .penaltyInvalid x => "penalty must be finite and non-negative (got " ++ x.plainText ++ ")"
  | .unresolvedDestination a => "could not resolve destination address " ++ Text.quote a

end XrDelivery
