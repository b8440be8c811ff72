import XrDelivery.Link.Walk
/-!
# Timelines of link conditions

A timeline is a sampled walk: frames in increasing time, each holding the link's state from
its instant until the next frame. `Timeline.at t` looks up the state at `t` seconds: the last
frame whose instant, in seconds, is at most `t`; before the first frame (and for NaN) the
first frame's state; a timeline without frames is a perfect link.
-/
namespace XrDelivery

/-- Frames of link state in increasing time. -/
structure Timeline where
  frames : Array LinkFrame

/-- The timeline of a profile's walk from a seed over a duration. -/
def Timeline.generate (p : LinkProfile) (seed : UInt64) (duration : Span) : Except WalkError Timeline :=
  match (LinkWalk.new p seed).frames duration with
  | .ok (fs, _) => .ok ⟨fs.toArray⟩
  | .error e => .error e

/-- The number of frames of `a` from the front that satisfy `p`, found by halving
`[lo, hi)`, for a `p` that holds on a prefix of `a`. -/
def countPrefix (a : Array LinkFrame) (p : LinkFrame → Bool) (lo hi : Nat) : Nat :=
  if h : lo < hi then
    let mid := (lo + hi) / 2
    if a[mid]?.all p then countPrefix a p (mid + 1) hi else countPrefix a p lo mid
  else lo
termination_by hi - lo

/-- The link's state at `t` seconds. -/
def Timeline.at (tl : Timeline) (t : Float) : Conditions :=
  let n := countPrefix tl.frames (fun f => f.time.toSeconds <= t) 0 tl.frames.size
  match tl.frames[n - 1]? with
  | some f => f.conditions
  | none => Conditions.perfect

end XrDelivery
