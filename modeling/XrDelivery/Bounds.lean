/-!
# Bounds on doubles

The comparisons the library bounds values with, on doubles that may be NaN:

* `maxOf a b` is the larger of two varying values: `b` when it is greater than `a` or `a` is
  NaN, and `a` otherwise, so of two equal zeros the first is kept;
* `atLeast lo x` raises `x` to a fixed floor `lo`: `x` when it is greater than `lo`, and `lo`
  otherwise, so NaN gives `lo` and, for the floor zero, a negative zero gives `+0`;
* `clampTo lo hi x` moves `x` up to `lo`, then down to `hi`; a NaN `x` stays NaN.
-/
namespace XrDelivery

/-- The larger of two doubles, the other one when one is NaN, the first of two equal ones. -/
def maxOf (a b : Float) : Float := if a.isNaN then b else if b.isNaN then a else if a < b then b else a

/-- `x` raised to the floor `lo`; NaN and values equal to the floor give the floor. -/
def atLeast (lo x : Float) : Float := if x > lo then x else lo

/-- `x` limited to `[lo, hi]` (for `lo ≤ hi`); NaN stays NaN. -/
def clampTo (lo hi x : Float) : Float :=
  let x := if x < lo then lo else x
  if x > hi then hi else x

end XrDelivery
