/-!
# Shortest decimal digits of a double

A finite double stands for the interval of reals that round to it. `Binary.shortest` picks,
among the decimals in that interval, one with the fewest significant digits, and of two such
the nearer to the double; an exact tie between two goes to the larger. The search walks the
decimal grids `10^(k-1), 10^(k-2), …` below the double's scale `10^k` and stops at the first
grid on which one of the double's two neighbours reads back.

Everything is exact `Nat` and `Int` arithmetic on `m * 2^q`; no float operation is used.
-/
namespace XrDelivery.Decimal

/-- A finite non-negative double magnitude `m * 2^q`. -/
structure Binary where
  m : Nat
  q : Int
  /-- The gap to the double below is half the gap to the double above. -/
  narrowBelow : Bool
deriving Repr, DecidableEq

/-- The magnitude of a finite double from its bits (the sign bit is ignored).
NaN and the infinities are no such magnitude: test for them first. -/
def Binary.ofBits (b : UInt64) : Binary :=
  let e := ((b >>> 52) &&& 0x7FF).toNat
  let f := (b &&& 0xFFFFFFFFFFFFF).toNat
  if e == 0 then ⟨f, -1074, false⟩ else ⟨Nat.pow 2 52 + f, (e : Int) - 1075, f == 0 && e > 1⟩

/-- A decimal `digits * 10^exp`. -/
structure Dec where
  digits : Nat
  exp : Int
deriving Repr, DecidableEq

/-- Compare `a * 10^i` with `n * 2^j`, exactly. -/
def cmpScaled (a : Nat) (i : Int) (n : Nat) (j : Int) : Ordering :=
  compare (a * Nat.pow 10 i.toNat * Nat.pow 2 (-j).toNat) (n * Nat.pow 2 j.toNat * Nat.pow 10 (-i).toNat)

/-- The decimal `d` lies among the reals that round to `x` (to nearest, ties to even):
strictly inside the half-gaps around `x`, and on an end exactly when `x.m` is even. -/
def Binary.readsBack (x : Binary) (d : Dec) : Bool :=
  let lo := if x.narrowBelow then 4 * x.m - 1 else 4 * x.m - 2
  let hi := 4 * x.m + 2
  let incl := x.m % 2 == 0
  let cl := cmpScaled d.digits d.exp lo (x.q - 2)
  let ch := cmpScaled d.digits d.exp hi (x.q - 2)
  (cl == .gt || (incl && cl == .eq)) && (ch == .lt || (incl && ch == .eq))

/-- `x` lies below `10^k`. -/
def Binary.below (x : Binary) (k : Int) : Bool :=
  cmpScaled 1 k x.m x.q == .gt

/-- The least `k` with `x < 10^k`, found from below starting at `k`. Each step moves up one
decade; the start is never more than a few decades short. -/
def Binary.scaleFrom (x : Binary) : Nat → Int → Int
  | 0, k => k
  | fuel + 1, k => if x.below k then k else x.scaleFrom fuel (k + 1)

/-- The least `k` with `x < 10^k`. The start is `⌊log₁₀ 2 · ⌊log₂ x⌋⌋ - 1`, computed with the
ratio `78913 / 2^18` just below `log₁₀ 2`, which is at most the answer. -/
def Binary.scale (x : Binary) : Int :=
  let lb : Int := (x.m.log2 : Int) + x.q
  x.scaleFrom 8 (lb * 78913 / 262144 - 1)

/-- The greatest count `n` with `n * 10^g ≤ x`. -/
def Binary.floorOn (x : Binary) (g : Int) : Nat :=
  x.m * Nat.pow 2 x.q.toNat * Nat.pow 10 (-g).toNat / (Nat.pow 2 (-x.q).toNat * Nat.pow 10 g.toNat)

/-- Of the two neighbours of `x` on the grid `10^g`, the one that reads back; of two, the
nearer to `x`, and the upper one on an exact tie. -/
def Binary.pickOn (x : Binary) (g : Int) : Option Dec :=
  let n := x.floorOn g
  let a : Dec := ⟨n, g⟩
  let b : Dec := ⟨n + 1, g⟩
  match x.readsBack a, x.readsBack b with
  | true, true => if cmpScaled (2 * n + 1) g (2 * x.m) x.q == .gt then some a else some b
  | true, false => some a
  | false, true => some b
  | false, false => none

/-- The exact decimal value of `x`. -/
def Binary.exact (x : Binary) : Dec :=
  if 0 ≤ x.q then ⟨x.m * Nat.pow 2 x.q.toNat, 0⟩ else ⟨x.m * Nat.pow 5 (-x.q).toNat, x.q⟩

/-- Move trailing zeros of the digits into the exponent. -/
def Dec.strip (d : Dec) : Dec :=
  if h : d.digits ≠ 0 ∧ d.digits % 10 = 0 then
    Dec.strip ⟨d.digits / 10, d.exp + 1⟩
  else d
termination_by d.digits
decreasing_by exact Nat.div_lt_self (Nat.pos_of_ne_zero h.1) (by decide)

/-- The shortest decimal that reads back as `x`, nearest of its length, trailing zeros stripped;
zero is `0 * 10^0`. -/
def Binary.shortest (x : Binary) : Dec :=
  if x.m = 0 then ⟨0, 0⟩
  else
    let k := x.scale
    let found := (List.range 17).findSome? fun (i : Nat) => x.pickOn (k - ((i : Int) + 1))
    (found.getD x.exact).strip

/-- The count of decimal digits of `n`, at least one. -/
def digitCount (n : Nat) : Nat := (toString n).length

end XrDelivery.Decimal
