import XrDelivery.Random.ChaCha
/-!
# Draws from the word stream

* `unit`: a double in `[0, 1)` from the top 53 bits of a 64-bit value;
* `coin`: a fair choice, true when the top bit of a word is set;
* `below n`: an index in `[0, n)` for `0 < n ≤ 2^32`, by widening multiplication: the high
  word of `w * n` is the index, and when the low word falls in the biased zone a second word
  decides whether to carry one;
* `normal`: a standard normal value by the Box–Muller transform, two unit draws per value, for
  a logarithm and a cosine (`Elementary`), in the program those of the C maths library.
-/
namespace XrDelivery.Random

/-- `2^53` as a double; dividing by it is exact. -/
def twoPow53 : Float := 9007199254740992.0

/-- A double in `[0, 1)`: the top 53 bits of the next 64-bit value, scaled by `2^-53`. -/
def Stream.unit (g : Stream) : Float × Stream :=
  let (w, g) := g.nextWide
  ((w >>> 11).toFloat / twoPow53, g)

/-- A fair coin: the top bit of the next word. -/
def Stream.coin (g : Stream) : Bool × Stream :=
  let (w, g) := g.next
  (w ≥ 0x80000000, g)

/-- An index in `[0, n)` for `0 < n ≤ 2^32`, the high word of `w * n`; past a low word of
`2^32 - n`, a second product may carry one into it. -/
def Stream.below (g : Stream) (n : Nat) : Nat × Stream :=
  let range := n % Nat.pow 2 32
  let (w, g) := g.next
  if range = 0 then (w.toNat, g)
  else
    let p := w.toNat * range
    let hi := p / Nat.pow 2 32
    let lo := p % Nat.pow 2 32
    if lo > Nat.pow 2 32 - range then
      let (w2, g) := g.next
      let hi2 := w2.toNat * range / Nat.pow 2 32
      (if lo + hi2 ≥ Nat.pow 2 32 then hi + 1 else hi, g)
    else (hi, g)

/-- `π` as a double. -/
def pi : Float := 3.141592653589793

/-- The two functions of the C maths library a normal draw takes: the natural logarithm and the
cosine. Lean leaves both opaque, so a draw is defined for any pair and runs with the library's. -/
structure Elementary where
  log : Float → Float
  cos : Float → Float

/-- The C maths library's logarithm and cosine. -/
def Elementary.libm : Elementary := ⟨Float.log, Float.cos⟩

/-- A standard normal value: with `u₁ = 1 - unit` (never zero) and `u₂ = unit`,
`√(-2 ln u₁) · cos(2π u₂)`, for the logarithm and cosine of `f`. -/
def Stream.normal (f : Elementary) (g : Stream) : Float × Stream :=
  let (a, g) := g.unit
  let u1 := 1.0 - a
  let (u2, g) := g.unit
  (Float.sqrt (-2.0 * f.log u1) * f.cos (2.0 * pi * u2), g)

theorem Stream.normal_fst (f : Elementary) (g : Stream) :
    (g.normal f).1 =
      Float.sqrt (-2.0 * f.log (1.0 - g.unit.1)) * f.cos (2.0 * pi * g.unit.2.unit.1) := rfl

end XrDelivery.Random
