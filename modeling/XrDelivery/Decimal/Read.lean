import XrDelivery.Decimal.Shortest
/-!
# Reading decimal text into a double

`Dec.toFloat` rounds a decimal `digits * 10^exp` to the nearest double, a half to the even
one, by exact arithmetic: the quotient of two naturals is scaled by a power of two into
`[2^52, 2^53)` (or the subnormal range), rounded once, and packed into the bits.

`readFloat?` accepts the usual text of a decimal number: an optional sign, digits with an
optional point (at least one digit on either side), an optional exponent `e`/`E` with an
optional sign and at least one digit; or, in any letter case, `inf`, `infinity` or `nan`.
`readNat?` accepts digits with an optional leading `+`.
-/
namespace XrDelivery.Decimal

/-- The bits of the double nearest to `num / den` (`den > 0`), found at binary exponent `e`:
the quotient scaled by `2^-e` is rounded half to even. -/
def roundedAt (num den : Nat) (e : Int) : Nat :=
  let n := num * Nat.pow 2 (-e).toNat
  let d := den * Nat.pow 2 e.toNat
  let q := n / d
  let r := n % d
  if 2 * r < d then q
  else if 2 * r > d then q + 1
  else if q % 2 = 0 then q else q + 1

/-- The bits of the positive double nearest to `num / den`, or of infinity past the largest.
The binary exponent puts the significand in `[2^52, 2^53)`, and is at least `-1074`. -/
def nearestBits (num den : Nat) : UInt64 :=
  if num = 0 then 0
  else
    -- ⌊log₂ (num / den)⌋ is this or one less.
    let lb : Int := (num.log2 : Int) - den.log2
    let lb : Int := if num * Nat.pow 2 (-lb).toNat < den * Nat.pow 2 lb.toNat then lb - 1 else lb
    let e : Int := max (lb - 52) (-1074)
    let q := roundedAt num den e
    -- Rounding up may carry into the next binade.
    let (q, e) := if q = Nat.pow 2 53 then (Nat.pow 2 52, e + 1) else (q, e)
    if q < Nat.pow 2 52 then q.toUInt64
    else if e + 1075 ≥ 2047 then 0x7FF0000000000000
    else (((e + 1075).toNat * Nat.pow 2 52) + (q - Nat.pow 2 52)).toUInt64

/-- The double nearest to `d`, with the given sign. Decimals far beyond the double range are
settled before any power is built: past `10^310` is infinity, below `10^-330` is zero. -/
def Dec.toFloat (negative : Bool) (d : Dec) : Float :=
  let mag : UInt64 :=
    if d.digits = 0 then 0
    else
      let lead : Int := (digitCount d.digits : Int) + d.exp
      if lead > 310 then 0x7FF0000000000000
      else if lead < -330 then 0
      else nearestBits (d.digits * Nat.pow 10 d.exp.toNat) (Nat.pow 10 (-d.exp).toNat)
  Float.ofBits (if negative then mag ||| 0x8000000000000000 else mag)

/-- The value of a string of decimal digits. -/
def digitsValue (cs : List Char) : Nat :=
  cs.foldl (fun acc c => acc * 10 + (c.toNat - '0'.toNat)) 0

/-- All characters are decimal digits. -/
def allDigits (cs : List Char) : Bool := cs.all Char.isDigit

/-- Split off a leading `+` or `-`: the result says whether the text was negative. -/
def splitSign : List Char → Bool × List Char
  | '-' :: r => (true, r)
  | '+' :: r => (false, r)
  | r => (false, r)

/-- Digits with an optional point and an optional exponent, as a decimal. -/
def readUnsignedDec? (cs : List Char) : Option Dec :=
  let (mant, expPart) := (cs.takeWhile (fun c => c ≠ 'e' ∧ c ≠ 'E'), cs.dropWhile (fun c => c ≠ 'e' ∧ c ≠ 'E'))
  let (intPart, rest) := (mant.takeWhile (· ≠ '.'), mant.dropWhile (· ≠ '.'))
  let fracPart := rest.drop 1
  let mantOk := allDigits intPart && allDigits fracPart &&
    (intPart.length + fracPart.length > 0) && (rest.isEmpty || rest.head? == some '.')
  let expVal : Option Int :=
    match expPart with
    | [] => some 0
    | _ :: e =>
      let (neg, ds) := splitSign e
      if ds.isEmpty || !allDigits ds then none
      else some (if neg then -(digitsValue ds : Int) else digitsValue ds)
  if mantOk then
    expVal.map fun x => ⟨digitsValue (intPart ++ fracPart), x - fracPart.length⟩
  else none

/-- Read a decimal number, an infinity or NaN (see the module note). -/
def readFloat? (s : String) : Option Float :=
  let (neg, body) := splitSign s.toList
  let word := String.ofList (body.map Char.toLower)
  if word == "inf" || word == "infinity" then
    some (if neg then -(1.0 / 0.0) else 1.0 / 0.0)
  else if word == "nan" then some (0.0 / 0.0)
  else (readUnsignedDec? body).map (Dec.toFloat neg)

/-- Read digits with an optional leading `+` as a natural. -/
def readNat? (s : String) : Option Nat :=
  let cs := match s.toList with
    | '+' :: r => r
    | r => r
  if cs.isEmpty || !allDigits cs then none else some (digitsValue cs)

end XrDelivery.Decimal
