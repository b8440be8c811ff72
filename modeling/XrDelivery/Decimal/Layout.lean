import XrDelivery.Decimal.Shortest
/-!
# Decimal text of a double

Three layouts of a double's value, all built on exact arithmetic:

* `Float.plainText`: the shortest digits written positionally, never with an exponent, an
  integral value without a point (`1e21` is `1000000000000000000000`, `-1.0` is `-1`). This is
  how the library writes numbers inside its messages and tables.
* `Float.fixedText places`: the binary value rounded to `places` decimals, a half to the even
  neighbour.
* `Float.exchangeText`: the shortest digits written so that a reader of data-interchange
  numbers sees a non-integral number: always a point or an exponent (`1.0`, `1e300`, `5e-324`).

The sign of zero is kept (`-0`), NaN is `NaN`, the infinities are `inf` and `-inf`.
-/
namespace XrDelivery.Decimal

/-- `n` zeros. -/
def zeros (n : Nat) : String := String.ofList (List.replicate n '0')

/-- The digits of `d`, positionally: zeros after them, or a point inside or before them. -/
def Dec.plain (d : Dec) : String :=
  let s := toString d.digits
  if 0 ≤ d.exp then s ++ zeros d.exp.toNat
  else
    let p : Int := (s.length : Int) + d.exp
    if 0 < p then
      String.ofList (s.toList.take p.toNat) ++ "." ++ String.ofList (s.toList.drop p.toNat)
    else "0." ++ zeros (-p).toNat ++ s

/-- The digits of `d` for a data-interchange reader: positionally with `.0` for an integral
value up to sixteen digits, positionally with a point for a leading digit between `10^-5`
and `10^15`, and otherwise one digit, an optional fraction and an exponent. -/
def Dec.exchange (d : Dec) : String :=
  let s := toString d.digits
  let n : Int := s.length
  let kk : Int := n + d.exp
  if 0 ≤ d.exp ∧ kk ≤ 16 then s ++ zeros d.exp.toNat ++ ".0"
  else if 0 < kk ∧ kk ≤ 16 then
    String.ofList (s.toList.take kk.toNat) ++ "." ++ String.ofList (s.toList.drop kk.toNat)
  else if -5 < kk ∧ kk ≤ 0 then "0." ++ zeros (-kk).toNat ++ s
  else
    let body := if n = 1 then s else String.ofList (s.toList.take 1) ++ "." ++ String.ofList (s.toList.drop 1)
    body ++ "e" ++ toString (kk - 1)

/-- The sign bit of a double. -/
def signBit (x : Float) : Bool := x.toBits >>> 63 == 1

/-- The shortest decimal of the magnitude of a finite double. -/
def magnitude (x : Float) : Dec := (Binary.ofBits x.toBits).shortest

/-- A double's text when it is not finite. -/
def special (x : Float) : Option String :=
  if x.isNaN then some "NaN"
  else if x.isInf then some (if signBit x then "-inf" else "inf")
  else none

/-- `num / den` rounded to the nearest natural, a half to the even one. -/
def roundHalfEven (num den : Nat) : Nat :=
  let q := num / den
  let r := num % den
  if 2 * r < den then q
  else if 2 * r > den then q + 1
  else if q % 2 = 0 then q else q + 1

/-- The magnitude `x` times `10^places`, rounded to the nearest natural, a half to even. -/
def Binary.scaledRound (x : Binary) (places : Nat) : Nat :=
  roundHalfEven (x.m * Nat.pow 2 x.q.toNat * Nat.pow 10 places) (Nat.pow 2 (-x.q).toNat)

/-- The natural `n` read as `n / 10^places` and written with exactly `places` decimals. -/
def fixedDigits (n places : Nat) : String :=
  let s := toString n
  let s := zeros (places + 1 - s.length) ++ s
  if places = 0 then s
  else
    let k := s.length - places
    String.ofList (s.toList.take k) ++ "." ++ String.ofList (s.toList.drop k)

end XrDelivery.Decimal

namespace Float
open XrDelivery.Decimal

/-- The shortest digits that read back, positionally, with no exponent and no `.0`. -/
def plainText (x : Float) : String :=
  match special x with
  | some s => s
  | none => (if signBit x then "-" else "") ++ (magnitude x).plain

/-- The value rounded to `places` decimals (a half to the even neighbour) and written with
exactly that many. -/
def fixedText (places : Nat) (x : Float) : String :=
  match special x with
  | some s => s
  | none =>
    (if signBit x then "-" else "") ++
      fixedDigits ((Binary.ofBits x.toBits).scaledRound places) places

/-- The shortest digits that read back, always with a point or an exponent. -/
def exchangeText (x : Float) : String :=
  match special x with
  | some s => s
  | none => (if signBit x then "-" else "") ++ (magnitude x).exchange

end Float
