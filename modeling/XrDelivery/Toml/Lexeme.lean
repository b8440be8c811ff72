import XrDelivery.Toml.Value
import XrDelivery.Decimal.Read
/-!
# The lexemes of TOML

The pieces of a TOML document below the level of tables: blanks and comments, keys, strings
in their four forms, numbers and date-times. Each scanner takes the text as a list of
characters and returns what it read with the rest of the text, or why it could not.

The grammar is that of TOML 1.1:

* blanks are spaces and tabs; a line ends with a line feed, possibly after a carriage return;
* a comment runs from `#` to the end of its line and holds no control character but tab;
* a bare key is a run of ASCII letters, digits, `_` and `-`; a quoted key is a one-line string;
* a basic string knows the escapes `\b \t \n \f \r \e \" \\`, `\xXX` for a code point below
  256, and `\uXXXX \UXXXXXXXX` for Unicode scalar values; a multi-line basic string drops a line
  feed right after its opening quotes, and a backslash at the end of a line drops the blanks and
  line ends after it; literal strings have no escapes;
* integers are decimal without leading zeros, or hexadecimal, octal or binary after `0x`, `0o`,
  `0b` without a sign; an underscore may stand between two digits;
* floats have a fraction, an exponent or both, or are `inf` or `nan` with an optional sign;
* date-times are RFC 3339 dates, times or both, with an optional offset, and must exist in the
  calendar; the seconds of a time may be left out.
-/
namespace XrDelivery.Toml

/-- A scanner's answer: the value read and the rest of the text. -/
abbrev Scan (α : Type) := Except TomlError (α × List Char)

/-- A blank inside a line. -/
def isSpace (c : Char) : Bool := c == ' ' || c == '\t'

/-- The text after the blanks at its front. -/
def skipSpace (cs : List Char) : List Char := cs.dropWhile isSpace

/-- A character that may stand in a comment or a one-line string: tab, or any character but a
control character. -/
def isTextChar (c : Char) : Bool := c == '\t' || (c.toNat ≥ 0x20 && c.toNat != 0x7F)

/-- Skip blanks, line ends and comments, as between the items of an array; `inComment` says
that a comment has begun. -/
def skipBlank (inComment : Bool) : List Char → Except TomlError (List Char)
  | [] => .ok []
  | '\n' :: r => skipBlank false r
  | '\r' :: '\n' :: r => skipBlank false r
  | c :: r =>
    if inComment then
      if isTextChar c then skipBlank true r else .error .malformed
    else if isSpace c then skipBlank false r
    else if c == '#' then skipBlank true r
    else .ok (c :: r)

/-- The end of a line after a statement: blanks, an optional comment, then a line end or the
end of the text. -/
def endOfLine (cs : List Char) : Except TomlError (List Char) :=
  match skipSpace cs with
  | [] => .ok []
  | '\n' :: r => .ok r
  | '\r' :: '\n' :: r => .ok r
  | '#' :: r =>
    let body := r.takeWhile fun c => c != '\n' && c != '\r'
    if body.all isTextChar then
      match r.drop body.length with
      | [] => .ok []
      | '\n' :: rest => .ok rest
      | '\r' :: '\n' :: rest => .ok rest
      | _ => .error .malformed
    else .error .malformed
  | _ => .error .malformed

/-- The value of a hexadecimal digit. -/
def hexValue (c : Char) : Option Nat :=
  if c.isDigit then some (c.toNat - '0'.toNat)
  else if 'a' ≤ c ∧ c ≤ 'f' then some (c.toNat - 'a'.toNat + 10)
  else if 'A' ≤ c ∧ c ≤ 'F' then some (c.toNat - 'A'.toNat + 10)
  else none

/-- The number written by hexadecimal digits. -/
def hexNumber (ds : List Char) : Option Nat :=
  ds.foldl (fun acc d => do pure ((← acc) * 16 + (← hexValue d))) (some 0)

/-- The character of a `\u` or `\U` escape: a Unicode scalar value. -/
def escapedScalar (ds : List Char) : Except TomlError Char :=
  match hexNumber ds with
  | some n => if n < 0xD800 || (0xDFFF < n && n ≤ 0x10FFFF) then .ok (Char.ofNat n) else .error .badEscape
  | none => .error .badEscape

/-- The character of a `\x` escape: two hexadecimal digits, for a code point below 256. -/
def escapedByte (a b : Char) : Except TomlError Char :=
  match hexNumber [a, b] with
  | some n => .ok (Char.ofNat n)
  | none => .error .badEscape

/-- The character a one-letter escape stands for. -/
def simpleEscape : Char → Option Char
  | 'b' => some '\x08'
  | 't' => some '\t'
  | 'n' => some '\n'
  | 'f' => some '\x0c'
  | 'r' => some '\r'
  | 'e' => some '\x1b'
  | '"' => some '"'
  | '\\' => some '\\'
  | _ => none

/-- The body of a one-line basic string after its opening quote, up to and past the closing
quote; `acc` holds what was read, last first. -/
def basicBody (acc : List Char) : List Char → Scan String
  | [] => .error .malformed
  | '"' :: r => .ok (String.ofList acc.reverse, r)
  | '\\' :: 'x' :: a :: b :: r =>
    match escapedByte a b with
    | .ok ch => basicBody (ch :: acc) r
    | .error e => .error e
  | '\\' :: 'u' :: a :: b :: c :: d :: r =>
    match escapedScalar [a, b, c, d] with
    | .ok ch => basicBody (ch :: acc) r
    | .error e => .error e
  | '\\' :: 'U' :: a :: b :: c :: d :: e :: f :: g :: h :: r =>
    match escapedScalar [a, b, c, d, e, f, g, h] with
    | .ok ch => basicBody (ch :: acc) r
    | .error e => .error e
  | '\\' :: e :: r =>
    match simpleEscape e with
    | some c => basicBody (c :: acc) r
    | none => .error .badEscape
  | c :: r => if isTextChar c then basicBody (c :: acc) r else .error .malformed

/-- Where a multi-line basic string stands: in its text, after a backslash that ends a line
(only blanks may come before the line end), or in the blanks and line ends after it. -/
inductive LineEscape where
  | text
  | escaped
  | trimming
deriving DecidableEq

/-- The order in which a character is looked at again: trimming hands the same text on. -/
def LineEscape.rank : LineEscape → Nat
  | .text => 0
  | .escaped => 0
  | .trimming => 1

/-- The closing of a multi-line string: three quotes, of which one or two more before them
belong to the text. Six quotes in a row are an error. -/
def closeQuoted (q : Char) (acc : List Char) (r : List Char) : Scan String :=
  match r with
  | a :: b :: c :: _ => if a = q ∧ b = q ∧ c = q then .error .malformed
    else if a = q ∧ b = q then .ok (String.ofList (q :: q :: acc).reverse, r.drop 2)
    else if a = q then .ok (String.ofList (q :: acc).reverse, r.drop 1)
    else .ok (String.ofList acc.reverse, r)
  | [a, b] => if a = q ∧ b = q then .ok (String.ofList (q :: q :: acc).reverse, [])
    else if a = q then .ok (String.ofList (q :: acc).reverse, [b])
    else .ok (String.ofList acc.reverse, r)
  | [a] => if a = q then .ok (String.ofList (q :: acc).reverse, []) else .ok (String.ofList acc.reverse, r)
  | [] => .ok (String.ofList acc.reverse, [])

/-- The body of a multi-line basic string after its opening quotes. -/
def multiBasicBody (mode : LineEscape) (acc : List Char) (cs : List Char) : Scan String :=
  match mode, cs with
  | .escaped, ' ' :: r => multiBasicBody .escaped acc r
  | .escaped, '\t' :: r => multiBasicBody .escaped acc r
  | .escaped, '\n' :: r => multiBasicBody .trimming acc r
  | .escaped, '\r' :: '\n' :: r => multiBasicBody .trimming acc r
  | .escaped, _ => .error .badEscape
  | .trimming, ' ' :: r => multiBasicBody .trimming acc r
  | .trimming, '\t' :: r => multiBasicBody .trimming acc r
  | .trimming, '\n' :: r => multiBasicBody .trimming acc r
  | .trimming, '\r' :: '\n' :: r => multiBasicBody .trimming acc r
  | .trimming, r => multiBasicBody .text acc r
  | .text, [] => .error .malformed
  | .text, '"' :: '"' :: '"' :: r => closeQuoted '"' acc r
  | .text, '\\' :: 'x' :: a :: b :: r =>
    match escapedByte a b with
    | .ok ch => multiBasicBody .text (ch :: acc) r
    | .error e => .error e
  | .text, '\\' :: 'u' :: a :: b :: c :: d :: r =>
    match escapedScalar [a, b, c, d] with
    | .ok ch => multiBasicBody .text (ch :: acc) r
    | .error e => .error e
  | .text, '\\' :: 'U' :: a :: b :: c :: d :: e :: f :: g :: h :: r =>
    match escapedScalar [a, b, c, d, e, f, g, h] with
    | .ok ch => multiBasicBody .text (ch :: acc) r
    | .error e => .error e
  | .text, '\\' :: e :: r =>
    match simpleEscape e with
    | some c => multiBasicBody .text (c :: acc) r
    | none => if isSpace e || e == '\n' || e == '\r' then multiBasicBody .escaped acc (e :: r)
      else .error .badEscape
  | .text, '\n' :: r => multiBasicBody .text ('\n' :: acc) r
  | .text, '\r' :: '\n' :: r => multiBasicBody .text ('\n' :: '\r' :: acc) r
  | .text, c :: r => if isTextChar c then multiBasicBody .text (c :: acc) r else .error .malformed
termination_by (cs.length, mode.rank)
decreasing_by
  all_goals first
    | (simp_wf; omega)
    | exact Prod.Lex.right _ (by decide)

/-- The body of a one-line literal string after its opening quote. -/
def literalBody (acc : List Char) : List Char → Scan String
  | [] => .error .malformed
  | '\'' :: r => .ok (String.ofList acc.reverse, r)
  | c :: r => if isTextChar c then literalBody (c :: acc) r else .error .malformed

/-- The body of a multi-line literal string after its opening quotes. -/
def multiLiteralBody (acc : List Char) : List Char → Scan String
  | [] => .error .malformed
  | '\'' :: '\'' :: '\'' :: r => closeQuoted '\'' acc r
  | '\n' :: r => multiLiteralBody ('\n' :: acc) r
  | '\r' :: '\n' :: r => multiLiteralBody ('\n' :: '\r' :: acc) r
  | c :: r => if isTextChar c then multiLiteralBody (c :: acc) r else .error .malformed

/-- The text after a line end that directly follows the opening quotes of a multi-line
string. -/
def dropFirstLineEnd : List Char → List Char
  | '\n' :: r => r
  | '\r' :: '\n' :: r => r
  | r => r

/-- A string in any of its four forms, if the text starts with one. -/
def string? : List Char → Option (Scan String)
  | '"' :: '"' :: '"' :: r => some (multiBasicBody .text [] (dropFirstLineEnd r))
  | '"' :: r => some (basicBody [] r)
  | '\'' :: '\'' :: '\'' :: r => some (multiLiteralBody [] (dropFirstLineEnd r))
  | '\'' :: r => some (literalBody [] r)
  | _ => none

/-- A character of a bare key. -/
def isBareKeyChar (c : Char) : Bool := (c.isAlphanum && c.toNat < 128) || c == '_' || c == '-'

/-- One key: bare, or a one-line string. -/
def simpleKey : List Char → Scan String
  | '"' :: r => basicBody [] r
  | '\'' :: r => literalBody [] r
  | cs =>
    let k := cs.takeWhile isBareKeyChar
    if k.isEmpty then .error .malformed else .ok (String.ofList k, cs.drop k.length)

/-- A dotted key: keys joined by dots with optional blanks around them. The rest of the text
starts after the blanks that follow the last key. -/
def keyPath : Nat → List String → List Char → Scan (List String)
  | 0, _, _ => .error .malformed
  | fuel + 1, acc, cs =>
    match simpleKey cs with
    | .error e => .error e
    | .ok (k, r) =>
      match skipSpace r with
      | '.' :: r => keyPath fuel (k :: acc) (skipSpace r)
      | r => .ok ((k :: acc).reverse, r)

/-- The digits of a run in which single underscores may stand between digits; none if the run
is empty, starts or ends with an underscore, or holds two in a row. -/
def separatedDigits (isDigit : Char → Bool) (cs : List Char) : Option (List Char) :=
  match cs with
  | c :: r => if isDigit c then go [c] r else none
  | [] => none
where
  go (acc : List Char) : List Char → Option (List Char)
    | [] => some acc.reverse
    | '_' :: c :: r => if isDigit c then go (c :: acc) r else none
    | c :: r => if isDigit c then go (c :: acc) r else none

/-- The value of digits in a radix. -/
def digitsValue (radix : Nat) (ds : List Char) : Nat :=
  ds.foldl (fun acc d => acc * radix + ((hexValue d).getD 0)) 0

/-- An optional sign in front of a number: whether it is a minus, and the rest. -/
def splitSign : List Char → Bool × List Char
  | '+' :: r => (false, r)
  | '-' :: r => (true, r)
  | r => (false, r)

/-- The digits of a decimal integer part: no leading zero unless the part is `0`. -/
def decimalPart (cs : List Char) : Option (List Char) :=
  match separatedDigits Char.isDigit cs with
  | some ds => if ds.length > 1 && ds.head? == some '0' then none else some ds
  | none => none

/-- The integer a token writes, if it writes one. -/
def integer? (cs : List Char) : Option Int :=
  match cs with
  | '0' :: 'x' :: r => (fun ds => (digitsValue 16 ds : Int)) <$> separatedDigits (fun c => (hexValue c).isSome) r
  | '0' :: 'o' :: r => (fun ds => (digitsValue 8 ds : Int)) <$> separatedDigits (fun c => '0' ≤ c ∧ c ≤ '7') r
  | '0' :: 'b' :: r => (fun ds => (digitsValue 2 ds : Int)) <$> separatedDigits (fun c => c == '0' || c == '1') r
  | _ =>
    let (neg, body) := splitSign cs
    (fun ds => let n : Int := digitsValue 10 ds; if neg then -n else n) <$> decimalPart body

/-- The float a token writes, if it writes one: an integer part, then a fraction, an exponent
or both; or `inf` or `nan` with an optional sign. -/
def float? (cs : List Char) : Option Float :=
  let (neg, body) := splitSign cs
  let signed (x : Float) : Float := if neg then -x else x
  match body with
  | ['i', 'n', 'f'] => some (signed (1.0 / 0.0))
  | ['n', 'a', 'n'] => some (signed (0.0 / 0.0))
  | _ =>
    let isMark (c : Char) : Bool := c == '.' || c == 'e' || c == 'E'
    let intPart := body.takeWhile (fun c => !isMark c)
    let rest := body.drop intPart.length
    let (frac, rest) : Option (List Char) × List Char := match rest with
      | '.' :: r => let f := r.takeWhile (fun c => c != 'e' && c != 'E'); (some f, r.drop f.length)
      | r => (none, r)
    let exp : Option (Option (List Char)) := match rest with
      | [] => some none
      | e :: r => if e == 'e' || e == 'E' then some (some r) else none
    do
      let ip ← decimalPart intPart
      let e ← exp
      if frac.isNone && e.isNone then none
      let fd ← match frac with
        | some f => some <$> separatedDigits Char.isDigit f
        | none => some none
      let ed ← match e with
        | some r =>
          let (eneg, edigits) := splitSign r
          (fun ds => some ((if eneg then ['-'] else []) ++ ds)) <$> separatedDigits Char.isDigit edigits
        | none => some none
      let text := ip ++ (match fd with | some f => '.' :: f | none => []) ++
        (match ed with | some x => 'e' :: x | none => [])
      signed <$> Decimal.readFloat? (String.ofList text)

/-- The number written by exactly `n` decimal digits at the front, and the rest. -/
def fixedDigits (n : Nat) (cs : List Char) : Option (Nat × List Char) :=
  let ds := cs.take n
  if ds.length = n && ds.all Char.isDigit then some (digitsValue 10 ds, cs.drop n) else none

/-- The days of a month of a year of the Gregorian calendar. -/
def daysInMonth (year month : Nat) : Nat :=
  if month = 2 then
    if year % 4 = 0 && (year % 100 != 0 || year % 400 = 0) then 29 else 28
  else if month = 4 || month = 6 || month = 9 || month = 11 then 30
  else 31

/-- A date `YYYY-MM-DD` at the front that exists: the rest after it. -/
def fullDate? (cs : List Char) : Option (Except TomlError (List Char)) := do
  let (y, r) ← fixedDigits 4 cs
  let r ← match r with | '-' :: r => some r | _ => none
  let (m, r) ← fixedDigits 2 r
  let r ← match r with | '-' :: r => some r | _ => none
  let (d, r) ← fixedDigits 2 r
  if 1 ≤ m && m ≤ 12 && 1 ≤ d && d ≤ daysInMonth y m then some (.ok r) else some (.error .badDate)

/-- Seconds `:SS` with an optional fraction at the front of a time, or none written: their
number and the rest after them. -/
def seconds? : List Char → Option (Nat × List Char)
  | ':' :: r => do
    let (s, r) ← fixedDigits 2 r
    match r with
    | '.' :: r =>
      let f := r.takeWhile Char.isDigit
      if f.isEmpty then none else some (s, r.drop f.length)
    | r => some (s, r)
  | r => some (0, r)

/-- A time `HH:MM`, then optional seconds, at the front: the rest after it. -/
def partialTime? (cs : List Char) : Option (Except TomlError (List Char)) := do
  let (h, r) ← fixedDigits 2 cs
  let r ← match r with | ':' :: r => some r | _ => none
  let (m, r) ← fixedDigits 2 r
  let (s, r) ← seconds? r
  if h < 24 && m < 60 && s ≤ 60 then some (.ok r) else some (.error .badDate)

/-- A time offset `Z` or `±HH:MM` that is the whole of the text. -/
def offsetOnly (cs : List Char) : Except TomlError Unit :=
  match cs with
  | [] | ['Z'] | ['z'] => .ok ()
  | s :: r =>
    if s == '+' || s == '-' then
      match fixedDigits 2 r with
      | some (h, ':' :: r) =>
        match fixedDigits 2 r with
        | some (m, []) => if h < 24 && m < 60 then .ok () else .error .badDate
        | _ => .error .malformed
      | _ => .error .malformed
    else .error .malformed

/-- The date-time a token writes: a date, a time, or both joined by `T`, `t` or a space, with
an optional offset after a full date-time. -/
def datetime? (cs : List Char) : Except TomlError Value :=
  let text := Value.datetime (String.ofList cs)
  match fullDate? cs with
  | some (.error e) => .error e
  | some (.ok []) => .ok text
  | some (.ok (sep :: r)) =>
    if sep == 'T' || sep == 't' || sep == ' ' then
      match partialTime? r with
      | some (.ok rest) => (offsetOnly rest).map fun _ => text
      | some (.error e) => .error e
      | none => .error .malformed
    else .error .malformed
  | none =>
    match partialTime? cs with
    | some (.ok []) => .ok text
    | some (.ok _) => .error .malformed
    | some (.error e) => .error e
    | none => .error .malformed

/-- A character of a number or date-time token. -/
def isTokenChar (c : Char) : Bool :=
  (c.isAlphanum && c.toNat < 128) || c == '_' || c == '+' || c == '-' || c == '.' || c == ':'

/-- The token of a number or date-time at the front of the text. A date followed by a space and
a time is one token. -/
def scalarToken (cs : List Char) : List Char × List Char :=
  let t := cs.takeWhile isTokenChar
  let rest := cs.drop t.length
  match fullDate? t, rest with
  | some (.ok []), ' ' :: a :: b :: ':' :: _ =>
    if a.isDigit && b.isDigit then
      let more := (rest.drop 1).takeWhile isTokenChar
      (t ++ ' ' :: more, rest.drop (1 + more.length))
    else (t, rest)
  | _, _ => (t, rest)

/-- A token looks like a date-time: it holds a colon, or starts with a date. -/
def looksTemporal (t : List Char) : Bool :=
  t.contains ':' || (fullDate? t).isSome

/-- A token names an infinity: `inf` with an optional sign. -/
def namesInfinity (t : List Char) : Bool := (splitSign t).2 == ['i', 'n', 'f']

/-- The number or date-time a token writes. A decimal float too large for a double is kept as
such; only `inf` writes an infinity. -/
def scalarOf (t : List Char) : Except TomlError Value :=
  if looksTemporal t then datetime? t
  else match integer? t with
    | some i => .ok (.integer i)
    | none =>
      match float? t with
      | some x => .ok (if x.isInf && !namesInfinity t then .floatOverflow else .float x)
      | none => .error .malformed

end XrDelivery.Toml
