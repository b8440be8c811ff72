import XrDelivery.Decimal.Layout
/-!
# JSON documents

The reports of a run are JSON documents. A document is `null`, a boolean, an integer, a float,
a string, an array or an object whose fields keep the order they were given in.

Two layouts are written: compact, with no blank anywhere, and indented, with one field or item
a line, nested levels two spaces deeper, a blank after each colon, and empty arrays and
objects as `[]` and `{}`. Floats take the fewest digits that read back, with `.0` or an
exponent so that they read as floats; NaN and the infinities have no JSON form and are written
as `null`. Strings escape the quote, the backslash and every control character below U+0020
(the five common ones by letter, the rest as `\u00XX`); all other characters stand as they are.
-/
namespace XrDelivery.Json

/-- A JSON document. -/
inductive Value where
  | null
  | bool (b : Bool)
  | int (i : Int)
  | float (x : Float)
  | str (s : String)
  | arr (items : List Value)
  | obj (fields : List (String × Value))

/-- A natural number. -/
def nat (n : Nat) : Value := .int n

/-- A value or `null`. -/
def opt {α : Type} (f : α → Value) : Option α → Value
  | some a => f a
  | none => .null

/-- The hexadecimal digit of a nibble, in lower case. -/
def hexDigit (n : Nat) : Char := if n < 10 then Char.ofNat (48 + n) else Char.ofNat (87 + n)

/-- The escaped form of one character inside a string. -/
def escapeChar (c : Char) : List Char :=
  match c with
  | '"' => ['\\', '"']
  | '\\' => ['\\', '\\']
  | '\n' => ['\\', 'n']
  | '\r' => ['\\', 'r']
  | '\t' => ['\\', 't']
  | '\x08' => ['\\', 'b']
  | '\x0c' => ['\\', 'f']
  | c => if c.toNat < 0x20 then ['\\', 'u', '0', '0', hexDigit (c.toNat / 16), hexDigit (c.toNat % 16)] else [c]

/-- A string in quotes, escaped. -/
def quoteString (s : String) : String :=
  "\"" ++ String.ofList (s.toList.flatMap escapeChar) ++ "\""

/-- The text of a float: shortest digits, or `null` when it is not finite. -/
def floatText (x : Float) : String := if x.isNaN || x.isInf then "null" else x.exchangeText

mutual
/-- The compact text of a document. -/
def Value.compact : Value → String
  | .null => "null"
  | .bool b => if b then "true" else "false"
  | .int i => toString i
  | .float x => floatText x
  | .str s => quoteString s
  | .arr items => "[" ++ ",".intercalate (compactItems items) ++ "]"
  | .obj fields => "\x7b" ++ ",".intercalate (compactFields fields) ++ "\x7d"

/-- The compact texts of array items. -/
def compactItems : List Value → List String
  | [] => []
  | v :: rest => v.compact :: compactItems rest

/-- The compact texts of object fields. -/
def compactFields : List (String × Value) → List String
  | [] => []
  | (k, v) :: rest => (quoteString k ++ ":" ++ v.compact) :: compactFields rest
end

/-- The blanks before a line at a nesting depth. -/
def indent (depth : Nat) : String := String.ofList (List.replicate (2 * depth) ' ')

mutual
/-- The indented text of a document whose first line is already placed at `depth`. -/
def Value.pretty (depth : Nat) : Value → String
  | .arr [] => "[]"
  | .obj [] => "\x7b\x7d"
  | .arr items => "[\n" ++ ",\n".intercalate (prettyItems (depth + 1) items) ++ "\n" ++ indent depth ++ "]"
  | .obj fields =>
    "\x7b\n" ++ ",\n".intercalate (prettyFields (depth + 1) fields) ++ "\n" ++ indent depth ++ "\x7d"
  | v => v.compact

/-- The indented lines of array items. -/
def prettyItems (depth : Nat) : List Value → List String
  | [] => []
  | v :: rest => (indent depth ++ v.pretty depth) :: prettyItems depth rest

/-- The indented lines of object fields. -/
def prettyFields (depth : Nat) : List (String × Value) → List String
  | [] => []
  | (k, v) :: rest => (indent depth ++ quoteString k ++ ": " ++ v.pretty depth) :: prettyFields depth rest
end

end XrDelivery.Json
