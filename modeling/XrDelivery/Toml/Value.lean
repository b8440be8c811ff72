/-!
# TOML values

A TOML document is a table: an ordered list of keys, each bound once, to a string, an integer,
a float, a boolean, a date-time, an array or a nested table. Date-times are kept as written:
they are checked when read, and nothing here computes with them.

Numbers are kept as written, whatever their size: an integer exactly, a decimal float at its
nearest double, or as `floatOverflow` when it is too large for one. The document holds them all;
a number is checked only when something takes it. Integers can be taken in the signed and
unsigned 128-bit range, and a field bounds its own further (`Value.readable`).
-/
namespace XrDelivery.Toml

/-- A TOML value. -/
inductive Value where
  | string (s : String)
  | integer (i : Int)
  | float (x : Float)
  /-- A decimal float too large for a double. -/
  | floatOverflow
  | boolean (b : Bool)
  | datetime (text : String)
  | array (items : List Value)
  | table (entries : List (String × Value))

/-- Why a text is not a TOML document. -/
inductive TomlError where
  /-- The text leaves the grammar. -/
  | malformed
  /-- A backslash escape that the format does not define. -/
  | badEscape
  /-- Values nested, or keys dotted, beyond the limit. -/
  | tooDeep
  /-- A date or time that no calendar has. -/
  | badDate
  /-- A key bound twice in one table. -/
  | duplicateKey (key : String)
  /-- A key used as a table while it holds another value. -/
  | notATable (key : String)
  /-- A table defined a second time. -/
  | tableRedefined (key : String)
deriving DecidableEq, Repr

/-- The integers that can be taken from a document: from the least signed to the greatest
unsigned 128-bit word. -/
def integerInRange (i : Int) : Bool := -(Nat.pow 2 127 : Int) ≤ i && i < Nat.pow 2 128

mutual
/-- Every number in the value can be taken: each integer is in `integerInRange`, and no float is
too large for a double. This is what reading a value that no field wants asks of it. -/
def Value.readable : Value → Bool
  | .integer i => integerInRange i
  | .floatOverflow => false
  | .array items => itemsReadable items
  | .table entries => entriesReadable entries
  | _ => true

/-- Every value of a list is readable. -/
def itemsReadable : List Value → Bool
  | [] => true
  | v :: rest => v.readable && itemsReadable rest

/-- Every value bound in a table is readable. -/
def entriesReadable : List (String × Value) → Bool
  | [] => true
  | (_, v) :: rest => v.readable && entriesReadable rest
end

/-- The value bound to a key of a table's entries. -/
def lookup (key : String) : List (String × Value) → Option Value
  | [] => none
  | (k, v) :: rest => if k = key then some v else lookup key rest

end XrDelivery.Toml
