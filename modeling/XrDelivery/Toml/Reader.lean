import XrDelivery.Toml.Lexeme
/-!
# Reading a TOML document

A document is read statement by statement: key/value pairs, table headers `[a.b]` and
array-of-tables headers `[[a.b]]`. The tables under construction remember how they came to
be, because TOML lets a table be defined only once:

* a header defines its table; the tables on the way to it are made *implicitly* and may be
  defined by a header of their own later, once;
* a dotted key `a.b = 1` makes tables on the way that belong to the dotted keys: no header may
  define them, and dotted keys may extend them only if they are implicit;
* `[[a]]` appends a table to an array of tables; a path that passes through such an array
  enters its last table;
* a value written in place (a string, a number, an array in brackets, a table in braces) is
  final: nothing may be added to it.

Arrays and tables in braces nest at most `maxNesting` deep, and a dotted key has at most
`maxKeyParts` keys. The recursion is also bounded by fuel, which the length of the text gives.
-/
namespace XrDelivery.Toml

/-- A table entry under construction. -/
inductive Node where
  /-- A value written in place. -/
  | value (v : Value)
  /-- A table, made implicitly or not, by dotted keys or not. -/
  | table (isImplicit isDotted : Bool) (entries : List (String × Node))
  /-- An array of tables, the last one open for more entries. -/
  | tableArray (items : List (List (String × Node)))

/-- The entries of a table under construction. -/
abbrev Entries := List (String × Node)

mutual
/-- The value of a finished entry. -/
def Node.toValue : Node → Value
  | .value v => v
  | .table _ _ es => .table (entriesValue es)
  | .tableArray items => .array (itemsValue items)

/-- The values of finished entries, in order. -/
def entriesValue : Entries → List (String × Value)
  | [] => []
  | (k, n) :: rest => (k, n.toValue) :: entriesValue rest

/-- The tables of a finished array of tables. -/
def itemsValue : List Entries → List Value
  | [] => []
  | es :: rest => .table (entriesValue es) :: itemsValue rest
end

/-- Replace the entry of a key. -/
def setEntry (k : String) (n : Node) (es : Entries) : Entries :=
  es.map fun (k', n') => if k' = k then (k, n) else (k', n')

/-- Walk a path of keys from a table and apply `f` at its end: missing tables are made implicitly,
walking with dotted keys into an explicit table is a redefinition, and a value written in place
cannot be walked into. -/
def descend (dotted : Bool) (f : Bool → Entries → Except TomlError Entries) :
    Bool → List String → Entries → Except TomlError Entries
  | here, [], es => f here es
  | _, k :: ks, es =>
    match es.lookup k with
    | none => do
      let sub ← descend dotted f dotted ks []
      pure (es ++ [(k, .table true dotted sub)])
    | some (.table imp dot sub) =>
      if dotted && !imp then .error (.tableRedefined k)
      else do
        let sub ← descend dotted f dot ks sub
        pure (setEntry k (.table imp dot sub) es)
    | some (.tableArray items) =>
      match items.getLast? with
      | some last => do
        let last ← descend dotted f false ks last
        pure (setEntry k (.tableArray (items.dropLast ++ [last])) es)
      | none => .error (.notATable k)
    | some (.value _) => .error (.notATable k)

/-- Bind a new key. -/
def bindNew (k : String) (v : Value) (es : Entries) : Except TomlError Entries :=
  if (es.lookup k).isSome then .error (.duplicateKey k) else .ok (es ++ [(k, .value v)])

/-- Bind a dotted key in a table written in braces. -/
def bindInline (path : List String) (v : Value) (es : Entries) : Except TomlError Entries :=
  match path.reverse with
  | [] => .error .malformed
  | k :: revPrefix => descend true (fun _ es => bindNew k v es) false revPrefix.reverse es

/-- How deep arrays and tables in braces may nest. -/
def maxNesting : Nat := 80

/-- How many keys a dotted key may join. -/
def maxKeyParts : Nat := 80

/-- A dotted key of at most `maxKeyParts` keys. -/
def boundedKeyPath (cs : List Char) : Scan (List String) :=
  match keyPath cs.length [] cs with
  | .ok (path, r) => if path.length ≤ maxKeyParts then .ok (path, r) else .error .tooDeep
  | .error e => .error e

mutual
/-- A value at the front of the text, inside arrays and tables in braces of which `room` more
may open. -/
def value : Nat → Nat → List Char → Scan Value
  | 0, _, _ => .error .malformed
  | fuel + 1, room, cs =>
    match cs with
    | '[' :: r => if room = 0 then .error .tooDeep else arrayItems fuel (room - 1) [] r
    | '{' :: r => if room = 0 then .error .tooDeep else inlineEntries fuel (room - 1) [] r
    | 't' :: 'r' :: 'u' :: 'e' :: r => .ok (.boolean true, r)
    | 'f' :: 'a' :: 'l' :: 's' :: 'e' :: r => .ok (.boolean false, r)
    | _ =>
      match string? cs with
      | some (.ok (s, r)) => .ok (.string s, r)
      | some (.error e) => .error e
      | none =>
        let (t, r) := scalarToken cs
        if t.isEmpty then .error .malformed
        else (scalarOf t).map fun v => (v, r)

/-- The items of an array after its opening bracket; blanks, line ends and comments may stand
between them, and a comma may follow the last. -/
def arrayItems : Nat → Nat → List Value → List Char → Scan Value
  | 0, _, _, _ => .error .malformed
  | fuel + 1, room, acc, cs =>
    match skipBlank false cs with
    | .error e => .error e
    | .ok (']' :: r) => .ok (.array acc.reverse, r)
    | .ok cs =>
      match value fuel room cs with
      | .error e => .error e
      | .ok (v, r) =>
        match skipBlank false r with
        | .error e => .error e
        | .ok (',' :: r) => arrayItems fuel room (v :: acc) r
        | .ok (']' :: r) => .ok (.array (v :: acc).reverse, r)
        | .ok _ => .error .malformed

/-- The entries of a table in braces after its opening brace, separated by commas; blanks, line
ends and comments may stand between them, and a comma may follow the last. A key, its `=` and
its value stand on one line. -/
def inlineEntries : Nat → Nat → Entries → List Char → Scan Value
  | 0, _, _, _ => .error .malformed
  | fuel + 1, room, acc, cs =>
    match skipBlank false cs with
    | .error e => .error e
    | .ok ('}' :: r) => .ok (.table (entriesValue acc), r)
    | .ok cs =>
      match boundedKeyPath cs with
      | .error e => .error e
      | .ok (path, '=' :: r) =>
        match value fuel room (skipSpace r) with
        | .error e => .error e
        | .ok (v, r) =>
          match bindInline path v acc with
          | .error e => .error e
          | .ok acc =>
            match skipBlank false r with
            | .error e => .error e
            | .ok (',' :: r) => inlineEntries fuel room acc r
            | .ok ('}' :: r) => .ok (.table (entriesValue acc), r)
            | .ok _ => .error .malformed
      | .ok _ => .error .malformed
end

/-- A document under construction: its tables, and the path of the table that key/value
pairs go to. -/
structure Builder where
  root : Entries := []
  current : List String := []

/-- Bind a dotted key in the current table. A dotted key may only end in a table of dotted
keys, a plain key only in a table that is not. -/
def Builder.bind (b : Builder) (path : List String) (v : Value) : Except TomlError Builder :=
  match path.reverse with
  | [] => .error .malformed
  | k :: revPrefix =>
    let pre := revPrefix.reverse
    let place (here : Bool) (es : Entries) : Except TomlError Entries :=
      if here == pre.isEmpty then .error (.tableRedefined k) else bindNew k v es
    (descend false (fun _ es => descend true place false pre es) false b.current b.root).map
      fun root => { b with root }

/-- Define the table of a header. Only an absent table, or one made implicitly on the way to
another header, can be defined. -/
def Builder.defineTable (b : Builder) (path : List String) : Except TomlError Builder :=
  match path.reverse with
  | [] => .error .malformed
  | k :: revPrefix =>
    let define (_ : Bool) (es : Entries) : Except TomlError Entries :=
      match es.lookup k with
      | none => .ok (es ++ [(k, .table false false [])])
      | some (.table true false sub) => .ok (setEntry k (.table false false sub) es)
      | some _ => .error (.tableRedefined k)
    (descend false define false revPrefix.reverse b.root).map fun root => { root, current := path }

/-- Append a table to the array of tables of a header. -/
def Builder.appendTable (b : Builder) (path : List String) : Except TomlError Builder :=
  match path.reverse with
  | [] => .error .malformed
  | k :: revPrefix =>
    let append (_ : Bool) (es : Entries) : Except TomlError Entries :=
      match es.lookup k with
      | none => .ok (es ++ [(k, .tableArray [[]])])
      | some (.tableArray items) => .ok (setEntry k (.tableArray (items ++ [[]])) es)
      | some _ => .error (.tableRedefined k)
    (descend false append false revPrefix.reverse b.root).map fun root => { root, current := path }

/-- Read the statements of a document, one a line. -/
def statements : Nat → Builder → List Char → Except TomlError Builder
  | 0, _, _ => .error .malformed
  | fuel + 1, b, cs =>
    let next (r : List Char) (b : Except TomlError Builder) : Except TomlError Builder := do
      let b ← b
      let r ← endOfLine r
      statements fuel b r
    match skipSpace cs with
    | [] => .ok b
    | '\n' :: r => statements fuel b r
    | '\r' :: '\n' :: r => statements fuel b r
    | '#' :: r => (endOfLine ('#' :: r)).bind (statements fuel b)
    | '[' :: '[' :: r =>
      match boundedKeyPath (skipSpace r) with
      | .ok (path, ']' :: ']' :: r) => next r (b.appendTable path)
      | .ok _ => .error .malformed
      | .error e => .error e
    | '[' :: r =>
      match boundedKeyPath (skipSpace r) with
      | .ok (path, ']' :: r) => next r (b.defineTable path)
      | .ok _ => .error .malformed
      | .error e => .error e
    | cs =>
      match boundedKeyPath cs with
      | .ok (path, '=' :: r) =>
        match value (2 * r.length + 2) maxNesting (skipSpace r) with
        | .ok (v, r) => next r (b.bind path v)
        | .error e => .error e
      | .ok _ => .error .malformed
      | .error e => .error e

/-- Read a TOML document into its table. A byte order mark in front is skipped. -/
def parse (text : String) : Except TomlError (List (String × Value)) :=
  let cs := match text.toList with
    | '\uFEFF' :: r => r
    | cs => cs
  (statements (cs.length + 1) {} cs).map fun b => entriesValue b.root

end XrDelivery.Toml
