/-!
# Blank characters

The characters with the Unicode `White_Space` property: the ASCII blanks and controls
`U+0009`–`U+000D`, the space, `U+0085`, the no-break space, the Ogham space mark, the
typographic spaces `U+2000`–`U+200A`, the line and paragraph separators, the narrow no-break
space, the medium mathematical space and the ideographic space.

Names, addresses and catalog fields are trimmed or cleaned by this class, so a no-break space
counts as blank exactly like a tab does.
-/
namespace XrDelivery.Text

/-- The character has the Unicode `White_Space` property. -/
def isBlank (c : Char) : Bool :=
  let n := c.toNat
  (0x9 ≤ n && n ≤ 0xD) || n == 0x20 || n == 0x85 || n == 0xA0 || n == 0x1680 ||
    (0x2000 ≤ n && n ≤ 0x200A) || n == 0x2028 || n == 0x2029 || n == 0x202F ||
    n == 0x205F || n == 0x3000

/-- The text without blanks at either end. -/
def trimBlank (s : String) : String :=
  String.ofList ((s.toList.dropWhile isBlank).reverse.dropWhile isBlank).reverse

/-- The text with every blank removed, wherever it stands. -/
def dropBlanks (s : String) : String :=
  String.ofList (s.toList.filter fun c => !isBlank c)

/-- The text is empty or holds only blanks. -/
def isBlankText (s : String) : Bool := s.toList.all isBlank

/-- The piece without the carriage return it ends in, if it ends in one. -/
def dropCr (p : String) : String :=
  if p.endsWith "\r" then String.ofList p.toList.dropLast else p

/-- The lines of a text: pieces between line feeds, a carriage return before a line feed
dropped with it. A last piece after the final line feed counts only when it is not empty,
and keeps a carriage return that no line feed follows. -/
def lines (s : String) : List String :=
  let pieces := s.splitToList (· == '\n')
  match pieces.reverse with
  | [] => []
  | last :: earlier =>
    let body := earlier.reverse.map dropCr
    if last.isEmpty then body else body ++ [last]

end XrDelivery.Text
