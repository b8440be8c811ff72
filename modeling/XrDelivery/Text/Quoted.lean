import XrDelivery.Text.Invisible
/-!
# Quoted text in messages

Messages show names and addresses between double quotes, so that blanks, empty names and
look-alike characters stay visible. Inside the quotes a backslash escapes:

* the quote and the backslash themselves, and `\0`, `\t`, `\r`, `\n`;
* as `\u{hex}` (lowercase, no leading zeros) every other character that does not show on its
  own: those of `silentChars` and the marks of `extendingMarks`.

Everything else stands as it is.
-/
namespace XrDelivery.Text

/-- The lowercase hexadecimal digits of `n`, without leading zeros. -/
def hexDigits (n : Nat) : String :=
  String.ofList ((Nat.toDigits 16 n).map Char.toLower)

/-- The escaped form of one character inside quotes. -/
def escapeChar (c : Char) : String :=
  match c with
  | '\x00' => "\\0"
  | '\t' => "\\t"
  | '\r' => "\\r"
  | '\n' => "\\n"
  | '\\' => "\\\\"
  | '"' => "\\\""
  | _ =>
    if extendingMarks.has c.toNat || silentChars.has c.toNat then
      "\\u\x7b" ++ hexDigits c.toNat ++ "\x7d"
    else c.toString

/-- The text between double quotes, escaped as the module note says. -/
def quote (s : String) : String :=
  "\"" ++ String.join (s.toList.map escapeChar) ++ "\""

end XrDelivery.Text
