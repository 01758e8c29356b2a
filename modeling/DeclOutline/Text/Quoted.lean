import DeclOutline.Text.Lowercase
import DeclOutline.Text.Numeral
import DeclOutline.Text.PrintableData

/-!
# Quoted text

How a text is shown inside a message: between double quotes, with quotes and backslashes escaped,
and with every character that has no visible form of its own written out. A single quote needs
no escape.
-/

namespace DeclOutline.Text

/-- Whether a character is shown as it is. -/
def isPrintable (c : Char) : Bool :=
  inRanges printableRanges c.toNat

/-- A character as it stands inside a quoted text. -/
def quoteChar (c : Char) : String :=
  if c = '\x00' then "\\0"
  else if c = '\t' then "\\t"
  else if c = '\r' then "\\r"
  else if c = '\n' then "\\n"
  else if c = '\\' then "\\\\"
  else if c = '"' then "\\\""
  else if isPrintable c then c.toString
  else "\\u\x7b" ++ hexadecimal c.toNat ++ "\x7d"

/-- A text between double quotes. -/
def quoted (s : String) : String :=
  "\"" ++ String.join (s.toList.map quoteChar) ++ "\""

end DeclOutline.Text
