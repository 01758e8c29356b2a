/-!
# Blank text

White space here is the Unicode property `White_Space`: twenty-five characters, among them the
no-break space U+00A0 and the line separator U+2028, and neither the zero-width space U+200B nor
the control characters below U+0009. A name or a keyword that consists of white space alone is
as good as missing.
-/

namespace DeclOutline.Text

/-- Whether a character has the property `White_Space`. -/
def isBlankChar (c : Char) : Bool :=
  let n := c.toNat
  (0x09 ≤ n && n ≤ 0x0D) || n == 0x20 || n == 0x85 || n == 0xA0 || n == 0x1680 ||
    (0x2000 ≤ n && n ≤ 0x200A) || n == 0x2028 || n == 0x2029 || n == 0x202F || n == 0x205F ||
    n == 0x3000

/-- Whether a text is white space only; the empty text is. -/
def isBlank (s : String) : Bool :=
  s.toList.all isBlankChar

end DeclOutline.Text
