import DeclOutline.Text.Numeral

/-!
# Strings in TOML documents

Strings come in four forms: on one line or on several, and with escapes or as they stand. Readers
take the characters after the opening delimiter and give the text and what follows the closing one.

In the forms of several lines a line break reads as LF. A run of up to two quotes is text. The third
quote of a run closes the string, unless the run goes on: of four or five quotes the last three
close it.
-/

namespace DeclOutline.Toml

/-- A space or a tab. -/
def isBlankChar (c : Char) : Bool :=
  c == ' ' || c == '\t'

/-- A character that may stand in a comment: any but control characters, of which the tab may. -/
def isCommentChar (c : Char) : Bool :=
  c == '\t' || (0x20 ≤ c.toNat && c.toNat ≠ 0x7F)

/-- A character that stands for itself in a string with escapes. -/
def isBasicChar (c : Char) : Bool :=
  isCommentChar c && c != '"' && c != '\\'

/-- A character that may stand in a string without escapes. -/
def isLiteralChar (c : Char) : Bool :=
  isCommentChar c && c != '\''

/-- The character that one letter after a backslash stands for. -/
def shortEscape? (c : Char) : Option Char :=
  if c = 'b' then some '\x08'
  else if c = 't' then some '\t'
  else if c = 'n' then some '\n'
  else if c = 'f' then some '\x0c'
  else if c = 'r' then some '\r'
  else if c = '"' then some '"'
  else if c = '\\' then some '\\'
  else none

/-- The number that hexadecimal digits write. -/
def hexNumber? (digits : List Char) : Option Nat :=
  digits.foldlM (fun n c => (Text.hexValue? c).map (16 * n + ·)) 0

/-- The character with a code point that is written in hexadecimal digits. -/
def codePoint? (digits : List Char) : Option Char :=
  (hexNumber? digits).bind fun n => if n.isValidChar then some (Char.ofNat n) else none

/-- Puts a character in front of the text that has been read. -/
def consText (c : Char) (read : List Char × List Char) : List Char × List Char :=
  (c :: read.1, read.2)

/-- What follows a line break. -/
def afterNewline? : List Char → Option (List Char)
  | '\n' :: rest => some rest
  | '\r' :: '\n' :: rest => some rest
  | _ => none

/-- What follows a line break, if there is one. -/
def skipNewline (cs : List Char) : List Char :=
  (afterNewline? cs).getD cs

/-- Reads a string with escapes on one line. -/
def basic : List Char → Option (List Char × List Char)
  | [] => none
  | '"' :: rest => some ([], rest)
  | '\\' :: 'u' :: a :: b :: c :: d :: rest => do
    let char ← codePoint? [a, b, c, d]
    (basic rest).map (consText char)
  | '\\' :: 'U' :: a :: b :: c :: d :: e :: f :: g :: h :: rest => do
    let char ← codePoint? [a, b, c, d, e, f, g, h]
    (basic rest).map (consText char)
  | '\\' :: c :: rest => do
    let char ← shortEscape? c
    (basic rest).map (consText char)
  | c :: rest => if isBasicChar c then (basic rest).map (consText c) else none

/-- Whether a backslash before these characters hides a line break and the blanks around it. -/
def hidesNewline (cs : List Char) : Bool :=
  (afterNewline? (cs.dropWhile isBlankChar)).isSome

/-- Reads a string with escapes on several lines. After a backslash at the end of a line, blanks and
line breaks are `hidden`. -/
def multiBasic (hidden : Bool) : List Char → Option (List Char × List Char)
  | [] => none
  | '"' :: '"' :: '"' :: '"' :: '"' :: rest => some (['"', '"'], rest)
  | '"' :: '"' :: '"' :: '"' :: rest => some (['"'], rest)
  | '"' :: '"' :: '"' :: rest => some ([], rest)
  | '"' :: rest => (multiBasic false rest).map (consText '"')
  | '\r' :: '\n' :: rest =>
    if hidden then multiBasic true rest else (multiBasic false rest).map (consText '\n')
  | '\n' :: rest =>
    if hidden then multiBasic true rest else (multiBasic false rest).map (consText '\n')
  | '\\' :: 'u' :: a :: b :: c :: d :: rest => do
    let char ← codePoint? [a, b, c, d]
    (multiBasic false rest).map (consText char)
  | '\\' :: 'U' :: a :: b :: c :: d :: e :: f :: g :: h :: rest => do
    let char ← codePoint? [a, b, c, d, e, f, g, h]
    (multiBasic false rest).map (consText char)
  | '\\' :: c :: rest =>
    if hidesNewline (c :: rest) then multiBasic true (c :: rest)
    else do
      let char ← shortEscape? c
      (multiBasic false rest).map (consText char)
  | c :: rest =>
    if hidden && isBlankChar c then multiBasic true rest
    else if isBasicChar c then (multiBasic false rest).map (consText c)
    else none

/-- Reads a string without escapes on one line. -/
def literal (cs : List Char) : Option (List Char × List Char) :=
  match cs.dropWhile isLiteralChar with
  | '\'' :: rest => some (cs.takeWhile isLiteralChar, rest)
  | _ => none

/-- Reads a string without escapes on several lines. -/
def multiLiteral : List Char → Option (List Char × List Char)
  | [] => none
  | '\'' :: '\'' :: '\'' :: '\'' :: '\'' :: rest => some (['\'', '\''], rest)
  | '\'' :: '\'' :: '\'' :: '\'' :: rest => some (['\''], rest)
  | '\'' :: '\'' :: '\'' :: rest => some ([], rest)
  | '\'' :: rest => (multiLiteral rest).map (consText '\'')
  | '\r' :: '\n' :: rest => (multiLiteral rest).map (consText '\n')
  | '\n' :: rest => (multiLiteral rest).map (consText '\n')
  | c :: rest => if isLiteralChar c then (multiLiteral rest).map (consText c) else none

/-- Reads a string of any form. -/
def readString : List Char → Option (String × List Char)
  | '"' :: '"' :: '"' :: rest => (multiBasic false (skipNewline rest)).map ofChars
  | '"' :: rest => (basic rest).map ofChars
  | '\'' :: '\'' :: '\'' :: rest => (multiLiteral (skipNewline rest)).map ofChars
  | '\'' :: rest => (literal rest).map ofChars
  | _ => none
where
  ofChars (read : List Char × List Char) : String × List Char :=
    (String.ofList read.1, read.2)

end DeclOutline.Toml
