import DeclOutline.Toml.Reader

/-!
# Writing TOML documents

A text is written in the plainest of the four forms of strings that can hold it, and a key without
quotes where that will do. Escapes are a last resort: a quote or a backslash alone only asks for
another form. Control characters other than the tab and the line feed have no form without escapes.

A string of several lines begins on the line after its opening delimiter exactly if it has a line
feed in it.

The quotes of a value are counted to choose its form, run by run and in a byte, so the count of a
run of more than 255 equal quotes overflows. Keys ask only whether there is a quote.
-/

namespace DeclOutline.Toml

/-- A control character that a string without escapes cannot hold, on one line or several. -/
def needsEscape (c : Char) : Bool :=
  (c.toNat < 0x20 && c != '\t' && c != '\n') || c.toNat == 0x7F

/-- The length of the longest run of a character, after a run that has reached a length. -/
def longestRunFrom (c : Char) (reached : Nat) : List Char → Nat
  | [] => reached
  | d :: ds =>
    if d = c then longestRunFrom c (reached + 1) ds else max reached (longestRunFrom c 0 ds)

/-- The length of the longest run of a character. -/
def longestRun (c : Char) (cs : List Char) : Nat :=
  longestRunFrom c 0 cs

/-- The forms of a string. -/
inductive StringForm where
  | basic
  | literal
  | multiBasic
  | multiLiteral
deriving DecidableEq

/-- The form in which a text is written as a value. -/
def StringForm.ofText (cs : List Char) : StringForm :=
  let escaping := cs.any needsEscape
  let backslash := cs.contains '\\'
  let newline := cs.contains '\n'
  let singles := longestRun '\'' cs
  let doubles := longestRun '"' cs
  if !escaping && !backslash && doubles == 0 && !newline then basic
  else if !escaping && singles == 0 && !newline then literal
  else if !escaping && !backslash && doubles ≤ 2 then multiBasic
  else if !escaping && singles ≤ 2 then multiLiteral
  else if newline then multiBasic
  else basic

/-- A digit of a hexadecimal numeral in upper case. -/
def upperDigit (n : Nat) : Char :=
  (Nat.digitChar n).toUpper

/-- A character other than a quote as it stands in a string with escapes. -/
def escapeChar (c : Char) : List Char :=
  if c = '\x08' then ['\\', 'b']
  else if c = '\t' then ['\\', 't']
  else if c = '\x0c' then ['\\', 'f']
  else if c = '\r' then ['\\', 'r']
  else if c = '\\' then ['\\', '\\']
  else if needsEscape c then
    ['\\', 'u', '0', '0', upperDigit (c.toNat / 16), upperDigit (c.toNat % 16)]
  else [c]

/-- A text inside a string with escapes on one line. -/
def writeBasic (cs : List Char) : List Char :=
  cs.flatMap fun c =>
    if c = '"' then ['\\', '"'] else if c = '\n' then ['\\', 'n'] else escapeChar c

/-- A text inside a string with escapes on several lines. The third of three quotes in a row is
escaped; `quotes` counts those that have just been written. -/
def writeMultiBasic (quotes : Nat) : List Char → List Char
  | [] => []
  | c :: cs =>
    if c = '"' then
      if 2 ≤ quotes then '\\' :: '"' :: writeMultiBasic 0 cs
      else '"' :: writeMultiBasic (quotes + 1) cs
    else escapeChar c ++ writeMultiBasic 0 cs

/-- The line feed after the opening delimiter of a text on several lines. -/
def leadingNewline (cs : List Char) : List Char :=
  if cs.contains '\n' then ['\n'] else []

/-- A text in its delimiters. -/
def writeIn (form : StringForm) (cs : List Char) : List Char :=
  match form with
  | .basic => '"' :: writeBasic cs ++ ['"']
  | .literal => '\'' :: cs ++ ['\'']
  | .multiBasic => ['"', '"', '"'] ++ leadingNewline cs ++ writeMultiBasic 0 cs ++ ['"', '"', '"']
  | .multiLiteral => ['\'', '\'', '\''] ++ leadingNewline cs ++ cs ++ ['\'', '\'', '\'']

/-- A text as a value. -/
def writeText (s : String) : List Char :=
  writeIn (.ofText s.toList) s.toList

/-- The form in which a key is written that needs quotes. -/
def StringForm.ofKey (cs : List Char) : StringForm :=
  let oneLine := !cs.any needsEscape && !cs.contains '\n'
  if oneLine && !cs.contains '\\' && !cs.contains '"' then basic
  else if oneLine && !cs.contains '\'' then literal
  else basic

/-- A key of one part. -/
def writeKey (s : String) : List Char :=
  if !s.isEmpty && s.toList.all isBareChar then s.toList
  else writeIn (.ofKey s.toList) s.toList

/-- A boolean as a value. -/
def writeBoolean (b : Bool) : List Char :=
  if b then ['t', 'r', 'u', 'e'] else ['f', 'a', 'l', 's', 'e']

/-- A line that gives a key its value. -/
def writeAssignment (key : String) (value : List Char) : List Char :=
  writeKey key ++ [' ', '=', ' '] ++ value ++ ['\n']

/-- A line with the header of a table. -/
def writeHeader (key : String) : List Char :=
  '[' :: writeKey key ++ [']', '\n']

/-! ### Documents -/

/-- A value. -/
def Scalar.write : Scalar → List Char
  | text value => writeText value
  | boolean value => writeBoolean value

/-- Keys with their values, a line each. -/
def writeEntries (entries : List (String × Scalar)) : List Char :=
  entries.flatMap fun e => writeAssignment e.1 e.2.write

/-- A table after an empty line. -/
def writeTable (t : String × List (String × Scalar)) : List Char :=
  '\n' :: writeHeader t.1 ++ writeEntries t.2

/-- A document in its written form. -/
def format (d : Document) : String :=
  String.ofList (writeEntries d.settings ++ d.tables.flatMap writeTable)

/-- Counts a quote in a byte, run by run, after a run that has reached a length. -/
def countRuns (quote : Char) (reached : UInt8) : List Char → Except Overflow Unit
  | [] => .ok ()
  | c :: cs =>
    if c = quote then
      if reached = 255 then .error .addition else countRuns quote (reached + 1) cs
    else countRuns quote 0 cs

/-- Counts both quotes of a value. -/
def Scalar.countQuotes : Scalar → Except Overflow Unit
  | text value => do
    countRuns '\'' 0 value.toList
    countRuns '"' 0 value.toList
  | boolean _ => .ok ()

/-- Prints a document. -/
def print : Printer := fun d => do
  (d.settings ++ d.tables.flatMap Prod.snd).forM fun e => e.2.countQuotes
  .ok (format d)

end DeclOutline.Toml
