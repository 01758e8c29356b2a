import DeclOutline.Toml.Numbers
import DeclOutline.Toml.Strings

/-!
# Reading TOML documents

A document is read line by line into statements, which then make a table. Readers take characters
and give a value with the characters that follow it.

Arrays and inline tables nest to a fixed depth, and keys have a fixed number of parts; both bounds
are far beyond what a document of use has, and double as the measure by which the readers end. The
loops over lines, items and entries end because each round uses up a character.
-/

namespace DeclOutline.Toml

/-- Values nest less deep than this, and keys have fewer parts. -/
def nestingLimit : Nat :=
  80

/-! ### Blanks, comments and line ends -/

/-- What follows spaces and tabs. -/
def skipBlanks (cs : List Char) : List Char :=
  cs.dropWhile isBlankChar

/-- What follows a comment, if there is one. -/
def skipComment : List Char → List Char
  | '#' :: rest => rest.dropWhile isCommentChar
  | cs => cs

/-- What follows a line break or the end of the document. -/
def lineEnd? : List Char → Option (List Char)
  | [] => some []
  | cs => afterNewline? cs

/-- What follows the rest of a line that has nothing more to say. -/
def endLine? (cs : List Char) : Option (List Char) :=
  lineEnd? (skipComment (skipBlanks cs))

/-- What follows blanks, line breaks and comments. -/
def skipFiller (inComment : Bool) : List Char → List Char
  | [] => []
  | '\n' :: rest => skipFiller false rest
  | '\r' :: '\n' :: rest => skipFiller false rest
  | c :: rest =>
    if inComment then
      if isCommentChar c then skipFiller true rest else c :: rest
    else if isBlankChar c then skipFiller false rest
    else if c == '#' then skipFiller true rest
    else c :: rest

/-! ### Keys -/

/-- A character of a key that needs no quotes. -/
def isBareChar (c : Char) : Bool :=
  c.isAlphanum || c == '_' || c == '-'

/-- Reads one part of a key. -/
def readKeyPart : List Char → Option (String × List Char)
  | '"' :: rest => (basic rest).map fun (text, rest) => (String.ofList text, rest)
  | '\'' :: rest => (literal rest).map fun (text, rest) => (String.ofList text, rest)
  | cs =>
    if (cs.takeWhile isBareChar).isEmpty then none
    else some (String.ofList (cs.takeWhile isBareChar), cs.dropWhile isBareChar)

/-- Reads a key of at most so many parts, and the blanks around them. -/
def readKeyParts : Nat → List Char → Option (List String × List Char)
  | 0, _ => none
  | n + 1, cs => do
    let (part, rest) ← readKeyPart (skipBlanks cs)
    match skipBlanks rest with
    | '.' :: rest => do
      let (parts, rest) ← readKeyParts n rest
      some (part :: parts, rest)
    | rest => some ([part], rest)

/-- Reads a key. -/
def readKey (cs : List Char) : Option (List String × List Char) :=
  readKeyParts (nestingLimit - 1) cs

/-! ### Values -/

/-- Reads the items of an array up to its closing bracket, in at most so many rounds. -/
def readItems (read : List Char → Option (Node × List Char)) :
    Nat → List Char → Option (List Node × List Char)
  | 0, _ => none
  | n + 1, cs =>
    match skipFiller false cs with
    | ']' :: rest => some ([], rest)
    | cs => do
      let (item, rest) ← read cs
      match skipFiller false rest with
      | ',' :: rest => do
        let (items, rest) ← readItems read n rest
        some (item :: items, rest)
      | ']' :: rest => some ([item], rest)
      | _ => none

/-- Reads a key and its value. -/
def readAssignment (read : List Char → Option (Node × List Char)) (cs : List Char) :
    Option ((List String × Node) × List Char) := do
  let (key, rest) ← readKey cs
  let rest ← takeChar '=' rest
  let (value, rest) ← read (skipBlanks rest)
  some ((key, value), rest)

/-- Reads the entries of an inline table up to its closing brace, in at most so many rounds. There
is one entry at least, and none after a last comma. -/
def readInlineEntries (read : List Char → Option (Node × List Char)) :
    Nat → List Char → Option (List (List String × Node) × List Char)
  | 0, _ => none
  | n + 1, cs => do
    let (assignment, rest) ← readAssignment read cs
    match skipBlanks rest with
    | ',' :: rest => do
      let (assignments, rest) ← readInlineEntries read n rest
      some (assignment :: assignments, rest)
    | '\x7d' :: rest => some ([assignment], rest)
    | _ => none

/-- Reads an inline table after its opening brace. -/
def readInlineTable (read : List Char → Option (Node × List Char)) (cs : List Char) :
    Option (Node × List Char) :=
  match skipBlanks cs with
  | '\x7d' :: rest => some (.table .inline [], rest)
  | _ => do
    let (assignments, rest) ← readInlineEntries read (cs.length + 1) cs
    let entries ← Entries.ofAssignments assignments
    some (.table .inline entries, rest)

/-- Reads a value that holds no other. -/
def readScalar (cs : List Char) : Option (Node × List Char) :=
  match cs with
  | '"' :: _ | '\'' :: _ => (readString cs).map fun (text, rest) => (.string text, rest)
  | 't' :: 'r' :: 'u' :: 'e' :: rest => some (.boolean true, rest)
  | 'f' :: 'a' :: 'l' :: 's' :: 'e' :: rest => some (.boolean false, rest)
  | _ => readNumberOrDate cs

/-- Reads a value that nests to at most a depth. -/
def readValue : Nat → List Char → Option (Node × List Char)
  | depth, '[' :: rest =>
    match depth with
    | 0 => none
    | depth + 1 => (readItems (readValue depth) (rest.length + 1) rest).map
        fun (items, rest) => (.array items, rest)
  | depth, '\x7b' :: rest =>
    match depth with
    | 0 => none
    | depth + 1 => readInlineTable (readValue depth) rest
  | _, cs => readScalar cs

/-! ### Statements and documents -/

/-- Reads a header or a key and its value, with the end of its line. -/
def readStatement (cs : List Char) : Option (Statement × List Char) :=
  match cs with
  | '[' :: '[' :: rest => do
    let (path, rest) ← readKey rest
    let rest ← takeChar ']' rest
    let rest ← takeChar ']' rest
    let rest ← endLine? rest
    some (.element path, rest)
  | '[' :: rest => do
    let (path, rest) ← readKey rest
    let rest ← takeChar ']' rest
    let rest ← endLine? rest
    some (.table path, rest)
  | _ => do
    let ((path, value), rest) ← readAssignment (readValue (nestingLimit - 1)) cs
    let rest ← endLine? rest
    some (.assign path value, rest)

/-- Whether a line has nothing to say: what begins it is its end or a comment. -/
def startsEmptyLine : List Char → Bool
  | c :: _ => c == '#' || c == '\n' || c == '\r'
  | [] => true

/-- Reads lines in at most so many rounds. -/
def readLines : Nat → List Char → Option (List Statement)
  | 0, _ => none
  | n + 1, cs =>
    let cs := skipBlanks cs
    if cs.isEmpty then some []
    else if startsEmptyLine cs then (endLine? cs).bind (readLines n)
    else do
      let (statement, rest) ← readStatement cs
      (readLines n rest).map (statement :: ·)

/-- The characters of a document after the mark of byte order that may begin it. -/
def skipByteOrderMark : List Char → List Char
  | c :: cs => if c.toNat = 0xFEFF then cs else c :: cs
  | [] => []

/-- Reads the entries of a document. -/
def readEntries? (document : String) : Option Entries :=
  let cs := skipByteOrderMark document.toList
  (readLines (cs.length + 1) cs).bind ofStatements

/-- Reads a document. -/
def read? : Reader :=
  fun document => (readEntries? document).map entryValues

end DeclOutline.Toml
