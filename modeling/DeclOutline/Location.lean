import DeclOutline.Text.Numeral

/-!
# Lines and columns

A text is cut into lines after every line break: CR LF, a lone CR or a lone LF. Lines and columns
count from one, and columns count characters. An offset past the end of the text has the location
of the end. An offset inside a character has no column in characters; the bytes before it on its
line are counted instead.
-/

namespace DeclOutline

/-- A line and a column, both counted from one. -/
structure Location where
  line : Nat
  column : Nat
deriving DecidableEq

namespace Location

/-- The written form `line:column`. -/
def render (l : Location) : String :=
  Text.decimal l.line ++ ":" ++ Text.decimal l.column

/-- Whether a character, with the characters after it, is the last one of its line. -/
def endsLine (c : Char) (rest : List Char) : Bool :=
  c == '\n' || (c == '\r' && rest.head? != some '\n')

/-- The lines of a text, each with the line break that ends it. The last line has none, and is
empty if the text ends in a line break. -/
def lines : List Char → List (List Char)
  | [] => [[]]
  | c :: cs =>
    if endsLine c cs then [c] :: lines cs
    else
      match lines cs with
      | line :: rest => (c :: line) :: rest
      | [] => [[c]]

/-- The number of bytes of a list of characters. -/
def byteSize (cs : List Char) : Nat :=
  cs.foldr (fun c size => c.utf8Size + size) 0

/-- The number of characters that the first `n` bytes hold, unless a character is cut. -/
def charCount? : List Char → Nat → Option Nat
  | _, 0 => some 0
  | [], _ + 1 => none
  | c :: cs, n + 1 =>
    if c.utf8Size ≤ n + 1 then (charCount? cs (n + 1 - c.utf8Size)).map (· + 1) else none

/-- The column of the place `n` bytes into a line. -/
def columnAt (line : List Char) (n : Nat) : Nat :=
  (charCount? line n).getD n + 1

/-- Finds an offset in lines that begin at line number `number`. -/
def inLines (number offset : Nat) : List (List Char) → Location
  | [] => ⟨number, 1⟩
  | [line] => ⟨number, columnAt line (min offset (byteSize line))⟩
  | line :: next :: rest =>
    if byteSize line ≤ offset then inLines (number + 1) (offset - byteSize line) (next :: rest)
    else ⟨number, columnAt line offset⟩

/-- The location of a byte offset in a text. -/
def ofOffset (text : String) (offset : Nat) : Location :=
  inLines 1 offset (lines text.toList)

/-- The number of lines of a text. -/
def lineCount (text : String) : Nat :=
  (lines text.toList).length

@[simp] theorem byteSize_nil : byteSize [] = 0 := rfl

@[simp] theorem byteSize_cons (c : Char) (cs : List Char) :
    byteSize (c :: cs) = c.utf8Size + byteSize cs := rfl

@[simp] theorem byteSize_append (cs ds : List Char) :
    byteSize (cs ++ ds) = byteSize cs + byteSize ds := by
  induction cs with
  | nil => rw [List.nil_append, byteSize_nil, Nat.zero_add]
  | cons c cs ih => rw [List.cons_append, byteSize_cons, byteSize_cons, ih, Nat.add_assoc]

/-- The bytes of a text are those of its characters. -/
theorem byteSize_toList (s : String) : byteSize s.toList = s.utf8ByteSize := by
  suffices h : ∀ cs : List Char, byteSize cs = (String.ofList cs).utf8ByteSize by
    rw [h, String.ofList_toList]
  intro cs
  induction cs with
  | nil => simp
  | cons c cs ih =>
    have h : String.ofList (c :: cs) = String.singleton c ++ String.ofList cs := by
      rw [String.singleton_eq_ofList, ← String.ofList_append]
      rfl
    rw [byteSize_cons, ih, h, String.utf8ByteSize_append, String.utf8ByteSize_singleton]

theorem lines_ne_nil (cs : List Char) : lines cs ≠ [] := by
  cases cs with
  | nil => simp [lines]
  | cons c cs =>
    simp only [lines]
    split
    · simp
    · split <;> simp

/-- Cutting into lines loses nothing. -/
theorem flatten_lines (cs : List Char) : (lines cs).flatten = cs := by
  induction cs with
  | nil => simp [lines]
  | cons c cs ih =>
    simp only [lines]
    split
    · simp [ih]
    · cases h : lines cs with
      | nil => exact absurd h (lines_ne_nil cs)
      | cons line rest => simp_all

end Location

end DeclOutline
