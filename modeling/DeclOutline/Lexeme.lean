/-!
# Lexemes

A text is cut into lexemes of four kinds: line breaks (CR LF, CR or LF), runs of spaces and tabs,
runs of letters, digits and characters outside ASCII, and single symbols. Runs are as long as
they can be, and a CR takes an LF that follows it.

The cutting is a fold from the right: a character either joins the lexeme that follows it or
starts one of its own.
-/

namespace DeclOutline

/-- The kind of a token, read off its characters. -/
inductive TokenKind where
  | lineBreak
  | whitespace
  | text
  | symbol
deriving DecidableEq

namespace TokenKind

/-- Every kind of token. -/
def all : List TokenKind :=
  [lineBreak, whitespace, text, symbol]

/-- The name under which a kind is written. -/
def label : TokenKind → String
  | lineBreak => "LineBreak"
  | whitespace => "Whitespace"
  | text => "Text"
  | symbol => "Symbol"

/-- The kind with a label. -/
def ofLabel? (label : String) : Option TokenKind :=
  all.find? (·.label == label)

/-- Whether tokens of this kind only separate others. -/
def isBlank : TokenKind → Bool
  | lineBreak | whitespace => true
  | text | symbol => false

/-- The kind of the lexeme that a character belongs to. -/
def ofChar (c : Char) : TokenKind :=
  if c == '\r' || c == '\n' then lineBreak
  else if c == ' ' || c == '\t' then whitespace
  else if c.isAlphanum || 0x80 ≤ c.toNat then text
  else symbol

end TokenKind

/-- A piece of text of one kind. -/
structure Lexeme where
  kind : TokenKind
  chars : List Char
deriving DecidableEq

namespace Lexeme

/-- The lexeme of one character. -/
def single (c : Char) : Lexeme :=
  ⟨.ofChar c, [c]⟩

/-- Whether a character joins the lexeme that follows it. -/
def joins (c : Char) (next : Lexeme) : Bool :=
  match TokenKind.ofChar c with
  | .text => next.kind == .text
  | .whitespace => next.kind == .whitespace
  | .lineBreak => c == '\r' && next.chars == ['\n']
  | .symbol => false

/-- Puts a character in front of lexemes. -/
def attach (c : Char) : List Lexeme → List Lexeme
  | [] => [single c]
  | next :: rest =>
    if joins c next then ⟨next.kind, c :: next.chars⟩ :: rest else single c :: next :: rest

end Lexeme

/-- The lexemes of a text. -/
def lexemes (cs : List Char) : List Lexeme :=
  cs.foldr Lexeme.attach []

@[simp] theorem lexemes_nil : lexemes [] = [] := rfl

@[simp] theorem lexemes_cons (c : Char) (cs : List Char) :
    lexemes (c :: cs) = Lexeme.attach c (lexemes cs) := rfl

theorem Lexeme.flatMap_chars_attach (c : Char) (ls : List Lexeme) :
    (attach c ls).flatMap chars = c :: ls.flatMap chars := by
  cases ls with
  | nil => simp [attach, single]
  | cons next rest =>
    simp only [attach]
    split <;> simp [single]

/-- Cutting into lexemes loses nothing. -/
theorem flatMap_chars_lexemes (cs : List Char) : (lexemes cs).flatMap Lexeme.chars = cs := by
  induction cs with
  | nil => rfl
  | cons c cs ih => rw [lexemes_cons, Lexeme.flatMap_chars_attach, ih]

end DeclOutline
