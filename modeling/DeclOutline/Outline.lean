import DeclOutline.ParameterList.Basic

/-!
# Outlines

A declaration is cut before every token that starts a section and after every token that ends
one. The tags need not come in pairs, and without them there is one section. Pieces of blanks alone
are dropped, the others are trimmed. A piece with a token that opens a parameter list is a section
with parameters.

The main section is the first one with a name, else the first one with parameters, else the first.
A declaration without content has one section that spans whatever there is.
-/

namespace DeclOutline

/-- A section of a declaration. -/
inductive Section where
  /-- A section without a parameter list. -/
  | plain (extent : Extent) (hasName : Bool)
  /-- A section with a parameter list. -/
  | parameterized (list : ParameterList)
deriving DecidableEq

namespace Section

/-- Where the section lies. -/
def extent : Section → Extent
  | plain extent _ => extent
  | parameterized list => list.extent

/-- Whether the section has a name. -/
def hasName : Section → Bool
  | plain _ hasName => hasName
  | parameterized list => list.hasName

/-- The parameter list of the section. -/
def list? : Section → Option ParameterList
  | plain .. => none
  | parameterized list => some list

/-- Whether the section has a parameter list. -/
def hasList (s : Section) : Bool :=
  s.list?.isSome

end Section

/-- Consecutive tokens, the first of them at an index. -/
structure Piece where
  start : Nat
  tokens : List Token
deriving DecidableEq

namespace Piece

/-- Where the piece lies. -/
def extent (p : Piece) : Extent :=
  ⟨p.start, p.start + p.tokens.length⟩

/-- Whether a token of the piece has a role. -/
def hasRole (p : Piece) (r : Role) : Bool :=
  p.tokens.any (·.hasRole r)

/-- Whether the piece holds blanks alone. -/
def isBlank (p : Piece) : Bool :=
  p.tokens.all Token.isBlank

/-- Whether two neighbouring tokens belong to one piece. -/
def holdsTogether (left right : Token) : Bool :=
  !(left.hasRole .sectionEnd || right.hasRole .sectionStart)

/-- Consecutive groups of tokens as pieces, the first of them at an index. -/
def place (start : Nat) : List (List Token) → List Piece
  | [] => []
  | group :: rest => ⟨start, group⟩ :: place (start + group.length) rest

/-- The pieces of a text. -/
def all (t : TaggedText) : List Piece :=
  place 0 (t.tokens.toList.splitBy holdsTogether)

/-- The pieces of a text that have content. -/
def kept (t : TaggedText) : List Piece :=
  (all t).filter fun p => !p.isBlank

/-- The section that a piece makes. -/
def toSection (t : TaggedText) (impliesTypes : Bool) (p : Piece) : Section :=
  let extent := t.trim p.extent
  let hasName := p.hasRole .name
  if p.hasRole .listOpen then .parameterized (.analyze t extent hasName impliesTypes)
  else .plain extent hasName

/-- The position of the main piece. -/
def mainIndex (pieces : List Piece) : Nat :=
  ((pieces.findIdx? (·.hasRole .name)).or (pieces.findIdx? (·.hasRole .listOpen))).getD 0

theorem mainIndex_lt {pieces : List Piece} (h : pieces ≠ []) :
    mainIndex pieces < pieces.length := by
  have hlt {p : Piece → Bool} {i : Nat} (hi : pieces.findIdx? p = some i) : i < pieces.length :=
    (List.findIdx?_eq_some_iff_getElem.mp hi).1
  unfold mainIndex
  cases hn : pieces.findIdx? (·.hasRole .name) with
  | some i => simpa using hlt hn
  | none =>
    cases hp : pieces.findIdx? (·.hasRole .listOpen) with
    | some i => simpa using hlt hp
    | none => simpa using List.length_pos_iff.mpr h

end Piece

/-- The sections of a declaration, one of them the main one. -/
structure Outline where
  sections : List Section
  main : Nat
  main_lt : main < sections.length

namespace Outline

/-- The section at the main position. -/
def mainSection (o : Outline) : Section :=
  o.sections.get ⟨o.main, o.main_lt⟩

/-- The outline of a text without content. -/
def blank (t : TaggedText) : Outline :=
  ⟨[.plain t.full false], 0, Nat.one_pos⟩

/-- The outline of a tagged text. -/
def ofText (t : TaggedText) (impliesTypes : Bool) : Outline :=
  if h : Piece.kept t = [] then blank t
  else
    ⟨(Piece.kept t).map (Piece.toSection t impliesTypes), Piece.mainIndex (Piece.kept t),
      by simpa using Piece.mainIndex_lt h⟩

end Outline

end DeclOutline
