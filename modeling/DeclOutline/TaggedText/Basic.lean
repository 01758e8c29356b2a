import DeclOutline.ByteSpan
import DeclOutline.Extent
import DeclOutline.Lexeme
import DeclOutline.Location
import DeclOutline.Role

/-!
# Tagged text

The text of a declaration, cut into tokens that carry tags. A token holds its own piece of the
text, and the whole text is what the tokens read in order, so tokens always tile their text: the
byte offsets of a token are sums over the tokens before it and cannot disagree with them.

Every query is total. An index without a token has no tag, is not blank, and reads as the empty
text.
-/

namespace DeclOutline

/-- A piece of text with its kind and its tags. -/
structure Token where
  kind : TokenKind
  text : String
  role : Option Role := none
  classRole : Option ClassRole := none
  highlight : Option Highlight := none
  comment : Option CommentMark := none
deriving DecidableEq

namespace Token

/-- An untagged token. -/
def ofLexeme (l : Lexeme) : Token :=
  { kind := l.kind, text := String.ofList l.chars }

/-- Whether the token only separates others. -/
def isBlank (t : Token) : Bool :=
  t.kind.isBlank

/-- Whether the token has a role. -/
def hasRole (t : Token) (r : Role) : Bool :=
  t.role == some r

end Token

/-- A text cut into tokens. -/
structure TaggedText where
  tokens : Array Token := #[]
deriving DecidableEq

namespace TaggedText

/-- The number of tokens. -/
def length (t : TaggedText) : Nat :=
  t.tokens.size

/-- Whether there are no tokens. -/
def isEmpty (t : TaggedText) : Bool :=
  t.tokens.isEmpty

/-- The text that all tokens read in order. -/
def text (t : TaggedText) : String :=
  String.join (t.tokens.toList.map Token.text)

/-- The extent of all tokens. -/
def full (t : TaggedText) : Extent :=
  ⟨0, t.length⟩

/-- The token at an index. -/
def token? (t : TaggedText) (i : Nat) : Option Token :=
  t.tokens[i]?

/-- The text of the token at an index. -/
def tokenText (t : TaggedText) (i : Nat) : String :=
  match t.token? i with
  | some token => token.text
  | none => ""

/-- The kind of the token at an index. -/
def kind? (t : TaggedText) (i : Nat) : Option TokenKind :=
  (t.token? i).map Token.kind

/-- The role of the token at an index. -/
def role? (t : TaggedText) (i : Nat) : Option Role :=
  (t.token? i).bind Token.role

/-- Whether the token at an index has a role. -/
def hasRole (t : TaggedText) (i : Nat) (r : Role) : Bool :=
  t.role? i == some r

/-- Whether there is a token at an index that only separates others. -/
def isBlankAt (t : TaggedText) (i : Nat) : Bool :=
  (t.token? i).any Token.isBlank

/-- The tokens of an extent that exist. -/
def slice (t : TaggedText) (e : Extent) : List Token :=
  (Extent.mk e.start (min e.stop t.length)).indices.filterMap t.token?

/-- The text of an extent. An empty extent, and one that reaches past the last token, has none. -/
def extentText (t : TaggedText) (e : Extent) : String :=
  if e.isEmpty || t.length < e.stop then "" else String.join (e.indices.map t.tokenText)

/-- The first index from `start` on whose token has a text. -/
def find? (t : TaggedText) (start : Nat) (text : String) : Option Nat :=
  (Extent.mk start t.length).indices.find? fun i => t.tokenText i == text

/-! ### Places in the text -/

/-- The spans of tokens that begin at a byte offset. -/
def spansFrom (offset : Nat) : List Token → List ByteSpan
  | [] => []
  | t :: ts =>
    .ofBounds offset (offset + t.text.utf8ByteSize) :: spansFrom (offset + t.text.utf8ByteSize) ts

/-- The span of every token. -/
def spans (t : TaggedText) : List ByteSpan :=
  spansFrom 0 t.tokens.toList

/-- Where the token at an index begins, as a line and a column. -/
def location? (t : TaggedText) (i : Nat) : Option Location :=
  t.spans[i]?.map fun span => Location.ofOffset t.text span.start.toNat

/-- Where every token begins. The text is cut into lines only once. -/
def locations (t : TaggedText) : List Location :=
  let lines := Location.lines t.text.toList
  t.spans.map fun span => Location.inLines 1 span.start.toNat lines

/-! ### Trimming -/

/-- An extent without the blank tokens at either end. The stop is first brought down to the
number of tokens; bounds that are then in the wrong order stay as they are, and an extent of
blanks collapses to its start. -/
def trim (t : TaggedText) (e : Extent) : Extent :=
  let stop := min e.stop t.length
  let solid := (Extent.mk e.start stop).indices.filter fun i => !t.isBlankAt i
  match solid.head?, solid.getLast? with
  | some first, some last => ⟨first, last + 1⟩
  | _, _ => if e.start ≤ stop then .collapsed e.start else ⟨e.start, stop⟩

end TaggedText

end DeclOutline
