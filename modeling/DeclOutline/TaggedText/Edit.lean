import DeclOutline.TaggedText.Basic

/-!
# Building and tagging text

A tagged text is made by cutting a whole text into tokens, by appending pieces one at a time, or
from pieces that take kind and tags from tokens of another text. Tags are set on one token or on
an extent. Setting the role of an extent passes over blank tokens, so that a front end may tag a
phrase in one go; setting it on one index does not. What lies past the last token is ignored.
-/

namespace DeclOutline

namespace TaggedText

/-- The tokens of a text, untagged. -/
def tokensOf (text : String) : List Token :=
  (lexemes text.toList).map Token.ofLexeme

/-- A text cut into untagged tokens. -/
def tokenize (text : String) : TaggedText :=
  ⟨(tokensOf text).toArray⟩

/-- A text made of pieces. Each piece has the kind and the tags of the token beside it. -/
def ofPieces (pieces : List (String × Token)) : TaggedText :=
  ⟨(pieces.map fun (text, source) => { source with text }).toArray⟩

/-- A token with a role, unless it is blank. -/
def mark (role : Option Role) (token : Token) : Token :=
  if token.isBlank then token else { token with role }

/-- Appends a text, cut on its own, with a role on its tokens. -/
def push (t : TaggedText) (text : String) (role : Option Role) : TaggedText :=
  ⟨t.tokens ++ ((tokensOf text).map (mark role)).toArray⟩

/-- The extent of what was appended to `before` to give `after`. -/
def appended (before after : TaggedText) : Extent :=
  ⟨before.length, after.length⟩

/-- Sets the role of one token. -/
def setRole (t : TaggedText) (i : Nat) (role : Option Role) : TaggedText :=
  ⟨t.tokens.modify i fun token => { token with role }⟩

/-- Sets the role of the tokens of an extent that are not blank. -/
def setRoles (t : TaggedText) (e : Extent) (role : Option Role) : TaggedText :=
  ⟨t.tokens.mapIdx fun i token => if e.contains i then mark role token else token⟩

/-- Sets the class role of one token. -/
def setClassRole (t : TaggedText) (i : Nat) (classRole : Option ClassRole) : TaggedText :=
  ⟨t.tokens.modify i fun token => { token with classRole }⟩

/-- Sets the highlight of one token. -/
def setHighlight (t : TaggedText) (i : Nat) (highlight : Option Highlight) : TaggedText :=
  ⟨t.tokens.modify i fun token => { token with highlight }⟩

/-- Sets the comment mark of one token. -/
def setComment (t : TaggedText) (i : Nat) (comment : Option CommentMark) : TaggedText :=
  ⟨t.tokens.modify i fun token => { token with comment }⟩

/-! ### What the operations do to the text -/

theorem text_tokenize (text : String) : (tokenize text).text = text := by
  apply String.toList_inj.mp
  simp [tokenize, TaggedText.text, tokensOf, List.map_map, Function.comp_def, Token.ofLexeme,
    String.toList_join, List.flatMap_map, flatMap_chars_lexemes]

theorem text_mark (role : Option Role) (token : Token) : (mark role token).text = token.text := by
  unfold mark
  split <;> rfl

theorem text_push (t : TaggedText) (text : String) (role : Option Role) :
    (t.push text role).text = t.text ++ text := by
  have h : String.join ((tokensOf text).map Token.text) = text := by
    simpa [tokenize, TaggedText.text] using text_tokenize text
  apply String.toList_inj.mp
  simp [push, TaggedText.text, Function.comp_def, text_mark, String.toList_join, h]

theorem length_push (t : TaggedText) (text : String) (role : Option Role) :
    (t.push text role).length = t.length + (tokensOf text).length := by
  simp [push, TaggedText.length]

@[simp] theorem length_setRole (t : TaggedText) (i : Nat) (role : Option Role) :
    (t.setRole i role).length = t.length := by
  simp [setRole, TaggedText.length]

@[simp] theorem length_setRoles (t : TaggedText) (e : Extent) (role : Option Role) :
    (t.setRoles e role).length = t.length := by
  simp [setRoles, TaggedText.length]

end TaggedText

end DeclOutline
