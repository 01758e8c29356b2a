import DeclOutline.TaggedText.Edit

/-!
# Building a text piece by piece

Short names for appending the pieces that declarations are usually made of, so that a text can be
written down with its roles beside it.
-/

namespace DeclOutline

namespace TaggedText

variable (t : TaggedText)

/-- Appends a piece with a role. -/
def tagged (text : String) (role : Role) : TaggedText :=
  t.push text (some role)

/-- Appends a piece without a role. -/
def raw (text : String) : TaggedText :=
  t.push text none

/-- Appends a space. -/
def space : TaggedText :=
  t.raw " "

/-- Appends a line break. -/
def lineBreak : TaggedText :=
  t.raw "\n"

/-- Appends a type's name. -/
def typeName (text : String) : TaggedText :=
  t.tagged text .typeName

/-- Appends a name. -/
def name (text : String) : TaggedText :=
  t.tagged text .name

/-- Appends a modifier. -/
def modifier (text : String) : TaggedText :=
  t.tagged text .typeModifier

/-- Opens a parameter list. -/
def openList : TaggedText :=
  t.tagged "(" .listOpen

/-- Closes a parameter list. -/
def closeList : TaggedText :=
  t.tagged ")" .listClose

/-- Appends a separator. -/
def separator : TaggedText :=
  t.tagged "," .separator

/-- Appends a line break that starts a section. -/
def sectionBreak : TaggedText :=
  t.lineBreak.setRole t.length (some .sectionStart)

end TaggedText

end DeclOutline
