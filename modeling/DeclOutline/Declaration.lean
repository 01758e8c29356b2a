import DeclOutline.Access.KeywordTable
import DeclOutline.Outline
import DeclOutline.ParameterList.Queries
import DeclOutline.TaggedText.Edit

/-!
# Declarations

A declaration is a tagged text with its outline. Questions about parameters are questions about
the main section.

The outline is made with the declaration and again by `reoutline`. Changing the text in between
does not change it: its extents are then read on the new text as they stand.
-/

namespace DeclOutline

/-- A tagged text, its outline, and what its language says about it. -/
structure Declaration where
  text : TaggedText
  outline : Outline
  /-- Whether a parameter without a type can have the type of an earlier one. -/
  impliesTypes : Bool
  /-- The keywords that state an access level. -/
  keywords : KeywordTable

namespace Declaration

/-- A position that is not that of a section. -/
structure MainOutOfRange where
  index : Nat
  count : Nat
deriving DecidableEq

/-- The wording of a position out of range. -/
def MainOutOfRange.message (e : MainOutOfRange) : String :=
  "main section index " ++ Text.decimal e.index ++ " is out of range for " ++
    Text.decimal e.count ++ " section(s)"

/-- The declaration of a tagged text. -/
def ofText (text : TaggedText) (impliesTypes : Bool := true)
    (keywords : KeywordTable := .standard) : Declaration :=
  { text, outline := .ofText text impliesTypes, impliesTypes, keywords }

/-- The declaration with its outline made anew. -/
def reoutline (d : Declaration) : Declaration :=
  { d with outline := .ofText d.text d.impliesTypes }

/-- The declaration with another text under the same outline. -/
def withText (d : Declaration) (text : TaggedText) : Declaration :=
  { d with text }

/-- The declaration with another main section. -/
def selectMain (d : Declaration) (index : Nat) : Except MainOutOfRange Declaration :=
  if h : index < d.outline.sections.length then
    .ok { d with outline := ⟨d.outline.sections, index, h⟩ }
  else .error ⟨index, d.outline.sections.length⟩

/-- The main section. -/
def mainSection (d : Declaration) : Section :=
  d.outline.mainSection

/-- The parameter list of the main section. -/
def mainList? (d : Declaration) : Option ParameterList :=
  d.mainSection.list?

/-- The extent that stands for something that was not found. -/
def notFound (d : Declaration) : Extent :=
  .collapsed d.text.length

/-- The number of parameters. -/
def parameterCount (d : Declaration) : Nat :=
  match d.mainList? with
  | some list => list.count
  | none => 0

/-- The order in which parameters are written. -/
def style (d : Declaration) : ParameterStyle :=
  match d.mainList? with
  | some list => list.style
  | none => .typeFirst

/-- Where modifiers state an access level: the main section up to its parameter list. -/
def accessExtent (d : Declaration) : Extent :=
  match d.mainSection with
  | .plain extent _ => extent
  | .parameterized list => ⟨list.extent.start, list.opening⟩

/-- The access level by a keyword table. -/
def accessLevelBy (d : Declaration) (keywords : KeywordTable) : AccessLevel :=
  keywords.resolve d.text d.accessExtent

/-- The access level. -/
def accessLevel (d : Declaration) : AccessLevel :=
  d.accessLevelBy d.keywords

/-- The main section through the token that opens its parameter list. -/
def beforeParameters (d : Declaration) : Extent :=
  match d.mainSection with
  | .plain extent _ => extent
  | .parameterized list => list.before

/-- The main section from the token that closes its parameter list. -/
def afterParameters? (d : Declaration) : Option Extent :=
  d.mainList?.bind (·.after?)

/-- The extent of a parameter. -/
def parameter? (d : Declaration) (index : Nat) : Option Extent :=
  d.mainList?.bind (·.parameter? index)

/-- The name of a parameter. -/
def name? (d : Declaration) (index : Nat) : Option Extent :=
  d.mainList?.bind (·.name? d.text index)

/-- The type of a parameter without what modifies it. -/
def baseType? (d : Declaration) (index : Nat) (implied : Bool) : Option Extent :=
  d.mainList?.bind (·.baseType? d.text index implied)

/-- The type of a parameter with everything that modifies it. -/
def fullType? (d : Declaration) (index : Nat) (implied : Bool) : Option Excerpt :=
  d.mainList?.bind (·.fullType? d.text index implied)

/-- Whether a parameter has the type of another one. -/
def typeIsImplied (d : Declaration) (index : Nat) (implied : Bool) : Bool :=
  d.mainList?.any (·.typeIsImplied d.text index implied)

/-- The default value of a parameter. -/
def default? (d : Declaration) (index : Nat) : Option Extent :=
  d.mainList?.bind (·.default? d.text index)

/-- The value of a property. -/
def property? (d : Declaration) (index : Nat) : Option Extent :=
  d.mainList?.bind (·.property? d.text index)

end Declaration

end DeclOutline
