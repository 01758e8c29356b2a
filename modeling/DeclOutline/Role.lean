/-!
# Tags

A language front end marks tokens with tags from four taxonomies, and a token has at most one tag
of each. Only the first one, the role a token plays in a declaration, is read by this library;
the other three travel with the token.

Every tag has a label, the name under which it is written.
-/

namespace DeclOutline

/-- The role of a token in a declaration. -/
inductive Role where
  /-- The first token of a section. -/
  | sectionStart
  /-- The last token of a section. -/
  | sectionEnd
  /-- Opens a parameter list. -/
  | listOpen
  /-- Closes a parameter list. -/
  | listClose
  /-- Stands between two parameters. -/
  | separator
  /-- A type's own name. -/
  | typeName
  /-- A word or symbol that modifies a type. -/
  | typeModifier
  /-- What qualifies a type's name, such as a name space. -/
  | typeQualifier
  /-- Opens a group that modifies a type. -/
  | typeGroupOpen
  /-- Closes a group that modifies a type. -/
  | typeGroupClose
  /-- Stands between a parameter's name and its type. -/
  | nameTypeSeparator
  /-- The name of the declaration or of a parameter. -/
  | name
  /-- A word or symbol that modifies a parameter. -/
  | paramModifier
  /-- Opens a group that modifies a parameter. -/
  | paramGroupOpen
  /-- Closes a group that modifies a parameter. -/
  | paramGroupClose
  /-- Stands before a default value. -/
  | defaultMark
  /-- A part of a default value. -/
  | defaultValue
  /-- Stands before the value of a property. -/
  | propertyMark
  /-- A part of the value of a property. -/
  | propertyValue
deriving DecidableEq

namespace Role

/-- Every role, in the order of the taxonomy. -/
def all : List Role :=
  [sectionStart, sectionEnd, listOpen, listClose, separator, typeName, typeModifier,
   typeQualifier, typeGroupOpen, typeGroupClose, nameTypeSeparator, name, paramModifier,
   paramGroupOpen, paramGroupClose, defaultMark, defaultValue, propertyMark, propertyValue]

/-- The name under which a role is written. -/
def label : Role → String
  | sectionStart => "StartOfPrototypeSection"
  | sectionEnd => "EndOfPrototypeSection"
  | listOpen => "StartOfParams"
  | listClose => "EndOfParams"
  | separator => "ParamSeparator"
  | typeName => "Type"
  | typeModifier => "TypeModifier"
  | typeQualifier => "TypeQualifier"
  | typeGroupOpen => "OpeningTypeModifier"
  | typeGroupClose => "ClosingTypeModifier"
  | nameTypeSeparator => "NameTypeSeparator"
  | name => "Name"
  | paramModifier => "ParamModifier"
  | paramGroupOpen => "OpeningParamModifier"
  | paramGroupClose => "ClosingParamModifier"
  | defaultMark => "DefaultValueSeparator"
  | defaultValue => "DefaultValue"
  | propertyMark => "PropertyValueSeparator"
  | propertyValue => "PropertyValue"

/-- The role with a label. -/
def ofLabel? (label : String) : Option Role :=
  all.find? (·.label == label)

/-- Whether a token of this role can be a part of a type. -/
def isTypePart : Role → Bool
  | typeName | typeModifier | typeQualifier | typeGroupOpen | typeGroupClose => true
  | _ => false

/-- Whether a token of this role opens a group. -/
def opens : Role → Bool
  | listOpen | typeGroupOpen | paramGroupOpen => true
  | _ => false

/-- Whether a token of this role closes a group. -/
def closes : Role → Bool
  | listClose | typeGroupClose | paramGroupClose => true
  | _ => false

/-- Whether a token of this role opens or closes a group that modifies a parameter. -/
def bracketsParamGroup : Role → Bool
  | paramGroupOpen | paramGroupClose => true
  | _ => false

/-- Whether a token of this role is a modifier that stands alone. -/
def isModifier : Role → Bool
  | typeModifier | paramModifier => true
  | _ => false

end Role

/-- The role of a token in the declaration of a class. -/
inductive ClassRole where
  | leadingLineStart
  | leadingLine
  | parentsOpen
  | parentSeparator
  | parentsClose
  | modifier
  | keyword
  | name
  | templateSuffix
  | trailingLineStart
  | trailingLine
  | bodyStart
deriving DecidableEq

namespace ClassRole

/-- Every class role, in the order of the taxonomy. -/
def all : List ClassRole :=
  [leadingLineStart, leadingLine, parentsOpen, parentSeparator, parentsClose, modifier, keyword,
   name, templateSuffix, trailingLineStart, trailingLine, bodyStart]

/-- The name under which a class role is written. -/
def label : ClassRole → String
  | leadingLineStart => "StartOfPrePrototypeLine"
  | leadingLine => "PrePrototypeLine"
  | parentsOpen => "StartOfParents"
  | parentSeparator => "ParentSeparator"
  | parentsClose => "EndOfParents"
  | modifier => "Modifier"
  | keyword => "Keyword"
  | name => "Name"
  | templateSuffix => "TemplateSuffix"
  | trailingLineStart => "StartOfPostPrototypeLine"
  | trailingLine => "PostPrototypeLine"
  | bodyStart => "StartOfBody"

/-- The class role with a label. -/
def ofLabel? (label : String) : Option ClassRole :=
  all.find? (·.label == label)

end ClassRole

/-- How a token is shown. -/
inductive Highlight where
  | keyword
  | number
  | string
  | comment
  | preprocessingDirective
  | metadata
deriving DecidableEq

namespace Highlight

/-- Every highlight, in the order of the taxonomy. -/
def all : List Highlight :=
  [keyword, number, string, comment, preprocessingDirective, metadata]

/-- The name under which a highlight is written. -/
def label : Highlight → String
  | keyword => "Keyword"
  | number => "Number"
  | string => "String"
  | comment => "Comment"
  | preprocessingDirective => "PreprocessingDirective"
  | metadata => "Metadata"

/-- The highlight with a label. -/
def ofLabel? (label : String) : Option Highlight :=
  all.find? (·.label == label)

end Highlight

/-- What a token is inside a comment. -/
inductive CommentMark where
  | symbol
  | decoration
  | possibleOpening
  | possibleClosing
  | opening
  | closing
  | url
  | email
deriving DecidableEq

namespace CommentMark

/-- Every comment mark, in the order of the taxonomy. -/
def all : List CommentMark :=
  [symbol, decoration, possibleOpening, possibleClosing, opening, closing, url, email]

/-- The name under which a comment mark is written. -/
def label : CommentMark → String
  | symbol => "CommentSymbol"
  | decoration => "CommentDecoration"
  | possibleOpening => "PossibleOpeningTag"
  | possibleClosing => "PossibleClosingTag"
  | opening => "OpeningTag"
  | closing => "ClosingTag"
  | url => "Url"
  | email => "Email"

/-- The comment mark with a label. -/
def ofLabel? (label : String) : Option CommentMark :=
  all.find? (·.label == label)

end CommentMark

end DeclOutline
