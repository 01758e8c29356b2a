import DeclOutline.Declaration

/-!
# Summaries

A summary says in plain texts what a declaration's outline says in extents. It is what is handed
to a renderer, and it does not refer to the tagged text any more.

A text is only taken from inside its parent: what a parameter says from inside the parameter, an
implied type and the parts around the list from inside the main section.
-/

namespace DeclOutline

/-- A section in plain text. -/
structure SectionSummary where
  text : String
  extent : Extent
  hasName : Bool
  hasList : Bool
deriving DecidableEq

/-- A parameter in plain text. -/
structure ParameterSummary where
  text : String := ""
  name : Option String := none
  baseType : Option String := none
  fullType : Option String := none
  typeIsImplied : Bool := false
  default : Option String := none
  property : Option String := none
deriving DecidableEq

/-- A declaration in plain text. -/
structure Summary where
  text : String
  sections : List SectionSummary
  main : Nat
  style : ParameterStyle
  access : AccessLevel
  beforeParameters : Option String
  parameters : List ParameterSummary
  afterParameters : Option String
deriving DecidableEq

/-- The text of an extent inside a parent. -/
def TaggedText.textWithin? (t : TaggedText) (parent : Extent) (e : Option Extent) : Option String :=
  (e.filter parent.encloses).map t.extentText

/-- A section in plain text. -/
def SectionSummary.ofSection (t : TaggedText) (s : Section) : SectionSummary :=
  { text := t.extentText s.extent, extent := s.extent, hasName := s.hasName, hasList := s.hasList }

namespace ParameterSummary

/-- A parameter in plain text, unless it lies outside of the main section. -/
def ofDeclaration? (d : Declaration) (index : Nat) : Option ParameterSummary :=
  let main := d.mainSection.extent
  ((d.parameter? index).filter main.encloses).map fun own =>
    let implied := d.typeIsImplied index true
    { text := d.text.extentText own
      name := d.text.textWithin? own (d.name? index)
      baseType := d.text.textWithin? (if implied then main else own) (d.baseType? index true)
      fullType := (d.fullType? index true).map Excerpt.text
      typeIsImplied := implied
      default := d.text.textWithin? own (d.default? index)
      property := d.text.textWithin? own (d.property? index) }

/-- A parameter as it is shown to readers, in a style. -/
def display (p : ParameterSummary) (style : ParameterStyle) : String :=
  match p.name, p.fullType, style with
  | some name, some type, .nameFirst => name ++ ": " ++ type
  | some name, some type, .typeFirst => type ++ " " ++ name
  | some name, none, _ => name
  | none, some type, _ => type
  | none, none, _ => p.text

end ParameterSummary

namespace Summary

/-- The summary of a declaration. -/
def ofDeclaration (d : Declaration) : Summary :=
  let main := d.mainSection.extent
  { text := d.text.extentText (d.text.trim d.text.full)
    sections := d.outline.sections.map (SectionSummary.ofSection d.text)
    main := d.outline.main
    style := d.style
    access := d.accessLevel
    beforeParameters := d.text.textWithin? main (some d.beforeParameters)
    parameters := (List.range d.parameterCount).filterMap (ParameterSummary.ofDeclaration? d)
    afterParameters := d.text.textWithin? main d.afterParameters? }

/-- The first parameter with a name. -/
def parameter? (s : Summary) (name : String) : Option ParameterSummary :=
  s.parameters.find? fun p => p.name == some name

/-- Whether a parameter has a default value. -/
def hasDefaults (s : Summary) : Bool :=
  s.parameters.any fun p => p.default.isSome

end Summary

end DeclOutline
