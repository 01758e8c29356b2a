import DeclOutline.TaggedText.Builder
import DeclOutline.Text.Numeral

/-!
# Sample declarations

A few tagged declarations to try things on.
-/

namespace DeclOutline

namespace Sample

/-- `void Foo(int x, int y = 5)`. -/
def twoParameters : TaggedText :=
  TaggedText.mk #[]
    |>.typeName "void" |>.space |>.name "Foo" |>.openList
    |>.typeName "int" |>.space |>.name "x" |>.separator |>.space
    |>.typeName "int" |>.space |>.name "y" |>.space
    |>.tagged "=" .defaultMark |>.space |>.tagged "5" .defaultValue
    |>.closeList

/-- A line `[Obsolete]`, then `public void Foo(int x)` in a section of its own. -/
def attributeAndSignature : TaggedText :=
  TaggedText.mk #[]
    |>.raw "[Obsolete]" |>.sectionBreak
    |>.modifier "public" |>.space |>.typeName "void" |>.space |>.name "Foo" |>.openList
    |>.typeName "int" |>.space |>.name "x"
    |>.closeList

/-- `void Foo(int x, y)`. -/
def impliedPair : TaggedText :=
  TaggedText.mk #[]
    |>.typeName "void" |>.space |>.name "Foo" |>.openList
    |>.typeName "int" |>.space |>.name "x" |>.separator |>.space |>.name "y"
    |>.closeList

/-- Appends parameter `i` of the wide declaration: a plain one, a generic one and an array with a
default value take turns. -/
def wideParameter (t : TaggedText) (i : Nat) : TaggedText :=
  let t := if 0 < i then t.separator.lineBreak.raw "    " else t
  let name := "arg" ++ Text.decimal i
  match i % 3 with
  | 0 => t.typeName "int" |>.space |>.name name
  | 1 =>
    t.typeName "Map" |>.tagged "<" .typeGroupOpen
      |>.typeName "string" |>.separator |>.space |>.typeName "int"
      |>.tagged ">" .typeGroupClose |>.space |>.name name
  | _ =>
    t.modifier "const" |>.space |>.typeName "char" |>.space |>.name name
      |>.tagged "[" .typeGroupOpen |>.tagged "]" .typeGroupClose
      |>.space |>.tagged "=" .defaultMark |>.space |>.tagged "null" .defaultValue

/-- `public static void Configure(...)` with a number of parameters, one a line. -/
def wide (count : Nat) : TaggedText :=
  let opened := TaggedText.mk #[]
    |>.modifier "public" |>.space |>.modifier "static" |>.space
    |>.typeName "void" |>.space |>.name "Configure" |>.openList
  ((List.range count).foldl wideParameter opened).closeList

end Sample

end DeclOutline
