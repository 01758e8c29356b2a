import DeclOutline.Declaration
import DeclOutline.Text.Quoted

/-!
# Expectations

Checks a parameter against what is expected of it and says what is wrong first: its name, then its
base type, then its full type, implied types included.
-/

namespace DeclOutline

/-- What is expected of a parameter. -/
structure Expectation where
  name : String
  baseType : String
  fullType : String
deriving DecidableEq

namespace Expectation

/-- What a check looks at. -/
inductive Aspect where
  | name
  | baseType
  | fullType
deriving DecidableEq

/-- An aspect in words. -/
def Aspect.words : Aspect → String
  | name => "name"
  | baseType => "base type"
  | fullType => "full type"

/-- How a parameter fails an expectation. -/
inductive Failure where
  | missing (index : Nat) (aspect : Aspect)
  | different (index : Nat) (aspect : Aspect) (expected actual : String)
deriving DecidableEq

/-- The wording of a failure. -/
def Failure.message : Failure → String
  | missing index aspect => "parameter " ++ Text.decimal index ++ " has no " ++ aspect.words
  | different index aspect expected actual =>
    "parameter " ++ Text.decimal index ++ ": expected " ++ aspect.words ++ " " ++
      Text.quoted expected ++ ", got " ++ Text.quoted actual

/-- Checks one aspect. -/
def checkAspect (index : Nat) (aspect : Aspect) (expected : String) :
    Option String → Except Failure Unit
  | none => .error (.missing index aspect)
  | some actual =>
    if actual = expected then .ok () else .error (.different index aspect expected actual)

/-- Checks a parameter of a declaration. -/
def check (x : Expectation) (d : Declaration) (index : Nat) : Except Failure Unit := do
  checkAspect index .name x.name ((d.name? index).map d.text.extentText)
  checkAspect index .baseType x.baseType ((d.baseType? index true).map d.text.extentText)
  checkAspect index .fullType x.fullType ((d.fullType? index true).map Excerpt.text)

end Expectation

end DeclOutline
