import DeclOutline.Excerpt
import DeclOutline.ParameterList.Basic

/-!
# Full types

The full type of a parameter is its type with everything that modifies it. It takes

* every part of a type that stands outside of all groups;
* everything inside a group that modifies a type, with the group's own brackets;
* when the parameter owns the type, its modifiers and everything inside a group of them, with
  the brackets and without the name that such a group may wrap, as in `int (*cb)`.

A parameter that only inherits a type does not inherit what modifies the parameter it comes from.

The tokens taken need not be neighbours. If blanks alone lie between them, the type is the extent
from the first to the last. Otherwise it is put together: pieces are set side by side, with a space
where two words would run into one.
-/

namespace DeclOutline

namespace ParameterList

/-- How many groups of either kind are open among the tokens taken. -/
structure Groups where
  types : Nat := 0
  params : Nat := 0
deriving DecidableEq

namespace Groups

/-- Whether a group is open. -/
def inside (g : Groups) : Bool :=
  0 < g.types || 0 < g.params

/-- Whether a token is part of the type, from its level and its role. -/
def takes (g : Groups) (own : Bool) (level : Nat) : Option Role → Bool
  | some .name => g.inside && g.params == 0
  | some .paramModifier => g.inside || (own && level == 0)
  | some .paramGroupOpen => g.inside || (own && level == 0)
  | some r => g.inside || (level == 0 && r.isTypePart)
  | none => g.inside

/-- The groups that are open after a token. -/
def after (g : Groups) (own : Bool) (level : Nat) : Option Role → Groups
  | some .typeGroupOpen => if level == 0 || g.inside then { g with types := g.types + 1 } else g
  | some .typeGroupClose => { g with types := g.types - 1 }
  | some .paramGroupOpen =>
    if own && (level == 0 || g.inside) then { g with params := g.params + 1 } else g
  | some .paramGroupClose => { g with params := g.params - 1 }
  | _ => g

end Groups

/-- The indices that a type takes among indices with their levels. -/
def typeIndicesFrom (t : TaggedText) (own : Bool) (g : Groups) : List (Nat × Nat) → List Nat
  | [] => []
  | (i, level) :: rest =>
    let role := t.role? i
    let later := typeIndicesFrom t own (g.after own level role) rest
    if g.takes own level role then i :: later else later

/-- The indices that the full type of a parameter takes. -/
def typeIndices (t : TaggedText) (own : Bool) (e : Extent) : List Nat :=
  typeIndicesFrom t own {} (Nesting.all.walk t e)

/-- Whether blanks alone lie between two indices. -/
def onlyBlanksBetween (t : TaggedText) (i j : Nat) : Bool :=
  (Extent.mk (i + 1) j).indices.all t.isBlankAt

/-- The extent from the first to the last of some indices. -/
def hull? (indices : List Nat) : Option Extent :=
  match indices.head?, indices.getLast? with
  | some first, some last => some ⟨first, last + 1⟩
  | _, _ => none

/-- Indices in runs that blanks alone interrupt, as extents. -/
def runs (t : TaggedText) (indices : List Nat) : List Extent :=
  (indices.splitBy (onlyBlanksBetween t)).filterMap hull?

/-- An untagged space. -/
def space : Token :=
  { kind := .whitespace, text := " " }

/-- What stands between two runs that are set side by side. -/
def glue (t : TaggedText) (left right : Extent) : List Token :=
  if t.kind? (left.stop - 1) == some .text && t.kind? right.start == some .text then [space] else []

/-- The tokens of runs set side by side. -/
def joinRuns (t : TaggedText) (run : Extent) : List Extent → List Token
  | [] => t.slice run
  | next :: rest => t.slice run ++ glue t run next ++ joinRuns t next rest

/-- The type made of the tokens at some indices, if one of them is a type's name. -/
def assemble (t : TaggedText) (indices : List Nat) : Option Excerpt :=
  if indices.any fun i => t.hasRole i .typeName then
    match runs t indices with
    | [] => none
    | [run] => some (.within t run)
    | run :: rest => some (.whole ⟨(joinRuns t run rest).toArray⟩)
  else none

end ParameterList

end DeclOutline
