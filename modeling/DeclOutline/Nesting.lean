import DeclOutline.TaggedText.Basic

/-!
# Nesting

Three kinds of groups nest in a declaration: parameter lists, groups that modify a type and groups
that modify a parameter. One counter counts them all. It goes up at a token that opens a group and
down at one that closes a group, whatever their kinds, and stays at zero when there is nothing to
close.

A walk visits tokens with the level they stand at. Tokens that open or close a group stand at the
level outside of it.
-/

namespace DeclOutline

/-- Which groups count. -/
inductive Nesting where
  /-- All groups. -/
  | all
  /-- All but the groups that modify a parameter, whose tokens stay at the level outside. -/
  | exceptParamGroups
deriving DecidableEq

namespace Nesting

/-- Whether groups with brackets of this role count. -/
def counts : Nesting → Role → Bool
  | all, _ => true
  | exceptParamGroups, r => !r.bracketsParamGroup

/-- Whether a token with this role, if any, opens a group that counts. -/
def opensAt (n : Nesting) (role : Option Role) : Bool :=
  role.any fun r => r.opens && n.counts r

/-- Whether a token with this role, if any, closes a group that counts. -/
def closesAt (n : Nesting) (role : Option Role) : Bool :=
  role.any fun r => r.closes && n.counts r

/-- The depth after a token, from the depth before it. -/
def after (n : Nesting) (depth : Nat) (role : Option Role) : Nat :=
  if n.opensAt role then depth + 1 else if n.closesAt role then depth - 1 else depth

/-- The level a token stands at, from the depth before it. -/
def level (n : Nesting) (depth : Nat) (role : Option Role) : Nat :=
  if n.closesAt role then depth - 1 else depth

/-- Indices with their levels, from a depth before the first one on. -/
def walkFrom (n : Nesting) (t : TaggedText) (depth : Nat) : List Nat → List (Nat × Nat)
  | [] => []
  | i :: is => (i, n.level depth (t.role? i)) :: n.walkFrom t (n.after depth (t.role? i)) is

/-- The indices of an extent with their levels. -/
def walk (n : Nesting) (t : TaggedText) (e : Extent) : List (Nat × Nat) :=
  n.walkFrom t 0 e.indices

theorem map_fst_walkFrom (n : Nesting) (t : TaggedText) (depth : Nat) (is : List Nat) :
    (n.walkFrom t depth is).map Prod.fst = is := by
  induction is generalizing depth with
  | nil => rfl
  | cons i is ih => simp [walkFrom, ih]

/-- A walk visits every index once, in order. -/
@[simp] theorem map_fst_walk (n : Nesting) (t : TaggedText) (e : Extent) :
    (n.walk t e).map Prod.fst = e.indices :=
  map_fst_walkFrom n t 0 e.indices

end Nesting

end DeclOutline
