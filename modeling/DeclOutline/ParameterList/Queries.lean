import DeclOutline.ParameterList.FullType

/-!
# Parameters

What a parameter's tokens say about it: its name, its type and its values.

A name or a type is a run: tokens of one role at level zero with blanks between them, up to the
first token that is neither. The groups that modify a parameter do not hide its name, so `cb` is
found in `int (*cb)(int a)`; they do hide types.

With implied types, a parameter without a type of its own has the type of the nearest earlier
parameter that has one, as `y` in `int x, y`.
-/

namespace DeclOutline

namespace ParameterList

/-! ### Runs and values -/

/-- Whether a visited token is a part of a run of tokens of a role. -/
def inRun (t : TaggedText) (r : Role) (visit : Nat × Nat) : Bool :=
  visit.2 == 0 && t.hasRole visit.1 r

/-- The first run of tokens of a role at level zero. -/
def firstRun? (t : TaggedText) (n : Nesting) (r : Role) (e : Extent) : Option Extent :=
  match (n.walk t e).dropWhile fun v => !inRun t r v with
  | [] => none
  | first :: rest =>
    let run := rest.takeWhile fun v => inRun t r v || t.isBlankAt v.1
    let last := ((run.filter (inRun t r)).getLast?).getD first
    some ⟨first.1, last.1 + 1⟩

/-- Where the value of a parameter is looked for: after the first mark at level zero, or from the
start if there is none. -/
def valueStart (t : TaggedText) (mark : Role) (e : Extent) : Nat :=
  match (Nesting.all.walk t e).find? (inRun t mark) with
  | some (i, _) => i + 1
  | none => e.start

/-- The extent from the first to the last token of a value. -/
def value? (t : TaggedText) (mark value : Role) (e : Extent) : Option Extent :=
  hull? ((Extent.mk (valueStart t mark e) e.stop).indices.filter fun i => t.hasRole i value)

/-- The type that stands in an extent, without what modifies it. -/
def ownType? (t : TaggedText) (e : Extent) : Option Extent :=
  firstRun? t .all .typeName e

/-! ### Questions about a parameter -/

variable (l : ParameterList) (t : TaggedText) (index : Nat)

/-- The name of a parameter. -/
def name? : Option Extent :=
  (l.parameter? index).bind (firstRun? t .exceptParamGroups .name)

/-- Whether there is a parameter at an index, with a type of its own. -/
def hasOwnType : Bool :=
  (l.parameter? index).any fun e => (ownType? t e).isSome

/-- The parameter whose type applies to a parameter: itself, or with implied types the nearest
earlier one that has a type. -/
def typeDonor? (implied : Bool) : Option Nat :=
  if index < l.count then
    if l.hasOwnType t index then some index
    else if implied && l.impliesTypes then (List.range index).reverse.find? (l.hasOwnType t)
    else none
  else none

/-- The type of a parameter without what modifies it. -/
def baseType? (implied : Bool) : Option Extent :=
  ((l.typeDonor? t index implied).bind l.parameter?).bind (ownType? t)

/-- The type of a parameter with everything that modifies it. -/
def fullType? (implied : Bool) : Option Excerpt :=
  (l.typeDonor? t index implied).bind fun donor =>
    (l.parameter? donor).bind fun e => assemble t (typeIndices t (donor == index) e)

/-- Whether a parameter has the type of another one. -/
def typeIsImplied (implied : Bool) : Bool :=
  (l.typeDonor? t index implied).any (· != index)

/-- The default value of a parameter. -/
def default? : Option Extent :=
  (l.parameter? index).bind (value? t .defaultMark .defaultValue)

/-- The value of a property, such as `12` in `id = 12`. -/
def property? : Option Extent :=
  (l.parameter? index).bind (value? t .propertyMark .propertyValue)

end ParameterList

end DeclOutline
