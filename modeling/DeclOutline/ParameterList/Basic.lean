import DeclOutline.Nesting
import DeclOutline.Overflow

/-!
# Parameter lists

The parameter list of a section begins at its first opening token and ends at the first closing
token at depth zero, or at the end of the section if there is none. Separators at depth zero cut
it into parameters. All three kinds of groups share one depth, so `Map<string, int> m` is one
parameter.

The cutting is done once, when the list is analysed. What a parameter's name, type and values are
is answered later from the roles of the tokens, which a front end may have changed since. Extents
that have become stale are read as they stand.

## Main definitions

* `ParameterList.splitFrom` — separators, closing token and stray closing tokens of a list;
* `ParameterList.analyze` — the parameter list of an extent;
* `ParameterList.analyzeAt` — the same for an extent of a caller's choice, which may reach the
  largest index.
-/

namespace DeclOutline

/-- The order in which parameters are written. A list without types counts as `typeFirst`. -/
inductive ParameterStyle where
  /-- As in `int x = 12`. -/
  | typeFirst
  /-- As in `x: int := 12`. -/
  | nameFirst
deriving DecidableEq

namespace ParameterStyle

/-- Both styles. -/
def all : List ParameterStyle :=
  [typeFirst, nameFirst]

/-- The name under which a style is written. -/
def label : ParameterStyle → String
  | typeFirst => "C"
  | nameFirst => "Pascal"

/-- The style with a label. -/
def ofLabel? (label : String) : Option ParameterStyle :=
  all.find? (·.label == label)

end ParameterStyle

/-- A section with a parameter list. -/
structure ParameterList where
  /-- The section. -/
  extent : Extent
  /-- Whether the section has a name. -/
  hasName : Bool
  /-- The index of the token that opens the list. -/
  opening : Nat
  /-- The index of the token that closes the list, if there is one. -/
  closing : Option Nat
  /-- The extents of the parameters, trimmed. -/
  parameters : List Extent
  /-- The order in which the parameters are written. -/
  style : ParameterStyle
  /-- Whether a parameter without a type can have the type of an earlier one. -/
  impliesTypes : Bool
deriving DecidableEq

namespace ParameterList

/-! ### Cutting a list -/

/-- Where a parameter list is cut. -/
structure Split where
  /-- The separators at depth zero. -/
  separators : List Nat := []
  /-- The token that ends the list. -/
  closing : Option Nat := none
  /-- Tokens that close a group where none is open. -/
  strays : List (Nat × Role) := []
deriving DecidableEq

/-- The token at an index, if it closes a group where none is open. -/
def strayAt (depth i : Nat) (role : Option Role) : List (Nat × Role) :=
  match role with
  | some r => if depth == 0 && r.closes then [(i, r)] else []
  | none => []

/-- Cuts a list whose tokens, after the opening one, are at the given indices. -/
def splitFrom (t : TaggedText) (depth : Nat) : List Nat → Split
  | [] => {}
  | i :: is =>
    let role := t.role? i
    if depth == 0 && role == some .listClose then { closing := some i }
    else
      let rest := splitFrom t (Nesting.all.after depth role) is
      { separators :=
          if depth == 0 && role == some .separator then i :: rest.separators else rest.separators
        closing := rest.closing
        strays := strayAt depth i role ++ rest.strays }

/-- The first opening token of an extent; its start if there is none. -/
def openingOf (t : TaggedText) (e : Extent) : Nat :=
  (e.indices.find? fun i => t.hasRole i .listOpen).getD e.start

/-- Cuts the list of an extent. -/
def split (t : TaggedText) (e : Extent) : Split :=
  splitFrom t 0 (Extent.mk (openingOf t e + 1) e.stop).indices

/-- The extents from `start` to `stop` between separators. -/
def between (start stop : Nat) : List Nat → List Extent
  | [] => [⟨start, stop⟩]
  | i :: is => ⟨start, i⟩ :: between (i + 1) stop is

/-- The style of an extent: a token between a name and its type puts names first. -/
def styleOf (t : TaggedText) (e : Extent) : ParameterStyle :=
  if e.indices.any fun i => t.hasRole i .nameTypeSeparator then .nameFirst else .typeFirst

/-- The parameter list of the section at an extent. -/
def analyze (t : TaggedText) (e : Extent) (hasName impliesTypes : Bool) : ParameterList :=
  let opening := openingOf t e
  let split := split t e
  let stop := split.closing.getD e.stop
  { extent := e
    hasName
    opening
    closing := split.closing
    parameters := (between (min (opening + 1) stop) stop split.separators).map t.trim
    style := styleOf t e
    impliesTypes }

/-- The parameter list at an extent of a caller's choice. The list proper begins one past the
opening token, so the largest index cannot open one. -/
def analyzeAt (t : TaggedText) (e : Extent) (hasName impliesTypes : Bool) :
    Except Overflow ParameterList :=
  if openingOf t e < Extent.maxIndex then .ok (analyze t e hasName impliesTypes)
  else .error .addition

/-! ### The list as a whole -/

/-- The number of parameters. -/
def count (l : ParameterList) : Nat :=
  l.parameters.length

/-- The extent of a parameter. -/
def parameter? (l : ParameterList) (index : Nat) : Option Extent :=
  l.parameters[index]?

/-- From the start of the section through the opening token. -/
def before (l : ParameterList) : Extent :=
  ⟨l.extent.start, l.opening + 1⟩

/-- From the closing token through the end of the section. -/
def after? (l : ParameterList) : Option Extent :=
  l.closing.map fun i => ⟨i, l.extent.stop⟩

/-- The opening token lies in the extent, or is its start. -/
theorem openingOf_eq_start_or_mem (t : TaggedText) (e : Extent) :
    openingOf t e = e.start ∨ openingOf t e ∈ e.indices := by
  unfold openingOf
  cases h : e.indices.find? fun i => t.hasRole i .listOpen with
  | none => exact .inl rfl
  | some i => exact .inr (List.mem_of_find?_eq_some h)

/-- Only an extent that starts at the largest index is refused. -/
theorem analyzeAt_eq_ok (t : TaggedText) {e : Extent} (hasName impliesTypes : Bool)
    (hstart : e.start < Extent.maxIndex) (hstop : e.stop ≤ Extent.maxIndex) :
    analyzeAt t e hasName impliesTypes = .ok (analyze t e hasName impliesTypes) := by
  have h : openingOf t e < Extent.maxIndex := by
    rcases openingOf_eq_start_or_mem t e with h | h
    · omega
    · have := Extent.mem_indices.mp h
      omega
  simp [analyzeAt, h]

theorem length_between (start stop : Nat) (is : List Nat) :
    (between start stop is).length = is.length + 1 := by
  induction is generalizing start with
  | nil => rfl
  | cons i is ih => simp [between, ih]

/-- A list has one parameter more than separators. -/
theorem count_analyze (t : TaggedText) (e : Extent) (hasName impliesTypes : Bool) :
    (analyze t e hasName impliesTypes).count = (split t e).separators.length + 1 := by
  simp [analyze, count, length_between]

end ParameterList

end DeclOutline
