/-!
# Access levels

Who may use what a declaration declares. Two of the levels combine others: `protected internal`
is open to derived types and to the same assembly, `private protected` to derived types in the
same assembly.
-/

namespace DeclOutline

/-- Who may use a declaration. -/
inductive AccessLevel where
  /-- Nothing is said. -/
  | unstated
  /-- Everyone. -/
  | everyone
  /-- The declaring type alone. -/
  | owner
  /-- Derived types. -/
  | family
  /-- The same assembly. -/
  | assembly
  /-- Derived types and the same assembly. -/
  | familyOrAssembly
  /-- Derived types in the same assembly. -/
  | familyAndAssembly
deriving DecidableEq

namespace AccessLevel

/-- Every level. -/
def all : List AccessLevel :=
  [unstated, everyone, owner, family, assembly, familyOrAssembly, familyAndAssembly]

/-- The name under which a level is written in documents. -/
def label : AccessLevel → String
  | unstated => "unknown"
  | everyone => "public"
  | owner => "private"
  | family => "protected"
  | assembly => "internal"
  | familyOrAssembly => "protected_internal"
  | familyAndAssembly => "private_protected"

/-- The level with a label. -/
def ofLabel? (label : String) : Option AccessLevel :=
  all.find? (·.label == label)

/-- A level as it is shown to readers. -/
def display : AccessLevel → String
  | familyOrAssembly => "protected internal"
  | familyAndAssembly => "private protected"
  | level => level.label

theorem ofLabel?_label (level : AccessLevel) : ofLabel? level.label = some level := by
  cases level <;> rfl

/-- The level that several keywords of one declaration state together. Of three levels that can
combine, `protected` with `internal` comes first, then `private` with `protected`; otherwise the
first keyword counts. -/
def combine (found : List AccessLevel) : AccessLevel :=
  if found.contains family && found.contains assembly then familyOrAssembly
  else if found.contains owner && found.contains family then familyAndAssembly
  else found.head?.getD unstated

end AccessLevel

end DeclOutline
