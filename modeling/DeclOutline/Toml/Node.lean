import DeclOutline.Toml.Value

/-!
# TOML documents as they are read

While a document is read, its tables remember how they came to be, because that decides what a later
line may add to them:

* a table that has a header of its own can not have a second one;
* a table that only longer headers imply can still be given one;
* a table that dotted keys made is open to dotted keys alone;
* a table written inline is closed.

In the end all of this is forgotten, and tables under one header are an array.
-/

namespace DeclOutline.Toml

/-- How a table came to be. -/
inductive Origin where
  /-- By a header of its own. -/
  | header
  /-- By the header of a table inside it. -/
  | implied
  /-- By a dotted key. -/
  | dotted
  /-- Inline, as a value. -/
  | inline
deriving DecidableEq

/-- A value of a document that is being read. -/
inductive Node where
  | string (value : String)
  | boolean (value : Bool)
  | integer (value : Int)
  | float (spelling : String)
  | date (spelling : String)
  | array (items : List Node)
  | table (origin : Origin) (entries : List (String × Node))
  /-- Tables under one header, in the order of the headers. -/
  | tables (elements : List (List (String × Node)))

/-- The entries of a table. -/
abbrev Entries := List (String × Node)

/-- A line of a document that says something. -/
inductive Statement where
  /-- The header of a table. -/
  | table (path : List String)
  /-- The header of one more table in a list of tables. -/
  | element (path : List String)
  /-- A key and its value. -/
  | assign (path : List String) (value : Node)

namespace Entries

/-- Whether a key has a value. -/
def has (es : Entries) (key : String) : Bool :=
  es.any fun e => e.1 == key

/-- The entries with another value for a key that is there. -/
def replace (es : Entries) (key : String) (value : Node) : Entries :=
  es.map fun e => if e.1 == key then (key, value) else e

/-- Gives a dotted key its value. Every part but the last names a table; those that are missing
are made, and the one that takes the value must have been made by dotted keys. -/
def assign (value : Node) : List String → Entries → Option Entries
  | [], _ => none
  | [key], es => if has es key then none else some (es ++ [(key, value)])
  | key :: next :: rest, es =>
    match es.lookup key with
    | none => (assign value (next :: rest) []).map fun sub => es ++ [(key, .table .dotted sub)]
    | some (.table .dotted sub) =>
      (assign value (next :: rest) sub).map fun sub => replace es key (.table .dotted sub)
    | some (.table .implied sub) =>
      if rest.isEmpty then none
      else (assign value (next :: rest) sub).map fun sub => replace es key (.table .implied sub)
    | some (.tables elements) =>
      if rest.isEmpty then none
      else
        (assign value (next :: rest) (elements.getLast?.getD [])).map fun sub =>
          replace es key (.tables (elements.dropLast ++ [sub]))
    | some _ => none

/-- Changes the table at a path that a header gives. Tables that are missing are implied; in a list
of tables the last one is meant. -/
def update (change : Entries → Option Entries) : List String → Entries → Option Entries
  | [], es => change es
  | key :: rest, es =>
    match es.lookup key with
    | none => (update change rest []).map fun sub => es ++ [(key, .table .implied sub)]
    | some (.table .inline _) => none
    | some (.table origin sub) =>
      (update change rest sub).map fun sub => replace es key (.table origin sub)
    | some (.tables elements) =>
      (update change rest (elements.getLast?.getD [])).map fun sub =>
        replace es key (.tables (elements.dropLast ++ [sub]))
    | some _ => none

/-- Gives a table its header. -/
def openTable (key : String) (es : Entries) : Option Entries :=
  match es.lookup key with
  | none => some (es ++ [(key, .table .header [])])
  | some (.table .implied sub) => some (replace es key (.table .header sub))
  | some _ => none

/-- Begins one more table in a list of tables. -/
def openElement (key : String) (es : Entries) : Option Entries :=
  match es.lookup key with
  | none => some (es ++ [(key, .tables [[]])])
  | some (.tables elements) => some (replace es key (.tables (elements ++ [[]])))
  | some _ => none

/-- The entries of keys and values in the order in which they are given. -/
def ofAssignments (assignments : List (List String × Node)) : Option Entries :=
  assignments.foldlM (fun es (path, value) => assign value path es) []

end Entries

/-- A document as far as it has been read. -/
structure Draft where
  /-- The path of the last header. -/
  current : List String := []
  root : Entries := []

namespace Draft

/-- Adds what a line says. -/
def add (d : Draft) : Statement → Option Draft
  | .table path => do
    let key ← path.getLast?
    let root ← Entries.update (Entries.openTable key) path.dropLast d.root
    some ⟨path, root⟩
  | .element path => do
    let key ← path.getLast?
    let root ← Entries.update (Entries.openElement key) path.dropLast d.root
    some ⟨path, root⟩
  | .assign path value => do
    let root ← Entries.update (Entries.assign value path) d.current d.root
    some { d with root }

end Draft

/-- The document that lines make, unless they contradict each other. -/
def ofStatements (statements : List Statement) : Option Entries :=
  (statements.foldlM Draft.add {}).map Draft.root

/-! ### Values -/

mutual

/-- The value that has been read. -/
def Node.value : Node → Value
  | .string value => .string value
  | .boolean value => .boolean value
  | .integer value => .integer value
  | .float spelling => .float spelling
  | .date spelling => .date spelling
  | .array items => .array (itemValues items)
  | .table _ entries => .table (entryValues entries)
  | .tables elements => .array (elementValues elements)

/-- The values of the items of an array. -/
def itemValues : List Node → List Value
  | [] => []
  | item :: items => item.value :: itemValues items

/-- The values of the entries of a table. -/
def entryValues : List (String × Node) → List (String × Value)
  | [] => []
  | (key, node) :: entries => (key, node.value) :: entryValues entries

/-- The values of tables under one header. -/
def elementValues : List (List (String × Node)) → List Value
  | [] => []
  | entries :: elements => .table (entryValues entries) :: elementValues elements

end

end DeclOutline.Toml
