import DeclOutline.Overflow

/-!
# What a TOML document says

A document is a table, of keys with their values. How it is written down is left to a printer, and
what a text says to a reader; both are given from outside.

What is printed is plain: texts and booleans under keys, and tables of these. What is read can be
any value.
-/

namespace DeclOutline.Toml

/-- A value of a document. Of floats and dates the spelling is kept and no more. -/
inductive Value where
  | string (value : String)
  | boolean (value : Bool)
  | integer (value : Int)
  | float (spelling : String)
  | date (spelling : String)
  | array (items : List Value)
  | table (entries : List (String × Value))

/-- Keys with their values. -/
abbrev Table := List (String × Value)

/-- The values that are printed. -/
inductive Scalar where
  | text (value : String)
  | boolean (value : Bool)

/-- A printed value as a value of a document. -/
def Scalar.value : Scalar → Value
  | text value => .string value
  | boolean value => .boolean value

/-- A document that is printed: keys with their values, and tables of such keys. No key is given
twice. -/
structure Document where
  settings : List (String × Scalar)
  tables : List (String × List (String × Scalar))
  distinct : (settings.map Prod.fst ++ tables.map Prod.fst).Nodup
  distinctInTables : ∀ t ∈ tables, (t.2.map Prod.fst).Nodup

/-- Keys with values that are printed, as a table. -/
def tableOf (entries : List (String × Scalar)) : Table :=
  entries.map fun e => (e.1, e.2.value)

/-- What a printed document says. -/
def Document.table (d : Document) : Table :=
  tableOf d.settings ++ d.tables.map fun t => (t.1, .table (tableOf t.2))

/-- A printer of documents. -/
abbrev Printer := Document → Except Overflow String

/-- A reader of documents. It takes the texts that are documents. -/
abbrev Reader := String → Option Table

end DeclOutline.Toml
