import DeclOutline.Profile.Basic
import DeclOutline.Toml.Writer

/-!
# Profile documents

A profile is written as a TOML document: its name and two settings, then a table of keywords.

    name = "C#"
    supports_implied_types = false
    case_sensitive = true

    [access_keywords]
    public = "public"

Only the name is required when a profile is read, and no other keys are taken. A profile can also
be given as an array of its fields in this order, of which all but the name may be left out and
more than four are not looked at. The level of a keyword is its label, or a table that has nothing
but the label as a key, with an empty array or table as its value.

A catalog is a document with a list of profiles under the key `language`.

Printer and reader are parameters of `parse` and `serialize`. The ones that are at hand are filled
in by `ofDocument` and `toDocument`.
-/

namespace DeclOutline

open Toml (Value Table)

/-! ### Reading -/

/-- Whether a value holds nothing. -/
def Toml.Value.holdsNothing : Value → Bool
  | .array items => items.isEmpty
  | .table entries => entries.isEmpty
  | _ => false

/-- A text. -/
def Toml.Value.text? : Value → Option String
  | .string s => some s
  | _ => none

/-- A boolean. -/
def Toml.Value.boolean? : Value → Option Bool
  | .boolean b => some b
  | _ => none

/-- The level that a value states. -/
def AccessLevel.ofValue? : Value → Option AccessLevel
  | .string label => ofLabel? label
  | .table [(label, value)] => if value.holdsNothing then ofLabel? label else none
  | _ => none

/-- The keywords and levels of a table. -/
def WordMap.ofValue? : Value → Option (WordMap AccessLevel)
  | .table entries =>
    (entries.mapM fun (e : String × Value) =>
      (AccessLevel.ofValue? e.2).map fun level => (e.1, level)).map WordMap.ofList
  | _ => none

/-- What has been read, if there is anything and it passes a check. -/
def checked {α : Type} (check : α → Except ProfileError Unit) : Option α → Except ProfileError α
  | some found => (check found).map fun _ => found
  | none => .error .malformed

namespace Profile

/-- A profile from the values of its fields, of which all but the name may be missing. -/
def ofFields? (name impliesTypes caseSensitive keywords : Option Value) : Option Profile := do
  let name ← name.bind Value.text?
  let impliesTypes ← (impliesTypes.map Value.boolean?).getD (some true)
  let caseSensitive ← (caseSensitive.map Value.boolean?).getD (some true)
  let keywords ← (keywords.map WordMap.ofValue?).getD (some .empty)
  some { name, impliesTypes, caseSensitive, keywords }

/-- The keys of a profile document. -/
def fieldNames : List String :=
  ["name", "supports_implied_types", "case_sensitive", "access_keywords"]

/-- A profile from a table. -/
def ofTable? (t : Table) : Option Profile :=
  if t.all fun e => fieldNames.contains e.1 then
    ofFields? (t.lookup "name") (t.lookup "supports_implied_types") (t.lookup "case_sensitive")
      (t.lookup "access_keywords")
  else none

/-- A profile from a value of a document. -/
def ofValue? : Value → Option Profile
  | .table entries => ofTable? entries
  | .array items => ofFields? items[0]? items[1]? items[2]? items[3]?
  | _ => none

/-- Reads and checks a profile. -/
def parse (read : Toml.Reader) (document : String) : Except ProfileError Profile :=
  checked validate ((read document).bind ofTable?)

/-- The profile of a TOML document. -/
def ofDocument : String → Except ProfileError Profile :=
  parse Toml.read?

end Profile

namespace Catalog

/-- The profiles of a list. -/
def languagesOf? : Option Value → Option (List Profile)
  | none => some []
  | some (.array items) => items.mapM Profile.ofValue?
  | some _ => none

/-- A catalog from a table. -/
def ofTable? (t : Table) : Option Catalog :=
  if t.all fun e => e.1 == "language" then
    (languagesOf? (t.lookup "language")).map Catalog.mk
  else none

/-- Reads and checks a catalog. -/
def parse (read : Toml.Reader) (document : String) : Except ProfileError Catalog :=
  checked validate ((read document).bind ofTable?)

/-- The catalog of a TOML document. -/
def ofDocument : String → Except ProfileError Catalog :=
  parse Toml.read?

end Catalog

/-- The text of a file that may not exist, and need not be text. -/
def fileText (content : Option ByteArray) : Except ProfileError String :=
  match content.bind String.fromUTF8? with
  | some text => .ok text
  | none => .error .unreadable

/-! ### Writing -/

namespace Profile

/-- What the document of a profile says. -/
def content (p : Profile) : Toml.Document where
  settings := [("name", .text p.name), ("supports_implied_types", .boolean p.impliesTypes),
    ("case_sensitive", .boolean p.caseSensitive)]
  tables := [("access_keywords", p.keywords.entries.map fun e => (e.1, .text e.2.label))]
  distinct := by
    show fieldNames.Nodup
    decide
  distinctInTables := by
    intro t ht
    obtain rfl := List.mem_singleton.mp ht
    rw [List.map_map]
    exact p.keywords.nodup_words

/-- Writes a profile down. -/
def serialize (print : Toml.Printer) (p : Profile) : Except Overflow String :=
  print p.content

/-- The TOML document of a profile. -/
def toDocument : Profile → Except Overflow String :=
  serialize Toml.print

end Profile

end DeclOutline
