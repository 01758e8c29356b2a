import DeclOutline.Outline

/-!
# Notices

What is worth telling about the outlining of a text: where it had to make do with what it found,
and what it came to. Notices are values; what becomes of them is the caller's business.
-/

namespace DeclOutline

/-- Something worth telling about the outlining of a text. -/
inductive Notice where
  /-- A token closes a group in a parameter list where none is open. -/
  | strayClosing (index : Nat) (role : Role)
  /-- A parameter list has no closing token. -/
  | unclosedList (list : Extent)
  /-- The text has no content. -/
  | noContent (tokens : Nat)
  /-- The text was outlined. -/
  | outlined (sections main : Nat)
deriving DecidableEq

namespace Notice

/-- How much a notice matters. -/
inductive Level where
  | trace
  | debug
deriving DecidableEq

/-- The name under which a level is written. -/
def Level.label : Level → String
  | trace => "TRACE"
  | debug => "DEBUG"

/-- How much a notice matters. -/
def level : Notice → Level
  | outlined .. => .trace
  | _ => .debug

/-- The wording of a notice. -/
def message : Notice → String
  | strayClosing .. => "unbalanced closing tag in parameter list"
  | unclosedList _ => "parameter list has no closing token"
  | noContent _ => "prototype has no content; using one section for the whole stream"
  | outlined .. => "segmented prototype"

/-- What a notice says beside its wording, by name. -/
def fields : Notice → List (String × String)
  | strayClosing index role => [("token", Text.decimal index), ("tag", role.label)]
  | unclosedList extent => [("section", extent.render)]
  | noContent tokens => [("tokens", Text.decimal tokens)]
  | outlined sections main =>
    [("sections", Text.decimal sections), ("main_index", Text.decimal main)]

/-- The notices about the parameter list of an extent. -/
def ofList (t : TaggedText) (e : Extent) : List Notice :=
  let split := ParameterList.split t e
  split.strays.map (fun (index, role) => strayClosing index role) ++
    if split.closing.isNone then [unclosedList e] else []

/-- The notices about a section. -/
def ofSection (t : TaggedText) (s : Section) : List Notice :=
  match s with
  | .plain .. => []
  | .parameterized list => ofList t list.extent

/-- The notices about the outlining of a text. -/
def ofText (t : TaggedText) : List Notice :=
  if (Piece.kept t).isEmpty then [noContent t.length]
  else
    let outline := Outline.ofText t true
    outline.sections.flatMap (ofSection t) ++ [outlined outline.sections.length outline.main]

end Notice

end DeclOutline
