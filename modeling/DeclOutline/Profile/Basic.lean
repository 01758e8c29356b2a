import DeclOutline.Access.KeywordTable
import DeclOutline.Declaration
import DeclOutline.Text.Blank
import DeclOutline.WordMap

/-!
# Language profiles

What outlining needs to know about a language: whether types can be implied, which keywords state
an access level, and whether their case matters. A profile without keywords has the usual ones.

A profile is valid if its name is not blank and its keywords are not blank and differ after
folding. The first fault is the one reported: the name's, then that of the first keyword in order.
-/

namespace DeclOutline

/-- What outlining needs to know about a language. -/
structure Profile where
  name : String
  /-- Whether a parameter without a type can have the type of an earlier one. -/
  impliesTypes : Bool := true
  /-- Whether keywords tell upper from lower case. -/
  caseSensitive : Bool := true
  /-- The keywords and the levels they state. -/
  keywords : WordMap AccessLevel := .empty
deriving DecidableEq

/-- Why a document gives no profiles. -/
inductive ProfileError where
  /-- The document cannot be read as text. -/
  | unreadable
  /-- The document is not TOML, or not of the form of a profile. -/
  | malformed
  /-- The name is blank. -/
  | emptyName
  /-- A keyword is blank. -/
  | emptyKeyword (language : String)
  /-- A keyword folds to what an earlier one folds to. -/
  | duplicateKeyword (language keyword : String)
  /-- The name of a language is that of an earlier one up to case. -/
  | duplicateLanguage (language : String)
deriving DecidableEq

/-- The wording of an error. What is wrong with a document as such has none here. -/
def ProfileError.message? : ProfileError → Option String
  | unreadable | malformed => none
  | emptyName => some "language name cannot be empty"
  | emptyKeyword language => some ("language '" ++ language ++ "' has an empty access keyword")
  | duplicateKeyword language keyword =>
    some ("language '" ++ language ++ "' defines access keyword '" ++ keyword ++
      "' more than once")
  | duplicateLanguage language => some ("language '" ++ language ++ "' is defined more than once")

namespace Profile

/-- The keywords and levels that the profile's table is made of. -/
def tableWords (p : Profile) : List (String × AccessLevel) :=
  if p.keywords.isEmpty then KeywordTable.usual else p.keywords.entries

/-- The keyword table of the language. -/
def table (p : Profile) : KeywordTable :=
  KeywordTable.insertAll { caseSensitive := p.caseSensitive } p.tableWords

/-- Checks keywords in order, after some whose folds have been `seen`. -/
def checkKeywords (p : Profile) (seen : List String) : List String → Except ProfileError Unit
  | [] => .ok ()
  | word :: rest =>
    if Text.isBlank word then .error (.emptyKeyword p.name)
    else
      let key := KeywordTable.foldWord p.caseSensitive word
      if seen.contains key then .error (.duplicateKeyword p.name word)
      else p.checkKeywords (key :: seen) rest

/-- Checks a profile. -/
def validate (p : Profile) : Except ProfileError Unit :=
  if Text.isBlank p.name then .error .emptyName else p.checkKeywords [] p.keywords.words

/-- The declaration of a text in the language. -/
def declaration (p : Profile) (text : TaggedText) : Declaration :=
  .ofText text p.impliesTypes p.table

end Profile

/-- The profiles of one document, in the order of the document. -/
structure Catalog where
  languages : List Profile := []
deriving DecidableEq

namespace Catalog

/-- Checks profiles in order, after some whose names in lower case have been `seen`. -/
def checkLanguages (seen : List String) : List Profile → Except ProfileError Unit
  | [] => .ok ()
  | p :: rest => do
    p.validate
    let key := Text.lowercase p.name
    if seen.contains key then .error (.duplicateLanguage p.name)
    else checkLanguages (key :: seen) rest

/-- Checks every profile, and that names differ after lower-casing. -/
def validate (c : Catalog) : Except ProfileError Unit :=
  checkLanguages [] c.languages

/-- The first profile with a name, whatever the case of its ASCII letters. -/
def find? (c : Catalog) (name : String) : Option Profile :=
  c.languages.find? fun p => Text.sameIgnoringAsciiCase p.name name

end Catalog

end DeclOutline
