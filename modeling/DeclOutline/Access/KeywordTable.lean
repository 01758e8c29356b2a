import DeclOutline.Access.Level
import DeclOutline.TaggedText.Basic
import DeclOutline.Text.Lowercase

/-!
# Keyword tables

Which keyword states which access level. A table either tells upper from lower case or folds both
by lower-casing. Each folded keyword has one level, the last one given to it.
-/

namespace DeclOutline

/-- Keywords, folded, with their levels. -/
structure KeywordTable where
  caseSensitive : Bool := true
  entries : List (String × AccessLevel) := []
deriving DecidableEq

namespace KeywordTable

/-- The form under which keywords are compared. -/
def foldWord (caseSensitive : Bool) (word : String) : String :=
  if caseSensitive then word else Text.lowercase word

/-- Gives a keyword a level. -/
def insert (k : KeywordTable) (word : String) (level : AccessLevel) : KeywordTable :=
  let key := foldWord k.caseSensitive word
  { k with entries := (key, level) :: k.entries.filter fun entry => entry.1 != key }

/-- Gives keywords their levels, one after another. -/
def insertAll (k : KeywordTable) (words : List (String × AccessLevel)) : KeywordTable :=
  words.foldl (fun k (word, level) => k.insert word level) k

/-- The level of a keyword. -/
def lookup? (k : KeywordTable) (word : String) : Option AccessLevel :=
  k.entries.lookup (foldWord k.caseSensitive word)

/-- The number of keywords. -/
def size (k : KeywordTable) : Nat :=
  k.entries.length

/-- Whether there are no keywords. -/
def isEmpty (k : KeywordTable) : Bool :=
  k.entries.isEmpty

/-- The usual keywords and their levels. -/
def usual : List (String × AccessLevel) :=
  [("public", .everyone), ("private", .owner), ("protected", .family), ("internal", .assembly)]

/-- The table of the usual keywords, as they are written. -/
def standard : KeywordTable :=
  insertAll {} usual

/-- The levels that the modifiers of an extent state, in order. -/
def levels (k : KeywordTable) (t : TaggedText) (e : Extent) : List AccessLevel :=
  ((t.slice e).filter fun token => token.role.any Role.isModifier).filterMap
    fun token => k.lookup? token.text

/-- The access level that an extent states. -/
def resolve (k : KeywordTable) (t : TaggedText) (e : Extent) : AccessLevel :=
  .combine (k.levels t e)

end KeywordTable

end DeclOutline
