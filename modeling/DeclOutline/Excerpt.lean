import DeclOutline.TaggedText.Basic

/-!
# Excerpts

A part of a tagged text, read as a text of its own. Most answers about a declaration are extents
of its text. A type whose tokens are scattered has no such extent and is put together as a new
text. An excerpt is one or the other, and is read alike: by offsets that count from its first
token.
-/

namespace DeclOutline

/-- A part of a tagged text, or a text put together for the purpose. -/
inductive Excerpt where
  /-- The tokens of an extent, where they stand. -/
  | within (source : TaggedText) (extent : Extent)
  /-- A text of its own. -/
  | whole (text : TaggedText)
deriving DecidableEq

namespace Excerpt

/-- The text whose tokens the excerpt reads. -/
def source : Excerpt → TaggedText
  | within source _ => source
  | whole text => text

/-- The extent of the source that the excerpt reads. -/
def extent : Excerpt → Extent
  | within _ extent => extent
  | whole text => text.full

/-- Whether the excerpt is a text of its own. -/
def isWhole : Excerpt → Bool
  | within .. => false
  | whole _ => true

/-- The number of offsets. -/
def length (x : Excerpt) : Nat :=
  x.extent.length

/-- Whether there are no offsets. -/
def isEmpty (x : Excerpt) : Bool :=
  x.length == 0

/-- The index in the source of an offset inside the excerpt. -/
def index? (x : Excerpt) (offset : Nat) : Option Nat :=
  if offset < x.length then some (x.extent.start + offset) else none

/-- The token at an offset. -/
def token? (x : Excerpt) (offset : Nat) : Option Token :=
  (x.index? offset).bind x.source.token?

/-- The text of the token at an offset. -/
def tokenText (x : Excerpt) (offset : Nat) : String :=
  match x.token? offset with
  | some token => token.text
  | none => ""

/-- The role of the token at an offset. -/
def role? (x : Excerpt) (offset : Nat) : Option Role :=
  (x.token? offset).bind Token.role

/-- The text of the excerpt. -/
def text (x : Excerpt) : String :=
  x.source.extentText x.extent

/-- The texts of the tokens at all offsets, one after another. -/
def joinedText (x : Excerpt) : String :=
  String.join ((List.range x.length).map x.tokenText)

/-- The excerpt as a text of its own, made of the tokens that exist. -/
def detach : Excerpt → Excerpt
  | within source extent => whole ⟨(source.slice extent).toArray⟩
  | whole text => whole text

@[simp] theorem detach_detach (x : Excerpt) : x.detach.detach = x.detach := by
  cases x <;> rfl

theorem isWhole_detach (x : Excerpt) : x.detach.isWhole = true := by
  cases x <;> rfl

end Excerpt

end DeclOutline
