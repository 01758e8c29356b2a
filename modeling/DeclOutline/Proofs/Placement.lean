import DeclOutline.Proofs.Passages
import DeclOutline.TaggedText.Edit
import Mathlib.Data.String.Basic

/-!
# Where tokens stand in their text

A token holds its own piece of text, and spans are counted from the pieces. Another way to keep a
text is to have all of it in one place, with a span of 32-bit bounds for each token, and to move the
spans of what is appended. Then nothing in the data says that the spans fit the text. Below `2 ^ 32`
bytes they do: they tile the text, they can be read at, and no arithmetic on them overflows.

`Buffer` is that other store. It is related to texts edit by edit, and by induction along every
sequence of edits.

## Main definitions

* `ByteSpan.read?` — the part of a text at a span
* `ByteSpan.Tile` — spans that follow one another
* `TaggedText.Placed` — the spans of a text fit it
* `Edit`, `TaggedText.build` — edits, and the text a sequence of them comes to
* `Buffer` — a text that is kept whole, beside its spans

## Main results

* `TaggedText.read?_offset` — an extent is read from the offset of its first token on
* `TaggedText.placed_of_lt` — spans fit a text that is not too long
* `Buffer.edit_ofText`, `Buffer.build_eq_ok` — one edit, and every sequence of them
* `TaggedText.build_represented` — what holds of every text that is built
-/

namespace DeclOutline

/-! ### Reading at a span -/

namespace ByteSpan

/-- The part of a text at a span. There is none if the bounds are in the wrong order, or if one of
them is past the end or inside a character. -/
def read? (s : ByteSpan) (text : String) : Option String :=
  let start : String.Pos.Raw := ⟨s.start.toNat⟩
  let stop : String.Pos.Raw := ⟨s.stop.toNat⟩
  if s.start ≤ s.stop ∧ start.isValid text ∧ stop.isValid text then some (start.extract text stop)
  else none

/-- From where one span begins to where another one ends. -/
def through (first last : ByteSpan) : ByteSpan :=
  ⟨first.start, last.stop⟩

/-- Spans that follow on one another, from an offset up to `stop`. -/
def Tile (stop : Nat) : Nat → List ByteSpan → Prop
  | start, [] => start = stop
  | start, s :: ss => s.start.toNat = start ∧ start ≤ s.stop.toNat ∧ Tile stop s.stop.toNat ss

theorem Tile.start_le_stop {stop start : Nat} {ss : List ByteSpan} (h : Tile stop start ss) :
    ∀ s ∈ ss, s.start ≤ s.stop := by
  induction ss generalizing start with
  | nil => simp
  | cons s ss ih =>
    obtain ⟨hstart, hle, hrest⟩ := h
    intro s' hs'
    rcases List.mem_cons.mp hs' with rfl | hs'
    · rw [UInt32.le_iff_toNat_le, hstart]
      exact hle
    · exact ih hrest s' hs'

theorem length_eq_ok {s : ByteSpan} (h : s.start ≤ s.stop) :
    ∃ n, s.length = .ok n ∧ s.start.toNat + n.toNat = s.stop.toNat := by
  refine ⟨s.stop - s.start, if_pos h, ?_⟩
  rw [UInt32.toNat_sub_of_le _ _ h]
  have := UInt32.le_iff_toNat_le.mp h
  omega

theorem isValid_of_append {text before after : String} (h : text = before ++ after) :
    (⟨before.utf8ByteSize⟩ : String.Pos.Raw).isValid text = true :=
  String.Pos.Raw.isValid_eq_true_iff.mpr
    (String.Pos.Raw.isValid_iff_exists_append.mpr ⟨before, after, h, rfl⟩)

theorem extract_of_append {text before piece after : String} (h : text = before ++ piece ++ after) :
    (⟨before.utf8ByteSize⟩ : String.Pos.Raw).extract text
      ⟨before.utf8ByteSize + piece.utf8ByteSize⟩ = piece := by
  have hsize : ∀ s : String, s.utf8ByteSize = String.utf8Len s.toList := by
    intro s
    rw [← String.utf8ByteSize_ofList, String.ofList_toList]
  have htext : text = String.ofList (before.toList ++ piece.toList ++ after.toList) := by
    rw [h, String.ofList_append, String.ofList_append, String.ofList_toList, String.ofList_toList,
      String.ofList_toList]
  rw [htext, hsize, hsize, String.extract_of_valid, String.ofList_toList]

/-- A part of a text is read at its own place. -/
theorem read?_ofBounds {text before piece after : String} (h : text = before ++ piece ++ after)
    (hsize : text.utf8ByteSize < UInt32.size) :
    (ofBounds before.utf8ByteSize (before.utf8ByteSize + piece.utf8ByteSize)).read? text =
      some piece := by
  have hsum : text.utf8ByteSize =
      before.utf8ByteSize + piece.utf8ByteSize + after.utf8ByteSize := by
    rw [h, String.utf8ByteSize_append, String.utf8ByteSize_append]
  set span := ofBounds before.utf8ByteSize (before.utf8ByteSize + piece.utf8ByteSize)
  have hstart : span.start.toNat = before.utf8ByteSize := toNat_start_ofBounds (by omega)
  have hstop : span.stop.toNat = before.utf8ByteSize + piece.utf8ByteSize :=
    toNat_stop_ofBounds (by omega)
  have hle : span.start ≤ span.stop := by
    rw [UInt32.le_iff_toNat_le, hstart, hstop]
    exact Nat.le_add_right _ _
  have hvalid := isValid_of_append (h.trans (String.append_assoc ..))
  have hvalid' := isValid_of_append h
  rw [String.utf8ByteSize_append] at hvalid'
  rw [read?, hstart, hstop]
  simp [hle, hvalid, hvalid', extract_of_append h]

/-- Moving a span moves its bounds. -/
theorem shift_ofBounds {start stop offset : Nat} (hle : start ≤ stop)
    (h : offset + stop < UInt32.size) :
    (ofBounds start stop).shift (UInt32.ofNat offset) =
      .ok (ofBounds (offset + start) (offset + stop)) := by
  have hstart : (ofBounds start stop).start.toNat = start := toNat_start_ofBounds (by omega)
  have hstop : (ofBounds start stop).stop.toNat = stop := toNat_stop_ofBounds (by omega)
  have hoffset : (UInt32.ofNat offset).toNat = offset := UInt32.toNat_ofNat_of_lt' (by omega)
  have hfits : (ofBounds start stop).start.toNat + (UInt32.ofNat offset).toNat < UInt32.size ∧
      (ofBounds start stop).stop.toNat + (UInt32.ofNat offset).toNat < UInt32.size := by
    rw [hstart, hstop, hoffset]
    omega
  rw [shift, if_pos hfits]
  simp only [ofBounds, ← UInt32.ofNat_add, Nat.add_comm offset]

end ByteSpan

namespace TaggedText

variable {t : TaggedText}

/-! ### Offsets -/

/-- The number of bytes of the texts of tokens. -/
def bytes (ts : List Token) : Nat :=
  (String.join (ts.map Token.text)).utf8ByteSize

/-- The byte that the token at an index begins at. -/
def offset (t : TaggedText) (i : Nat) : Nat :=
  bytes (t.tokens.toList.take i)

@[simp] theorem bytes_nil : bytes [] = 0 := rfl

theorem bytes_append (ts us : List Token) : bytes (ts ++ us) = bytes ts + bytes us := by
  rw [bytes, List.map_append, String.join_append, String.utf8ByteSize_append]
  rfl

theorem bytes_cons (token : Token) (ts : List Token) :
    bytes (token :: ts) = token.text.utf8ByteSize + bytes ts := by
  rw [bytes, List.map_cons, String.join_cons, String.utf8ByteSize_append]
  rfl

theorem length_spansFrom (start : Nat) (ts : List Token) :
    (spansFrom start ts).length = ts.length := by
  induction ts generalizing start with
  | nil => rfl
  | cons token ts ih => rw [spansFrom, List.length_cons, List.length_cons, ih]

theorem spansFrom_append (start : Nat) (ts us : List Token) :
    spansFrom start (ts ++ us) = spansFrom start ts ++ spansFrom (start + bytes ts) us := by
  induction ts generalizing start with
  | nil => rfl
  | cons token ts ih =>
    rw [List.cons_append, spansFrom, spansFrom, ih, bytes_cons, Nat.add_assoc]
    rfl

/-- Spans that are counted on from an offset tile what follows it. -/
theorem tile_spansFrom {start : Nat} {ts : List Token} (h : start + bytes ts < UInt32.size) :
    ByteSpan.Tile (start + bytes ts) start (spansFrom start ts) := by
  induction ts generalizing start with
  | nil => rfl
  | cons token ts ih =>
    rw [bytes_cons, ← Nat.add_assoc] at h ⊢
    have hstop : (ByteSpan.ofBounds start (start + token.text.utf8ByteSize)).stop.toNat =
        start + token.text.utf8ByteSize := ByteSpan.toNat_stop_ofBounds (by omega)
    refine ⟨ByteSpan.toNat_start_ofBounds (by omega), ?_, ?_⟩
    · rw [hstop]
      exact Nat.le_add_right _ _
    · rw [hstop]
      exact ih h

/-- Tokens that are not empty have spans that are not. -/
theorem start_lt_stop_spansFrom {start : Nat} {ts : List Token}
    (h : start + bytes ts < UInt32.size) (hne : ∀ token ∈ ts, token.text ≠ "") :
    ∀ s ∈ spansFrom start ts, s.start < s.stop := by
  induction ts generalizing start with
  | nil => simp [spansFrom]
  | cons token ts ih =>
    obtain ⟨htoken, hrest⟩ := List.forall_mem_cons.mp hne
    have hpos : token.text.utf8ByteSize ≠ 0 := fun hzero =>
      htoken (String.utf8ByteSize_eq_zero_iff.mp hzero)
    rw [bytes_cons, ← Nat.add_assoc] at h
    intro s hs
    rcases List.mem_cons.mp hs with rfl | hs
    · rw [UInt32.lt_iff_toNat_lt, ByteSpan.toNat_start_ofBounds (by omega),
        ByteSpan.toNat_stop_ofBounds (by omega)]
      omega
    · exact ih h hrest s hs

/-- Moving spans by an offset counts them on from there. -/
theorem mapM_shift_spansFrom {start offset : Nat} {ts : List Token}
    (h : offset + start + bytes ts < UInt32.size) :
    ((spansFrom start ts).mapM fun s => s.shift (UInt32.ofNat offset)) =
      .ok (spansFrom (offset + start) ts) := by
  induction ts generalizing start with
  | nil => rfl
  | cons token ts ih =>
    rw [bytes_cons] at h
    have hshift := ByteSpan.shift_ofBounds (Nat.le_add_right start token.text.utf8ByteSize)
      (show offset + (start + token.text.utf8ByteSize) < UInt32.size by omega)
    have hrest := ih (show offset + (start + token.text.utf8ByteSize) + bytes ts < UInt32.size by
      omega)
    rw [← Nat.add_assoc] at hshift hrest
    rw [spansFrom, spansFrom, List.mapM_cons, hshift, hrest]
    rfl

/-- The span of a token reaches from its offset to the next one. -/
theorem getElem?_spans {i : Nat} (h : i < t.length) :
    t.spans[i]? = some (.ofBounds (t.offset i) (t.offset (i + 1))) := by
  have hi : i < t.tokens.toList.length := h
  have hcut : t.tokens.toList = t.tokens.toList.take i ++
      (t.tokens.toList[i] :: t.tokens.toList.drop (i + 1)) := by
    rw [← List.drop_eq_getElem_cons hi, List.take_append_drop]
  have hlen : (spansFrom 0 (t.tokens.toList.take i)).length = i := by
    rw [length_spansFrom, List.length_take_of_le (Nat.le_of_lt hi)]
  have hnext : t.offset (i + 1) = t.offset i + (t.tokens.toList[i]).text.utf8ByteSize := by
    rw [offset, List.take_succ_eq_append_getElem hi, bytes_append, bytes_cons]
    rfl
  rw [spans, hcut, spansFrom_append, List.getElem?_append_right (Nat.le_of_eq hlen), hlen,
    Nat.sub_self, spansFrom, Nat.zero_add, hnext]
  rfl

/-- Two tokens cut the text in three: what is before the first, what the tokens between them read,
and the rest. -/
theorem text_eq_append {e : Extent} (hle : e.start ≤ e.stop) (hlen : e.stop ≤ t.length) :
    ∃ before after, t.text = before ++ t.extentText e ++ after ∧
      before.utf8ByteSize = t.offset e.start ∧
      (before ++ t.extentText e).utf8ByteSize = t.offset e.stop := by
  have hstop : e.stop ≤ t.tokens.toList.length := hlen
  have hmiddle : ((t.tokens.toList.drop e.start).take (e.stop - e.start)).length =
      e.stop - e.start := by
    rw [List.length_take_of_le]
    rw [List.length_drop]
    omega
  have htext := StandsAt.extentText (t := t) (i := e.start)
    (List.take_prefix (e.stop - e.start) (t.tokens.toList.drop e.start))
  rw [hmiddle, Nat.add_sub_cancel' hle] at htext
  have htake : t.tokens.toList.take e.start ++
      (t.tokens.toList.drop e.start).take (e.stop - e.start) = t.tokens.toList.take e.stop := by
    rw [← List.take_add, Nat.add_sub_cancel' hle]
  refine ⟨String.join ((t.tokens.toList.take e.start).map Token.text),
    String.join ((t.tokens.toList.drop e.stop).map Token.text), ?_, rfl, ?_⟩
  · rw [htext, ← String.join_append, ← String.join_append, ← List.map_append, ← List.map_append,
      htake, List.take_append_drop]
    rfl
  · rw [htext, ← String.join_append, ← List.map_append, htake]
    rfl

/-- Between the offsets of two tokens stand the tokens between them. -/
theorem read?_offset (hsize : t.text.utf8ByteSize < UInt32.size) {e : Extent}
    (hle : e.start ≤ e.stop) (hlen : e.stop ≤ t.length) :
    (ByteSpan.ofBounds (t.offset e.start) (t.offset e.stop)).read? t.text =
      some (t.extentText e) := by
  obtain ⟨before, after, htext, hstart, hstop⟩ := text_eq_append hle hlen
  rw [← hstart, ← hstop, String.utf8ByteSize_append]
  exact ByteSpan.read?_ofBounds htext hsize

theorem tokenText_eq_extentText {i : Nat} (h : i < t.length) :
    t.tokenText i = t.extentText ⟨i, i + 1⟩ := by
  rw [extentText_eq_join (e := ⟨i, i + 1⟩) h, Extent.indices_cons (Nat.lt_succ_self i),
    Extent.indices_eq_nil (Nat.le_refl _)]
  simp

/-! ### Tokens stand where their spans say -/

/-- Tokens stand where their spans say. -/
structure Placed (t : TaggedText) : Prop where
  /-- There is a span for each token. -/
  count : t.spans.length = t.length
  /-- Spans follow on one another from the first byte of the text to its last. -/
  tile : ByteSpan.Tile t.text.utf8ByteSize 0 t.spans
  /-- The length of a span can be computed. -/
  length : ∀ s ∈ t.spans, ∃ n, s.length = .ok n ∧ s.start.toNat + n.toNat = s.stop.toNat
  /-- What is read at the span of a token is the token's text. -/
  tokenText : ∀ i s, t.spans[i]? = some s → s.read? t.text = some (t.tokenText i)
  /-- What is read from one span through another is the text of the extent. -/
  extentText : ∀ e : Extent, e.start < e.stop → e.stop ≤ t.length →
    ∃ first last, t.spans[e.start]? = some first ∧ t.spans[e.stop - 1]? = some last ∧
      (first.through last).read? t.text = some (t.extentText e)

theorem length_spans (t : TaggedText) : t.spans.length = t.length :=
  length_spansFrom 0 t.tokens.toList

theorem tile_spans (hsize : t.text.utf8ByteSize < UInt32.size) :
    ByteSpan.Tile t.text.utf8ByteSize 0 t.spans := by
  have hbytes : 0 + bytes t.tokens.toList = t.text.utf8ByteSize := Nat.zero_add _
  rw [← hbytes] at hsize ⊢
  exact tile_spansFrom hsize

theorem placed_of_lt (hsize : t.text.utf8ByteSize < UInt32.size) : t.Placed where
  count := t.length_spans
  tile := tile_spans hsize
  length s hs := ByteSpan.length_eq_ok ((tile_spans hsize).start_le_stop s hs)
  tokenText i s hs := by
    have hi : i < t.length := by
      rw [← t.length_spans]
      exact (List.getElem?_eq_some_iff.mp hs).1
    rw [getElem?_spans hi, Option.some.injEq] at hs
    rw [← hs, tokenText_eq_extentText hi]
    exact read?_offset hsize (e := ⟨i, i + 1⟩) (Nat.le_succ i) hi
  extentText e hlt hlen := by
    have hlast : e.stop - 1 + 1 = e.stop := by omega
    refine ⟨_, _, getElem?_spans (by omega), getElem?_spans (by omega), ?_⟩
    rw [hlast]
    exact read?_offset hsize (Nat.le_of_lt hlt) hlen

/-! ### How a text comes about -/

/-- Sets tags of one taxonomy, on one token or on an extent. -/
inductive Tagging where
  | role (i : Nat) (role : Option Role)
  | roles (e : Extent) (role : Option Role)
  | classRole (i : Nat) (classRole : Option ClassRole)
  | highlight (i : Nat) (highlight : Option Highlight)
  | comment (i : Nat) (comment : Option CommentMark)

/-- What may be done to a text. -/
inductive Edit where
  /-- A text is cut into tokens, and takes the place of what was there. -/
  | tokenize (text : String)
  /-- Nothing takes the place of what was there. -/
  | clear
  /-- Pieces with kinds and tags of other tokens take the place of what was there. -/
  | ofPieces (pieces : List (String × Token))
  /-- A text is appended. -/
  | push (text : String) (role : Option Role)
  /-- Tags are set. -/
  | retag (tagging : Tagging)

/-- The text with tags set. -/
def retag (t : TaggedText) : Tagging → TaggedText
  | .role i role => t.setRole i role
  | .roles e role => t.setRoles e role
  | .classRole i classRole => t.setClassRole i classRole
  | .highlight i highlight => t.setHighlight i highlight
  | .comment i comment => t.setComment i comment

/-- The text after an edit. -/
def edit (t : TaggedText) : Edit → TaggedText
  | .tokenize text => .tokenize text
  | .clear => {}
  | .ofPieces pieces => .ofPieces pieces
  | .push text role => t.push text role
  | .retag tagging => t.retag tagging

/-- The text that edits make, one after another, from nothing. -/
def build (edits : List Edit) : TaggedText :=
  edits.foldl edit {}

namespace Tagging

/-- Whether the token at an index is given a tag. Blank tokens of an extent are not. -/
def targets (t : TaggedText) (i : Nat) : Tagging → Bool
  | .role j _ | .classRole j _ | .highlight j _ | .comment j _ => i == j
  | .roles e _ => e.contains i && !t.isBlankAt i

/-- A token with the tag it is given. -/
def put (token : Token) : Tagging → Token
  | .role _ r | .roles _ r => { token with role := r }
  | .classRole _ r => { token with classRole := r }
  | .highlight _ h => { token with highlight := h }
  | .comment _ c => { token with comment := c }

theorem text_put (token : Token) (tagging : Tagging) : (tagging.put token).text = token.text := by
  cases tagging <;> rfl

end Tagging

theorem token?_modify (t : TaggedText) (i j : Nat) (f : Token → Token) :
    (TaggedText.mk (t.tokens.modify j f)).token? i =
      (t.token? i).map fun token => if i == j then f token else token := by
  rw [token?, token?, Array.getElem?_modify]
  by_cases h : j = i
  · simp [h]
  · simp [h, Ne.symm h]

/-- Setting tags gives the tag to its targets, and does nothing else. -/
theorem token?_retag (t : TaggedText) (tagging : Tagging) (i : Nat) :
    (t.retag tagging).token? i = (t.token? i).map fun token =>
      if tagging.targets t i then tagging.put token else token := by
  cases tagging with
  | role j r => exact token?_modify t i j fun token => { token with role := r }
  | classRole j r => exact token?_modify t i j fun token => { token with classRole := r }
  | highlight j h => exact token?_modify t i j fun token => { token with highlight := h }
  | comment j c => exact token?_modify t i j fun token => { token with comment := c }
  | roles e r =>
    rw [retag, setRoles, token?, Array.getElem?_mapIdx, ← token?]
    cases htoken : t.token? i with
    | none => rfl
    | some token =>
      simp only [Option.map_some, Tagging.targets, isBlankAt_of_token? htoken, Tagging.put, mark]
      cases e.contains i <;> cases token.isBlank <;> rfl

theorem map_text_retag (t : TaggedText) (tagging : Tagging) :
    (t.retag tagging).tokens.toList.map Token.text = t.tokens.toList.map Token.text := by
  refine List.ext_getElem? fun i => ?_
  rw [List.getElem?_map, List.getElem?_map, ← token?_eq_getElem?, ← token?_eq_getElem?,
    token?_retag, Option.map_map]
  congr 1
  funext token
  show (if tagging.targets t i then tagging.put token else token).text = token.text
  split
  · exact tagging.text_put token
  · rfl

theorem text_retag (t : TaggedText) (tagging : Tagging) : (t.retag tagging).text = t.text := by
  rw [text, text, map_text_retag]

theorem spansFrom_congr {start : Nat} {ts us : List Token}
    (h : ts.map Token.text = us.map Token.text) : spansFrom start ts = spansFrom start us := by
  induction ts generalizing start us with
  | nil =>
    obtain rfl : us = [] := List.map_eq_nil_iff.mp h.symm
    rfl
  | cons token ts ih =>
    cases us with
    | nil => simp at h
    | cons token' us =>
      obtain ⟨htext, hrest⟩ := List.cons.inj h
      rw [spansFrom, spansFrom, htext, ih hrest]

theorem spans_retag (t : TaggedText) (tagging : Tagging) : (t.retag tagging).spans = t.spans :=
  spansFrom_congr (map_text_retag t tagging)

end TaggedText

/-! ### A text kept whole -/

open TaggedText (Edit Tagging)

/-- A text kept whole, with a span for each token. -/
structure Buffer where
  text : String := ""
  spans : List ByteSpan := []

namespace Buffer

/-- Appends a piece as one token. -/
def append (b : Buffer) (piece : String) : Buffer :=
  { text := b.text ++ piece
    spans := b.spans ++ [.ofBounds b.text.utf8ByteSize (b.text ++ piece).utf8ByteSize] }

/-- The buffer after an edit. What is appended is cut on its own, and its spans are moved behind
what was there. -/
def edit (b : Buffer) : Edit → Except Overflow Buffer
  | .tokenize text => .ok { text, spans := (TaggedText.tokenize text).spans }
  | .clear => .ok {}
  | .ofPieces pieces => .ok (pieces.foldl (fun b piece => b.append piece.1) {})
  | .push text _ => do
    let moved ← (TaggedText.tokenize text).spans.mapM
      fun s => s.shift (UInt32.ofNat b.text.utf8ByteSize)
    return { text := b.text ++ text, spans := b.spans ++ moved }
  | .retag _ => .ok b

/-- The buffer that edits make, one after another, from nothing. -/
def build (edits : List Edit) : Except Overflow Buffer :=
  edits.foldlM edit {}

/-- The buffer of a tagged text. -/
def ofText (t : TaggedText) : Buffer :=
  ⟨t.text, t.spans⟩

theorem append_ofText (t : TaggedText) (token : Token) :
    (ofText t).append token.text = ofText ⟨t.tokens ++ #[token]⟩ := by
  have htext : (TaggedText.mk (t.tokens ++ #[token])).text = t.text ++ token.text := by
    simp [TaggedText.text, String.join_append]
  have hspans : (TaggedText.mk (t.tokens ++ #[token])).spans =
      t.spans ++ [.ofBounds t.text.utf8ByteSize (t.text ++ token.text).utf8ByteSize] := by
    rw [TaggedText.spans, Array.toList_append, TaggedText.spansFrom_append, Nat.zero_add,
      String.utf8ByteSize_append]
    rfl
  rw [append, ofText, ofText, htext, hspans]

/-- Pieces are appended as tokens are. -/
theorem foldl_append_ofText (t : TaggedText) (pieces : List (String × Token)) :
    pieces.foldl (fun b piece => b.append piece.1) (ofText t) =
      ofText ⟨t.tokens ++ (TaggedText.ofPieces pieces).tokens⟩ := by
  induction pieces generalizing t with
  | nil => simp [TaggedText.ofPieces]
  | cons piece pieces ih =>
    obtain ⟨text, source⟩ := piece
    rw [List.foldl_cons, append_ofText t { source with text }, ih]
    simp [TaggedText.ofPieces]

/-- What is appended to a text has the spans it has on its own, moved behind the text. -/
theorem spans_push (t : TaggedText) (text : String) (role : Option Role)
    (h : t.text.utf8ByteSize + text.utf8ByteSize < UInt32.size) :
    ∃ moved, ((TaggedText.tokenize text).spans.mapM fun s =>
        s.shift (UInt32.ofNat t.text.utf8ByteSize)) = .ok moved ∧
      (t.push text role).spans = t.spans ++ moved := by
  have hbytes : TaggedText.bytes (TaggedText.tokenize text).tokens.toList = text.utf8ByteSize :=
    congrArg String.utf8ByteSize (TaggedText.text_tokenize text)
  have hmarked : ((TaggedText.tokensOf text).map (TaggedText.mark role)).map Token.text =
      (TaggedText.tokensOf text).map Token.text := by
    simp [Function.comp_def, TaggedText.text_mark]
  rw [← hbytes] at h
  refine ⟨_, TaggedText.mapM_shift_spansFrom h, ?_⟩
  rw [TaggedText.spans, TaggedText.push, Array.toList_append, TaggedText.spansFrom_append,
    TaggedText.spansFrom_congr hmarked, Nat.zero_add]
  rfl

/-- **One edit.** The arithmetic of an edit does not overflow, and comes out at the spans of the
tokens. -/
theorem edit_ofText {t : TaggedText} {e : Edit}
    (h : (t.edit e).text.utf8ByteSize < UInt32.size) :
    (ofText t).edit e = .ok (ofText (t.edit e)) := by
  cases e with
  | tokenize text =>
    rw [edit, TaggedText.edit, ofText, TaggedText.text_tokenize]
  | clear => rfl
  | ofPieces pieces =>
    have hfold := foldl_append_ofText {} pieces
    rw [Array.empty_append] at hfold
    exact congrArg Except.ok hfold
  | push text role =>
    rw [TaggedText.edit, TaggedText.text_push, String.utf8ByteSize_append] at h
    obtain ⟨moved, hmoved, hspans⟩ := spans_push t text role h
    rw [TaggedText.edit, ofText, ofText, TaggedText.text_push, hspans, edit, hmoved]
    rfl
  | retag tagging =>
    rw [TaggedText.edit, ofText, ofText, TaggedText.text_retag, TaggedText.spans_retag]
    rfl

theorem foldlM_edit_ofText {t : TaggedText} {edits : List Edit}
    (h : ∀ n, ((edits.take n).foldl TaggedText.edit t).text.utf8ByteSize < UInt32.size) :
    edits.foldlM edit (ofText t) = .ok (ofText (edits.foldl TaggedText.edit t)) := by
  induction edits generalizing t with
  | nil => rfl
  | cons e edits ih =>
    have hstep := edit_ofText (h 1)
    have hrest := ih fun n => h (n + 1)
    rw [List.foldlM_cons, hstep]
    exact hrest

/-- **A run of edits.** As long as the text stays short enough, no arithmetic overflows along a run,
and the spans are those of the tokens. -/
theorem build_eq_ok {edits : List Edit}
    (h : ∀ n, (TaggedText.build (edits.take n)).text.utf8ByteSize < UInt32.size) :
    build edits = .ok (ofText (TaggedText.build edits)) :=
  foldlM_edit_ofText h

end Buffer

/-! ### Every text that can be built -/

namespace TaggedText

/-- `t'` is `t` with a text appended: what was there before is as it was. -/
structure Prolonged (t : TaggedText) (added : String) (t' : TaggedText) : Prop where
  text : t'.text = t.text ++ added
  /-- The extent of what was appended reads what was appended. -/
  appended : t'.extentText (appended t t') = added
  token? : ∀ i, i < t.length → t'.token? i = t.token? i
  span : ∀ i, i < t.length → t'.spans[i]? = t.spans[i]?
  extentText : ∀ e : Extent, e.stop ≤ t.length → t'.extentText e = t.extentText e

/-- `t'` is `t` with tags set: the targets are given the one tag, and all else is as it was. -/
structure Retagged (t : TaggedText) (tagging : Tagging) (t' : TaggedText) : Prop where
  text : t'.text = t.text
  spans : t'.spans = t.spans
  token? : ∀ i, t'.token? i = (t.token? i).map fun token =>
    if tagging.targets t i then tagging.put token else token

theorem prolonged_push (t : TaggedText) (text : String) (role : Option Role) :
    t.Prolonged text (t.push text role) := by
  have htoken : ∀ i, i < t.length → (t.push text role).token? i = t.token? i := by
    intro i hi
    rw [token?, push, Array.getElem?_append_left hi]
    rfl
  have hlen : t.length ≤ (t.push text role).length := by
    rw [length_push]
    exact Nat.le_add_right _ _
  refine ⟨text_push t text role, ?_, htoken, fun i hi => ?_, fun e he => ?_⟩
  · have htokens : (t.push text role).tokens.toList =
        t.tokens.toList ++ (tokensOf text).map (mark role) ++ [] := by
      simp [push]
    have hread := (standsAt_of_tokens htokens).extentText
    have hextent : appended t (t.push text role) =
        ⟨t.tokens.toList.length,
          t.tokens.toList.length + ((tokensOf text).map (mark role)).length⟩ := by
      rw [appended, length_push, List.length_map]
      rfl
    have hjoin : String.join ((tokensOf text).map Token.text) = text := text_tokenize text
    rw [hextent, hread, List.map_map, Function.comp_def]
    simp only [text_mark, hjoin]
  · rw [spans, push, Array.toList_append, spansFrom_append, List.getElem?_append_left]
    · rfl
    · rw [length_spansFrom]
      exact hi
  · rw [extentText_eq_join he, extentText_eq_join (Nat.le_trans he hlen)]
    refine congrArg String.join (List.map_congr_left fun i hi => ?_)
    rw [tokenText, tokenText, htoken i (Nat.lt_of_lt_of_le (Extent.mem_indices.mp hi).2 he)]

/-- **Texts that can be built fit their bytes.** While a text stays short enough, keeping it whole
overflows nowhere and comes to the same spans. They tile the text, and what is read at them is what
the tokens hold. Appending leaves what was there as it was, and setting tags changes nothing but the
one tag of its targets. -/
theorem build_represented (edits : List Edit)
    (h : ∀ n, (build (edits.take n)).text.utf8ByteSize < UInt32.size) :
    Buffer.build edits = .ok (.ofText (build edits)) ∧
    (build edits).Placed ∧
    (∀ e : Extent, e.start ≤ e.stop → e.stop ≤ (build edits).length →
      (build edits).extentText e = String.join (e.indices.map (build edits).tokenText)) ∧
    (∀ text role, (build edits).Prolonged text ((build edits).push text role)) ∧
    ∀ tagging, (build edits).Retagged tagging ((build edits).retag tagging) := by
  have hsize : (build edits).text.utf8ByteSize < UInt32.size := by
    have hall := h edits.length
    rwa [List.take_length] at hall
  exact ⟨Buffer.build_eq_ok h, placed_of_lt hsize, fun e _ he => extentText_eq_join he,
    prolonged_push _, fun tagging => ⟨text_retag _ _, spans_retag _ _, token?_retag _ _⟩⟩

end TaggedText

namespace Sample

/-- Pieces, one of them empty, then more text, then tags, some of them past the last token. -/
def edits : List TaggedText.Edit :=
  [.ofPieces [("é", { kind := .text, text := "x" }), ("", { kind := .symbol, text := "*" })],
   .push "ü\r\n\tx" (some .name), .retag (.roles ⟨1, 9⟩ (some .typeName)),
   .retag (.highlight 7 (some .keyword))]

example : (TaggedText.build edits).spans =
    [⟨0, 2⟩, ⟨2, 2⟩, ⟨2, 4⟩, ⟨4, 6⟩, ⟨6, 7⟩, ⟨7, 8⟩] := by decide

theorem build_represented_edits :
    (∀ n, (TaggedText.build (edits.take n)).text.utf8ByteSize < UInt32.size) ∧
      (TaggedText.build edits).Placed := by
  have h : ∀ n, (TaggedText.build (edits.take n)).text.utf8ByteSize < UInt32.size := by
    intro n
    have hshort : ∀ n, n < 5 →
        (TaggedText.build (edits.take n)).text.utf8ByteSize < UInt32.size := by decide
    rcases Nat.lt_or_ge n 5 with hn | hn
    · exact hshort n hn
    · rw [List.take_of_length_le (Nat.le_of_lt hn)]
      exact hshort 4 (by decide)
  exact ⟨h, (TaggedText.build_represented edits h).2.1⟩

end Sample

end DeclOutline
