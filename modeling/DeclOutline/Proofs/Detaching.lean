import DeclOutline.Proofs.Relexing

/-!
# A detached excerpt reads as before

An excerpt reads an extent of a text that belongs to someone else. Detaching it makes a text of its
own from the tokens of the extent, and who holds an excerpt is not told which of the two it is. The
two are kept apart all the same: where texts are kept whole, one is read at spans of the text it was
taken from, and the other at spans that were counted anew while its tokens were appended. An answer
could differ if a span of either did not fit its bytes.

While the text is below `2 ^ 32` bytes no answer does. The argument is in two steps. What is read at
spans is what the tokens hold, whatever is asked. And an excerpt that lies inside its source is
known from its tokens alone, which detaching keeps.

## Main definitions

* `Buffer.tokenText`, `Buffer.extentText`, `Buffer.copy` — a text kept whole, read at its spans, and
  an extent of it appended anew
* `Excerpt.InBounds` — the extent of an excerpt ends inside its source
* `Excerpt.Alike` — two excerpts give the same answers
* `Excerpt.ReadAtSpans` — the answers of an excerpt are what is read at spans

## Main results

* `Buffer.tokenText_ofText`, `Buffer.extentText_ofText`, `Buffer.copy_ofText` — reading at spans
* `Excerpt.InBounds.token?_eq_getElem?`, `Excerpt.InBounds.text_eq_join` — an excerpt is known from
  its tokens
* `Excerpt.alike_of_tokens` — excerpts with the same tokens
* `Excerpt.detach_reads_alike` — a detached excerpt
-/

namespace DeclOutline

/-! ### Reading a text that is kept whole -/

namespace Buffer

variable {t : TaggedText}

/-- The text of the token at an index, read at its span. -/
def tokenText (b : Buffer) (i : Nat) : String :=
  (b.spans[i]?.bind fun s => s.read? b.text).getD ""

/-- The text of an extent, read from its first span through its last one. An empty extent, and one
that reaches past the last span, has none. -/
def extentText (b : Buffer) (e : Extent) : String :=
  if e.isEmpty || b.spans.length < e.stop then ""
  else
    (b.spans[e.start]?.bind fun first =>
      b.spans[e.stop - 1]?.bind fun last => (first.through last).read? b.text).getD ""

/-- A copy of an extent: the texts of its tokens, appended one after another to nothing. -/
def copy (b : Buffer) (e : Extent) : Buffer :=
  (e.indices.filter fun i => i < b.spans.length).foldl (fun c i => c.append (b.tokenText i)) {}

/-- What is read at the span of a token is what the token holds. -/
theorem tokenText_ofText (hsize : t.text.utf8ByteSize < UInt32.size) (i : Nat) :
    (ofText t).tokenText i = t.tokenText i := by
  rcases Nat.lt_or_ge i t.length with hi | hi
  · have hspan := TaggedText.getElem?_spans hi
    have hread := (TaggedText.placed_of_lt hsize).tokenText i _ hspan
    rw [tokenText, ofText, hspan, Option.bind_some, hread]
    rfl
  · have hnone : t.spans[i]? = none := by
      rw [List.getElem?_eq_none_iff, t.length_spans]
      exact hi
    rw [tokenText, ofText, hnone, TaggedText.tokenText, TaggedText.token?_eq_none hi]
    rfl

/-- What is read from one span through another is what the tokens of the extent hold. -/
theorem extentText_ofText (hsize : t.text.utf8ByteSize < UInt32.size) (e : Extent) :
    (ofText t).extentText e = t.extentText e := by
  rw [extentText, TaggedText.extentText, ofText, t.length_spans]
  split
  · rfl
  · next hne =>
    simp only [Extent.isEmpty, Bool.or_eq_true, decide_eq_true_eq, not_or, Nat.not_le,
      Nat.not_lt] at hne
    obtain ⟨first, last, hfirst, hlast, hread⟩ :=
      (TaggedText.placed_of_lt hsize).extentText e hne.1 hne.2
    rw [hfirst, hlast, Option.bind_some, Option.bind_some, hread, Option.getD_some,
      TaggedText.extentText_eq_join hne.2]

/-- Texts that are appended to nothing make a text of their tokens. -/
theorem foldl_append_tokens (ts : List Token) :
    ts.foldl (fun b token => b.append token.text) {} = ofText ⟨ts.toArray⟩ := by
  have hpieces := foldl_append_ofText {} (ts.map fun token => (token.text, token))
  have htokens : (TaggedText.ofPieces (ts.map fun token => (token.text, token))).tokens =
      ts.toArray := by
    rw [TaggedText.ofPieces, List.map_map]
    exact congrArg List.toArray (List.map_id ts)
  rw [htokens, Array.empty_append, List.foldl_map] at hpieces
  exact hpieces

/-- Going through the indices that have tokens is going through the tokens. -/
theorem foldl_append_tokenText (b : Buffer) (is : List Nat) :
    (is.filter fun i => i < t.length).foldl (fun b i => b.append (t.tokenText i)) b =
      (is.filterMap t.token?).foldl (fun b token => b.append token.text) b := by
  induction is generalizing b with
  | nil => rfl
  | cons i is ih =>
    rcases Nat.lt_or_ge i t.length with hi | hi
    · have htoken := TaggedText.token?_of_lt hi
      rw [List.filter_cons_of_pos (by simpa using hi), List.filterMap_cons_some htoken,
        List.foldl_cons, List.foldl_cons, ih, TaggedText.tokenText, htoken]
    · rw [List.filter_cons_of_neg (by simpa using hi),
        List.filterMap_cons_none (TaggedText.token?_eq_none hi), ih]

/-- Appending the texts of an extent anew comes to the text of its tokens, with the spans that are
counted from them. -/
theorem copy_ofText (hsize : t.text.utf8ByteSize < UInt32.size) (e : Extent) :
    (ofText t).copy e = ofText ⟨(t.slice e).toArray⟩ := by
  have hread : (fun (c : Buffer) i => c.append ((ofText t).tokenText i)) =
      fun c i => c.append (t.tokenText i) := by
    funext c i
    rw [tokenText_ofText hsize]
  have hlength : (ofText t).spans.length = t.length := t.length_spans
  rw [copy, hread, hlength, foldl_append_tokenText, foldl_append_tokens,
    TaggedText.slice_eq_filterMap]

end Buffer

namespace Excerpt

variable {x y : Excerpt} {t : TaggedText} {e : Extent}

/-! ### An excerpt is known from its tokens -/

/-- The extent of an excerpt ends inside its source. The extent may be empty or inverted. -/
def InBounds (x : Excerpt) : Prop :=
  x.extent.stop ≤ x.source.length

/-- There is a token at each offset. -/
theorem InBounds.isSome_token? (h : x.InBounds) {k : Nat} (hk : k < x.length) :
    (x.token? k).isSome = true := by
  have hlt : x.extent.start + k < x.source.length := by
    have hlen : k < x.extent.stop - x.extent.start := hk
    have hstop : x.extent.stop ≤ x.source.length := h
    omega
  rw [token?, index?, if_pos hk, Option.bind_some, TaggedText.token?_of_lt hlt]
  rfl

theorem InBounds.length_tokens (h : x.InBounds) : x.tokens.length = x.length :=
  (filterMap_range_of_isSome fun _ hk => h.isSome_token? hk).1

theorem InBounds.token?_eq_getElem? (h : x.InBounds) (k : Nat) : x.token? k = x.tokens[k]? := by
  rcases Nat.lt_or_ge k x.length with hk | hk
  · exact ((filterMap_range_of_isSome fun _ hk => h.isSome_token? hk).2 k hk).symm
  · rw [List.getElem?_eq_none (by rw [h.length_tokens]; exact hk), token?, index?,
      if_neg (Nat.not_lt.mpr hk)]
    rfl

theorem InBounds.text_eq_join (h : x.InBounds) :
    x.text = String.join (x.tokens.map Token.text) := by
  apply String.toList_inj.mp
  rw [toList_text h, String.toList_join, List.flatMap_map]

/-- The texts of the tokens, put one after another, are the text. -/
theorem InBounds.joinedText_eq_text (h : x.InBounds) : x.joinedText = x.text := by
  rw [joinedText, h.text_eq_join]
  congr 1
  refine List.ext_getElem? fun k => ?_
  rw [List.getElem?_map, List.getElem?_map, ← h.token?_eq_getElem?]
  rcases Nat.lt_or_ge k x.length with hk | hk
  · obtain ⟨token, htoken⟩ := Option.isSome_iff_exists.mp (h.isSome_token? hk)
    rw [List.getElem?_range hk, Option.map_some, tokenText, htoken]
    rfl
  · have hnone : x.token? k = none := by
      rw [h.token?_eq_getElem?, List.getElem?_eq_none (by rw [h.length_tokens]; exact hk)]
    rw [List.getElem?_eq_none (by rw [List.length_range]; exact hk), hnone]
    rfl

/-! ### Excerpts that give the same answers -/

/-- Two excerpts give the same answers. -/
structure Alike (x y : Excerpt) : Prop where
  length : x.length = y.length
  text : x.text = y.text
  /-- The same token, with its text, its kind and its four tags, or none for both. -/
  token? : ∀ k, x.token? k = y.token? k
  tokenText : ∀ k, x.tokenText k = y.tokenText k
  role? : ∀ k, x.role? k = y.role? k
  joinedText : x.joinedText = y.joinedText

/-- **Excerpts with the same tokens** give the same answers. -/
theorem alike_of_tokens (hx : x.InBounds) (hy : y.InBounds) (h : x.tokens = y.tokens) :
    x.Alike y := by
  have htext : x.text = y.text := by rw [hx.text_eq_join, hy.text_eq_join, h]
  have htoken : ∀ k, x.token? k = y.token? k := by
    intro k
    rw [hx.token?_eq_getElem?, hy.token?_eq_getElem?, h]
  refine ⟨?_, htext, htoken, fun k => ?_, fun k => ?_, ?_⟩
  · rw [← hx.length_tokens, ← hy.length_tokens, h]
  · rw [tokenText, tokenText, htoken]
  · rw [role?, role?, htoken]
  · rw [hx.joinedText_eq_text, hy.joinedText_eq_text, htext]

/-- The answers of an excerpt are what is read at the spans of its source. -/
structure ReadAtSpans (x : Excerpt) : Prop where
  text : x.text = (Buffer.ofText x.source).extentText x.extent
  tokenText : ∀ k, k < x.length →
    x.tokenText k = (Buffer.ofText x.source).tokenText (x.extent.start + k)

theorem readAtSpans (hsize : x.source.text.utf8ByteSize < UInt32.size) : x.ReadAtSpans where
  text := (Buffer.extentText_ofText hsize x.extent).symm
  tokenText k hk := by
    rw [Buffer.tokenText_ofText hsize, tokenText, token?, index?, if_pos hk]
    rfl

/-! ### Detaching -/

theorem inBounds_whole (t : TaggedText) : (whole t).InBounds :=
  Nat.le_refl t.length

theorem tokens_detach (x : Excerpt) : x.detach.tokens = x.tokens := by
  cases x with
  | within t e =>
    rw [detach, tokens_whole, tokens_eq_filterMap, TaggedText.slice_eq_filterMap]
    rfl
  | whole t => rfl

theorem inBounds_detach (x : Excerpt) : x.detach.InBounds := by
  cases x with
  | within t e => exact inBounds_whole _
  | whole t => exact inBounds_whole t

/-- A part of a text is not longer than the text. -/
theorem utf8ByteSize_text_le (t : TaggedText) (e : Extent) :
    (TaggedText.mk (t.slice e).toArray).text.utf8ByteSize ≤ t.text.utf8ByteSize := by
  show TaggedText.bytes (t.slice e) ≤ TaggedText.bytes t.tokens.toList
  have hsplit : t.tokens.toList = t.tokens.toList.take e.start ++
      (t.slice e ++ (t.tokens.toList.drop e.start).drop (e.stop - e.start)) := by
    rw [TaggedText.slice_eq_take_drop, List.take_append_drop, List.take_append_drop]
  rw [hsplit, TaggedText.bytes_append, TaggedText.bytes_append]
  omega

/-- **A detached excerpt reads as before.** Take any extent that ends inside a text of less than
`2 ^ 32` bytes. The excerpt and its detached form give the same answers, and past their last offset
there is nothing in either. The text of either is what its tokens read one after another, and either
is read at the spans of its own source. Detaching appends the tokens anew to nothing, the spans that
this counts tile the new text, and detaching again changes nothing. -/
theorem detach_reads_alike (t : TaggedText) (hsize : t.text.utf8ByteSize < UInt32.size)
    (e : Extent) (hstop : e.stop ≤ t.length) :
    (within t e).detach.Alike (within t e) ∧
    (∀ k, (within t e).length ≤ k →
      (within t e).token? k = none ∧ (within t e).detach.token? k = none) ∧
    ((within t e).text = (within t e).joinedText ∧
      (within t e).detach.text = (within t e).detach.joinedText) ∧
    ((within t e).ReadAtSpans ∧ (within t e).detach.ReadAtSpans) ∧
    (Buffer.ofText (within t e).detach.source = (Buffer.ofText t).copy e ∧
      (within t e).detach.source.Placed) ∧
    ∀ u, (whole u).detach = whole u := by
  have hin : (within t e).InBounds := hstop
  have hout : (within t e).detach.InBounds := inBounds_detach _
  have halike := alike_of_tokens hout hin (tokens_detach (within t e))
  have hsize' : (within t e).detach.source.text.utf8ByteSize < UInt32.size :=
    Nat.lt_of_le_of_lt (utf8ByteSize_text_le t e) hsize
  refine ⟨halike, fun k hk => ?_, ⟨hin.joinedText_eq_text.symm, hout.joinedText_eq_text.symm⟩,
    ⟨readAtSpans hsize, readAtSpans hsize'⟩,
    ⟨(Buffer.copy_ofText hsize e).symm, TaggedText.placed_of_lt hsize'⟩, fun _ => rfl⟩
  have hnone : (within t e).token? k = none := by
    rw [token?, index?, if_neg (Nat.not_lt.mpr hk)]
    rfl
  exact ⟨hnone, (halike.token? k).trans hnone⟩

end Excerpt

namespace Sample

/-- The extent begins with an empty token, and its spans are counted from zero again. -/
theorem detach_reads_alike_edits :
    (TaggedText.build edits).text.utf8ByteSize < UInt32.size ∧
      4 ≤ (TaggedText.build edits).length ∧
      (Excerpt.within (.build edits) ⟨1, 4⟩).detach.Alike (.within (.build edits) ⟨1, 4⟩) ∧
      ((Buffer.ofText (.build edits)).copy ⟨1, 4⟩).spans = [⟨0, 0⟩, ⟨0, 2⟩, ⟨2, 4⟩] := by
  have hsize : (TaggedText.build edits).text.utf8ByteSize < UInt32.size := by decide
  have hstop : 4 ≤ (TaggedText.build edits).length := by decide
  obtain ⟨halike, -, -, -, ⟨hcopy, -⟩, -⟩ :=
    Excerpt.detach_reads_alike (.build edits) hsize ⟨1, 4⟩ hstop
  refine ⟨hsize, hstop, halike, ?_⟩
  rw [← hcopy]
  decide

end Sample

end DeclOutline
