import DeclOutline.Proofs.Relexing
import Mathlib.Data.List.DropRight

/-!
# Trimming tokens strips the text

An extent is trimmed by its tokens, and nobody looks at characters. A reader of the text would
strip it instead: take away spaces, tabs, CRs and LFs from either end, and know nothing of tokens.
Where the tokens are those of a text, the two come to the same. A blank token has only such
characters and any other token has none of them, so the first character that stripping stops at
is the first one of the first token that trimming stops at, and likewise from behind.

Trimming also settles at once. What it leaves, it leaves alone, and this needs no bounds: an extent
that is inverted or that reaches past the last token is first cut down to the tokens that exist, and
is then as it stays.

## Main definitions

* `Text.isLayoutChar` — a space, a tab, a CR or an LF
* `Text.stripped` — a text without such characters at its ends

## Main results

* `Text.strip_append` — stripping takes away blank ends and nothing else
* `TaggedText.trim_clamp` — the tokens past the last one do not count
* `TaggedText.extentText_trim` — the text of a trimmed extent is the stripped text
* `TaggedText.trim_strips` — all that trimming does
-/

namespace DeclOutline

/-! ### Stripping a text -/

namespace Text

variable {c : Char} {cs before middle after : List Char}

/-- A space, a tab, a CR or an LF. -/
def isLayoutChar (c : Char) : Bool :=
  c == ' ' || c == '\t' || c == '\r' || c == '\n'

/-- Characters without those at either end that are spaces, tabs, CRs or LFs. -/
def strip (cs : List Char) : List Char :=
  (cs.dropWhile isLayoutChar).rdropWhile isLayoutChar

/-- A text without the spaces, tabs, CRs and LFs at either end. -/
def stripped (s : String) : String :=
  String.ofList (strip s.toList)

/-- The characters of blank tokens are those that stripping takes away. -/
theorem isBlank_ofChar (c : Char) : (TokenKind.ofChar c).isBlank = isLayoutChar c := by
  cases hkind : TokenKind.ofChar c with
  | lineBreak => rcases TokenKind.ofChar_eq_lineBreak.mp hkind with rfl | rfl <;> rfl
  | whitespace => rcases TokenKind.ofChar_eq_whitespace.mp hkind with rfl | rfl <;> rfl
  | text =>
    have hword := TokenKind.ofChar_eq_text.mp hkind
    have hbreak := not_or.mp hword.not_isBreakChar
    have hspace := not_or.mp hword.not_isSpaceChar
    simp [TokenKind.isBlank, isLayoutChar, hbreak, hspace]
  | symbol =>
    obtain ⟨hbreak, hspace, -⟩ := TokenKind.ofChar_eq_symbol.mp hkind
    have hbreak' := not_or.mp hbreak
    have hspace' := not_or.mp hspace
    simp [TokenKind.isBlank, isLayoutChar, hbreak', hspace']

/-- Taking away from the front stops at a character that stays. -/
theorem dropWhile_layout_append (hmiddle : ∀ c ∈ middle.head?, isLayoutChar c = false)
    (hafter : ∀ c ∈ after, isLayoutChar c = true) :
    (middle ++ after).dropWhile isLayoutChar = if middle = [] then [] else middle ++ after := by
  cases middle with
  | nil => exact List.dropWhile_eq_nil_iff.mpr hafter
  | cons c cs =>
    have hc : ¬ isLayoutChar c = true := by simpa using hmiddle c rfl
    rw [List.cons_append, List.dropWhile_cons_of_neg hc, if_neg (List.cons_ne_nil c cs)]

/-- Taking away from behind stops at a character that stays. -/
theorem rdropWhile_layout_append (hmiddle : ∀ c ∈ middle.getLast?, isLayoutChar c = false)
    (hafter : ∀ c ∈ after, isLayoutChar c = true) :
    (middle ++ after).rdropWhile isLayoutChar = middle := by
  have hafter' : ∀ c ∈ after.reverse, isLayoutChar c = true := by simpa using hafter
  have hstays : middle.rdropWhile isLayoutChar = middle := by
    refine List.rdropWhile_eq_self_iff.mpr fun hne => ?_
    simp [hmiddle _ (List.getLast?_eq_some_getLast hne)]
  rw [List.rdropWhile, List.reverse_append, List.dropWhile_append_of_pos hafter']
  exact hstays

/-- **Stripping takes away blank ends and nothing else.** -/
theorem strip_append (hbefore : ∀ c ∈ before, isLayoutChar c = true)
    (hafter : ∀ c ∈ after, isLayoutChar c = true)
    (hfirst : ∀ c ∈ middle.head?, isLayoutChar c = false)
    (hlast : ∀ c ∈ middle.getLast?, isLayoutChar c = false) :
    strip (before ++ middle ++ after) = middle := by
  rw [strip, List.append_assoc, List.dropWhile_append_of_pos hbefore,
    dropWhile_layout_append hfirst hafter]
  split
  · next hnil => rw [hnil, List.rdropWhile_nil]
  · exact rdropWhile_layout_append hlast hafter

end Text

/-- A lexeme has characters of one kind: either all of them are taken away or none is. -/
theorem Lexeme.Fits.isLayoutChar {l : Lexeme} (h : l.Fits) {c : Char} (hc : c ∈ l.chars) :
    Text.isLayoutChar c = l.kind.isBlank := by
  rw [h.kind_eq hc, Text.isBlank_ofChar]

namespace TaggedText

variable {t : TaggedText} {e r : Extent}

/-! ### Trimming settles -/

/-- Of an extent that reaches past the last token, the tokens that exist are trimmed. -/
theorem trim_clamp (t : TaggedText) (e : Extent) :
    t.trim ⟨e.start, min e.stop t.length⟩ = t.trim e := by
  simp only [trim, Nat.min_assoc, Nat.min_self]

/-- An inverted extent has nothing to be trimmed. -/
theorem trim_of_stop_lt (h : e.stop < e.start) (hstop : e.stop ≤ t.length) : t.trim e = e := by
  have hmin : min e.stop t.length = e.stop := Nat.min_eq_left hstop
  have hnil : (Extent.mk e.start e.stop).indices = [] := Extent.indices_eq_nil (Nat.le_of_lt h)
  simp [trim, hmin, hnil, Nat.not_le.mpr h]

/-- An extent of blanks collapses to its start. -/
theorem trim_of_blank (hle : e.start ≤ e.stop) (hstop : e.stop ≤ t.length)
    (h : ∀ i, e.start ≤ i → i < e.stop → t.isBlankAt i = true) :
    t.trim e = .collapsed e.start := by
  have htrim := trimmed_trim hle hstop
  have hnone : ¬ (t.trim e).start < (t.trim e).stop := by
    rw [htrim.start_lt_stop_iff]
    rintro ⟨i, hstart, hlt, hsolid⟩
    simp [h i hstart hlt] at hsolid
  have heq : (t.trim e).start = (t.trim e).stop := Nat.le_antisymm htrim.le (Nat.le_of_not_lt hnone)
  show Extent.mk (t.trim e).start (t.trim e).stop = ⟨e.start, e.start⟩
  rw [← heq, htrim.collapse heq]

/-- What trimming leaves has no blanks at its ends. -/
theorem Trimmed.self (h : Trimmed t e r) : Trimmed t r r where
  start_le := Nat.le_refl _
  le := h.le
  stop_le := Nat.le_refl _
  before _ hi hlt := absurd hlt (Nat.not_lt.mpr hi)
  after _ hi hlt := absurd hlt (Nat.not_lt.mpr hi)
  first := h.first
  last := h.last
  collapse _ := rfl

/-- **Trimming settles at once**, wherever the extent lies. -/
theorem trim_trim (t : TaggedText) (e : Extent) : t.trim (t.trim e) = t.trim e := by
  rw [← trim_clamp t e]
  have hstop : min e.stop t.length ≤ t.length := Nat.min_le_right _ _
  rcases Nat.lt_or_ge (min e.stop t.length) e.start with hlt | hle
  · have hsame : t.trim ⟨e.start, min e.stop t.length⟩ = ⟨e.start, min e.stop t.length⟩ :=
      trim_of_stop_lt hlt hstop
    rw [hsame, hsame]
  · exact (trimmed_trim hle hstop).self.eq_trim (stop_trim_le t _)

/-! ### Characters of tokens -/

/-- The characters of an extent are those of its tokens. -/
theorem toList_extentText (h : e.stop ≤ t.length) :
    (t.extentText e).toList = (t.slice e).flatMap fun token => token.text.toList := by
  rw [extentText_eq_join h, toList_join_tokenText, slice_eq_filterMap]

theorem fits_of_token? (hfits : ∀ token ∈ t.tokens.toList, token.lexeme.Fits) {i : Nat}
    {token : Token} (h : t.token? i = some token) : token.lexeme.Fits := by
  rw [token?_eq_getElem?] at h
  exact hfits token (List.mem_of_getElem? h)

/-- Blank tokens have no characters but those that stripping takes away. -/
theorem isLayoutChar_of_blank (hfits : ∀ token ∈ t.tokens.toList, token.lexeme.Fits)
    (hstop : e.stop ≤ t.length) (h : ∀ i, e.start ≤ i → i < e.stop → t.isBlankAt i = true) :
    ∀ c ∈ (t.extentText e).toList, Text.isLayoutChar c = true := by
  intro c hc
  rw [toList_extentText hstop, slice_eq_filterMap] at hc
  obtain ⟨token, htoken, hchar⟩ := List.mem_flatMap.mp hc
  obtain ⟨i, hi, hread⟩ := List.mem_filterMap.mp htoken
  have hblank := h i (Extent.mem_indices.mp hi).1 (Extent.mem_indices.mp hi).2
  rw [isBlankAt_of_token? hread] at hblank
  exact ((fits_of_token? hfits hread).isLayoutChar hchar).trans hblank

/-- An extent that begins on a token that is not blank begins with a character that stays. -/
theorem isLayoutChar_head? (hfits : ∀ token ∈ t.tokens.toList, token.lexeme.Fits)
    (hlt : e.start < e.stop) (hstop : e.stop ≤ t.length) (h : t.isBlankAt e.start = false) :
    ∀ c ∈ (t.extentText e).toList.head?, Text.isLayoutChar c = false := by
  intro c hc
  obtain ⟨token, hread⟩ : ∃ token, t.token? e.start = some token := ⟨_, token?_of_lt (by omega)⟩
  obtain ⟨rest, hrest⟩ := List.head?_eq_some_iff.mp ((head?_slice hlt).trans hread)
  rw [toList_extentText hstop, hrest, List.flatMap_cons] at hc
  rw [isBlankAt_of_token? hread] at h
  have hkind := (fits_of_token? hfits hread).kind_eq_of_head? hc
  rw [← Text.isBlank_ofChar, ← hkind]
  exact h

/-- An extent that ends on a token that is not blank ends with a character that stays. -/
theorem isLayoutChar_getLast? (hfits : ∀ token ∈ t.tokens.toList, token.lexeme.Fits)
    (hlt : e.start < e.stop) (hstop : e.stop ≤ t.length) (h : t.isBlankAt (e.stop - 1) = false) :
    ∀ c ∈ (t.extentText e).toList.getLast?, Text.isLayoutChar c = false := by
  intro c hc
  obtain ⟨token, hread⟩ : ∃ token, t.token? (e.stop - 1) = some token :=
    ⟨_, token?_of_lt (by omega)⟩
  have hlast := fits_of_token? hfits hread
  have hne : token.text.toList ≠ [] := hlast.ne_nil
  obtain ⟨rest, hrest⟩ := List.getLast?_eq_some_iff.mp ((getLast?_slice hlt hstop).trans hread)
  rw [toList_extentText hstop, hrest, List.flatMap_append, List.flatMap_singleton,
    List.getLast?_append_of_ne_nil _ hne] at hc
  rw [isBlankAt_of_token? hread] at h
  exact (hlast.isLayoutChar (List.mem_of_getLast? hc)).trans h

/-- The text of an extent is that of a part in it, with what is before and behind the part. -/
theorem extentText_eq_append (hstart : e.start ≤ r.start) (hle : r.start ≤ r.stop)
    (hend : r.stop ≤ e.stop) (hstop : e.stop ≤ t.length) :
    t.extentText e =
      t.extentText ⟨e.start, r.start⟩ ++ t.extentText r ++ t.extentText ⟨r.stop, e.stop⟩ := by
  have hindices : e.indices = (Extent.mk e.start r.start).indices ++ r.indices ++
      (Extent.mk r.stop e.stop).indices := by
    rw [Extent.indices_append hstart hle, Extent.indices_append (by omega) hend]
  have hfront : (Extent.mk e.start r.start).stop ≤ t.length := by
    show r.start ≤ t.length
    omega
  have hback : (Extent.mk r.stop e.stop).stop ≤ t.length := hstop
  rw [extentText_eq_join hstop, hindices, List.map_append, List.map_append, String.join_append,
    String.join_append, extentText_eq_join hfront, extentText_eq_join (e := r) (by omega),
    extentText_eq_join hback]

/-! ### Trimming strips -/

theorem Trimmed.extentText (h : Trimmed t e r)
    (hfits : ∀ token ∈ t.tokens.toList, token.lexeme.Fits) (hstop : e.stop ≤ t.length) :
    t.extentText r = Text.stripped (t.extentText e) := by
  have hle := h.le
  have hend := h.stop_le
  have hbefore := isLayoutChar_of_blank (e := ⟨e.start, r.start⟩) hfits
    (show r.start ≤ t.length by omega) h.before
  have hafter := isLayoutChar_of_blank (e := ⟨r.stop, e.stop⟩) hfits hstop h.after
  have hends : (∀ c ∈ (t.extentText r).toList.head?, Text.isLayoutChar c = false) ∧
      ∀ c ∈ (t.extentText r).toList.getLast?, Text.isLayoutChar c = false := by
    by_cases hlt : r.start < r.stop
    · exact ⟨isLayoutChar_head? hfits hlt (by omega) (h.first hlt),
        isLayoutChar_getLast? hfits hlt (by omega) (h.last hlt)⟩
    · -- nothing remains, and nothing has no ends
      have hempty : t.extentText r = "" := by
        simp [TaggedText.extentText, Extent.isEmpty, Nat.le_of_not_lt hlt]
      simp [hempty]
  rw [Text.stripped, extentText_eq_append h.start_le hle hend hstop, String.toList_append,
    String.toList_append, Text.strip_append hbefore hafter hends.1 hends.2, String.ofList_toList]

/-- The text of a trimmed extent is the stripped text of the extent. The extent may be inverted; of
one that reaches past the last token, the tokens that exist are read. -/
theorem extentText_trim (hfits : ∀ token ∈ t.tokens.toList, token.lexeme.Fits) (e : Extent) :
    t.extentText (t.trim e) =
      Text.stripped (t.extentText ⟨e.start, min e.stop t.length⟩) := by
  have hstop : min e.stop t.length ≤ t.length := Nat.min_le_right _ _
  rw [← trim_clamp t e]
  rcases Nat.lt_or_ge (min e.stop t.length) e.start with hlt | hle
  · have hempty : t.extentText ⟨e.start, min e.stop t.length⟩ = "" := by
      simp only [extentText, Extent.isEmpty, decide_eq_true (Nat.le_of_lt hlt), Bool.true_or,
        if_true]
    rw [trim_of_stop_lt hlt hstop, hempty]
    rfl
  · exact (trimmed_trim hle hstop).extentText hfits hstop

/-- **Trimming strips.** Trimming a second time changes nothing, whatever the extent. Of an extent
whose bounds are in order and inside the text, it leaves a part: blanks alone are left out, the part
begins and ends on tokens that are not blank, and an extent of blanks collapses to its start. If
the tokens are those of a text, with any tags, what remains of the extent's text is that text
without the spaces, tabs, CRs and LFs at either end. -/
theorem trim_strips (t : TaggedText) (e : Extent) :
    t.trim (t.trim e) = t.trim e ∧
    (e.start ≤ e.stop → e.stop ≤ t.length →
      e.encloses (t.trim e) = true ∧ t.Trimmed e (t.trim e) ∧
      ((∀ i, e.start ≤ i → i < e.stop → t.isBlankAt i = true) →
        t.trim e = .collapsed e.start)) ∧
    ∀ text, t.IsTaggingOf text →
      (e.stop ≤ t.length → t.extentText (t.trim e) = Text.stripped (t.extentText e)) ∧
      t.extentText (t.trim e) =
        Text.stripped (t.extentText ⟨e.start, min e.stop t.length⟩) := by
  refine ⟨trim_trim t e, fun hle hstop => ?_, fun text htext => ?_⟩
  · have htrim := trimmed_trim hle hstop
    have hinside := Extent.encloses_iff.mpr ⟨htrim.start_le, htrim.stop_le, htrim.le⟩
    exact ⟨hinside, htrim, trim_of_blank hle hstop⟩
  · have hstrip := extentText_trim htext.spelled.fits e
    refine ⟨fun hstop => ?_, hstrip⟩
    rwa [Nat.min_eq_left hstop] at hstrip

end TaggedText

namespace Sample

/-- Blanks of all kinds around two words, with a name that is put on a blank. A no-break space is a
part of a word. -/
def blankEnds : TaggedText :=
  (TaggedText.tokenize " \r\n\tint x\u00A0 \r").setRole 0 (some .name)

theorem trim_strips_blankEnds :
    blankEnds.IsTaggingOf " \r\n\tint x\u00A0 \r" ∧
      blankEnds.trim ⟨0, 9⟩ = ⟨3, 6⟩ ∧ blankEnds.trim ⟨3, 6⟩ = ⟨3, 6⟩ ∧
      blankEnds.trim ⟨0, 3⟩ = ⟨0, 0⟩ ∧
      blankEnds.extentText ⟨3, 6⟩ = Text.stripped (blankEnds.extentText ⟨0, 8⟩) := by
  have htext : blankEnds.IsTaggingOf " \r\n\tint x\u00A0 \r" := by decide
  have hreach : blankEnds.trim ⟨0, 9⟩ = ⟨3, 6⟩ := by decide
  have hfull : blankEnds.trim ⟨0, 8⟩ = ⟨3, 6⟩ := by decide
  obtain ⟨hsettles, -, -⟩ := TaggedText.trim_strips blankEnds ⟨0, 9⟩
  obtain ⟨-, hinside, -⟩ := TaggedText.trim_strips blankEnds ⟨0, 3⟩
  obtain ⟨-, -, htokens⟩ := TaggedText.trim_strips blankEnds ⟨0, 8⟩
  have hcollapse := (hinside (by decide) (by decide)).2.2 (by decide)
  have hstrip := (htokens _ htext).1 (by decide)
  rw [hreach] at hsettles
  rw [hfull] at hstrip
  exact ⟨htext, hreach, hsettles, hcollapse, hstrip⟩

end Sample

end DeclOutline
