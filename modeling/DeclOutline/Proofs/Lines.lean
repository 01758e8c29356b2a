import DeclOutline.Proofs.Lexing
import Mathlib.Algebra.GroupWithZero.Nat
import Mathlib.Data.List.DropRight

/-!
# Lines and tokens agree

Line breaks are recognised twice, by rules that know nothing of each other. Lexemes are put together
from the right, and a CR joins an LF that follows it. Lines are cut from the left, after every LF
and after every CR that none follows, and an offset is then sought by counting bytes from line to
line. A token would be reported on the wrong line if the two ever disagreed about what ends one.

They do not. A lexeme moves the place that is reached in a text in one of two ways: a line break
to the start of the next line, any other by its characters along its own line. The place of an
offset is what the lexemes before it come to.

## Main definitions

* `Location.advance` — the place after a lexeme
* `TaggedText.sinceBreak` — the tokens between the last line break before an index and the index

## Main results

* `Cutting.lines_lineBreak`, `Cutting.lines_of_ne_lineBreak` — what one lexeme does to the lines
* `Cutting.inLines_eq_foldl` — the place that lexemes come to
* `TaggedText.location_tokenize` — line and column of a token, counted in tokens
-/

namespace DeclOutline

namespace Location

/-! ### Lines -/

variable {c : Char} {cs ds line : List Char} {rest : List (List Char)}

theorem lines_cons_of_endsLine (h : endsLine c cs = true) : lines (c :: cs) = [c] :: lines cs := by
  rw [lines, if_pos h]

theorem lines_cons_of_not_endsLine (h : endsLine c cs = false) (hlines : lines cs = line :: rest) :
    lines (c :: cs) = (c :: line) :: rest := by
  rw [lines, h, if_neg Bool.false_ne_true, hlines]

/-- Only characters of line breaks end a line. -/
theorem endsLine_eq_false (h : ¬ IsBreakChar c) (cs : List Char) : endsLine c cs = false := by
  have hne : c ≠ '\r' ∧ c ≠ '\n' := not_or.mp h
  simp [endsLine, hne]

/-- Characters that end no line come in front of the first line. -/
theorem lines_append (h : ∀ d ∈ ds, ¬ IsBreakChar d) (hlines : lines cs = line :: rest) :
    lines (ds ++ cs) = (ds ++ line) :: rest := by
  induction ds with
  | nil => exact hlines
  | cons d ds ih =>
    obtain ⟨hd, hds⟩ := List.forall_mem_cons.mp h
    exact lines_cons_of_not_endsLine (endsLine_eq_false hd _) (ih hds)

/-- A line that another one follows has a character: the one that ends it. -/
theorem ne_nil_of_lines (h : lines cs = line :: rest) (hrest : rest ≠ []) : line ≠ [] := by
  cases cs with
  | nil =>
    obtain ⟨-, rfl⟩ := List.cons.inj h
    exact absurd rfl hrest
  | cons c cs =>
    rw [lines] at h
    split at h
    · obtain ⟨rfl, -⟩ := List.cons.inj h
      exact List.cons_ne_nil _ _
    · split at h
      · obtain ⟨rfl, -⟩ := List.cons.inj h
        exact List.cons_ne_nil _ _
      · obtain ⟨rfl, -⟩ := List.cons.inj h
        exact List.cons_ne_nil _ _

/-! ### Columns -/

/-- The bytes of some characters hold these characters. -/
theorem charCount?_append (ds line : List Char) :
    charCount? (ds ++ line) (byteSize ds) = some ds.length := by
  induction ds with
  | nil => rw [byteSize_nil, charCount?, List.length_nil]
  | cons d ds ih =>
    obtain ⟨n, hn⟩ : ∃ n, byteSize (d :: ds) = n + 1 := by
      have := d.utf8Size_pos
      exact ⟨d.utf8Size + byteSize ds - 1, by rw [byteSize_cons]; omega⟩
    have hsub : n + 1 - d.utf8Size = byteSize ds := by
      rw [← hn, byteSize_cons, Nat.add_sub_cancel_left]
    have hle : d.utf8Size ≤ n + 1 := by
      rw [← hn, byteSize_cons]
      exact Nat.le_add_right _ _
    rw [hn, List.cons_append, charCount?, if_pos hle, hsub, ih]
    rfl

theorem columnAt_append (ds line : List Char) :
    columnAt (ds ++ line) (byteSize ds) = ds.length + 1 := by
  rw [columnAt, charCount?_append]
  rfl

theorem byteSize_pos (h : ds ≠ []) : 0 < byteSize ds := by
  obtain ⟨d, ds, rfl⟩ := List.exists_cons_of_ne_nil h
  have := d.utf8Size_pos
  rw [byteSize_cons]
  omega

/-- A place in the first line. -/
theorem inLines_first (number : Nat) (h : rest ≠ [] → line ≠ []) :
    inLines number (byteSize ds) ((ds ++ line) :: rest) = ⟨number, ds.length + 1⟩ := by
  have hsize : byteSize (ds ++ line) = byteSize ds + byteSize line := byteSize_append ds line
  cases rest with
  | nil =>
    have hmin : min (byteSize ds) (byteSize (ds ++ line)) = byteSize ds := by omega
    rw [inLines, hmin, columnAt_append]
  | cons next rest =>
    have hpos := byteSize_pos (h (List.cons_ne_nil next rest))
    rw [inLines, if_neg (by omega), columnAt_append]

/-- A place behind the first line. -/
theorem inLines_next (number offset : Nat) (h : rest ≠ []) :
    inLines number (byteSize line + offset) (line :: rest) = inLines (number + 1) offset rest := by
  obtain ⟨next, rest, rfl⟩ := List.exists_cons_of_ne_nil h
  rw [inLines, if_pos (Nat.le_add_right _ _), Nat.add_sub_cancel_left]

/-- The place after a lexeme, from the place before it. -/
def advance (p : Location) (l : Lexeme) : Location :=
  if l.kind = .lineBreak then ⟨p.line + 1, 1⟩ else ⟨p.line, p.column + l.chars.length⟩

theorem advance_lineBreak {l : Lexeme} (h : l.kind = .lineBreak) (p : Location) :
    p.advance l = ⟨p.line + 1, 1⟩ :=
  if_pos h

theorem advance_of_ne_lineBreak {l : Lexeme} (h : l.kind ≠ .lineBreak) (p : Location) :
    p.advance l = ⟨p.line, p.column + l.chars.length⟩ :=
  if_neg h

/-- Where lexemes come to from the start of a text: as many lines on as there are line breaks, and
as many columns as there are characters since the last one. -/
theorem foldl_advance (ls : List Lexeme) :
    ls.foldl advance ⟨1, 1⟩ =
      ⟨1 + ls.countP fun l => l.kind == .lineBreak,
        1 + ((ls.rtakeWhile fun l => l.kind != .lineBreak).map fun l => l.chars.length).sum⟩ := by
  induction ls using List.reverseRecOn with
  | nil => rfl
  | append_singleton ls l ih =>
    rw [List.foldl_append, ih, List.foldl_cons, List.foldl_nil, List.countP_append]
    by_cases h : l.kind = .lineBreak
    · rw [advance_lineBreak h, List.rtakeWhile_concat_neg _ _ _ (by simp [h])]
      simp [h, Nat.add_assoc]
    · rw [advance_of_ne_lineBreak h, List.rtakeWhile_concat_pos _ _ _ (by simpa using h)]
      simp [h, Nat.add_assoc]

end Location

/-! ### Lexemes and lines -/

open Location (lines inLines byteSize)

namespace Cutting

variable {cs line : List Char} {l : Lexeme} {ls before after : List Lexeme}
  {rest : List (List Char)}

theorem tail (h : Cutting cs (l :: ls)) : Cutting (ls.flatMap Lexeme.chars) ls :=
  ⟨(List.forall_mem_cons.mp h.fits).2, h.apart.tail, rfl⟩

theorem eq_append (h : Cutting cs (l :: ls)) : cs = l.chars ++ ls.flatMap Lexeme.chars := by
  rw [← h.chars, List.flatMap_cons]

/-- A CR that is a lexeme of its own is not followed by an LF. -/
theorem head?_ne_of_cr (h : Cutting cs (l :: ls)) (hcr : l.chars = ['\r']) :
    (ls.flatMap Lexeme.chars).head? ≠ some '\n' := by
  cases ls with
  | nil => simp
  | cons next ls =>
    have hnext := h.fits next (List.mem_cons_of_mem l List.mem_cons_self)
    have hapart := (List.isChain_cons_cons.mp h.apart).1
    rw [List.flatMap_cons]
    intro hhead
    have hkind : next.kind = .lineBreak := hnext.kind_eq_of_head? hhead
    refine hapart.lineBreak ⟨hcr, ?_⟩
    rw [Lexeme.Fits, hkind] at hnext
    rcases hnext with hnext | hnext | hnext
    · simp [hnext] at hhead
    · exact hnext
    · simp [hnext] at hhead

/-- A line break ends a line. -/
theorem lines_lineBreak (h : Cutting cs (l :: ls)) (hkind : l.kind = .lineBreak) :
    lines cs = l.chars :: lines (ls.flatMap Lexeme.chars) := by
  have hfits := h.fits l List.mem_cons_self
  rw [Lexeme.Fits, hkind] at hfits
  rw [h.eq_append]
  rcases hfits with hcr | hlf | hcrlf
  · have hends : Location.endsLine '\r' (ls.flatMap Lexeme.chars) = true := by
      simpa [Location.endsLine] using h.head?_ne_of_cr hcr
    rw [hcr]
    exact Location.lines_cons_of_endsLine hends
  · rw [hlf]
    exact Location.lines_cons_of_endsLine rfl
  · rw [hcrlf]
    exact Location.lines_cons_of_not_endsLine rfl (Location.lines_cons_of_endsLine rfl)

/-- Any other lexeme is a part of the line it begins in. -/
theorem lines_of_ne_lineBreak (h : Cutting cs (l :: ls)) (hkind : l.kind ≠ .lineBreak)
    (hlines : lines (ls.flatMap Lexeme.chars) = line :: rest) :
    lines cs = (l.chars ++ line) :: rest := by
  have hfits := h.fits l List.mem_cons_self
  rw [h.eq_append]
  refine Location.lines_append ?_ hlines
  intro c hc hbreak
  exact hkind ((hfits.kind_eq hc).trans (TokenKind.ofChar_eq_lineBreak.mpr hbreak))

/-- There is one line more than there are line breaks. -/
theorem length_lines (h : Cutting cs ls) :
    (lines cs).length = 1 + ls.countP fun l => l.kind == .lineBreak := by
  induction ls generalizing cs with
  | nil =>
    obtain rfl : [] = cs := h.chars
    rfl
  | cons l ls ih =>
    have hrest := ih h.tail
    by_cases hkind : l.kind = .lineBreak
    · rw [h.lines_lineBreak hkind, List.length_cons, hrest,
        List.countP_cons_of_pos (by simp [hkind]), Nat.add_assoc]
    · obtain ⟨line, rest, hlines⟩ := List.exists_cons_of_ne_nil (Location.lines_ne_nil _)
      rw [hlines] at hrest
      rw [h.lines_of_ne_lineBreak hkind hlines, List.countP_cons_of_neg (by simpa using hkind),
        ← hrest, List.length_cons, List.length_cons]

/-- **The place that lexemes come to.** An offset is found where the lexemes before it come to, one
after another. The characters `ds` are what the first line holds before the first lexeme. -/
theorem inLines_eq_foldl (h : Cutting cs (before ++ after)) (hlines : lines cs = line :: rest)
    (number : Nat) (ds : List Char) :
    inLines number (byteSize ds + byteSize (before.flatMap Lexeme.chars)) ((ds ++ line) :: rest) =
      before.foldl Location.advance ⟨number, ds.length + 1⟩ := by
  induction before generalizing cs line rest number ds with
  | nil => exact Location.inLines_first number (Location.ne_nil_of_lines hlines)
  | cons l before ih =>
    obtain ⟨line', rest', hlines'⟩ := List.exists_cons_of_ne_nil
      (Location.lines_ne_nil ((before ++ after).flatMap Lexeme.chars))
    rw [List.cons_append] at h
    rw [List.flatMap_cons, Location.byteSize_append, List.foldl_cons, ← Nat.add_assoc]
    by_cases hkind : l.kind = .lineBreak
    · -- the line ends with `l`, and what follows begins in the next one
      rw [h.lines_lineBreak hkind, hlines'] at hlines
      obtain ⟨rfl, rfl⟩ := List.cons.inj hlines
      have hnext := ih h.tail hlines' (number + 1) []
      rw [Location.byteSize_nil, Nat.zero_add] at hnext
      rw [← Location.byteSize_append, Location.inLines_next _ _ (List.cons_ne_nil line' rest'),
        Location.advance_lineBreak hkind]
      exact hnext
    · -- the line goes on, with `l` before what follows
      rw [h.lines_of_ne_lineBreak hkind hlines'] at hlines
      obtain ⟨rfl, rfl⟩ := List.cons.inj hlines
      have hnext := ih h.tail hlines' number (ds ++ l.chars)
      rw [Location.byteSize_append, List.append_assoc, List.length_append,
        Nat.add_right_comm ds.length] at hnext
      rw [Location.advance_of_ne_lineBreak hkind]
      exact hnext

/-- The place of an offset between two lexemes. -/
theorem ofOffset_eq_foldl {text : String} (h : Cutting text.toList (before ++ after)) :
    Location.ofOffset text (byteSize (before.flatMap Lexeme.chars)) =
      before.foldl Location.advance ⟨1, 1⟩ := by
  obtain ⟨line, rest, hlines⟩ := List.exists_cons_of_ne_nil (Location.lines_ne_nil text.toList)
  have hplace := h.inLines_eq_foldl hlines 1 []
  rw [Location.byteSize_nil, Nat.zero_add] at hplace
  rw [Location.ofOffset, hlines]
  exact hplace

end Cutting

/-! ### Tokens and lines -/

namespace TaggedText

/-- The tokens between the last line break before an index, or the start of the text, and the
index. -/
def sinceBreak (t : TaggedText) (i : Nat) : List Token :=
  (t.tokens.toList.take i).rtakeWhile fun token => token.kind != .lineBreak

theorem bytes_map_ofLexeme (ls : List Lexeme) :
    bytes (ls.map Token.ofLexeme) = byteSize (ls.flatMap Lexeme.chars) := by
  induction ls with
  | nil => rfl
  | cons l ls ih =>
    rw [List.map_cons, bytes_cons, ih, List.flatMap_cons, Location.byteSize_append,
      ← Location.byteSize_toList, Token.ofLexeme, String.toList_ofList]

/-- The place of a token is what the lexemes before it come to. -/
theorem location?_tokenize {text : String} (h : text.utf8ByteSize < UInt32.size) {i : Nat}
    (hi : i < (tokenize text).length) :
    (tokenize text).location? i =
      some (((lexemes text.toList).take i).foldl Location.advance ⟨1, 1⟩) := by
  have hoffset : (tokenize text).offset i =
      byteSize (((lexemes text.toList).take i).flatMap Lexeme.chars) := by
    rw [offset, tokens_tokenize, ← List.map_take, bytes_map_ofLexeme]
  have hsplit : text.toList = ((lexemes text.toList).take i).flatMap Lexeme.chars ++
      ((lexemes text.toList).drop i).flatMap Lexeme.chars := by
    rw [← List.flatMap_append, List.take_append_drop, flatMap_chars_lexemes]
  have hle : (tokenize text).offset i < UInt32.size := by
    have hsum := congrArg byteSize hsplit
    rw [Location.byteSize_append, Location.byteSize_toList, ← hoffset] at hsum
    omega
  have hcut : Cutting text.toList
      ((lexemes text.toList).take i ++ (lexemes text.toList).drop i) := by
    rw [List.take_append_drop]
    exact cutting_lexemes text.toList
  rw [location?, getElem?_spans hi, Option.map_some, ByteSpan.toNat_start_ofBounds hle,
    text_tokenize, hoffset, hcut.ofOffset_eq_foldl]

theorem sinceBreak_tokenize (text : String) (i : Nat) :
    (tokenize text).sinceBreak i =
      (((lexemes text.toList).take i).rtakeWhile fun l => l.kind != .lineBreak).map
        Token.ofLexeme := by
  rw [sinceBreak, tokens_tokenize, ← List.map_take, List.rtakeWhile, List.rtakeWhile,
    ← List.map_reverse, List.takeWhile_map, List.map_reverse]
  rfl

/-- **Lines and tokens agree.** A text has one line more than it has line breaks among its tokens. A
token is one line further down for each line break before it, and one column further right for
each character since the last of them. -/
theorem location_tokenize (text : String) (h : text.utf8ByteSize < UInt32.size) :
    Location.lineCount text =
      1 + (tokenize text).tokens.toList.countP (fun token => token.kind == .lineBreak) ∧
    ∀ i, i < (tokenize text).length → (tokenize text).location? i = some
      ⟨1 + ((tokenize text).tokens.toList.take i).countP fun token => token.kind == .lineBreak,
        1 + (((tokenize text).sinceBreak i).map fun token => token.text.length).sum⟩ := by
  constructor
  · rw [Location.lineCount, (cutting_lexemes text.toList).length_lines, tokens_tokenize,
      List.countP_map]
    rfl
  · intro i hi
    have hwidth : (fun token : Token => token.text.length) ∘ Token.ofLexeme =
        fun l => l.chars.length := by
      funext l
      exact String.length_ofList
    rw [location?_tokenize h hi, Location.foldl_advance, sinceBreak_tokenize, tokens_tokenize,
      ← List.map_take, List.countP_map, List.map_map, hwidth]
    rfl

/-- A lone CR, a CR with its LF, and a word of several bytes before the token that is asked for. -/
theorem location_tokenize_mixed :
    "a\r\r\n né\tx".utf8ByteSize < UInt32.size ∧ Location.lineCount "a\r\r\n né\tx" = 3 ∧
      (tokenize "a\r\r\n né\tx").location? 6 = some ⟨3, 5⟩ := by
  have h : "a\r\r\n né\tx".utf8ByteSize < UInt32.size := by decide
  obtain ⟨hcount, hlocation⟩ := location_tokenize _ h
  exact ⟨h, hcount, hlocation 6 (by decide)⟩

end TaggedText

end DeclOutline
