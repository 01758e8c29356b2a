import DeclOutline.Proofs.Placement
import Mathlib.Data.List.Chain

/-!
# A text has one cutting

Lexemes are found by a fold from the right, one character at a time. What they come to is said here
without it: `Cutting cs ls` lists what each lexeme may hold and what must not stand side by side.
These are the longest runs of words and of blanks, line breaks with a CR that takes its LF, and
single symbols. A text has exactly one such cutting, so nothing is left to the order in which it is
read: a reader that goes from the left and always takes the longest lexeme finds the same.

## Main definitions

* `Lexeme.Fits` — the characters of a lexeme are those of its kind
* `Lexeme.Apart` — two lexemes may stand side by side
* `Cutting` — a text cut into lexemes

## Main results

* `cutting_lexemes` — lexemes cut their text
* `Cutting.eq_lexemes` — and there is no other way
* `Cutting.length_le` — each lexeme is the longest that begins there
* `TaggedText.tokenize_cuts` — the tokens of a text
-/

namespace DeclOutline

/-! ### Characters -/

/-- A letter or a digit of ASCII, or a character outside of it. -/
def IsWordChar (c : Char) : Prop :=
  c.isAlpha = true ∨ c.isDigit = true ∨ 0x80 ≤ c.toNat

/-- A space or a tab. -/
def IsSpaceChar (c : Char) : Prop :=
  c = ' ' ∨ c = '\t'

/-- A character that ends a line. -/
def IsBreakChar (c : Char) : Prop :=
  c = '\r' ∨ c = '\n'

theorem IsWordChar.not_isBreakChar {c : Char} (h : IsWordChar c) : ¬ IsBreakChar c := by
  rintro (rfl | rfl) <;> simp [IsWordChar] at h

theorem IsWordChar.not_isSpaceChar {c : Char} (h : IsWordChar c) : ¬ IsSpaceChar c := by
  rintro (rfl | rfl) <;> simp [IsWordChar] at h

namespace TokenKind

variable {c : Char}

theorem ofChar_eq_lineBreak : ofChar c = .lineBreak ↔ IsBreakChar c := by
  constructor
  · intro h
    unfold ofChar at h
    split_ifs at h with hbreak
    simpa [IsBreakChar] using hbreak
  · rintro (rfl | rfl) <;> rfl

theorem ofChar_eq_whitespace : ofChar c = .whitespace ↔ IsSpaceChar c := by
  constructor
  · intro h
    unfold ofChar at h
    split_ifs at h with _ hspace
    simpa [IsSpaceChar] using hspace
  · rintro (rfl | rfl) <;> rfl

theorem ofChar_eq_text : ofChar c = .text ↔ IsWordChar c := by
  constructor
  · intro h
    unfold ofChar at h
    split_ifs at h with _ _ hword
    simpa [IsWordChar, Char.isAlphanum, or_assoc] using hword
  · intro h
    have hbreak : ¬ (c = '\r' ∨ c = '\n') := h.not_isBreakChar
    have hspace : ¬ (c = ' ' ∨ c = '\t') := h.not_isSpaceChar
    have hword : (c.isAlphanum || decide (0x80 ≤ c.toNat)) = true := by
      simpa [IsWordChar, Char.isAlphanum, or_assoc] using h
    rw [ofChar, if_neg (by simpa using hbreak), if_neg (by simpa using hspace), if_pos hword]

theorem ofChar_eq_symbol :
    ofChar c = .symbol ↔ ¬ IsBreakChar c ∧ ¬ IsSpaceChar c ∧ ¬ IsWordChar c := by
  rw [← ofChar_eq_lineBreak, ← ofChar_eq_whitespace, ← ofChar_eq_text]
  cases ofChar c <;> simp

end TokenKind

/-! ### Cuttings -/

namespace Lexeme

/-- The characters of a lexeme are those of its kind. -/
def Fits (l : Lexeme) : Prop :=
  match l.kind with
  | .lineBreak => l.chars = ['\r'] ∨ l.chars = ['\n'] ∨ l.chars = ['\r', '\n']
  | .whitespace => l.chars ≠ [] ∧ ∀ c ∈ l.chars, IsSpaceChar c
  | .text => l.chars ≠ [] ∧ ∀ c ∈ l.chars, IsWordChar c
  | .symbol => ∃ c, l.chars = [c] ∧ ¬ IsBreakChar c ∧ ¬ IsSpaceChar c ∧ ¬ IsWordChar c

/-- Two lexemes may stand side by side: they are not parts of one run, and not a CR and its LF. -/
structure Apart (l next : Lexeme) : Prop where
  text : ¬ (l.kind = .text ∧ next.kind = .text)
  whitespace : ¬ (l.kind = .whitespace ∧ next.kind = .whitespace)
  lineBreak : ¬ (l.chars = ['\r'] ∧ next.chars = ['\n'])

end Lexeme

/-- A text cut into lexemes. -/
structure Cutting (cs : List Char) (ls : List Lexeme) : Prop where
  fits : ∀ l ∈ ls, l.Fits
  apart : ls.IsChain Lexeme.Apart
  chars : ls.flatMap Lexeme.chars = cs

namespace Lexeme

variable {l next : Lexeme} {c : Char}

/-! ### One lexeme -/

theorem Fits.ne_nil (h : l.Fits) : l.chars ≠ [] := by
  obtain ⟨kind, chars⟩ := l
  cases kind with
  | lineBreak => rcases h with h | h | h <;> simp_all
  | whitespace => exact h.1
  | text => exact h.1
  | symbol =>
    obtain ⟨c, hc, -⟩ := h
    simp_all

/-- The kind of a lexeme is that of each of its characters. -/
theorem Fits.kind_eq (h : l.Fits) (hc : c ∈ l.chars) : l.kind = TokenKind.ofChar c := by
  obtain ⟨kind, chars⟩ := l
  symm
  cases kind with
  | lineBreak =>
    refine TokenKind.ofChar_eq_lineBreak.mpr ?_
    rcases (show chars = _ ∨ chars = _ ∨ chars = _ from h) with rfl | rfl | rfl
    · exact Or.inl (by simpa using hc)
    · exact Or.inr (by simpa using hc)
    · simpa [IsBreakChar] using hc
  | whitespace => exact TokenKind.ofChar_eq_whitespace.mpr (h.2 c hc)
  | text => exact TokenKind.ofChar_eq_text.mpr (h.2 c hc)
  | symbol =>
    obtain ⟨c', rfl, hfits⟩ : ∃ c', chars = [c'] ∧ _ := h
    rw [List.mem_singleton.mp hc]
    exact TokenKind.ofChar_eq_symbol.mpr hfits

/-- A text that begins with a lexeme begins with a character of the lexeme's kind. -/
theorem Fits.kind_eq_of_head? (h : l.Fits) {cs : List Char} (hc : c ∈ (l.chars ++ cs).head?) :
    l.kind = TokenKind.ofChar c := by
  obtain ⟨d, ds, hd⟩ := List.exists_cons_of_ne_nil h.ne_nil
  rw [hd, List.cons_append, List.head?_cons] at hc
  obtain rfl := Option.some.inj hc
  refine h.kind_eq ?_
  rw [hd]
  exact List.mem_cons_self

theorem fits_single (c : Char) : (single c).Fits := by
  rw [single, Fits]
  cases hkind : TokenKind.ofChar c with
  | lineBreak =>
    rcases TokenKind.ofChar_eq_lineBreak.mp hkind with rfl | rfl <;> simp
  | whitespace => simpa using TokenKind.ofChar_eq_whitespace.mp hkind
  | text => simpa using TokenKind.ofChar_eq_text.mp hkind
  | symbol => exact ⟨c, rfl, TokenKind.ofChar_eq_symbol.mp hkind⟩

/-- A character that does not join the lexeme after it may stand beside it. -/
theorem apart_single (h : joins c next = false) : (single c).Apart next := by
  refine ⟨fun ⟨hc, hnext⟩ => ?_, fun ⟨hc, hnext⟩ => ?_, fun ⟨hc, hnext⟩ => ?_⟩
  · have hkind : TokenKind.ofChar c = .text := hc
    simp [joins, hkind, hnext] at h
  · have hkind : TokenKind.ofChar c = .whitespace := hc
    simp [joins, hkind, hnext] at h
  · obtain rfl : c = '\r' := by simpa [single] using hc
    simp [joins, TokenKind.ofChar, hnext] at h

/-- A lexeme with a character that joins it is a lexeme. -/
theorem Fits.cons (hfits : next.Fits) (h : joins c next = true) :
    Fits ⟨next.kind, c :: next.chars⟩ := by
  obtain ⟨kind, chars⟩ := next
  rw [joins] at h
  cases hkind : TokenKind.ofChar c with
  | text =>
    rw [hkind] at h
    obtain rfl : kind = .text := by simpa using h
    refine ⟨List.cons_ne_nil _ _, fun d hd => ?_⟩
    rcases List.mem_cons.mp hd with rfl | hd
    · exact TokenKind.ofChar_eq_text.mp hkind
    · exact hfits.2 d hd
  | whitespace =>
    rw [hkind] at h
    obtain rfl : kind = .whitespace := by simpa using h
    refine ⟨List.cons_ne_nil _ _, fun d hd => ?_⟩
    rcases List.mem_cons.mp hd with rfl | hd
    · exact TokenKind.ofChar_eq_whitespace.mp hkind
    · exact hfits.2 d hd
  | lineBreak =>
    rw [hkind] at h
    obtain ⟨rfl, rfl⟩ : c = '\r' ∧ chars = ['\n'] := by simpa using h
    obtain rfl : kind = .lineBreak := hfits.kind_eq (c := '\n') List.mem_cons_self
    exact Or.inr (Or.inr rfl)
  | symbol => simp [hkind] at h

end Lexeme

/-! ### Lexemes cut their text -/

theorem Cutting.attach {c : Char} {cs : List Char} {ls : List Lexeme} (h : Cutting cs ls) :
    Cutting (c :: cs) (Lexeme.attach c ls) := by
  refine ⟨?_, ?_, by rw [Lexeme.flatMap_chars_attach, h.chars]⟩
  · cases ls with
    | nil => simpa [Lexeme.attach] using Lexeme.fits_single c
    | cons next rest =>
      obtain ⟨hnext, hrest⟩ := List.forall_mem_cons.mp h.fits
      rw [Lexeme.attach]
      split
      · next hjoins => exact List.forall_mem_cons.mpr ⟨hnext.cons hjoins, hrest⟩
      · exact List.forall_mem_cons.mpr ⟨Lexeme.fits_single c, h.fits⟩
  · cases ls with
    | nil => exact List.IsChain.singleton _
    | cons next rest =>
      rw [Lexeme.attach]
      split
      · next hjoins =>
        cases rest with
        | nil => exact List.IsChain.singleton _
        | cons third rest =>
          obtain ⟨hapart, hchain⟩ := List.isChain_cons_cons.mp h.apart
          refine List.isChain_cons_cons.mpr ⟨⟨hapart.text, hapart.whitespace, ?_⟩, hchain⟩
          rintro ⟨hcr, -⟩
          exact (h.fits next List.mem_cons_self).ne_nil (List.cons.inj hcr).2
      · next hjoins =>
        exact List.isChain_cons_cons.mpr ⟨Lexeme.apart_single (by simpa using hjoins), h.apart⟩

/-- Lexemes cut their text. -/
theorem cutting_lexemes (cs : List Char) : Cutting cs (lexemes cs) := by
  induction cs with
  | nil => exact ⟨by simp, List.IsChain.nil, rfl⟩
  | cons c cs ih => exact ih.attach

/-! ### There is no other way -/

namespace Lexeme

variable {l : Lexeme} {ls : List Lexeme} {cs : List Char} {kind : TokenKind}

theorem attach_eq_cons {c : Char} (h : ∀ next ∈ ls.head?, joins c next = false) :
    attach c ls = single c :: ls := by
  cases ls with
  | nil => rfl
  | cons next rest => rw [attach, h next rfl, if_neg Bool.false_ne_true]

/-- A run of characters that join each other, and not what follows, makes one lexeme. -/
theorem foldr_attach_run (hne : cs ≠ []) (hkind : ∀ c ∈ cs, TokenKind.ofChar c = kind)
    (hjoins : ∀ c ∈ cs, ∀ next, joins c next = (next.kind == kind))
    (hhead : ∀ next ∈ ls.head?, next.kind ≠ kind) : cs.foldr attach ls = ⟨kind, cs⟩ :: ls := by
  induction cs with
  | nil => exact absurd rfl hne
  | cons c cs ih =>
    obtain ⟨hc, hrest⟩ := List.forall_mem_cons.mp hkind
    obtain ⟨hjoin, hjoinRest⟩ := List.forall_mem_cons.mp hjoins
    rw [List.foldr_cons]
    cases cs with
    | nil =>
      rw [List.foldr_nil, attach_eq_cons fun next hnext => by simpa [hjoin] using hhead next hnext,
        single, hc]
    | cons d cs =>
      rw [ih (List.cons_ne_nil d cs) hrest hjoinRest, attach, if_pos (by simp [hjoin])]

/-- Reading the characters of a lexeme gives the lexeme, if what follows may stand beside it. -/
theorem foldr_attach (hfits : l.Fits) (hapart : ∀ next ∈ ls.head?, l.Apart next) :
    l.chars.foldr attach ls = l :: ls := by
  obtain ⟨kind, chars⟩ := l
  cases kind with
  | text =>
    have hkind : ∀ c ∈ chars, TokenKind.ofChar c = .text := fun c hc =>
      TokenKind.ofChar_eq_text.mpr (hfits.2 c hc)
    refine foldr_attach_run hfits.1 hkind (fun c hc next => by simp [joins, hkind c hc]) ?_
    exact fun next hnext heq => (hapart next hnext).text ⟨rfl, heq⟩
  | whitespace =>
    have hkind : ∀ c ∈ chars, TokenKind.ofChar c = .whitespace := fun c hc =>
      TokenKind.ofChar_eq_whitespace.mpr (hfits.2 c hc)
    refine foldr_attach_run hfits.1 hkind (fun c hc next => by simp [joins, hkind c hc]) ?_
    exact fun next hnext heq => (hapart next hnext).whitespace ⟨rfl, heq⟩
  | lineBreak =>
    rcases (show chars = _ ∨ chars = _ ∨ chars = _ from hfits) with rfl | rfl | rfl
    · refine attach_eq_cons fun next hnext => ?_
      have hlf : ¬ (['\r'] = ['\r'] ∧ next.chars = ['\n']) := (hapart next hnext).lineBreak
      simpa [joins, TokenKind.ofChar] using hlf
    · exact attach_eq_cons fun next _ => rfl
    · show attach '\r' (attach '\n' ls) = _
      rw [attach_eq_cons (c := '\n') fun next _ => rfl]
      rfl
  | symbol =>
    obtain ⟨c, rfl, hc⟩ : ∃ c, chars = [c] ∧ _ := hfits
    have hkind := TokenKind.ofChar_eq_symbol.mpr hc
    show attach c ls = _
    rw [attach_eq_cons fun next _ => by simp [joins, hkind], single, hkind]

end Lexeme

/-- A text has no other cutting. -/
theorem Cutting.eq_lexemes {cs : List Char} {ls : List Lexeme} (h : Cutting cs ls) :
    ls = lexemes cs := by
  induction ls generalizing cs with
  | nil =>
    obtain rfl : [] = cs := h.chars
    rfl
  | cons l ls ih =>
    obtain ⟨hfits, hrest⟩ := List.forall_mem_cons.mp h.fits
    have hls : ls = lexemes (ls.flatMap Lexeme.chars) := ih ⟨hrest, h.apart.tail, rfl⟩
    have hapart : ∀ next ∈ ls.head?, l.Apart next := (List.isChain_cons.mp h.apart).1
    rw [← h.chars, List.flatMap_cons, lexemes, List.foldr_append]
    show l :: ls = l.chars.foldr Lexeme.attach (lexemes (ls.flatMap Lexeme.chars))
    rw [← hls, Lexeme.foldr_attach hfits hapart]

/-! ### Lexemes are longest matches -/

/-- No lexeme that begins where one of a cutting does is longer. -/
theorem Cutting.length_le {cs : List Char} {l : Lexeme} {ls : List Lexeme}
    (h : Cutting cs (l :: ls)) {m : Lexeme} (hm : m.Fits) (hbegins : m.chars <+: cs) :
    m.chars.length ≤ l.chars.length := by
  by_contra hlt
  have hl := h.fits l List.mem_cons_self
  rw [← h.chars, List.flatMap_cons] at hbegins
  obtain ⟨more, hmore⟩ := List.prefix_of_prefix_length_le (List.prefix_append _ _) hbegins
    (Nat.le_of_not_le hlt)
  rw [← hmore, List.prefix_append_right_inj] at hbegins
  obtain ⟨c, cs', hc⟩ := List.exists_cons_of_ne_nil hl.ne_nil
  obtain ⟨d, ds, rfl⟩ : ∃ d ds, more = d :: ds := by
    refine List.exists_cons_of_ne_nil fun hnil => hlt ?_
    rw [← hmore, hnil, List.append_nil]
  -- a longer one goes on with the first character of the next lexeme, so all three are of one kind
  obtain ⟨next, rest, rfl⟩ : ∃ next rest, ls = next :: rest := by
    refine List.exists_cons_of_ne_nil fun hnil => ?_
    simp [hnil] at hbegins
  have hnext := h.fits next (List.mem_cons_of_mem l List.mem_cons_self)
  have hapart := (List.isChain_cons_cons.mp h.apart).1
  obtain ⟨d', ds', hd'⟩ := List.exists_cons_of_ne_nil hnext.ne_nil
  rw [List.flatMap_cons, hd', List.cons_append, List.cons_prefix_cons] at hbegins
  obtain ⟨rfl, -⟩ := hbegins
  have hkind : l.kind = m.kind := by
    rw [hl.kind_eq (c := c) (by simp [hc]), hm.kind_eq (c := c) (by simp [← hmore, hc])]
  have hkind' : next.kind = m.kind := by
    rw [hnext.kind_eq (c := d) (by simp [hd']), hm.kind_eq (c := d) (by simp [← hmore])]
  obtain ⟨kind, chars⟩ := m
  cases kind with
  | text => exact hapart.text ⟨hkind, hkind'⟩
  | whitespace => exact hapart.whitespace ⟨hkind, hkind'⟩
  | symbol =>
    obtain ⟨c', hc', -⟩ := hm
    rw [hc, hc'] at hmore
    simp at hmore
  | lineBreak =>
    rw [hc] at hmore
    rcases hm with hm | hm | hm
    · rw [hm] at hmore
      simp at hmore
    · rw [hm] at hmore
      simp at hmore
    · -- a CR and its LF, which the cutting has as two lexemes
      rw [hm, List.cons_append, List.cons.injEq, List.append_eq_singleton_iff] at hmore
      obtain ⟨rfl, ⟨rfl, hd⟩ | ⟨-, hd⟩⟩ := hmore
      · obtain ⟨rfl, rfl⟩ := List.cons.inj hd
        refine hapart.lineBreak ⟨hc, ?_⟩
        rw [Lexeme.Fits, hkind'] at hnext
        rcases hnext with hnext | hnext | hnext <;> simp_all
      · exact absurd hd (List.cons_ne_nil _ _)

/-! ### The tokens of a text -/

namespace Token

/-- A token without its tags. -/
def lexeme (t : Token) : Lexeme :=
  ⟨t.kind, t.text.toList⟩

/-- A token has no tag of any taxonomy. -/
structure IsUntagged (t : Token) : Prop where
  role : t.role = none
  classRole : t.classRole = none
  highlight : t.highlight = none
  comment : t.comment = none

theorem isUntagged_ofLexeme (l : Lexeme) : (ofLexeme l).IsUntagged :=
  ⟨rfl, rfl, rfl, rfl⟩

theorem lexeme_ofLexeme (l : Lexeme) : (ofLexeme l).lexeme = l := by
  rw [lexeme, ofLexeme, String.toList_ofList]

end Token

namespace TaggedText

theorem tokens_tokenize (text : String) :
    (tokenize text).tokens.toList = (lexemes text.toList).map Token.ofLexeme := rfl

theorem text_ne_empty_of_mem_tokensOf {text : String} {token : Token}
    (h : token ∈ tokensOf text) : token.text ≠ "" := by
  obtain ⟨l, hl, rfl⟩ := List.mem_map.mp h
  have hfits := (cutting_lexemes text.toList).fits l hl
  intro hempty
  refine hfits.ne_nil ?_
  rw [← Token.lexeme_ofLexeme l, Token.lexeme, hempty]
  rfl

/-- **A text has one cutting.** The tokens of a text are untagged and stand where their spans say,
none of which is empty. They cut the text, and there is no other way to cut it. -/
theorem tokenize_cuts (text : String) (h : text.utf8ByteSize < UInt32.size) :
    (∀ token ∈ (tokenize text).tokens.toList, token.IsUntagged) ∧
    ((tokenize text).text = text ∧ (tokenize text).Placed ∧
      ∀ s ∈ (tokenize text).spans, s.start < s.stop) ∧
    Cutting text.toList ((tokenize text).tokens.toList.map Token.lexeme) ∧
    ∀ ls, Cutting text.toList ls → (tokenize text).tokens.toList = ls.map Token.ofLexeme := by
  have hsize : (tokenize text).text.utf8ByteSize < UInt32.size := by rwa [text_tokenize]
  refine ⟨fun token htoken => ?_, ⟨text_tokenize text, placed_of_lt hsize, ?_⟩, ?_,
    fun ls hls => ?_⟩
  · obtain ⟨l, -, rfl⟩ := List.mem_map.mp htoken
    exact Token.isUntagged_ofLexeme l
  · refine start_lt_stop_spansFrom ?_ fun token => text_ne_empty_of_mem_tokensOf
    rw [Nat.zero_add]
    exact hsize
  · rw [tokens_tokenize, List.map_map, Function.comp_def]
    simp only [Token.lexeme_ofLexeme, List.map_id']
    exact cutting_lexemes text.toList
  · rw [tokens_tokenize, hls.eq_lexemes]

/-- A word of several bytes, two lone line breaks that are not one, and a run of blanks. -/
theorem tokenize_cuts_mixed :
    "né\n\r\r\n \t_9".utf8ByteSize < UInt32.size ∧
      Cutting "né\n\r\r\n \t_9".toList
        [⟨.text, ['n', 'é']⟩, ⟨.lineBreak, ['\n']⟩, ⟨.lineBreak, ['\r']⟩,
         ⟨.lineBreak, ['\r', '\n']⟩, ⟨.whitespace, [' ', '\t']⟩, ⟨.symbol, ['_']⟩,
         ⟨.text, ['9']⟩] := by
  have h : "né\n\r\r\n \t_9".utf8ByteSize < UInt32.size := by decide
  exact ⟨h, (tokenize_cuts _ h).2.2.1⟩

end TaggedText

end DeclOutline
