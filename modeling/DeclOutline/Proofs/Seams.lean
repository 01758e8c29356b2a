import DeclOutline.Proofs.Lexing

/-!
# Text that is appended in two parts

Appended text is cut on its own, and never joins what stands before it. So two texts that are
appended one after the other need not come to the tokens of the whole. They do unless a run goes
across the seam: two words or two runs of blanks that meet there, or a CR and its LF. Then the two
tokens at the seam are one token of the whole, and all others are the same.

A text has one cutting. So it is enough to name the lexemes of the whole and to check that they
cut it, and no scan is followed across the seam.

## Main definitions

* `Lexeme.join` — two lexemes as one
* `TaggedText.CutsRun` — a run goes across the seam between two texts

## Main results

* `lexemes_append_of_apart`, `lexemes_append_of_not_apart` — the lexemes of two parts
* `TaggedText.push_push_eq_tokenize_iff` — when two parts come to the tokens of the whole
-/

namespace DeclOutline

/-! ### Two lexemes as one -/

namespace Lexeme

variable {l next other : Lexeme}

/-- Two lexemes as one. -/
def join (l next : Lexeme) : Lexeme :=
  ⟨l.kind, l.chars ++ next.chars⟩

theorem not_apart_iff :
    ¬ l.Apart next ↔ (l.kind = .text ∧ next.kind = .text) ∨
      (l.kind = .whitespace ∧ next.kind = .whitespace) ∨
      (l.chars = ['\r'] ∧ next.chars = ['\n']) := by
  constructor
  · intro h
    by_contra hnone
    rw [not_or, not_or] at hnone
    exact h ⟨hnone.1, hnone.2.1, hnone.2.2⟩
  · rintro (h | h | h) hapart
    · exact hapart.text h
    · exact hapart.whitespace h
    · exact hapart.lineBreak h

/-- What must not stand side by side is of one kind. -/
theorem kind_eq_of_not_apart (hl : l.Fits) (hnext : next.Fits) (h : ¬ l.Apart next) :
    l.kind = next.kind := by
  rcases not_apart_iff.mp h with ⟨hkind, hkind'⟩ | ⟨hkind, hkind'⟩ | ⟨hcr, hlf⟩
  · rw [hkind, hkind']
  · rw [hkind, hkind']
  · rw [hl.kind_eq (c := '\r') (by simp [hcr]), hnext.kind_eq (c := '\n') (by simp [hlf])]
    rfl

/-- Lexemes that must not stand side by side are parts of one. -/
theorem Fits.join (hl : l.Fits) (hnext : next.Fits) (h : ¬ l.Apart next) : (l.join next).Fits := by
  have hne : l.chars ++ next.chars ≠ [] := List.append_ne_nil_of_left_ne_nil hl.ne_nil _
  obtain ⟨kind, chars⟩ := l
  obtain ⟨kind', chars'⟩ := next
  rcases not_apart_iff.mp h with ⟨rfl, rfl⟩ | ⟨rfl, rfl⟩ | ⟨rfl, rfl⟩
  · exact ⟨hne, List.forall_mem_append.mpr ⟨hl.2, hnext.2⟩⟩
  · exact ⟨hne, List.forall_mem_append.mpr ⟨hl.2, hnext.2⟩⟩
  · obtain rfl : kind = .lineBreak := hl.kind_eq (c := '\r') List.mem_cons_self
    exact Or.inr (Or.inr rfl)

theorem one_lt_length_join (hl : l.Fits) (hnext : next.Fits) :
    1 < (l.join next).chars.length := by
  have hpos := List.length_pos_iff.mpr hl.ne_nil
  have hpos' := List.length_pos_iff.mpr hnext.ne_nil
  rw [join, List.length_append]
  omega

/-- What may stand before a lexeme may stand before one that begins with it. -/
theorem Apart.join_right (h : other.Apart l) (hl : l.Fits) (hnext : next.Fits) :
    other.Apart (l.join next) := by
  refine ⟨h.text, h.whitespace, fun ⟨_, hlf⟩ => ?_⟩
  have hlen := one_lt_length_join hl hnext
  rw [hlf] at hlen
  exact Nat.lt_irrefl 1 hlen

/-- What may stand behind a lexeme may stand behind one that ends with it. -/
theorem Apart.join_left (h : next.Apart other) (hl : l.Fits) (hnext : next.Fits)
    (hkind : l.kind = next.kind) : (l.join next).Apart other := by
  refine ⟨?_, ?_, fun ⟨hcr, _⟩ => ?_⟩
  · rw [join, hkind]
    exact h.text
  · rw [join, hkind]
    exact h.whitespace
  · have hlen := one_lt_length_join hl hnext
    rw [hcr] at hlen
    exact Nat.lt_irrefl 1 hlen

end Lexeme

/-! ### The lexemes of two parts -/

variable {cs ds : List Char} {ls rest : List Lexeme} {l next : Lexeme}

theorem Cutting.append (hcs : Cutting cs ls) (hds : Cutting ds rest)
    (h : ∀ l ∈ ls.getLast?, ∀ next ∈ rest.head?, l.Apart next) : Cutting (cs ++ ds) (ls ++ rest) :=
  ⟨List.forall_mem_append.mpr ⟨hcs.fits, hds.fits⟩, hcs.apart.append hds.apart h,
    by rw [List.flatMap_append, hcs.chars, hds.chars]⟩

theorem Cutting.join (hcs : Cutting cs (ls ++ [l])) (hds : Cutting ds (next :: rest))
    (h : ¬ l.Apart next) : Cutting (cs ++ ds) (ls ++ l.join next :: rest) := by
  obtain ⟨hls, hl⟩ := List.forall_mem_append.mp hcs.fits
  have hl : l.Fits := hl l List.mem_cons_self
  obtain ⟨hnext, hrest⟩ := List.forall_mem_cons.mp hds.fits
  have hkind := Lexeme.kind_eq_of_not_apart hl hnext h
  refine ⟨?_, ?_, ?_⟩
  · exact List.forall_mem_append.mpr ⟨hls, List.forall_mem_cons.mpr ⟨hl.join hnext h, hrest⟩⟩
  · obtain ⟨hbefore, -, hseam⟩ := List.isChain_append.mp hcs.apart
    obtain ⟨hseam', hafter⟩ := List.isChain_cons.mp hds.apart
    refine hbefore.append (List.isChain_cons.mpr ⟨fun y hy => ?_, hafter⟩) fun x hx y hy => ?_
    · exact (hseam' y hy).join_left hl hnext hkind
    · obtain rfl := Option.some.inj hy
      exact (hseam x hx l rfl).join_right hl hnext
  · rw [← hcs.chars, ← hds.chars]
    simp [Lexeme.join]

/-- Two texts with nothing across their seam have the lexemes of both. -/
theorem lexemes_append_of_apart
    (h : ∀ l ∈ (lexemes cs).getLast?, ∀ next ∈ (lexemes ds).head?, l.Apart next) :
    lexemes (cs ++ ds) = lexemes cs ++ lexemes ds :=
  ((cutting_lexemes cs).append (cutting_lexemes ds) h).eq_lexemes.symm

/-- Of two texts with a run across their seam, the lexemes at the seam are one. -/
theorem lexemes_append_of_not_apart (hcs : lexemes cs = ls ++ [l]) (hds : lexemes ds = next :: rest)
    (h : ¬ l.Apart next) : lexemes (cs ++ ds) = ls ++ l.join next :: rest :=
  ((hcs ▸ cutting_lexemes cs).join (hds ▸ cutting_lexemes ds) h).eq_lexemes.symm

/-! ### What stands at a seam -/

/-- The last lexeme of a text ends where the text does. -/
theorem getLast?_chars (h : lexemes cs = ls ++ [l]) : l.chars.getLast? = cs.getLast? := by
  have hcut := cutting_lexemes cs
  rw [h] at hcut
  have hfits := hcut.fits l (List.mem_append_right ls List.mem_cons_self)
  rw [← hcut.chars, List.flatMap_append, List.flatMap_singleton,
    List.getLast?_append_of_ne_nil _ hfits.ne_nil]

/-- The first lexeme of a text begins where the text does. -/
theorem head?_chars (h : lexemes cs = l :: ls) : l.chars.head? = cs.head? := by
  have hcut := cutting_lexemes cs
  rw [h] at hcut
  have hfits := hcut.fits l List.mem_cons_self
  rw [← hcut.chars, List.flatMap_cons, List.head?_append_of_ne_nil _ hfits.ne_nil]

/-- A lexeme that ends in a CR is that CR, since an LF would have been taken along. -/
theorem Lexeme.Fits.chars_eq_cr_iff (h : l.Fits) :
    l.chars = ['\r'] ↔ l.chars.getLast? = some '\r' := by
  refine ⟨fun hcr => by rw [hcr]; rfl, fun hlast => ?_⟩
  have hkind : l.kind = .lineBreak := h.kind_eq (List.mem_of_getLast? hlast)
  rw [Fits, hkind] at h
  rcases h with h | h | h
  · exact h
  · simp [h] at hlast
  · simp [h] at hlast

/-- A lexeme that begins with an LF is that LF. -/
theorem Lexeme.Fits.chars_eq_lf_iff (h : l.Fits) :
    l.chars = ['\n'] ↔ l.chars.head? = some '\n' := by
  refine ⟨fun hlf => by rw [hlf]; rfl, fun hhead => ?_⟩
  have hkind : l.kind = .lineBreak := h.kind_eq (List.mem_of_head? hhead)
  rw [Fits, hkind] at h
  rcases h with h | h | h
  · simp [h] at hhead
  · exact h
  · simp [h] at hhead

namespace TaggedText

/-- A run goes across the seam between two texts: the last token of the one and the first of the
other are both words or both blanks, or the one ends in a CR and the other starts with an LF. -/
def CutsRun (a b : String) : Prop :=
  ((tokensOf a).getLast?.map Token.kind = some .text ∧
      (tokensOf b).head?.map Token.kind = some .text) ∨
    ((tokensOf a).getLast?.map Token.kind = some .whitespace ∧
      (tokensOf b).head?.map Token.kind = some .whitespace) ∨
    a.toList.getLast? = some '\r' ∧ b.toList.head? = some '\n'

instance (a b : String) : Decidable (CutsRun a b) :=
  inferInstanceAs (Decidable (_ ∨ _))

variable {a b : String}

/-- A run goes across a seam exactly if the lexemes there must not stand side by side. -/
theorem cutsRun_iff :
    CutsRun a b ↔ ∃ ls l next rest, lexemes a.toList = ls ++ [l] ∧
      lexemes b.toList = next :: rest ∧ ¬ l.Apart next := by
  have hfits := (cutting_lexemes a.toList).fits
  have hfits' := (cutting_lexemes b.toList).fits
  rw [CutsRun, tokensOf, tokensOf, List.getLast?_map, List.head?_map, Option.map_map,
    Option.map_map]
  rcases List.eq_nil_or_concat' (lexemes a.toList) with ha | ⟨ls, l, ha⟩
  · have hnil : a.toList = [] := by rw [← flatMap_chars_lexemes a.toList, ha]; rfl
    simp [hnil]
  · cases hb : lexemes b.toList with
    | nil =>
      have hnil : b.toList = [] := by rw [← flatMap_chars_lexemes b.toList, hb]; rfl
      simp [hnil]
    | cons next rest =>
      have hl : l.Fits := hfits l (by simp [ha])
      have hnext : next.Fits := hfits' next (by simp [hb])
      rw [← getLast?_chars ha, ← head?_chars hb, ← hl.chars_eq_cr_iff, ← hnext.chars_eq_lf_iff, ha]
      simp [Lexeme.not_apart_iff, Token.ofLexeme]

/-! ### Appending twice -/

/-- Text that is appended without a role is cut like a text of its own. -/
theorem tokens_push_none (t : TaggedText) (text : String) :
    (t.push text none).tokens.toList =
      t.tokens.toList ++ (lexemes text.toList).map Token.ofLexeme := by
  have hmark : ∀ l, mark none (Token.ofLexeme l) = Token.ofLexeme l := by
    intro l
    rw [mark]
    split <;> rfl
  rw [push, Array.toList_append, tokensOf, List.map_map]
  exact congrArg _ (List.map_congr_left fun l _ => hmark l)

theorem tokens_push_push (a b : String) :
    (build [.push a none, .push b none]).tokens.toList =
      (lexemes a.toList ++ lexemes b.toList).map Token.ofLexeme := by
  show (((TaggedText.mk #[]).push a none).push b none).tokens.toList = _
  rw [tokens_push_none, tokens_push_none, List.map_append]
  rfl

/-- With nothing across the seam, two parts have the tokens of the whole. -/
theorem push_push_eq_tokenize (h : ¬ CutsRun a b) :
    build [.push a none, .push b none] = tokenize (a ++ b) := by
  have hlexemes : lexemes (a ++ b).toList = lexemes a.toList ++ lexemes b.toList := by
    rw [String.toList_append]
    refine lexemes_append_of_apart fun l hl next hnext => ?_
    obtain ⟨ls, hls⟩ := List.getLast?_eq_some_iff.mp hl
    obtain ⟨rest, hrest⟩ := List.head?_eq_some_iff.mp hnext
    by_contra hn
    exact h (cutsRun_iff.mpr ⟨ls, l, next, rest, hls, hrest, hn⟩)
  have htokens := tokens_push_push a b
  rw [← hlexemes, ← tokens_tokenize] at htokens
  exact congrArg TaggedText.mk (Array.toList_inj.mp htokens)

/-- Two tokens of one text are one token of the other, and all others are the same. -/
def FusesInto (t t' : TaggedText) : Prop :=
  ∃ before left right after, t.tokens.toList = before ++ left :: right :: after ∧
    t'.tokens.toList = before ++ { left with text := left.text ++ right.text } :: after

theorem FusesInto.length_eq {t t' : TaggedText} (h : t.FusesInto t') :
    t.length = t'.length + 1 := by
  obtain ⟨before, left, right, after, ht, ht'⟩ := h
  show t.tokens.toList.length = t'.tokens.toList.length + 1
  rw [ht, ht']
  simp only [List.length_append, List.length_cons]
  omega

/-- With a run across the seam, the two tokens there are one token of the whole. -/
theorem push_push_fusesInto (h : CutsRun a b) :
    (build [.push a none, .push b none]).FusesInto (tokenize (a ++ b)) := by
  obtain ⟨ls, l, next, rest, hls, hrest, hn⟩ := cutsRun_iff.mp h
  refine ⟨ls.map Token.ofLexeme, .ofLexeme l, .ofLexeme next, rest.map Token.ofLexeme, ?_, ?_⟩
  · rw [tokens_push_push, hls, hrest]
    simp
  · rw [tokens_tokenize, String.toList_append, lexemes_append_of_not_apart hls hrest hn]
    simp [Token.ofLexeme, Lexeme.join]

theorem buffer_push_push (h : a.utf8ByteSize + b.utf8ByteSize < UInt32.size) :
    Buffer.build [.push a none, .push b none] =
      .ok (.ofText (build [.push a none, .push b none])) := by
  have hnone : (TaggedText.mk #[]).text.utf8ByteSize = 0 := rfl
  refine Buffer.build_eq_ok fun n => Nat.lt_of_le_of_lt ?_ h
  rcases n with _ | _ | n
  · exact Nat.zero_le _
  · rw [List.take_succ_cons, List.take_zero, build, List.foldl_cons, List.foldl_nil, edit,
      text_push, String.utf8ByteSize_append, hnone]
    omega
  · rw [List.take_of_length_le (by simp), build, List.foldl_cons, List.foldl_cons, List.foldl_nil,
      edit, edit, text_push, text_push, String.utf8ByteSize_append, String.utf8ByteSize_append,
      hnone]
    omega

theorem buffer_tokenize {text : String} (h : text.utf8ByteSize < UInt32.size) :
    Buffer.build [.tokenize text] = .ok (.ofText (tokenize text)) := by
  refine Buffer.edit_ofText (t := {}) (e := .tokenize text) ?_
  rw [edit, text_tokenize]
  exact h

/-- **Two parts and the whole.** Two texts that are appended one after the other overflow nowhere if
the whole does not. They come to the whole, as tokens and as spans of a text kept whole, exactly if
no run goes across the seam. If one does, the two tokens at the seam are one token of the whole, and
all others are the same. -/
theorem push_push_eq_tokenize_iff (a b : String)
    (h : a.utf8ByteSize + b.utf8ByteSize < UInt32.size) :
    ∃ parts whole : Buffer,
      Buffer.build [.push a none, .push b none] = .ok parts ∧
      Buffer.build [.tokenize (a ++ b)] = .ok whole ∧
      (parts = whole ↔ ¬ CutsRun a b) ∧
      (build [.push a none, .push b none] = tokenize (a ++ b) ↔ ¬ CutsRun a b) ∧
      (CutsRun a b → (build [.push a none, .push b none]).FusesInto (tokenize (a ++ b))) := by
  have hne {t t' : TaggedText} (hfuses : t.FusesInto t') : t.spans ≠ t'.spans := by
    intro heq
    have hlen := hfuses.length_eq
    rw [← length_spans, ← length_spans, heq] at hlen
    omega
  refine ⟨_, _, buffer_push_push h, buffer_tokenize (by rwa [String.utf8ByteSize_append]),
    ⟨fun heq hcuts => ?_, fun hnone => ?_⟩, ⟨fun heq hcuts => ?_, push_push_eq_tokenize⟩,
    push_push_fusesInto⟩
  · exact hne (push_push_fusesInto hcuts) (congrArg Buffer.spans heq)
  · exact congrArg Buffer.ofText (push_push_eq_tokenize hnone)
  · exact hne (push_push_fusesInto hcuts) (congrArg spans heq)

/-- A CR and its LF are one token of the whole, and an LF and a CR are not. -/
theorem push_push_lineBreaks :
    ("é\r".utf8ByteSize + "\nx".utf8ByteSize < UInt32.size ∧
      build [.push "é\r" none, .push "\nx" none] ≠ tokenize "é\r\nx") ∧
    "é\n".utf8ByteSize + "\rx".utf8ByteSize < UInt32.size ∧
      build [.push "é\n" none, .push "\rx" none] = tokenize "é\n\rx" := by
  have h : "é\r".utf8ByteSize + "\nx".utf8ByteSize < UInt32.size := by decide
  have h' : "é\n".utf8ByteSize + "\rx".utf8ByteSize < UInt32.size := by decide
  obtain ⟨_, _, _, _, _, hiff, _⟩ := push_push_eq_tokenize_iff "é\r" "\nx" h
  obtain ⟨_, _, _, _, _, hiff', _⟩ := push_push_eq_tokenize_iff "é\n" "\rx" h'
  exact ⟨⟨h, fun heq => hiff.mp heq (by decide)⟩, h', hiff'.mpr (by decide)⟩

end TaggedText

end DeclOutline
