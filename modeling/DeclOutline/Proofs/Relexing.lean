import DeclOutline.Proofs.Lexing
import DeclOutline.Proofs.Moving

/-!
# Full types read back

A type whose tokens are scattered is put together from parts of the text, and what stood between
the parts is gone. A space is put between two parts only where both adjoining tokens are words.
The text of the result may still differ from its tokens in its blanks: two parts may bring a blank
each, and a CR may meet an LF. Apart from blanks it does not. Whoever cuts the text of a full type
into lexemes again finds the tokens that the type is made of, and no two words have become one.

The argument needs little of tokens: their characters are those of their kind, and no two words
are neighbours. This holds of the tokens of a text, of every part of them, and of parts that are set
side by side.

## Main definitions

* `solidLexemes` — the lexemes of a text that are not blank
* `Spelled` — tokens of which no two become one when they are read
* `TaggedText.IsTaggingOf` — the tokens of a text, with any tags
* `Excerpt.ReadsBack` — an excerpt's text is cut into the excerpt's tokens, blanks aside

## Main results

* `solidLexemes_flatMap_chars` — lexemes whose words are apart are found again
* `ParameterList.spelled_joinRuns` — parts set side by side
* `ParameterList.fullType_readsBack` — full types read back
-/

namespace DeclOutline

/-! ### Lexemes that are found again -/

/-- The lexemes of a text that are not blank. -/
def solidLexemes (cs : List Char) : List Lexeme :=
  (lexemes cs).filter fun l => !l.kind.isBlank

namespace Lexeme

variable {l next : Lexeme} {c : Char} {ls : List Lexeme}

/-- Not both lexemes are words. -/
def WordsApart (l next : Lexeme) : Prop :=
  ¬ (l.kind = .text ∧ next.kind = .text)

theorem Apart.wordsApart (h : l.Apart next) : l.WordsApart next :=
  h.text

/-- A blank character adds nothing that is not blank. -/
theorem filter_attach (hc : (TokenKind.ofChar c).isBlank = true) (hfits : ∀ l ∈ ls, l.Fits) :
    ((attach c ls).filter fun l => !l.kind.isBlank) = ls.filter fun l => !l.kind.isBlank := by
  have hsingle : (single c).kind.isBlank = true := hc
  cases ls with
  | nil => simp [attach, hsingle]
  | cons next rest =>
    rw [attach]
    split
    · next hjoins =>
      -- the lexeme that the character joins is of the character's kind
      have hkind : next.kind = TokenKind.ofChar c :=
        ((hfits next List.mem_cons_self).cons hjoins).kind_eq List.mem_cons_self
      have hnext : next.kind.isBlank = true := by rw [hkind, hc]
      rw [List.filter_cons_of_neg (by simp [hnext]), List.filter_cons_of_neg (by simp [hnext])]
    · rw [List.filter_cons_of_neg (by simp [hsingle])]

end Lexeme

/-- Blank characters in front of a text add nothing that is not blank. -/
theorem solidLexemes_blank_append {ds : List Char}
    (h : ∀ d ∈ ds, (TokenKind.ofChar d).isBlank = true) (cs : List Char) :
    solidLexemes (ds ++ cs) = solidLexemes cs := by
  induction ds with
  | nil => rfl
  | cons d ds ih =>
    obtain ⟨hd, hds⟩ := List.forall_mem_cons.mp h
    rw [← ih hds, solidLexemes, List.cons_append, lexemes_cons,
      Lexeme.filter_attach hd (cutting_lexemes _).fits]
    rfl

/-- The first lexeme of a text is of the kind of its first character. -/
theorem kind_head_lexemes {c : Char} {cs : List Char} {l : Lexeme}
    (h : l ∈ (lexemes (c :: cs)).head?) : l.kind = TokenKind.ofChar c := by
  obtain ⟨rest, hrest⟩ := List.head?_eq_some_iff.mp h
  have hcut := cutting_lexemes (c :: cs)
  rw [hrest] at hcut
  have hchars : l.chars ++ rest.flatMap Lexeme.chars = c :: cs := hcut.chars
  have hhead : c ∈ (l.chars ++ rest.flatMap Lexeme.chars).head? := by
    rw [hchars]
    rfl
  exact (hcut.fits l List.mem_cons_self).kind_eq_of_head? hhead

/-- A lexeme that is not blank is found again in front of a text, unless it is a word and the text
begins with one. -/
theorem solidLexemes_append {l : Lexeme} {cs : List Char} (hfits : l.Fits)
    (hsolid : l.kind.isBlank = false)
    (hapart : ∀ c ∈ cs.head?, ¬ (l.kind = .text ∧ TokenKind.ofChar c = .text)) :
    solidLexemes (l.chars ++ cs) = l :: solidLexemes cs := by
  have hhead : ∀ next ∈ (lexemes cs).head?, l.Apart next := by
    intro next hnext
    cases cs with
    | nil => simp at hnext
    | cons c cs =>
      have hkind := kind_head_lexemes hnext
      refine ⟨?_, ?_, ?_⟩
      · rw [hkind]
        exact hapart c rfl
      · rintro ⟨hl, -⟩
        simp [hl, TokenKind.isBlank] at hsolid
      · rintro ⟨hl, -⟩
        have hl' : l.kind = .lineBreak := hfits.kind_eq (c := '\r') (by simp [hl])
        simp [hl', TokenKind.isBlank] at hsolid
  have hread : lexemes (l.chars ++ cs) = l :: lexemes cs := by
    rw [lexemes, List.foldr_append]
    exact Lexeme.foldr_attach hfits hhead
  rw [solidLexemes, hread, List.filter_cons_of_pos (by simp [hsolid])]
  rfl

/-- **Lexemes are found again.** If no two words are neighbours, reading the characters of lexemes
gives back all that are not blank. -/
theorem solidLexemes_flatMap_chars {ls : List Lexeme} (hfits : ∀ l ∈ ls, l.Fits)
    (hapart : ls.IsChain Lexeme.WordsApart) :
    solidLexemes (ls.flatMap Lexeme.chars) = ls.filter fun l => !l.kind.isBlank := by
  induction ls with
  | nil => rfl
  | cons l ls ih =>
    obtain ⟨hl, hls⟩ := List.forall_mem_cons.mp hfits
    rw [List.flatMap_cons]
    cases hblank : l.kind.isBlank with
    | true =>
      have hchars : ∀ c ∈ l.chars, (TokenKind.ofChar c).isBlank = true := by
        intro c hc
        rw [← hl.kind_eq hc]
        exact hblank
      rw [solidLexemes_blank_append hchars, ih hls hapart.tail,
        List.filter_cons_of_neg (by simp [hblank])]
    | false =>
      rw [solidLexemes_append hl hblank ?_, ih hls hapart.tail,
        List.filter_cons_of_pos (by simp [hblank])]
      intro c hc
      cases ls with
      | nil => simp at hc
      | cons next ls =>
        rw [List.flatMap_cons] at hc
        rw [← (hls next List.mem_cons_self).kind_eq_of_head? hc]
        exact (List.isChain_cons_cons.mp hapart).1

/-! ### Tokens that are found again -/

/-- The characters of tokens are those of their kinds, and no two words are neighbours. -/
structure Spelled (ts : List Token) : Prop where
  fits : ∀ token ∈ ts, token.lexeme.Fits
  apart : ts.IsChain fun a b => a.lexeme.WordsApart b.lexeme

namespace Spelled

variable {ts us : List Token}

theorem of_isInfix (h : Spelled ts) (hus : us <:+: ts) : Spelled us :=
  ⟨fun token htoken => h.fits token (hus.subset htoken), h.apart.infix hus⟩

theorem append (hts : Spelled ts) (hus : Spelled us)
    (h : ∀ a ∈ ts.getLast?, ∀ b ∈ us.head?, a.lexeme.WordsApart b.lexeme) :
    Spelled (ts ++ us) := by
  refine ⟨fun token htoken => ?_, hts.apart.append hus.apart h⟩
  rcases List.mem_append.mp htoken with htoken | htoken
  · exact hts.fits token htoken
  · exact hus.fits token htoken

theorem solidLexemes (h : Spelled ts) :
    solidLexemes (ts.flatMap fun token => token.text.toList) =
      (ts.filter fun token => !token.isBlank).map Token.lexeme := by
  have hfits : ∀ l ∈ ts.map Token.lexeme, l.Fits := by
    intro l hl
    obtain ⟨token, htoken, rfl⟩ := List.mem_map.mp hl
    exact h.fits token htoken
  have hread := solidLexemes_flatMap_chars hfits ((List.isChain_map _).mpr h.apart)
  rw [List.flatMap_map, List.filter_map] at hread
  exact hread

end Spelled

namespace TaggedText

variable {t : TaggedText} {e : Extent} {text : String}

/-- The tokens are those of a text, with any tags. -/
def IsTaggingOf (t : TaggedText) (text : String) : Prop :=
  t.tokens.toList.map Token.lexeme = lexemes text.toList

instance (t : TaggedText) (text : String) : Decidable (t.IsTaggingOf text) :=
  inferInstanceAs (Decidable (_ = _))

theorem IsTaggingOf.spelled (h : t.IsTaggingOf text) : Spelled t.tokens.toList := by
  have hcut := cutting_lexemes text.toList
  rw [← h] at hcut
  refine ⟨by simpa using hcut.fits, ?_⟩
  exact ((List.isChain_map _).mp hcut.apart).imp fun a b hab => hab.wordsApart

/-- The tokens of an extent, cut out of all tokens. -/
theorem slice_eq_take_drop (t : TaggedText) (e : Extent) :
    t.slice e = (t.tokens.toList.drop e.start).take (e.stop - e.start) := by
  rw [slice_eq_filterMap, Extent.indices]
  generalize e.stop - e.start = n
  generalize e.start = i
  induction n generalizing i with
  | zero => rfl
  | succ n ih =>
    rw [List.range'_succ]
    rcases Nat.lt_or_ge i t.length with hi | hi
    · rw [List.filterMap_cons_some (token?_of_lt hi), ih, List.drop_eq_getElem_cons hi,
        List.take_succ_cons]
      rfl
    · have hnil : t.tokens.toList.drop (i + 1) = [] := List.drop_eq_nil_of_le (Nat.le_succ_of_le hi)
      rw [List.filterMap_cons_none (token?_eq_none hi), ih, hnil, List.drop_eq_nil_of_le hi,
        List.take_nil, List.take_nil]

theorem head?_slice (h : e.start < e.stop) : (t.slice e).head? = t.token? e.start := by
  rw [slice_eq_take_drop, List.head?_take, if_neg (by omega), List.head?_drop, token?_eq_getElem?]

theorem getLast?_slice (h : e.start < e.stop) (hlen : e.stop ≤ t.length) :
    (t.slice e).getLast? = t.token? (e.stop - 1) := by
  have hlast : e.start + (e.stop - e.start - 1) = e.stop - 1 := by omega
  rw [slice_eq_take_drop, List.getLast?_take, if_neg (by omega), List.getElem?_drop, hlast,
    ← token?_eq_getElem?, token?_of_lt (by omega)]
  rfl

theorem spelled_slice (h : Spelled t.tokens.toList) (e : Extent) : Spelled (t.slice e) := by
  refine h.of_isInfix ?_
  rw [slice_eq_take_drop]
  exact (List.take_prefix _ _).isInfix.trans (List.drop_suffix _ _).isInfix

/-- An index without a token reads as nothing. -/
theorem toList_join_tokenText (t : TaggedText) (is : List Nat) :
    (String.join (is.map t.tokenText)).toList =
      (is.filterMap t.token?).flatMap fun token => token.text.toList := by
  induction is with
  | nil => rfl
  | cons i is ih =>
    rw [List.map_cons, String.join_cons, String.toList_append, ih, tokenText]
    cases htoken : t.token? i with
    | none => rw [List.filterMap_cons_none htoken]; rfl
    | some token => rw [List.filterMap_cons_some htoken]; rfl

end TaggedText

namespace Excerpt

/-- The text of an excerpt is cut into the tokens of the excerpt again, blanks and tags aside. -/
def ReadsBack (x : Excerpt) : Prop :=
  (whole (.tokenize x.text)).solids.map Token.lexeme = x.solids.map Token.lexeme

theorem solids_tokenize (text : String) :
    (whole (.tokenize text)).solids.map Token.lexeme = solidLexemes text.toList := by
  rw [solids, tokens_whole, TaggedText.tokens_tokenize, List.filter_map, List.map_map,
    Function.comp_def, solidLexemes]
  simp only [Token.lexeme_ofLexeme, List.map_id']
  rfl

theorem toList_text {x : Excerpt} (hstop : x.extent.stop ≤ x.source.length) :
    x.text.toList = x.tokens.flatMap fun token => token.text.toList := by
  rw [text, TaggedText.extentText_eq_join hstop, TaggedText.toList_join_tokenText,
    tokens_eq_filterMap]

theorem readsBack_of_spelled {x : Excerpt} (hstop : x.extent.stop ≤ x.source.length)
    (h : Spelled x.tokens) : x.ReadsBack := by
  rw [ReadsBack, solids_tokenize, toList_text hstop, h.solidLexemes]
  rfl

end Excerpt

namespace ParameterList

variable {t : TaggedText} {is : List Nat} {run : Extent} {rest : List Extent} {x : Excerpt}

/-! ### Parts set side by side -/

theorem start_lt_stop_of_mem_runs (hsorted : is.Pairwise (· < ·)) (h : run ∈ runs t is) :
    run.start < run.stop := by
  obtain ⟨g, hg, hhull⟩ := List.mem_filterMap.mp h
  obtain ⟨first, last, hfirst, hlast, rfl⟩ := hull?_eq_some hhull
  have hsub : g.Sublist is := by
    rw [← List.flatten_splitBy (onlyBlanksBetween t) is]
    exact List.sublist_flatten_of_mem hg
  obtain ⟨g, rfl⟩ := List.head?_eq_some_iff.mp hfirst
  exact Nat.lt_succ_of_le (head_le_getLast? (hsorted.sublist hsub) hlast)

theorem spelled_space : Spelled [space] := by
  refine ⟨?_, List.IsChain.singleton _⟩
  intro token htoken
  rw [List.mem_singleton.mp htoken]
  exact ⟨by decide, by simp [space, IsSpaceChar, Token.lexeme]⟩

/-- What is put between two parts keeps their words apart. -/
theorem spelled_glue {left right : Extent} {us : List Token} (hleft : left.start < left.stop)
    (hlen : left.stop ≤ t.length) (h : Spelled t.tokens.toList) (hus : Spelled us)
    (hhead : us.head? = t.token? right.start) :
    Spelled (t.slice left ++ glue t left right ++ us) := by
  have hslice := TaggedText.spelled_slice h left
  have hspace : space.lexeme.kind ≠ .text := by decide
  rw [glue]
  split
  · -- two words, and a space between them
    refine (hslice.append spelled_space ?_).append hus ?_
    · rintro a - b hb ⟨-, hkind⟩
      obtain rfl := Option.some.inj hb
      exact hspace hkind
    · rintro a ha b - ⟨hkind, -⟩
      rw [List.getLast?_append] at ha
      obtain rfl := Option.some.inj ha
      exact hspace hkind
  · next hkinds =>
    rw [List.append_nil]
    refine hslice.append hus ?_
    rintro a ha b hb ⟨hkind, hkind'⟩
    rw [TaggedText.getLast?_slice hleft hlen] at ha
    rw [hhead] at hb
    have ha' : t.kind? (left.stop - 1) = some .text := by
      rw [TaggedText.kind?, ha]
      exact congrArg some hkind
    have hb' : t.kind? right.start = some .text := by
      rw [TaggedText.kind?, hb]
      exact congrArg some hkind'
    simp [ha', hb'] at hkinds

/-- **Parts are set side by side.** The first token is that of the first part, and no two words
become neighbours. -/
theorem spelled_joinRuns (h : Spelled t.tokens.toList)
    (hruns : ∀ run' ∈ run :: rest, run'.start < run'.stop ∧ run'.stop ≤ t.length) :
    Spelled (joinRuns t run rest) ∧ (joinRuns t run rest).head? = t.token? run.start := by
  induction rest generalizing run with
  | nil =>
    obtain ⟨hlt, -⟩ := hruns run List.mem_cons_self
    exact ⟨TaggedText.spelled_slice h run, TaggedText.head?_slice hlt⟩
  | cons next rest ih =>
    obtain ⟨hlt, hlen⟩ := hruns run List.mem_cons_self
    obtain ⟨hspelled, hhead⟩ := ih fun run' hrun' => hruns run' (List.mem_cons_of_mem run hrun')
    rw [joinRuns]
    refine ⟨spelled_glue hlt hlen h hspelled hhead, ?_⟩
    rw [List.append_assoc, List.head?_append, TaggedText.head?_slice hlt,
      TaggedText.token?_of_lt (Nat.lt_of_lt_of_le hlt hlen)]
    rfl

/-! ### Full types -/

/-- A type made of the tokens at some indices reads back. -/
theorem readsBack_assemble (h : Spelled t.tokens.toList) (hsorted : is.Pairwise (· < ·))
    (hlen : ∀ i ∈ is, i < t.length) (hx : assemble t is = some x) : x.ReadsBack := by
  have hruns : ∀ run ∈ runs t is, run.start < run.stop ∧ run.stop ≤ t.length :=
    fun run hrun => ⟨start_lt_stop_of_mem_runs hsorted hrun, stop_le_of_mem_runs hlen hrun⟩
  rw [assemble] at hx
  split at hx
  · split at hx
    · simp at hx
    · next run heq =>
      obtain rfl := Option.some.inj hx
      refine Excerpt.readsBack_of_spelled (hruns run (by simp [heq])).2 ?_
      rw [Excerpt.tokens_eq_filterMap]
      have hslice := TaggedText.spelled_slice h run
      rwa [TaggedText.slice_eq_filterMap] at hslice
    · next run rest _ heq =>
      obtain rfl := Option.some.inj hx
      refine Excerpt.readsBack_of_spelled (Nat.le_refl _) ?_
      rw [Excerpt.tokens_whole]
      exact (spelled_joinRuns h fun run' hrun' => hruns run' (heq ▸ hrun')).1
  · simp at hx

/-- Parameters do not reach past the last token, wherever the section lies. -/
theorem stop_le_of_parameter? {e p : Extent} {hasName impliesTypes : Bool} {index : Nat}
    (h : (analyze t e hasName impliesTypes).parameter? index = some p) : p.stop ≤ t.length := by
  obtain ⟨q, -, rfl⟩ := List.mem_map.mp (List.mem_of_getElem? h)
  exact t.stop_trim_le q

/-- A full type reads back if its parameter lies in the text. -/
theorem readsBack_fullType? {l : ParameterList} (h : Spelled t.tokens.toList)
    (hstop : ∀ index p, l.parameter? index = some p → p.stop ≤ t.length) {index : Nat}
    {implied : Bool} (hx : l.fullType? t index implied = some x) : x.ReadsBack := by
  obtain ⟨donor, -, hdonor⟩ := Option.bind_eq_some_iff.mp hx
  obtain ⟨p, hp, hassemble⟩ := Option.bind_eq_some_iff.mp hdonor
  have hsub := typeIndices_sublist t (donor == index) p
  refine readsBack_assemble h (p.pairwise_indices.sublist hsub) (fun i hi => ?_) hassemble
  exact Nat.lt_of_lt_of_le (Extent.mem_indices.mp (hsub.subset hi)).2 (hstop donor p hp)

/-- **Full types read back.** In a text that is tagged in any way, the text of every full type is
cut into the type's own tokens again, blanks aside, whether it is an extent or was put together.
This holds of the parameter list of any extent, and so of declarations. -/
theorem fullType_readsBack {text : String} (h : t.IsTaggingOf text) :
    (∀ (e : Extent) (hasName impliesTypes : Bool) (index : Nat) (implied : Bool) (x : Excerpt),
      (analyze t e hasName impliesTypes).fullType? t index implied = some x → x.ReadsBack) ∧
    ∀ d : Declaration, d.text = t → d.IsCurrent → ∀ (index : Nat) (implied : Bool) (x : Excerpt),
      d.fullType? index implied = some x → x.ReadsBack := by
  constructor
  · intro e hasName impliesTypes index implied x hx
    exact readsBack_fullType? h.spelled (fun _ _ => stop_le_of_parameter?) hx
  · rintro d rfl hcurrent index implied x hx
    obtain ⟨l, hl, hlx⟩ := Option.bind_eq_some_iff.mp hx
    have hmem := d.mainSection_mem
    rw [Declaration.mainSection_of_mainList? hl, hcurrent] at hmem
    obtain ⟨p, -, -, rfl⟩ := Outline.exists_of_parameterized_mem hmem
    exact readsBack_fullType? h.spelled (fun _ _ => stop_le_of_parameter?) hlx

end ParameterList

namespace Sample

/-- `f(int [a cb b])`, where brackets modify the parameter and wrap its name. -/
def wrappedName : TaggedText :=
  TaggedText.tokenize "f(int [a cb b])"
    |>.setRole 1 (some .listOpen) |>.setRole 2 (some .typeName) |>.setRole 4 (some .paramGroupOpen)
    |>.setRole 7 (some .name) |>.setRole 10 (some .paramGroupClose) |>.setRole 11 (some .listClose)

/-- Without the name that they wrapped, the brackets hold two blanks side by side. -/
theorem fullType_readsBack_wrappedName :
    wrappedName.IsTaggingOf "f(int [a cb b])" ∧
      ∃ x, (Declaration.ofText wrappedName).fullType? 0 true = some x ∧
        x.isWhole = true ∧ x.text = "int [a  b]" ∧ x.ReadsBack := by
  have h : wrappedName.IsTaggingOf "f(int [a cb b])" := by decide
  have hcurrent : (Declaration.ofText wrappedName).IsCurrent := rfl
  have hread : ((Declaration.ofText wrappedName).fullType? 0 true).map
      (fun x => (x.isWhole, x.text)) = some (true, "int [a  b]") := by decide
  obtain ⟨x, hx, hpair⟩ := Option.map_eq_some_iff.mp hread
  obtain ⟨hwhole, htext⟩ := Prod.mk.inj hpair
  exact ⟨h, x, hx, hwhole, htext,
    (ParameterList.fullType_readsBack h).2 _ rfl hcurrent 0 true x hx⟩

end Sample

end DeclOutline
