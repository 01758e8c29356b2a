import DeclOutline.Proofs.Answers
import DeclOutline.Sample
import Mathlib.Data.List.Chain

/-!
# Layout does not matter

Blank tokens without a role are layout: they may be added and left out anywhere, and a declaration
says the same. Two texts that differ in layout alone leave the same text when all of it is left
out, so it is enough to compare a text with this bare one. Its tokens are carried to it by their
*rank*, the number of tokens before them that are not layout.

Cutting a text into pieces and leaving out layout commute, but for pieces of layout alone, which
are not left. Such pieces are blank, and are dropped from either text. The sections of the bare text
are then the sections of the text, carried, and what they say is the same.

## Main definitions

* `TaggedText.bare` — a text without its layout
* `TaggedText.rank` — where a token of a text stands in its bare text

## Main results

* `TaggedText.carries_rank` — ranks carry a text to its bare text
* `Piece.kept_bare` — pieces of the bare text
* `Outline.sections_bare` — its sections
* `Declaration.content_ofText_eq_of_bare_eq` — texts that differ in layout have the same content
-/

namespace DeclOutline

namespace TaggedText

variable {t : TaggedText} {i : Nat}

/-! ### The bare text -/

/-- Tokens without the layout among them. -/
def withoutLayout (tokens : List Token) : List Token :=
  tokens.filter fun token => !token.isLayout

/-- A text without its layout. -/
def bare (t : TaggedText) : TaggedText :=
  ⟨(withoutLayout t.tokens.toList).toArray⟩

/-- The number of tokens before an index that are not layout. -/
def rank (t : TaggedText) (i : Nat) : Nat :=
  (withoutLayout (t.tokens.toList.take i)).length

@[simp] theorem withoutLayout_append (as bs : List Token) :
    withoutLayout (as ++ bs) = withoutLayout as ++ withoutLayout bs :=
  List.filter_append ..

@[simp] theorem rank_zero (t : TaggedText) : t.rank 0 = 0 := rfl

/-- Where a text is cut in two, the rank of the cut counts the part before it. -/
theorem rank_of_append {as bs : List Token} (h : t.tokens.toList = as ++ bs) :
    t.rank as.length = (withoutLayout as).length := by
  rw [rank, h, List.take_left]

theorem rank_length (t : TaggedText) : t.rank t.length = t.bare.length :=
  t.rank_of_append (List.append_nil t.tokens.toList).symm

/-- Ranks carry a text to its bare text. -/
theorem carries_rank (t : TaggedText) : Carries t.rank t t.bare t.full := by
  intro i _ hi
  have hi : i < t.tokens.toList.length := hi
  obtain ⟨as, token, bs, htokens, rfl⟩ : ∃ as token bs,
      t.tokens.toList = as ++ token :: bs ∧ as.length = i := by
    refine ⟨t.tokens.toList.take i, t.tokens.toList[i], t.tokens.toList.drop (i + 1), ?_, ?_⟩
    · rw [← List.drop_eq_getElem_cons hi, List.take_append_drop]
    · exact List.length_take_of_le (Nat.le_of_lt hi)
  have htoken : t.token? as.length = some token := by simp [token?_eq_getElem?, htokens]
  have hsucc : t.rank (as.length + 1) = (withoutLayout (as ++ [token])).length := by
    have hcut : t.tokens.toList = (as ++ [token]) ++ bs := by simp [htokens]
    rw [← rank_of_append hcut, List.length_append]
    rfl
  rw [hsucc, rank_of_append htokens, htoken]
  cases hlayout : token.isLayout with
  | true =>
    refine Or.inr ⟨by simp [withoutLayout, hlayout], ?_⟩
    simp [isLayoutAt, htoken, hlayout]
  | false =>
    refine Or.inl ⟨by simp [withoutLayout, hlayout], ?_⟩
    rw [token?_eq_getElem?]
    show (withoutLayout t.tokens.toList)[(withoutLayout as).length]? = some token
    simp [htokens, withoutLayout, hlayout]

end TaggedText

open TaggedText (withoutLayout)

/-! ### Cutting the bare text -/

theorem Token.isLayout_eq_false_of_hasRole {token : Token} {r : Role}
    (h : token.hasRole r = true) : token.isLayout = false := by
  have hrole : token.role = some r := by simpa [hasRole] using h
  simp [isLayout, hrole]

namespace Piece

/-- There is a cut between two groups of tokens. -/
def Apart (as bs : List Token) : Prop :=
  as.getLast?.any (·.hasRole .sectionEnd) = true ∨ bs.head?.any (·.hasRole .sectionStart) = true

theorem apart_iff {as bs : List Token} (ha : as ≠ []) (hb : bs ≠ []) :
    Apart as bs ↔ ∃ ha hb, holdsTogether (as.getLast ha) (bs.head hb) = false := by
  simp only [Apart, List.getLast?_eq_some_getLast ha, List.head?_eq_some_head hb, Option.any_some,
    holdsTogether_eq_false, ne_eq, ha, hb, not_false_eq_true, exists_true_left]
  exact or_comm

/-- A cut next to a group that is layout alone is there for the other group's sake. -/
theorem Apart.of_withoutLayout_eq_nil {as bs : List Token} (h : Apart as bs)
    (hb : withoutLayout bs = []) (cs : List Token) : Apart as cs := by
  refine Or.inl (h.resolve_right fun hstart => ?_)
  obtain ⟨token, htoken, hrole⟩ := (Option.any_eq_true _ _).mp hstart
  have hlayout := List.filter_eq_nil_iff.mp hb token (List.mem_of_mem_head? htoken)
  simp [Token.isLayout_eq_false_of_hasRole hrole] at hlayout

/-- Tokens next to a cut are not layout, so the cut stays. -/
theorem Apart.withoutLayout {as bs : List Token} (h : Apart as bs) :
    Apart (withoutLayout as) (withoutLayout bs) := by
  refine h.imp (fun hend => ?_) fun hstart => ?_
  · obtain ⟨token, htoken, hrole⟩ := (Option.any_eq_true _ _).mp hend
    obtain ⟨as, rfl⟩ := List.getLast?_eq_some_iff.mp htoken
    simp [TaggedText.withoutLayout, Token.isLayout_eq_false_of_hasRole hrole, hrole]
  · obtain ⟨token, htoken, hrole⟩ := (Option.any_eq_true _ _).mp hstart
    obtain ⟨bs, rfl⟩ := List.head?_eq_some_iff.mp htoken
    simp [TaggedText.withoutLayout, Token.isLayout_eq_false_of_hasRole hrole, hrole]

/-- Groups of tokens without their layout; groups of layout alone are not left. -/
def bareGroups (gs : List (List Token)) : List (List Token) :=
  (gs.map withoutLayout).filter fun g => !g.isEmpty

theorem bareGroups_cons_of_nil {g : List Token} {gs : List (List Token)}
    (h : withoutLayout g = []) : bareGroups (g :: gs) = bareGroups gs := by
  simp [bareGroups, h]

theorem bareGroups_cons_of_ne_nil {g : List Token} {gs : List (List Token)}
    (h : withoutLayout g ≠ []) : bareGroups (g :: gs) = withoutLayout g :: bareGroups gs := by
  simp [bareGroups, h]

theorem isChain_bareGroups_cons {g : List Token} {gs : List (List Token)}
    (h : (g :: gs).IsChain Apart) : (withoutLayout g :: bareGroups gs).IsChain Apart := by
  induction gs generalizing g with
  | nil => exact List.IsChain.singleton _
  | cons g' gs ih =>
    obtain ⟨hapart, hrest⟩ := List.isChain_cons_cons.mp h
    by_cases hnil : withoutLayout g' = []
    · rw [bareGroups_cons_of_nil hnil]
      refine ih ?_
      cases gs with
      | nil => exact List.IsChain.singleton _
      | cons g'' gs =>
        exact List.isChain_cons_cons.mpr
          ⟨hapart.of_withoutLayout_eq_nil hnil g'', (List.isChain_cons_cons.mp hrest).2⟩
    · rw [bareGroups_cons_of_ne_nil hnil]
      exact List.isChain_cons_cons.mpr ⟨hapart.withoutLayout, ih hrest⟩

theorem isChain_bareGroups {gs : List (List Token)} (h : gs.IsChain Apart) :
    (bareGroups gs).IsChain Apart := by
  cases gs with
  | nil => exact List.IsChain.nil
  | cons g gs =>
    by_cases hnil : withoutLayout g = []
    · rw [bareGroups_cons_of_nil hnil]
      exact (isChain_bareGroups_cons h).tail
    · rw [bareGroups_cons_of_ne_nil hnil]
      exact isChain_bareGroups_cons h

theorem flatten_bareGroups (gs : List (List Token)) :
    (bareGroups gs).flatten = withoutLayout gs.flatten := by
  induction gs with
  | nil => rfl
  | cons g gs ih =>
    rw [List.flatten_cons, TaggedText.withoutLayout_append, ← ih]
    by_cases hnil : withoutLayout g = []
    · rw [bareGroups_cons_of_nil hnil, hnil, List.nil_append]
    · rw [bareGroups_cons_of_ne_nil hnil, List.flatten_cons]

theorem nil_notMem_bareGroups (gs : List (List Token)) : [] ∉ bareGroups gs := by
  simp [bareGroups]

/-- Holding together passes over the tokens between two others. -/
instance : Trans (fun a b => holdsTogether a b = true) (fun a b => holdsTogether a b = true)
    (fun a b => holdsTogether a b = true) where
  trans {a b c} hab hbc := by
    simp only [holdsTogether, Bool.not_eq_true', Bool.or_eq_false_iff] at *
    exact ⟨hab.1, hbc.2⟩

/-- Cutting commutes with leaving out layout. -/
theorem splitBy_withoutLayout (tokens : List Token) :
    (withoutLayout tokens).splitBy holdsTogether =
      bareGroups (tokens.splitBy holdsTogether) := by
  have happart : (tokens.splitBy holdsTogether).IsChain Apart := by
    refine (List.isChain_getLast_head_splitBy holdsTogether tokens).imp ?_
    rintro as bs ⟨ha, hb, hfalse⟩
    exact (apart_iff ha hb).mpr ⟨ha, hb, hfalse⟩
  refine List.splitBy_eq_iff.mpr ⟨?_, nil_notMem_bareGroups _, fun g hg => ?_, ?_⟩
  · rw [flatten_bareGroups, List.flatten_splitBy]
  · obtain ⟨g, hmem, rfl⟩ := List.mem_map.mp (List.mem_filter.mp hg).1
    exact (List.isChain_of_mem_splitBy hmem).sublist (List.filter_sublist ..)
  · refine List.IsChain.imp_of_mem_imp (fun as bs ha hb hcut => ?_) (isChain_bareGroups happart)
    have hne : ∀ g ∈ bareGroups (tokens.splitBy holdsTogether), g ≠ [] :=
      fun g hg hnil => nil_notMem_bareGroups _ (hnil ▸ hg)
    exact (apart_iff (hne as ha) (hne bs hb)).mp hcut

/-! ### Pieces of the bare text -/

/-- A piece without its layout, where it stands in the bare text. -/
def bare (t : TaggedText) (p : Piece) : Piece :=
  ⟨t.rank p.start, withoutLayout p.tokens⟩

variable {t : TaggedText} {p : Piece}

/-- Layout is blank, so a piece is blank with it or without. -/
theorem isBlank_bare (t : TaggedText) (p : Piece) : (p.bare t).isBlank = p.isBlank := by
  rw [isBlank, isBlank, bare, withoutLayout, List.all_filter]
  refine List.all_congr rfl fun token => ?_
  cases hlayout : token.isLayout with
  | true => simp [(Bool.and_eq_true_iff.mp hlayout).1]
  | false => simp

/-- Layout has no role, so a piece has the same roles with it or without. -/
theorem hasRole_bare (t : TaggedText) (p : Piece) (r : Role) :
    (p.bare t).hasRole r = p.hasRole r := by
  rw [hasRole, hasRole, bare, withoutLayout, List.any_filter]
  refine List.any_congr rfl fun token => ?_
  cases hrole : token.hasRole r with
  | true => simp [Token.isLayout_eq_false_of_hasRole hrole]
  | false => simp

theorem place_bareGroups (as : List Token) (gs : List (List Token))
    (h : t.tokens.toList = as ++ gs.flatten) :
    place (withoutLayout as).length (bareGroups gs) =
      ((place as.length gs).map (bare t)).filter fun p => !p.tokens.isEmpty := by
  induction gs generalizing as with
  | nil => rfl
  | cons g gs ih =>
    have ih := ih (as ++ g) (by simp [h])
    rw [TaggedText.withoutLayout_append, List.length_append, List.length_append] at ih
    have hbare : bare t ⟨as.length, g⟩ = ⟨(withoutLayout as).length, withoutLayout g⟩ := by
      rw [bare, TaggedText.rank_of_append h]
    rw [place, List.map_cons, hbare]
    by_cases hnil : withoutLayout g = []
    · rw [bareGroups_cons_of_nil hnil, List.filter_cons_of_neg (by simp [hnil]), ← ih, hnil]
      rfl
    · rw [bareGroups_cons_of_ne_nil hnil, List.filter_cons_of_pos (by simpa using hnil), ← ih]
      rfl

theorem all_bare (t : TaggedText) :
    all t.bare = ((all t).map (bare t)).filter fun p => !p.tokens.isEmpty := by
  have hgroups := place_bareGroups (t := t) [] (t.tokens.toList.splitBy holdsTogether)
    (by simp [List.flatten_splitBy])
  rw [← splitBy_withoutLayout] at hgroups
  exact hgroups

/-- The pieces of the bare text are the pieces of the text, without their layout. -/
theorem kept_bare (t : TaggedText) : kept t.bare = (kept t).map (bare t) := by
  rw [kept, kept, all_bare, List.filter_filter, List.filter_map]
  congr 1
  refine List.filter_congr fun p _ => ?_
  cases hblank : p.isBlank with
  | true => simp [isBlank_bare, hblank]
  | false =>
    have hne : (p.bare t).tokens ≠ [] := by
      intro hnil
      have : (p.bare t).isBlank = true := by simp [isBlank, hnil]
      simp [isBlank_bare, hblank] at this
    simp [isBlank_bare, hblank, hne]

theorem extent_bare (h : p ∈ all t) : (p.bare t).extent = p.extent.image t.rank := by
  obtain ⟨l, r, heq, hstart⟩ := exists_of_mem_all h
  have htokens : t.tokens.toList = (l.flatten ++ p.tokens) ++ r.flatten := by
    rw [← List.flatten_splitBy holdsTogether t.tokens.toList, heq]
    simp
  have hcut : t.tokens.toList = l.flatten ++ (p.tokens ++ r.flatten) := by simp [htokens]
  have hstop := TaggedText.rank_of_append htokens
  rw [List.length_append, TaggedText.withoutLayout_append, List.length_append,
    ← TaggedText.rank_of_append hcut, ← hstart] at hstop
  rw [extent, extent, Extent.image, hstop]
  rfl

theorem mainIndex_bare (t : TaggedText) : mainIndex (kept t.bare) = mainIndex (kept t) := by
  have hfind : ∀ r : Role, ((kept t).map (bare t)).findIdx? (·.hasRole r) =
      (kept t).findIdx? (·.hasRole r) := by
    intro r
    rw [List.findIdx?_map]
    congr 1
    exact funext fun p => hasRole_bare t p r
  rw [mainIndex, mainIndex, kept_bare, hfind, hfind]

/-- The section of a bare piece is the section of the piece, carried. -/
theorem toSection_bare (h : p ∈ kept t) (impliesTypes : Bool) :
    (p.bare t).toSection t.bare impliesTypes = (p.toSection t impliesTypes).image t.rank := by
  have hall := (List.mem_filter.mp h).1
  have hlen := stop_le_length_of_mem_all hall
  have hcarries : Carries t.rank t t.bare p.extent := t.carries_rank.mono (Nat.zero_le _) hlen
  have hlen' : t.rank p.extent.stop ≤ t.bare.length := by
    rw [← t.rank_length]
    exact t.carries_rank.le (Nat.zero_le _) hlen (Nat.le_refl _)
  obtain ⟨htrim, hlt⟩ := trimmed_of_mem_kept h
  have hle := htrim.stop_le
  have htrimmed : t.bare.trim (p.bare t).extent = (t.trim p.extent).image t.rank := by
    rw [extent_bare hall]
    exact hcarries.trim (Nat.le_add_right _ _) hlen hlen'
  have hinside : Carries t.rank t t.bare (t.trim p.extent) := hcarries.mono htrim.start_le hle
  have hstop : t.rank (t.trim p.extent).stop ≤ t.rank p.extent.stop :=
    hcarries.le (Nat.le_trans htrim.start_le htrim.le) hle (Nat.le_refl _)
  simp only [toSection, hasRole_bare, htrimmed]
  split
  · exact congrArg Section.parameterized
      (hinside.analyze hlt (by omega) (by omega) (htrim.first hlt) _ _)
  · rfl

end Piece

/-! ### Outlines and declarations -/

namespace Outline

/-- The sections of the bare text are the sections of the text, carried. -/
theorem sections_bare (t : TaggedText) (impliesTypes : Bool) :
    (ofText t.bare impliesTypes).sections =
      (ofText t impliesTypes).sections.map (Section.image t.rank) := by
  by_cases hkept : Piece.kept t = []
  · have hbare : Piece.kept t.bare = [] := by rw [Piece.kept_bare, hkept, List.map_nil]
    rw [ofText_of_blank hkept, ofText_of_blank hbare]
    simp [blank, Section.image, TaggedText.full, Extent.image, t.rank_length]
  · have hbare : Piece.kept t.bare ≠ [] := by simpa [Piece.kept_bare] using hkept
    rw [sections_ofText hkept, sections_ofText hbare, Piece.kept_bare, List.map_map, List.map_map]
    exact List.map_congr_left fun p hp => Piece.toSection_bare hp impliesTypes

theorem main_bare (t : TaggedText) (impliesTypes : Bool) :
    (ofText t.bare impliesTypes).main = (ofText t impliesTypes).main := by
  by_cases hkept : Piece.kept t = []
  · have hbare : Piece.kept t.bare = [] := by rw [Piece.kept_bare, hkept, List.map_nil]
    rw [ofText_of_blank hkept, ofText_of_blank hbare]
    rfl
  · have hbare : Piece.kept t.bare ≠ [] := by simpa [Piece.kept_bare] using hkept
    simp only [ofText, hkept, hbare, dite_false, Piece.mainIndex_bare]

end Outline

namespace Declaration

/-- The token that opens a section's list is not layout. -/
theorem carried_opening {t : TaggedText} {impliesTypes : Bool} {l : ParameterList}
    (h : .parameterized l ∈ (Outline.ofText t impliesTypes).sections) :
    carried t.rank l.opening = true := by
  obtain ⟨p, hp, -, rfl⟩ := Outline.exists_of_parameterized_mem h
  obtain ⟨htrim, hlt⟩ := Piece.trimmed_of_mem_kept hp
  have hcarries : Carries t.rank t t.bare (t.trim p.extent) :=
    t.carries_rank.mono (Nat.zero_le _) (Piece.stop_trim_le_length hp)
  exact hcarries.carried_openingOf hlt (htrim.first hlt)

/-- The declaration of a text is carried to the declaration of its bare text. -/
theorem carriedTo_bare (t : TaggedText) (impliesTypes : Bool) (keywords : KeywordTable) :
    (ofText t impliesTypes keywords).CarriedTo t.rank (ofText t.bare impliesTypes keywords) := by
  have hmem := (ofText t impliesTypes keywords).mainSection_mem
  have hstop := Outline.stop_le_of_mem_sections hmem
  refine ⟨rfl, Outline.sections_bare t impliesTypes, Outline.main_bare t impliesTypes,
    wellPlaced_ofText t impliesTypes keywords, t.carries_rank.mono (Nat.zero_le _) hstop, hstop, ?_,
    fun l hl => ?_⟩
  · rw [show (ofText t.bare impliesTypes keywords).text.length = t.bare.length from rfl,
      ← t.rank_length]
    exact t.carries_rank.le (Nat.zero_le _) hstop (Nat.le_refl _)
  · rw [mainSection_of_mainList? hl] at hmem
    exact carried_opening hmem

/-- **Layout does not matter.** The declarations of two texts that differ only in blank tokens
without a role say the same. -/
theorem content_ofText_eq_of_bare_eq {t t' : TaggedText} (h : t.bare = t'.bare)
    (impliesTypes : Bool) (keywords : KeywordTable) :
    (ofText t impliesTypes keywords).content = (ofText t' impliesTypes keywords).content :=
  calc (ofText t impliesTypes keywords).content
      = (ofText t.bare impliesTypes keywords).content :=
        (carriedTo_bare t impliesTypes keywords).content_eq.symm
    _ = (ofText t'.bare impliesTypes keywords).content := by rw [h]
    _ = (ofText t' impliesTypes keywords).content :=
        (carriedTo_bare t' impliesTypes keywords).content_eq

end Declaration

namespace Sample

/-- `void F(Map<K,V> m)`. -/
def oneLine : TaggedText :=
  TaggedText.mk #[]
    |>.typeName "void" |>.space |>.name "F" |>.openList
    |>.typeName "Map" |>.tagged "<" .typeGroupOpen |>.typeName "K" |>.separator |>.typeName "V"
    |>.tagged ">" .typeGroupClose |>.space |>.name "m"
    |>.closeList

/-- The same with line breaks and spaces, some of them inside the type. -/
def manyLines : TaggedText :=
  TaggedText.mk #[]
    |>.lineBreak |>.typeName "void" |>.lineBreak |>.name "F" |>.space |>.openList |>.lineBreak
    |>.typeName "Map" |>.tagged "<" .typeGroupOpen |>.space |>.typeName "K" |>.separator
    |>.lineBreak |>.typeName "V" |>.tagged ">" .typeGroupClose |>.name "m" |>.space
    |>.closeList |>.space

theorem content_oneLine_eq_manyLines :
    oneLine.bare = manyLines.bare ∧
      (Declaration.ofText oneLine).content = (Declaration.ofText manyLines).content :=
  ⟨by decide, Declaration.content_ofText_eq_of_bare_eq (by decide) true .standard⟩

end Sample

end DeclOutline
