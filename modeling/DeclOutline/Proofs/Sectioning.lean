import DeclOutline.Outline
import DeclOutline.Sample
import DeclOutline.Proofs.Trimming
import Mathlib.Data.List.SplitBy

/-!
# Sections partition the content

An outline is computed on lists of tokens: the text is split between neighbours that do not hold
together, blank pieces are dropped, the others are trimmed. Here the result is described by indices
alone. There is a *cut* at `k` if the token at `k` starts a section or the one before it ends one,
and two tokens that are not blank are in one section exactly if no cut lies between them.

Roles may stand on blank tokens too. They cut like any other, and what they cut off may be blank
and is then dropped, so the number of cuts says nothing about the number of sections.

## Main definitions

* `TaggedText.CutAt` — a section ends before an index
* `TaggedText.PartitionedBy` — extents that share out the tokens that are not blank, by cuts

## Main results

* `Piece.not_cutAt_of_mem_all`, `Piece.cutAt_start` — cuts lie between pieces and nowhere else
* `Piece.trimmed_of_mem_kept` — where the section of a piece lies
* `Outline.sections_partition` — sections partition the content
-/

namespace DeclOutline

namespace TaggedText

variable {t : TaggedText} {i : Nat} {token : Token}

theorem token?_eq_getElem? (t : TaggedText) (i : Nat) : t.token? i = t.tokens.toList[i]? := by
  simp [token?]

theorem hasRole_of_token? (h : t.token? i = some token) (r : Role) :
    t.hasRole i r = token.hasRole r := by
  simp [hasRole, role?, h, Token.hasRole]

theorem isBlankAt_of_token? (h : t.token? i = some token) : t.isBlankAt i = token.isBlank := by
  simp [isBlankAt, h]

/-- A section ends before the token at `k`: it starts a section, or the one before it ends one. -/
def CutAt (t : TaggedText) (k : Nat) : Prop :=
  t.hasRole k .sectionStart = true ∨ t.hasRole (k - 1) .sectionEnd = true

/-- Extents that share out the tokens that are not blank, cut where sections end. -/
structure PartitionedBy (t : TaggedText) (es : List Extent) : Prop where
  nonempty : ∀ e ∈ es, e.start < e.stop
  inside : ∀ e ∈ es, e.stop ≤ t.length
  /-- Extents begin and end on tokens that are not blank. -/
  ends : ∀ e ∈ es, t.IsSolid e.start ∧ t.IsSolid (e.stop - 1)
  ordered : es.Pairwise fun a b => a.stop ≤ b.start
  /-- A token that is not blank is in exactly one extent. -/
  covers : ∀ i, t.IsSolid i → ∃! n : Fin es.length, (es.get n).contains i = true
  /-- Two tokens that are not blank are in one extent exactly if there is no cut between them. -/
  joins : ∀ i j, t.IsSolid i → t.IsSolid j → i < j →
    ((∃ n : Fin es.length, (es.get n).contains i = true ∧ (es.get n).contains j = true) ↔
      ¬ ∃ k, i < k ∧ k ≤ j ∧ t.CutAt k)

end TaggedText

namespace Piece

variable {t : TaggedText} {p q : Piece} {start i : Nat} {gs : List (List Token)}

@[simp] theorem extent_start (p : Piece) : p.extent.start = p.start := rfl

/-! ### Placing groups -/

/-- A piece is one of the groups, at the number of tokens in the groups before it. -/
theorem exists_of_mem_place (h : p ∈ place start gs) :
    ∃ l r, gs = l ++ p.tokens :: r ∧ p.start = start + l.flatten.length := by
  induction gs generalizing start with
  | nil => simp [place] at h
  | cons g gs ih =>
    rcases List.mem_cons.mp h with rfl | h
    · exact ⟨[], gs, rfl, rfl⟩
    · obtain ⟨l, r, rfl, hstart⟩ := ih h
      refine ⟨g :: l, r, rfl, ?_⟩
      simp only [hstart, List.flatten_cons, List.length_append]
      omega

theorem pairwise_place (start : Nat) (gs : List (List Token)) :
    (place start gs).Pairwise fun p q => p.extent.stop ≤ q.start := by
  induction gs generalizing start with
  | nil => exact List.Pairwise.nil
  | cons g gs ih =>
    refine List.pairwise_cons.mpr ⟨fun q hq => ?_, ih _⟩
    obtain ⟨l, r, -, hstart⟩ := exists_of_mem_place hq
    simp only [extent, hstart]
    omega

/-- Placed groups leave no index out. -/
theorem exists_mem_place (hstart : start ≤ i) (hstop : i < start + gs.flatten.length) :
    ∃ p ∈ place start gs, p.start ≤ i ∧ i < p.extent.stop := by
  induction gs generalizing start with
  | nil => simp at hstop; omega
  | cons g gs ih =>
    by_cases hi : i < start + g.length
    · exact ⟨⟨start, g⟩, List.mem_cons_self, hstart, hi⟩
    · simp only [List.flatten_cons, List.length_append] at hstop
      have hrest : start + g.length ≤ i := by omega
      obtain ⟨p, hp, hpi⟩ := ih hrest (by omega)
      exact ⟨p, List.mem_cons_of_mem _ hp, hpi⟩

/-! ### Pieces of a text -/

/-- A piece is a group of tokens that hold together, and neighbouring groups do not. -/
theorem exists_of_mem_all (h : p ∈ all t) :
    ∃ l r, t.tokens.toList.splitBy holdsTogether = l ++ p.tokens :: r ∧
      p.start = l.flatten.length := by
  obtain ⟨l, r, heq, hstart⟩ := exists_of_mem_place h
  exact ⟨l, r, heq, by omega⟩

/-- A piece holds the tokens of its extent. -/
theorem token?_of_mem_all (h : p ∈ all t) {m : Nat} (hm : m < p.tokens.length) :
    t.token? (p.start + m) = some p.tokens[m] := by
  obtain ⟨l, r, heq, hstart⟩ := exists_of_mem_all h
  have htokens : t.tokens.toList = l.flatten ++ (p.tokens ++ r.flatten) := by
    rw [← List.flatten_splitBy holdsTogether t.tokens.toList, heq]
    simp
  rw [TaggedText.token?_eq_getElem?, htokens, hstart, List.getElem?_append_right (by omega),
    Nat.add_sub_cancel_left, List.getElem?_append_left hm, List.getElem?_eq_getElem hm]

theorem stop_le_length_of_mem_all (h : p ∈ all t) : p.extent.stop ≤ t.length := by
  obtain ⟨l, r, heq, hstart⟩ := exists_of_mem_all h
  have hlen : t.length = (l ++ p.tokens :: r).flatten.length := by
    rw [← heq, List.flatten_splitBy]
    rfl
  simp only [extent, hstart, hlen, List.flatten_append, List.flatten_cons, List.length_append]
  omega

theorem pairwise_all (t : TaggedText) :
    (all t).Pairwise fun p q => p.extent.stop ≤ q.start :=
  pairwise_place 0 _

theorem exists_mem_all (h : i < t.length) : ∃ p ∈ all t, p.start ≤ i ∧ i < p.extent.stop := by
  refine exists_mem_place (Nat.zero_le i) ?_
  rw [List.flatten_splitBy, Nat.zero_add]
  exact h

theorem holdsTogether_eq_false {a b : Token} :
    holdsTogether a b = false ↔ b.hasRole .sectionStart = true ∨ a.hasRole .sectionEnd = true := by
  cases ha : a.hasRole .sectionEnd <;> cases hb : b.hasRole .sectionStart <;>
    simp [holdsTogether, ha, hb]

/-- There is no cut inside a piece. -/
theorem not_cutAt_of_mem_all (h : p ∈ all t) {k : Nat} (hstart : p.start < k)
    (hstop : k < p.extent.stop) : ¬ t.CutAt k := by
  obtain ⟨m, rfl⟩ : ∃ m, k = p.start + (m + 1) := ⟨k - p.start - 1, by omega⟩
  have hm : m + 1 < p.tokens.length := by
    simp only [extent] at hstop
    omega
  obtain ⟨l, r, heq, -⟩ := exists_of_mem_all h
  have hmem : p.tokens ∈ t.tokens.toList.splitBy holdsTogether := by simp [heq]
  have hchain := List.isChain_of_mem_splitBy hmem
  have hholds : holdsTogether p.tokens[m] p.tokens[m + 1] = true :=
    List.isChain_iff_getElem.mp hchain m hm
  have hprev : t.token? (p.start + (m + 1) - 1) = some p.tokens[m] :=
    token?_of_mem_all h (by omega)
  rw [TaggedText.CutAt, TaggedText.hasRole_of_token? (token?_of_mem_all h hm),
    TaggedText.hasRole_of_token? hprev, ← holdsTogether_eq_false, hholds]
  decide

/-- There is a cut where a piece starts, unless it is the first. -/
theorem cutAt_start (h : p ∈ all t) (hpos : 0 < p.start) : t.CutAt p.start := by
  obtain ⟨l, r, heq, hstart⟩ := exists_of_mem_all h
  -- the group before `p` is the last one of `l`
  obtain ⟨l, g, rfl⟩ : ∃ l' g, l = l' ++ [g] := by
    rcases List.eq_nil_or_concat' l with rfl | hl
    · simp only [List.flatten_nil, List.length_nil] at hstart
      omega
    · exact hl
  have hchain := List.isChain_getLast_head_splitBy holdsTogether t.tokens.toList
  rw [heq, List.append_assoc, List.singleton_append] at hchain
  obtain ⟨hg, hp, hfalse⟩ := (List.isChain_append_cons_cons.mp hchain).2.1
  have hglen : 0 < g.length := List.length_pos_iff.mpr hg
  have hplen : 0 < p.tokens.length := List.length_pos_iff.mpr hp
  have hstart' : p.start = l.flatten.length + g.length := by simpa using hstart
  have htokens : t.tokens.toList = l.flatten ++ (g ++ (p.tokens ++ r.flatten)) := by
    rw [← List.flatten_splitBy holdsTogether t.tokens.toList, heq]
    simp
  have hlast : t.token? (p.start - 1) = some (g.getLast hg) := by
    rw [TaggedText.token?_eq_getElem?, htokens, hstart', List.getElem?_append_right (by omega),
      List.getElem?_append_left (by omega), List.getLast_eq_getElem,
      List.getElem?_eq_getElem (by omega)]
    congr 2
    omega
  have hhead : t.token? p.start = some (p.tokens.head hp) := by
    have := token?_of_mem_all h hplen
    rwa [Nat.add_zero, ← List.head_eq_getElem hp] at this
  rw [TaggedText.CutAt, TaggedText.hasRole_of_token? hhead, TaggedText.hasRole_of_token? hlast]
  exact holdsTogether_eq_false.mp hfalse

/-! ### What a piece holds -/

/-- A property of a token of a piece is one of a token in its extent. -/
theorem exists_mem_tokens_iff (h : p ∈ all t) (P : Token → Prop) :
    (∃ token ∈ p.tokens, P token) ↔
      ∃ i token, p.start ≤ i ∧ i < p.extent.stop ∧ t.token? i = some token ∧ P token := by
  constructor
  · rintro ⟨token, htoken, hP⟩
    obtain ⟨m, hm, rfl⟩ := List.getElem_of_mem htoken
    exact ⟨p.start + m, p.tokens[m], by omega, by simpa [extent] using hm,
      token?_of_mem_all h hm, hP⟩
  · rintro ⟨i, token, hstart, hstop, htoken, hP⟩
    obtain ⟨m, rfl⟩ := Nat.exists_eq_add_of_le hstart
    have hm : m < p.tokens.length := by simpa [extent] using hstop
    rw [token?_of_mem_all h hm, Option.some.injEq] at htoken
    exact ⟨token, htoken ▸ List.getElem_mem hm, hP⟩

/-- A piece is not blank exactly if a token in its extent is not. -/
theorem isBlank_eq_false_iff (h : p ∈ all t) :
    p.isBlank = false ↔ ∃ i, p.start ≤ i ∧ i < p.extent.stop ∧ t.isBlankAt i = false := by
  have hiff := exists_mem_tokens_iff h fun token => token.isBlank = false
  have hblank : p.isBlank = false ↔ ∃ token ∈ p.tokens, token.isBlank = false := by
    simp [isBlank]
  rw [hblank, hiff]
  constructor
  · rintro ⟨i, token, hstart, hstop, htoken, hfalse⟩
    exact ⟨i, hstart, hstop, by rw [TaggedText.isBlankAt_of_token? htoken, hfalse]⟩
  · rintro ⟨i, hstart, hstop, hfalse⟩
    have hlt : i < t.length := Nat.lt_of_lt_of_le hstop (stop_le_length_of_mem_all h)
    have htoken := TaggedText.token?_of_lt hlt
    exact ⟨i, _, hstart, hstop, htoken, by rw [← TaggedText.isBlankAt_of_token? htoken, hfalse]⟩

/-- The section of a piece that is kept: the piece, trimmed, and something remains of it. -/
theorem trimmed_of_mem_kept (h : p ∈ kept t) :
    t.Trimmed p.extent (t.trim p.extent) ∧
      (t.trim p.extent).start < (t.trim p.extent).stop := by
  obtain ⟨hall, hblank⟩ := List.mem_filter.mp h
  have htrim : t.Trimmed p.extent (t.trim p.extent) :=
    TaggedText.trimmed_trim (Nat.le_add_right _ _) (stop_le_length_of_mem_all hall)
  have hfalse : p.isBlank = false := by simpa using hblank
  exact ⟨htrim, htrim.start_lt_stop_iff.mpr ((isBlank_eq_false_iff hall).mp hfalse)⟩

theorem stop_trim_le_length (h : p ∈ kept t) : (t.trim p.extent).stop ≤ t.length :=
  Nat.le_trans (trimmed_of_mem_kept h).1.stop_le
    (stop_le_length_of_mem_all (List.mem_filter.mp h).1)

/-- A token that is not blank is in the section of a piece that is kept. -/
theorem exists_mem_kept (h : t.IsSolid i) :
    ∃ p ∈ kept t, (t.trim p.extent).contains i = true := by
  obtain ⟨p, hp, hstart, hstop⟩ := exists_mem_all h.1
  have hfalse : p.isBlank = false := (isBlank_eq_false_iff hp).mpr ⟨i, hstart, hstop, h.2⟩
  have hkept : p ∈ kept t := List.mem_filter.mpr ⟨hp, by simp [hfalse]⟩
  refine ⟨p, hkept, Extent.contains_iff.mpr ?_⟩
  exact (trimmed_of_mem_kept hkept).1.mem_of_not_blank hstart hstop h.2

theorem kept_eq_nil_iff : kept t = [] ↔ ¬ ∃ i, t.IsSolid i := by
  constructor
  · rintro hnil ⟨i, hi⟩
    obtain ⟨p, hp, -⟩ := exists_mem_kept hi
    simp [hnil] at hp
  · intro hnone
    refine List.filter_eq_nil_iff.mpr fun p hp hblank => hnone ?_
    obtain ⟨i, -, hstop, hi⟩ := (isBlank_eq_false_iff hp).mp (by simpa using hblank)
    exact ⟨i, Nat.lt_of_lt_of_le hstop (stop_le_length_of_mem_all hp), hi⟩

@[simp] theorem extent_toSection (t : TaggedText) (impliesTypes : Bool) (p : Piece) :
    (p.toSection t impliesTypes).extent = t.trim p.extent := by
  simp only [toSection]
  split <;> rfl

/-- The extents of sections come in order. -/
theorem pairwise_trim_kept (t : TaggedText) :
    ((kept t).map fun p => t.trim p.extent).Pairwise fun a b => a.stop ≤ b.start := by
  rw [List.pairwise_map]
  refine List.Pairwise.imp_of_mem ?_ ((pairwise_all t).filter _)
  intro p q hp hq hpq
  exact Nat.le_trans (trimmed_of_mem_kept hp).1.stop_le
    (Nat.le_trans hpq (trimmed_of_mem_kept hq).1.start_le)

/-- A token that is not blank is in the section of a later one if no cut lies between them. -/
theorem contains_of_not_cutAt {j : Nat} (hp : p ∈ kept t)
    (hpj : (t.trim p.extent).contains j = true) (hi : t.IsSolid i) (hij : i < j)
    (hnone : ¬ ∃ k, i < k ∧ k ≤ j ∧ t.CutAt k) : (t.trim p.extent).contains i = true := by
  have htrim := (trimmed_of_mem_kept hp).1
  have hj' := Extent.contains_iff.mp hpj
  have hstart := htrim.start_le
  have hstop := htrim.stop_le
  simp only [extent_start] at hstart
  -- the piece of the later token starts with a cut, so it reaches back to the earlier one
  have hle : p.start ≤ i := by
    by_contra hlt
    exact hnone ⟨p.start, by omega, by omega, cutAt_start (List.mem_filter.mp hp).1 (by omega)⟩
  exact Extent.contains_iff.mpr (htrim.mem_of_not_blank hle (by omega) hi.2)

/-- No cut lies between two tokens in the section of one piece. -/
theorem not_cutAt_of_contains {j : Nat} (hp : p ∈ kept t)
    (hpi : (t.trim p.extent).contains i = true) (hpj : (t.trim p.extent).contains j = true) :
    ¬ ∃ k, i < k ∧ k ≤ j ∧ t.CutAt k := by
  rintro ⟨k, hik, hkj, hcut⟩
  have htrim := (trimmed_of_mem_kept hp).1
  have hi' := Nat.le_trans htrim.start_le (Extent.contains_iff.mp hpi).1
  have hj' := Nat.lt_of_lt_of_le (Extent.contains_iff.mp hpj).2 htrim.stop_le
  simp only [extent_start] at hi'
  exact not_cutAt_of_mem_all (List.mem_filter.mp hp).1 (by omega) (by omega) hcut

/-- Two tokens that are not blank are in the section of one piece exactly if no cut lies between
them. -/
theorem exists_common_iff {j : Nat} (hi : t.IsSolid i) (hj : t.IsSolid j) (hij : i < j) :
    (∃ p ∈ kept t, (t.trim p.extent).contains i = true ∧ (t.trim p.extent).contains j = true) ↔
      ¬ ∃ k, i < k ∧ k ≤ j ∧ t.CutAt k := by
  constructor
  · rintro ⟨p, hp, hpi, hpj⟩
    exact not_cutAt_of_contains hp hpi hpj
  · intro hnone
    obtain ⟨p, hp, hpj⟩ := exists_mem_kept hj
    exact ⟨p, hp, contains_of_not_cutAt hp hpj hi hij hnone, hpj⟩

end Piece

/-! ### Outlines -/

/-- Extents in order have no index in common. -/
theorem Extent.eq_of_contains {es : List Extent} (h : es.Pairwise fun a b => a.stop ≤ b.start)
    {m n : Fin es.length} {i : Nat} (hm : (es.get m).contains i = true)
    (hn : (es.get n).contains i = true) : m = n := by
  have hm' := Extent.contains_iff.mp hm
  have hn' := Extent.contains_iff.mp hn
  rw [List.pairwise_iff_get] at h
  rcases Nat.lt_trichotomy m.val n.val with hlt | heq | hlt
  · have := h m n hlt
    omega
  · exact Fin.ext heq
  · have := h n m hlt
    omega

/-- The sections of the pieces that are kept share out the content. -/
theorem Piece.partitionedBy_kept (t : TaggedText) :
    t.PartitionedBy ((Piece.kept t).map fun p => t.trim p.extent) := by
  have hget {P : Extent → Prop} : (∃ p ∈ Piece.kept t, P (t.trim p.extent)) ↔
      ∃ n : Fin ((Piece.kept t).map fun p => t.trim p.extent).length,
        P (((Piece.kept t).map fun p => t.trim p.extent).get n) := by
    rw [← List.exists_mem_iff_get]
    simp
  have hmem {P : Extent → Prop} (h : ∀ p ∈ Piece.kept t, P (t.trim p.extent)) :
      ∀ e ∈ (Piece.kept t).map fun p => t.trim p.extent, P e := by
    simpa using h
  refine ⟨hmem fun p hp => (trimmed_of_mem_kept hp).2, hmem fun p hp => stop_trim_le_length hp,
    hmem fun p hp => ?_, pairwise_trim_kept t, fun i hi => ?_, fun i j hi hj hij => ?_⟩
  · obtain ⟨htrim, hlt⟩ := trimmed_of_mem_kept hp
    have := stop_trim_le_length hp
    exact ⟨⟨by omega, htrim.first hlt⟩, ⟨by omega, htrim.last hlt⟩⟩
  · obtain ⟨n, hn⟩ := (hget (P := fun e => e.contains i = true)).mp (exists_mem_kept hi)
    exact ⟨n, hn, fun m hm => Extent.eq_of_contains (pairwise_trim_kept t) hm hn⟩
  · rw [← exists_common_iff hi hj hij]
    exact (hget (P := fun e => e.contains i = true ∧ e.contains j = true)).symm

namespace Outline

variable {t : TaggedText}

theorem sections_ofText (h : Piece.kept t ≠ []) (impliesTypes : Bool) :
    (ofText t impliesTypes).sections = (Piece.kept t).map (Piece.toSection t impliesTypes) := by
  simp [ofText, h]

theorem ofText_of_blank (h : Piece.kept t = []) (impliesTypes : Bool) :
    ofText t impliesTypes = blank t := by
  simp [ofText, h]

theorem stop_le_of_mem_sections {impliesTypes : Bool} {s : Section}
    (h : s ∈ (ofText t impliesTypes).sections) : s.extent.stop ≤ t.length := by
  by_cases hkept : Piece.kept t = []
  · rw [ofText_of_blank hkept] at h
    rw [List.mem_singleton.mp h]
    exact Nat.le_refl _
  · rw [sections_ofText hkept] at h
    obtain ⟨p, hp, rfl⟩ := List.mem_map.mp h
    rw [Piece.extent_toSection]
    exact Piece.stop_trim_le_length hp

/-- A section with parameters is the analysis of a piece that opens a list. -/
theorem exists_of_parameterized_mem {impliesTypes : Bool} {l : ParameterList}
    (h : .parameterized l ∈ (ofText t impliesTypes).sections) :
    ∃ p ∈ Piece.kept t, p.hasRole .listOpen = true ∧
      l = .analyze t (t.trim p.extent) (p.hasRole .name) impliesTypes := by
  by_cases hkept : Piece.kept t = []
  · simp [ofText_of_blank hkept, blank] at h
  · rw [sections_ofText hkept] at h
    obtain ⟨p, hp, heq⟩ := List.mem_map.mp h
    by_cases hopen : p.hasRole .listOpen = true
    · simp only [Piece.toSection, hopen, if_true, Section.parameterized.injEq] at heq
      exact ⟨p, hp, hopen, heq.symm⟩
    · simp [Piece.toSection, hopen] at heq

/-- **Sections partition the content.** Of a text with a token that is not blank, the sections
share out such tokens, cut exactly where roles say. Any other text has one plain section that
spans it. -/
theorem sections_partition (t : TaggedText) (impliesTypes : Bool) :
    ((∃ i, t.IsSolid i) →
      t.PartitionedBy ((ofText t impliesTypes).sections.map Section.extent)) ∧
    ((¬ ∃ i, t.IsSolid i) →
      (ofText t impliesTypes).sections = [.plain ⟨0, t.length⟩ false] ∧
        (ofText t impliesTypes).main = 0) := by
  refine ⟨fun hsolid => ?_, fun hnone => ?_⟩
  · have hkept : Piece.kept t ≠ [] := fun hnil => Piece.kept_eq_nil_iff.mp hnil hsolid
    rw [sections_ofText hkept, List.map_map]
    simpa [Function.comp_def] using Piece.partitionedBy_kept t
  · rw [ofText_of_blank (Piece.kept_eq_nil_iff.mpr hnone)]
    exact ⟨rfl, rfl⟩

/-- A line break that starts a section cuts, and is in neither section. With no other token than
blanks it cuts nothing. -/
theorem sections_partition_sectionBreak :
    (Sample.attributeAndSignature.IsSolid 0 ∧
      Sample.attributeAndSignature.PartitionedBy [⟨0, 3⟩, ⟨4, 14⟩]) ∧
    (¬ ∃ i, (TaggedText.mk #[]).space.sectionBreak.IsSolid i) ∧
      (ofText (TaggedText.mk #[]).space.sectionBreak true).sections = [.plain ⟨0, 2⟩ false] := by
  have hextents : (ofText Sample.attributeAndSignature true).sections.map Section.extent =
      [⟨0, 3⟩, ⟨4, 14⟩] := by decide
  have hsolid : Sample.attributeAndSignature.IsSolid 0 := by decide
  have hnone : ¬ ∃ i, (TaggedText.mk #[]).space.sectionBreak.IsSolid i :=
    Piece.kept_eq_nil_iff.mp (by decide)
  refine ⟨⟨hsolid, ?_⟩, hnone, ((sections_partition _ true).2 hnone).1⟩
  rw [← hextents]
  exact (sections_partition _ true).1 ⟨0, hsolid⟩

end Outline

end DeclOutline
