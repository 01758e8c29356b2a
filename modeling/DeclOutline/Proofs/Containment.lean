import DeclOutline.Proofs.Cutting
import DeclOutline.Summary.Basic

/-!
# Answers lie inside what they are about

A declaration may be asked about after its text was changed or replaced, while its outline still
holds the extents of the text it was made from. Roles, kinds and the number of tokens are then
anything at all. What an answer is cut from, though, is a stored extent, and every question only
narrows one down. So it is enough that stored extents are well placed when they are made, and no
operation can spoil that.

A summary takes a text only from inside its parent. With well-placed sections that condition is
always met, and a summary drops nothing.

## Main definitions

* `ParameterList.WellPlaced`, `Section.WellPlaced` — stored extents lie inside one another
* `Declaration.Operation`, `Declaration.run` — what may happen to a declaration
* `Declaration.IsCurrent` — the outline is that of the text
* `Declaration.Contained` — every answer lies inside its parent
* `Summary.Complete` — every answer is in the summary

## Main results

* `Declaration.WellPlaced.run` — sections are well placed after any operations
* `Declaration.run_contained` — after any operations, answers are contained and summaries complete
-/

namespace DeclOutline

/-! ### Questions narrow an extent down -/

namespace ParameterList

variable {t : TaggedText} {e x : Extent}

theorem hull?_eq_some {indices : List Nat} (h : hull? indices = some x) :
    ∃ first last, indices.head? = some first ∧ indices.getLast? = some last ∧
      x = ⟨first, last + 1⟩ := by
  rw [hull?] at h
  split at h
  · next first last hfirst hlast => exact ⟨first, last, hfirst, hlast, (Option.some.inj h).symm⟩
  · simp at h

/-- The walk from its first part of a run on. -/
theorem pairwise_fst_dropWhile (t : TaggedText) (n : Nesting) (r : Role) (e : Extent) :
    (((n.walk t e).dropWhile fun v => !inRun t r v).map Prod.fst).Pairwise (· < ·) := by
  have hsuffix := (List.dropWhile_suffix (l := n.walk t e) fun v => !inRun t r v).map Prod.fst
  rw [Nesting.map_fst_walk] at hsuffix
  exact e.pairwise_indices.sublist hsuffix.sublist

theorem fst_mem_of_mem_walk {n : Nesting} {v : Nat × Nat} (h : v ∈ n.walk t e) :
    e.start ≤ v.1 ∧ v.1 < e.stop := by
  have hmem : v.1 ∈ (n.walk t e).map Prod.fst := List.mem_map_of_mem h
  rw [Nesting.map_fst_walk] at hmem
  exact Extent.mem_indices.mp hmem

/-- A run lies in the extent it is looked for in. -/
theorem encloses_firstRun? {n : Nesting} {r : Role} (h : firstRun? t n r e = some x) :
    e.encloses x = true := by
  rw [firstRun?] at h
  split at h
  · simp at h
  · next first rest hdrop =>
    have hmem : ∀ v ∈ first :: rest, e.start ≤ v.1 ∧ v.1 < e.stop := by
      intro v hv
      rw [← hdrop] at hv
      exact fst_mem_of_mem_walk ((List.dropWhile_sublist _).mem hv)
    have hsorted := pairwise_fst_dropWhile t n r e
    rw [hdrop, List.map_cons, List.pairwise_cons] at hsorted
    -- the last part of the run is the first one, or comes after it
    have hlast : ∀ v, v = first ∨ v ∈ rest → first.1 ≤ v.1 ∧ v.1 < e.stop := by
      rintro v (rfl | hv)
      · exact ⟨Nat.le_refl _, (hmem v List.mem_cons_self).2⟩
      · exact ⟨Nat.le_of_lt (hsorted.1 v.1 (List.mem_map_of_mem hv)),
          (hmem v (List.mem_cons_of_mem first hv)).2⟩
    have hrun : ∀ run : List (Nat × Nat), run ⊆ rest →
        run.getLast?.getD first = first ∨ run.getLast?.getD first ∈ rest := by
      intro run hsub
      cases hl : run.getLast? with
      | none => exact Or.inl rfl
      | some v => exact Or.inr (hsub (List.mem_of_getLast? hl))
    have hsub : (rest.takeWhile fun v => inRun t r v || t.isBlankAt v.1).filter (inRun t r) ⊆
        rest :=
      fun v hv => (List.takeWhile_sublist _).mem (List.mem_filter.mp hv).1
    obtain ⟨hle, hlt⟩ := hlast _ (hrun _ hsub)
    obtain rfl := Option.some.inj h
    exact Extent.encloses_iff.mpr ⟨(hmem first List.mem_cons_self).1, hlt, by simp only; omega⟩

theorem start_le_valueStart (t : TaggedText) (mark : Role) (e : Extent) :
    e.start ≤ valueStart t mark e := by
  rw [valueStart]
  split
  · next i level hfind =>
    have := fst_mem_of_mem_walk (List.mem_of_find?_eq_some hfind)
    simp only at this
    omega
  · exact Nat.le_refl _

/-- A value lies in the extent it is looked for in. -/
theorem encloses_value? {mark value : Role} (h : value? t mark value e = some x) :
    e.encloses x = true := by
  obtain ⟨first, last, hfirst, hlast, rfl⟩ := hull?_eq_some h
  have hsorted := Extent.pairwise_indices ⟨valueStart t mark e, e.stop⟩
  obtain ⟨hmem, -, -⟩ := TaggedText.le_of_head?_filter hsorted hfirst
  obtain ⟨hmem', -, hgreatest⟩ := TaggedText.le_of_getLast?_filter hsorted hlast
  have hle : first ≤ last :=
    hgreatest first hmem (List.mem_filter.mp (List.mem_of_mem_head? hfirst)).2
  rw [Extent.mem_indices] at hmem hmem'
  have := start_le_valueStart t mark e
  exact Extent.encloses_iff.mpr
    ⟨by simp only at *; omega, by simp only at *; omega, by simp only; omega⟩

theorem exists_of_name? {l : ParameterList} {i : Nat} (h : l.name? t i = some x) :
    ∃ own, l.parameter? i = some own ∧ own.encloses x = true := by
  obtain ⟨own, hown, hrun⟩ := Option.bind_eq_some_iff.mp h
  exact ⟨own, hown, encloses_firstRun? hrun⟩

theorem exists_of_default? {l : ParameterList} {i : Nat} (h : l.default? t i = some x) :
    ∃ own, l.parameter? i = some own ∧ own.encloses x = true := by
  obtain ⟨own, hown, hvalue⟩ := Option.bind_eq_some_iff.mp h
  exact ⟨own, hown, encloses_value? hvalue⟩

theorem exists_of_property? {l : ParameterList} {i : Nat} (h : l.property? t i = some x) :
    ∃ own, l.parameter? i = some own ∧ own.encloses x = true := by
  obtain ⟨own, hown, hvalue⟩ := Option.bind_eq_some_iff.mp h
  exact ⟨own, hown, encloses_value? hvalue⟩

/-- A type lies in the parameter that gives it. -/
theorem exists_of_baseType? {l : ParameterList} {i : Nat} {implied : Bool}
    (h : l.baseType? t i implied = some x) :
    ∃ donor own, l.typeDonor? t i implied = some donor ∧ l.parameter? donor = some own ∧
      own.encloses x = true := by
  obtain ⟨own, hown, hrun⟩ := Option.bind_eq_some_iff.mp h
  obtain ⟨donor, hdonor, hown⟩ := Option.bind_eq_some_iff.mp hown
  exact ⟨donor, own, hdonor, hown, encloses_firstRun? hrun⟩

/-! ### Well-placed sections -/

/-- The extents of a list lie inside its section, in order. -/
structure WellPlaced (l : ParameterList) : Prop where
  start_le_opening : l.extent.start ≤ l.opening
  opening_lt_stop : l.opening < l.extent.stop
  /-- The closing token comes after the opening one. -/
  closing : ∀ c, l.closing = some c → l.opening < c ∧ c < l.extent.stop
  /-- Parameters lie behind the opening token and inside the section. -/
  inside : ∀ p ∈ l.parameters, l.opening < p.start ∧ p.start ≤ p.stop ∧ p.stop ≤ l.extent.stop
  /-- Parameters are disjoint and come in order. -/
  ordered : l.parameters.Pairwise fun p q => p.stop ≤ q.start

theorem wellPlaced_analyze (h : e.start < e.stop) (hlen : e.stop ≤ t.length)
    (hasName impliesTypes : Bool) : (analyze t e hasName impliesTypes).WellPlaced := by
  obtain ⟨hstart, hopen⟩ := openingOf_mem t h
  obtain ⟨hgt, hle⟩ := stopOf_mem t h
  have hlaid := laidOut_analyze h hlen hasName impliesTypes
  refine ⟨hstart, hopen, fun c hc => ?_, fun p hp => ?_, hlaid.ordered.imp Nat.le_of_lt⟩
  · have hfind := (closing_split t e).symm.trans hc
    exact (Extent.find?_indices_eq_some.mp hfind).1
  · obtain ⟨h₁, h₂, h₃⟩ := hlaid.inside p hp
    exact ⟨h₁, h₂, Nat.le_trans h₃ hle⟩

end ParameterList

namespace Section

/-- The extents of a section lie inside it, in order. -/
def WellPlaced : Section → Prop
  | plain extent _ => extent.start ≤ extent.stop
  | parameterized list => list.WellPlaced

end Section

/-- Sections are well placed when they are made. -/
theorem Outline.wellPlaced_of_mem_sections {t : TaggedText} {impliesTypes : Bool} {s : Section}
    (h : s ∈ (ofText t impliesTypes).sections) : s.WellPlaced := by
  by_cases hkept : Piece.kept t = []
  · rw [ofText_of_blank hkept] at h
    rw [List.mem_singleton.mp h]
    exact Nat.zero_le _
  · rw [sections_ofText hkept] at h
    obtain ⟨p, hp, rfl⟩ := List.mem_map.mp h
    have hlt := (Piece.trimmed_of_mem_kept hp).2
    simp only [Piece.toSection]
    split
    · exact ParameterList.wellPlaced_analyze hlt (Piece.stop_trim_le_length hp) _ _
    · exact Nat.le_of_lt hlt

/-! ### Operations -/

namespace Declaration

/-- What may happen to a declaration. -/
inductive Operation where
  /-- The text is changed or replaced, the outline stays as it is. -/
  | edit (change : TaggedText → TaggedText)
  /-- The outline is made anew. -/
  | reoutline
  /-- Another section becomes the main one. -/
  | select (index : Nat)

/-- The declaration after an operation, and why the operation failed if it did. -/
def perform (d : Declaration) : Operation → Declaration × Option MainOutOfRange
  | .edit change => (d.withText (change d.text), none)
  | .reoutline => (d.reoutline, none)
  | .select index =>
    match d.selectMain index with
    | .ok d' => (d', none)
    | .error cause => (d, some cause)

/-- The declaration after operations, one after another, whether or not they fail. -/
def run (d : Declaration) (ops : List Operation) : Declaration :=
  ops.foldl (fun d op => (d.perform op).1) d

/-- Selecting fails exactly past the last section, and changes nothing else than the main one. -/
theorem perform_select (d : Declaration) (index : Nat) :
    (∃ h : index < d.outline.sections.length,
      d.perform (.select index) = ({ d with outline := ⟨d.outline.sections, index, h⟩ }, none)) ∨
    (d.outline.sections.length ≤ index ∧
      d.perform (.select index) = (d, some ⟨index, d.outline.sections.length⟩)) := by
  by_cases h : index < d.outline.sections.length
  · exact Or.inl ⟨h, by simp [perform, selectMain, h]⟩
  · exact Or.inr ⟨Nat.le_of_not_lt h, by simp [perform, selectMain, h]⟩

/-- An operation that fails changes nothing. -/
theorem perform_of_failed {d : Declaration} {op : Operation} (h : (d.perform op).2 ≠ none) :
    (d.perform op).1 = d := by
  cases op with
  | edit change => simp [perform] at h
  | reoutline => simp [perform] at h
  | select index =>
    rcases perform_select d index with ⟨_, heq⟩ | ⟨_, heq⟩
    · simp [heq] at h
    · rw [heq]

/-- The sections are those of the text as it is now, whichever of them is the main one. -/
def IsCurrent (d : Declaration) : Prop :=
  d.outline.sections = (Outline.ofText d.text d.impliesTypes).sections

/-- The sections of a declaration are well placed. -/
def WellPlaced (d : Declaration) : Prop :=
  ∀ s ∈ d.outline.sections, s.WellPlaced

theorem wellPlaced_ofText (t : TaggedText) (impliesTypes : Bool) (keywords : KeywordTable) :
    (ofText t impliesTypes keywords).WellPlaced :=
  fun _ hs => Outline.wellPlaced_of_mem_sections hs

theorem WellPlaced.perform {d : Declaration} (h : d.WellPlaced) (op : Operation) :
    (d.perform op).1.WellPlaced := by
  cases op with
  | edit change => exact h
  | reoutline => exact fun _ hs => Outline.wellPlaced_of_mem_sections hs
  | select index =>
    rcases perform_select d index with ⟨_, heq⟩ | ⟨_, heq⟩
    · rw [heq]
      exact h
    · rw [heq]
      exact h

theorem WellPlaced.run {d : Declaration} (h : d.WellPlaced) (ops : List Operation) :
    (d.run ops).WellPlaced := by
  induction ops generalizing d with
  | nil => exact h
  | cons op ops ih => exact ih (h.perform op)

/-! ### Every answer lies inside its parent -/

/-- Every answer lies inside its parent: what a parameter says inside the parameter, everything
else inside the main section. -/
structure Contained (d : Declaration) : Prop where
  before : d.mainSection.extent.encloses d.beforeParameters = true
  after : ∀ x, d.afterParameters? = some x → d.mainSection.extent.encloses x = true
  parameter : ∀ i own, d.parameter? i = some own → d.mainSection.extent.encloses own = true
  name : ∀ i own x, d.parameter? i = some own → d.name? i = some x → own.encloses x = true
  default : ∀ i own x, d.parameter? i = some own → d.default? i = some x → own.encloses x = true
  property : ∀ i own x, d.parameter? i = some own → d.property? i = some x → own.encloses x = true
  ownType : ∀ i own x, d.parameter? i = some own → d.typeIsImplied i true = false →
    d.baseType? i true = some x → own.encloses x = true
  impliedType : ∀ i x, d.baseType? i true = some x → d.mainSection.extent.encloses x = true

theorem mainSection_mem (d : Declaration) : d.mainSection ∈ d.outline.sections :=
  List.get_mem _ _

theorem WellPlaced.mainSection {d : Declaration} (h : d.WellPlaced) : d.mainSection.WellPlaced :=
  h d.mainSection d.mainSection_mem

theorem mainSection_of_mainList? {d : Declaration} {l : ParameterList} (h : d.mainList? = some l) :
    d.mainSection = .parameterized l := by
  rw [mainList?] at h
  cases hs : d.mainSection with
  | plain extent hasName => simp [hs, Section.list?] at h
  | parameterized list =>
    rw [hs] at h
    rw [Option.some.inj h]

theorem WellPlaced.encloses_parameter {d : Declaration} (h : d.WellPlaced) {l : ParameterList}
    {i : Nat} {own : Extent} (hl : d.mainList? = some l) (hown : l.parameter? i = some own) :
    d.mainSection.extent.encloses own = true := by
  have hmain := h.mainSection
  rw [mainSection_of_mainList? hl] at hmain ⊢
  have hplaced : l.WellPlaced := hmain
  obtain ⟨h₁, h₂, h₃⟩ := hplaced.inside own (List.mem_of_getElem? hown)
  have h₄ := hplaced.start_le_opening
  exact Extent.encloses_iff.mpr ⟨by simp only [Section.extent]; omega, h₃, h₂⟩

theorem WellPlaced.encloses_beforeParameters {d : Declaration} (h : d.WellPlaced) :
    d.mainSection.extent.encloses d.beforeParameters = true := by
  have hmain := h.mainSection
  rw [beforeParameters]
  cases hs : d.mainSection with
  | plain extent hasName =>
    rw [hs] at hmain
    exact Extent.encloses_iff.mpr ⟨Nat.le_refl _, Nat.le_refl _, hmain⟩
  | parameterized l =>
    rw [hs] at hmain
    have hplaced : l.WellPlaced := hmain
    exact Extent.encloses_iff.mpr ⟨Nat.le_refl _, hplaced.opening_lt_stop,
      Nat.le_succ_of_le hplaced.start_le_opening⟩

theorem WellPlaced.encloses_afterParameters {d : Declaration} (h : d.WellPlaced) {x : Extent}
    (hx : d.afterParameters? = some x) : d.mainSection.extent.encloses x = true := by
  obtain ⟨l, hl, hlx⟩ := Option.bind_eq_some_iff.mp hx
  obtain ⟨c, hc, rfl⟩ := Option.map_eq_some_iff.mp hlx
  have hmain := h.mainSection
  rw [mainSection_of_mainList? hl] at hmain ⊢
  have hplaced : l.WellPlaced := hmain
  obtain ⟨h₁, h₂⟩ := hplaced.closing c hc
  have h₃ := hplaced.start_le_opening
  exact Extent.encloses_iff.mpr
    ⟨by simp only [Section.extent]; omega, Nat.le_refl _, Nat.le_of_lt h₂⟩

theorem WellPlaced.encloses_accessExtent {d : Declaration} (h : d.WellPlaced) :
    d.mainSection.extent.encloses d.accessExtent = true := by
  have hmain := h.mainSection
  rw [accessExtent]
  cases hs : d.mainSection with
  | plain extent hasName =>
    rw [hs] at hmain
    exact Extent.encloses_iff.mpr ⟨Nat.le_refl _, Nat.le_refl _, hmain⟩
  | parameterized l =>
    rw [hs] at hmain
    have hplaced : l.WellPlaced := hmain
    exact Extent.encloses_iff.mpr ⟨Nat.le_refl _, Nat.le_of_lt hplaced.opening_lt_stop,
      hplaced.start_le_opening⟩

/-- An answer inside a parameter is inside the main section. -/
theorem WellPlaced.encloses_answer {d : Declaration} (h : d.WellPlaced) {x : Extent}
    {query : ParameterList → Option Extent}
    (hquery : ∀ l, query l = some x → ∃ i own, l.parameter? i = some own ∧ own.encloses x = true)
    (hx : d.mainList?.bind query = some x) : d.mainSection.extent.encloses x = true := by
  obtain ⟨l, hl, hlx⟩ := Option.bind_eq_some_iff.mp hx
  obtain ⟨i, own, hown, hx'⟩ := hquery l hlx
  exact Extent.encloses_trans (h.encloses_parameter hl hown) hx'

/-- An answer about a parameter that lies inside it in the list does so in the declaration. -/
theorem encloses_of_query {d : Declaration} {i : Nat} {own x : Extent}
    {query : ParameterList → Option Extent}
    (hquery : ∀ l, query l = some x → ∃ own, l.parameter? i = some own ∧ own.encloses x = true)
    (hown : d.parameter? i = some own) (hx : d.mainList?.bind query = some x) :
    own.encloses x = true := by
  obtain ⟨l, hl, hlx⟩ := Option.bind_eq_some_iff.mp hx
  obtain ⟨own', hown', hx'⟩ := hquery l hlx
  simp only [parameter?, hl, Option.bind_some, hown', Option.some.injEq] at hown
  exact hown ▸ hx'

/-- With well-placed sections, answers are contained, whatever the text is. -/
theorem WellPlaced.contained {d : Declaration} (h : d.WellPlaced) : d.Contained where
  before := h.encloses_beforeParameters
  after _ := h.encloses_afterParameters
  parameter i own hi := by
    obtain ⟨l, hl, hli⟩ := Option.bind_eq_some_iff.mp hi
    exact h.encloses_parameter hl hli
  name _ _ _ := encloses_of_query fun _ => ParameterList.exists_of_name?
  default _ _ _ := encloses_of_query fun _ => ParameterList.exists_of_default?
  property _ _ _ := encloses_of_query fun _ => ParameterList.exists_of_property?
  ownType i own x hi himplied hx := by
    obtain ⟨l, hl, hlx⟩ := Option.bind_eq_some_iff.mp hx
    obtain ⟨donor, own', hdonor, hown', hx'⟩ := ParameterList.exists_of_baseType? hlx
    have hself : donor = i := by
      simpa [typeIsImplied, hl, ParameterList.typeIsImplied, hdonor] using himplied
    subst hself
    simp only [parameter?, hl, Option.bind_some, hown', Option.some.injEq] at hi
    exact hi ▸ hx'
  impliedType _ _ := h.encloses_answer fun l hlx => by
    obtain ⟨donor, own, -, hown, hx'⟩ := ParameterList.exists_of_baseType? hlx
    exact ⟨donor, own, hown, hx'⟩

end Declaration

/-! ### Summaries drop nothing -/

/-- An answer inside its parent is not dropped. -/
theorem TaggedText.textWithin?_eq_map {t : TaggedText} {parent : Extent} {e : Option Extent}
    (h : ∀ x, e = some x → parent.encloses x = true) :
    t.textWithin? parent e = e.map t.extentText := by
  cases e with
  | none => rfl
  | some x => simp [textWithin?, Option.filter, h x rfl]

/-- If every index has a result, results are found at their indices. -/
theorem filterMap_range_of_isSome {α : Type} {f : Nat → Option α} {n : Nat}
    (h : ∀ i, i < n → (f i).isSome = true) :
    ((List.range n).filterMap f).length = n ∧
      ∀ i, i < n → ((List.range n).filterMap f)[i]? = f i := by
  induction n with
  | zero => simp
  | succ n ih =>
    obtain ⟨hlen, hget⟩ := ih fun i hi => h i (Nat.lt_succ_of_lt hi)
    obtain ⟨a, ha⟩ := Option.isSome_iff_exists.mp (h n (Nat.lt_succ_self n))
    have hsucc : (List.range (n + 1)).filterMap f = (List.range n).filterMap f ++ [a] := by
      simp [List.range_succ, List.filterMap_append, ha]
    rw [hsucc]
    refine ⟨by simp [hlen], fun i hi => ?_⟩
    rcases Nat.lt_succ_iff_lt_or_eq.mp hi with hlt | rfl
    · rw [List.getElem?_append_left (by omega), hget i hlt]
    · rw [List.getElem?_append_right (by omega), hlen, ha]
      simp

namespace Summary

/-- A summary has the text of every answer. -/
structure Complete (d : Declaration) : Prop where
  count : (ofDeclaration d).parameters.length = d.parameterCount
  before : (ofDeclaration d).beforeParameters = some (d.text.extentText d.beforeParameters)
  after : (ofDeclaration d).afterParameters = d.afterParameters?.map d.text.extentText
  parameter : ∀ i, i < d.parameterCount → ∃ own p,
    d.parameter? i = some own ∧ (ofDeclaration d).parameters[i]? = some p ∧
      p.text = d.text.extentText own ∧
      p.name = (d.name? i).map d.text.extentText ∧
      p.baseType = (d.baseType? i true).map d.text.extentText ∧
      p.fullType = (d.fullType? i true).map Excerpt.text ∧
      p.typeIsImplied = d.typeIsImplied i true ∧
      p.default = (d.default? i).map d.text.extentText ∧
      p.property = (d.property? i).map d.text.extentText

theorem exists_parameter?_of_lt {d : Declaration} {i : Nat} (h : i < d.parameterCount) :
    ∃ own, d.parameter? i = some own := by
  rw [Declaration.parameterCount] at h
  cases hl : d.mainList? with
  | none => simp [hl] at h
  | some l =>
    simp only [hl, ParameterList.count] at h
    exact ⟨l.parameters[i], by simp [Declaration.parameter?, hl, ParameterList.parameter?, h]⟩

/-- The summary of a parameter, if answers are contained. -/
theorem ofDeclaration?_of_contained {d : Declaration} (h : d.Contained) {i : Nat} {own : Extent}
    (hown : d.parameter? i = some own) :
    ParameterSummary.ofDeclaration? d i = some
      { text := d.text.extentText own
        name := (d.name? i).map d.text.extentText
        baseType := (d.baseType? i true).map d.text.extentText
        fullType := (d.fullType? i true).map Excerpt.text
        typeIsImplied := d.typeIsImplied i true
        default := (d.default? i).map d.text.extentText
        property := (d.property? i).map d.text.extentText } := by
  have htype : ∀ x, d.baseType? i true = some x →
      (if d.typeIsImplied i true then d.mainSection.extent else own).encloses x = true := by
    intro x hx
    cases himplied : d.typeIsImplied i true with
    | true => exact h.impliedType i x hx
    | false => exact h.ownType i own x hown himplied hx
  simp only [ParameterSummary.ofDeclaration?, hown, Option.filter, h.parameter i own hown, if_true,
    Option.map_some]
  rw [TaggedText.textWithin?_eq_map fun x => h.name i own x hown,
    TaggedText.textWithin?_eq_map htype,
    TaggedText.textWithin?_eq_map fun x => h.default i own x hown,
    TaggedText.textWithin?_eq_map fun x => h.property i own x hown]

theorem complete_of_contained {d : Declaration} (h : d.Contained) : Complete d := by
  have hall := filterMap_range_of_isSome (f := ParameterSummary.ofDeclaration? d)
    (n := d.parameterCount) fun i hi => by
      obtain ⟨own, hown⟩ := exists_parameter?_of_lt hi
      simp [ofDeclaration?_of_contained h hown]
  refine ⟨hall.1, ?_, TaggedText.textWithin?_eq_map h.after, fun i hi => ?_⟩
  · refine TaggedText.textWithin?_eq_map fun x hx => ?_
    rw [← Option.some.inj hx]
    exact h.before
  · obtain ⟨own, hown⟩ := exists_parameter?_of_lt hi
    exact ⟨own, _, hown, (hall.2 i hi).trans (ofDeclaration?_of_contained h hown),
      rfl, rfl, rfl, rfl, rfl, rfl, rfl⟩

end Summary

/-- **Answers are contained after any operations.** Whatever is done to a declaration, it has a main
section, an operation that fails changes nothing, lists are well placed, every answer lies inside
its parent, and the summary has them all. -/
theorem Declaration.run_contained (t : TaggedText) (impliesTypes : Bool) (keywords : KeywordTable)
    (ops : List Operation) :
    let d := (Declaration.ofText t impliesTypes keywords).run ops
    (d.outline.sections ≠ [] ∧ d.outline.main < d.outline.sections.length) ∧
    (∀ op, (d.perform op).2 ≠ none → (d.perform op).1 = d) ∧
    (∀ index, (d.perform (.select index)).2 ≠ none ↔ d.outline.sections.length ≤ index) ∧
    (∀ l, .parameterized l ∈ d.outline.sections → l.WellPlaced) ∧
    d.Contained ∧ Summary.Complete d := by
  intro d
  have hplaced : d.WellPlaced := (wellPlaced_ofText t impliesTypes keywords).run ops
  have hlt := d.outline.main_lt
  refine ⟨⟨List.length_pos_iff.mp (by omega), hlt⟩, fun op => perform_of_failed, fun index => ?_,
    fun l hl => hplaced _ hl, hplaced.contained, Summary.complete_of_contained hplaced.contained⟩
  rcases perform_select d index with ⟨h, heq⟩ | ⟨h, heq⟩
  · simp [heq, h]
  · simp [heq, h]

end DeclOutline
