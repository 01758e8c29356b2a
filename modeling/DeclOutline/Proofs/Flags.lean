import DeclOutline.Proofs.Stretches

/-!
# What the flags of a section say

A section says whether it has a name and whether it has parameters, and where its parameter list is
opened. One would read this off the tokens of its extent. But flags are taken down before the
stretch of a section is trimmed, and the list is looked for afterwards, in what is left. The two
differ where a blank token has a role: a name or an opening token that is trimmed is still flagged,
and then the list is taken to be opened by the first token that is left. A text of blanks differs
the other way: its one section is not trimmed, and is flagged for nothing.

Roles that are set on an extent pass over blanks. Where no blank is a name or opens a list, flags
say what they should.

## Main definitions

* `TaggedText.IsFirstIn` — the first token of a role in an extent
* `Section.FlagsFit` — the flags of a section are what its extent says

## Main results

* `Outline.flagsFit_iff` — when flags fit
* `Outline.flags_ofText` — what flags say, and when they fit
-/

namespace DeclOutline

namespace TaggedText

variable {t : TaggedText} {e : Extent} {r : Role}

/-- The token at an index is the first one of a role in an extent. -/
structure IsFirstIn (t : TaggedText) (r : Role) (e : Extent) (i : Nat) : Prop where
  mem : i ∈ e.indices
  has : t.hasRole i r = true
  least : ∀ j ∈ e.indices, t.hasRole j r = true → i ≤ j

/-- A list is opened by the first token that opens one, if there is any. -/
theorem isFirstIn_openingOf (h : t.HasRoleIn e .listOpen) :
    t.IsFirstIn .listOpen e (ParameterList.openingOf t e) := by
  obtain ⟨k, hk, hrole⟩ := h
  rw [ParameterList.openingOf]
  cases hfind : e.indices.find? fun i => t.hasRole i .listOpen with
  | none =>
    have hnone := List.find?_eq_none.mp hfind k hk
    exact absurd hrole hnone
  | some i =>
    obtain ⟨hmem, hi, hleast⟩ := Extent.find?_indices_eq_some.mp hfind
    refine ⟨Extent.mem_indices.mpr hmem, hi, fun j hj hjrole => ?_⟩
    by_contra hlt
    have hfalse := hleast j (Extent.mem_indices.mp hj).1 (Nat.lt_of_not_le hlt)
    simp [hjrole] at hfalse

/-- Trimming leaves the tokens of a role, if none of them is blank. -/
theorem Trimmed.hasRoleIn_iff {e' : Extent} (h : t.Trimmed e e')
    (hblank : ∀ i, t.isBlankAt i = true → t.hasRole i r = false) :
    t.HasRoleIn e r ↔ t.HasRoleIn e' r := by
  constructor
  · rintro ⟨i, hi, hrole⟩
    obtain ⟨hstart, hstop⟩ := Extent.mem_indices.mp hi
    have hsolid : t.isBlankAt i = false := by
      by_contra hn
      rw [hblank i (by simpa using hn)] at hrole
      exact Bool.noConfusion hrole
    exact ⟨i, Extent.mem_indices.mpr (h.mem_of_not_blank hstart hstop hsolid), hrole⟩
  · rintro ⟨i, hi, hrole⟩
    obtain ⟨hstart, hstop⟩ := Extent.mem_indices.mp hi
    exact ⟨i, Extent.mem_indices.mpr ⟨Nat.le_trans h.start_le hstart,
      Nat.lt_of_lt_of_le hstop h.stop_le⟩, hrole⟩

end TaggedText

/-- The flags of a section are what its extent says: it has a name if a token there is a name, and
parameters if a token there opens a list, and the first such token opens the list. -/
structure Section.FlagsFit (t : TaggedText) (s : Section) : Prop where
  hasName : s.hasName = true ↔ t.HasRoleIn s.extent .name
  hasList : s.hasList = true ↔ t.HasRoleIn s.extent .listOpen
  opening : ∀ l, s.list? = some l → t.IsFirstIn .listOpen s.extent l.opening

namespace Outline

variable {t : TaggedText} {impliesTypes : Bool} {n : Nat} {s : Section}

/-- The list of a section is opened by the first token of the section that opens one, if there is
any. -/
theorem isFirstIn_opening (h : (ofText t impliesTypes).sections[n]? = some s) {l : ParameterList}
    (hl : s.list? = some l) (hopen : t.HasRoleIn s.extent .listOpen) :
    t.IsFirstIn .listOpen s.extent l.opening := by
  cases s with
  | plain extent hasName => simp [Section.list?] at hl
  | parameterized list =>
    obtain rfl : list = l := Option.some.inj hl
    obtain ⟨p, -, -, rfl⟩ := exists_of_parameterized_mem (List.mem_of_getElem? h)
    exact TaggedText.isFirstIn_openingOf hopen

/-- **When flags fit.** Flags are those of a stretch, so they fit exactly if the stretch and the
extent of the section agree on names and on tokens that open a list. -/
theorem flagsFit_iff (h : (ofText t impliesTypes).sections[n]? = some s) :
    s.FlagsFit t ↔ (t.StretchHas n .name ↔ t.HasRoleIn s.extent .name) ∧
      (t.StretchHas n .listOpen ↔ t.HasRoleIn s.extent .listOpen) := by
  obtain ⟨hname, hlist⟩ := flags_iff_stretchHas h
  rw [← hname, ← hlist]
  constructor
  · intro hfit
    exact ⟨hfit.hasName, hfit.hasList⟩
  · rintro ⟨hname', hlist'⟩
    refine ⟨hname', hlist', fun l hl => isFirstIn_opening h hl (hlist'.mp ?_)⟩
    rw [Section.hasList, hl]
    rfl

/-- A stretch and the extent of its section agree on a role that no blank has. -/
theorem stretchHas_iff (h : (ofText t impliesTypes).sections[n]? = some s) {r : Role}
    (hblank : ∀ i, t.isBlankAt i = true → t.hasRole i r = false) :
    t.StretchHas n r ↔ t.HasRoleIn s.extent r := by
  rcases section_cases h with ⟨e, he, htrimmed, -⟩ | ⟨hsolid, hnone, rfl⟩
  · rw [← htrimmed.hasRoleIn_iff hblank]
    simp [TaggedText.StretchHas, he]
  · refine iff_of_false (by simp [TaggedText.StretchHas, hnone]) ?_
    rintro ⟨i, hi, hrole⟩
    have hlt : i < t.length := (Extent.mem_indices.mp hi).2
    have hi' : t.isBlankAt i = true := by
      by_contra hn
      exact hsolid ⟨i, hlt, by simpa using hn⟩
    rw [hblank i hi'] at hrole
    exact Bool.noConfusion hrole

/-- **What the flags of a section say.** They say whether the stretch of the section has a name and
whether it opens a list. If a token of the section opens a list, the first such token opens the list
of the section. So flags fit exactly if no name and no opening token is lost by trimming, with none
left, or is in a text of blanks. They do if no blank is a name or opens a list. -/
theorem flags_ofText (h : (ofText t impliesTypes).sections[n]? = some s) :
    ((s.hasName = true ↔ t.StretchHas n .name) ∧
      (s.hasList = true ↔ t.StretchHas n .listOpen) ∧
      ∀ l, s.list? = some l → t.HasRoleIn s.extent .listOpen →
        t.IsFirstIn .listOpen s.extent l.opening) ∧
    (s.FlagsFit t ↔ (t.StretchHas n .name ↔ t.HasRoleIn s.extent .name) ∧
      (t.StretchHas n .listOpen ↔ t.HasRoleIn s.extent .listOpen)) ∧
    ((∀ i, t.isBlankAt i = true →
        t.hasRole i .name = false ∧ t.hasRole i .listOpen = false) → s.FlagsFit t) := by
  obtain ⟨hname, hlist⟩ := flags_iff_stretchHas h
  refine ⟨⟨hname, hlist, fun l => isFirstIn_opening h⟩, flagsFit_iff h, fun hblank => ?_⟩
  exact (flagsFit_iff h).mpr ⟨stretchHas_iff h fun i hi => (hblank i hi).1,
    stretchHas_iff h fun i hi => (hblank i hi).2⟩

end Outline

namespace Sample

/-- The signature behind the attribute fits its flags, and the line break that starts it has a role
that no flag asks for. -/
theorem flagsFit_attributeAndSignature :
    attributeAndSignature.isBlankAt 3 = true ∧
      attributeAndSignature.hasRole 3 .sectionStart = true ∧
      ∃ s, (Outline.ofText attributeAndSignature true).sections[1]? = some s ∧
        s.extent = ⟨4, 14⟩ ∧ s.FlagsFit attributeAndSignature := by
  obtain ⟨s, hs, hextent⟩ : ∃ s, (Outline.ofText attributeAndSignature true).sections[1]? = some s ∧
      s.extent = ⟨4, 14⟩ := Option.map_eq_some_iff.mp (by decide)
  have hall : ∀ i < attributeAndSignature.length, attributeAndSignature.isBlankAt i = true →
      attributeAndSignature.hasRole i .name = false ∧
        attributeAndSignature.hasRole i .listOpen = false := by decide
  refine ⟨by decide, by decide, s, hs, hextent, (Outline.flags_ofText hs).2.2 fun i hi => ?_⟩
  refine hall i ?_ hi
  by_contra hlen
  rw [TaggedText.isBlankAt, TaggedText.token?_eq_none (Nat.le_of_not_lt hlen)] at hi
  exact Bool.noConfusion hi

/-- ` a,b) `, where the blank in front opens the list and the one behind is a name. -/
def taggedBlanks : TaggedText :=
  TaggedText.tokenize " a,b) "
    |>.setRole 0 (some .listOpen) |>.setRole 2 (some .separator) |>.setRole 4 (some .listClose)
    |>.setRole 5 (some .name)

/-- A blank that is a name. -/
def namedBlank : TaggedText :=
  (TaggedText.tokenize " ").setRole 0 (some .name)

/-- Both blanks are trimmed and flagged, and `a` is taken for the token that opens the list. The
blank that stands alone is not trimmed, and not flagged. -/
theorem not_flagsFit_blanks :
    (∃ s l, (Outline.ofText taggedBlanks true).sections = [s] ∧ s.extent = ⟨1, 5⟩ ∧
      (s.hasName = true ∧ ¬ taggedBlanks.HasRoleIn ⟨1, 5⟩ .name) ∧
      (s.list? = some l ∧ ¬ taggedBlanks.HasRoleIn ⟨1, 5⟩ .listOpen) ∧
      (l.opening = 1 ∧ taggedBlanks.tokenText 1 = "a") ∧ ¬ s.FlagsFit taggedBlanks) ∧
    ∃ s, (Outline.ofText namedBlank true).sections = [s] ∧ s.extent = ⟨0, 1⟩ ∧
      (s.hasName = false ∧ namedBlank.HasRoleIn ⟨0, 1⟩ .name) ∧ ¬ s.FlagsFit namedBlank := by
  refine ⟨⟨.parameterized (.analyze taggedBlanks ⟨1, 5⟩ true true),
    .analyze taggedBlanks ⟨1, 5⟩ true true, by decide, by decide, by decide, by decide, by decide,
    fun hfit => ?_⟩, .plain ⟨0, 1⟩ false, by decide, by decide, by decide, fun hfit => ?_⟩
  · exact absurd (hfit.hasName.mp rfl) (by decide)
  · exact absurd (hfit.hasName.mpr (by decide)) (by decide)

end Sample

end DeclOutline
