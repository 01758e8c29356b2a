import DeclOutline.Proofs.Moving

/-!
# The head of a declaration stands alone

What stands before a parameter list says who may use the declaration. What stands in the list or
behind it must not: `private` may modify a parameter, and the text after the list may hold further
sections with keywords of their own. Here two texts agree up to a token that opens a list and are
unrelated from there on. If that token is in the main section of either, the two declarations
have the same head and the same access level.

The outlines of the two texts may have little in common. The section of the opening token may be
cut off right behind it in one text and go on to the end in the other, and sections may follow or
not. The start of that section depends on earlier tokens alone, because it is where the last cut
before the opening token left it.

That the opening token is the first of its section is not asked for: an earlier one opens the list
in both texts.

## Main definitions

* `TaggedText.AgreeThrough` — two texts have the same tokens through an index

## Main results

* `TaggedText.AgreeThrough.start_trim_eq` — the section of a token starts alike in both texts
* `TaggedText.AgreeThrough.openingOf_eq` — and so does its parameter list
* `Declaration.head_eq_of_agreeThrough` — head and access level are the same
-/

namespace DeclOutline

namespace TaggedText

/-- Two texts have the same tokens, or none, at the indices through `m`. -/
def AgreeThrough (m : Nat) (t t' : TaggedText) : Prop :=
  ∀ i, i ≤ m → t.token? i = t'.token? i

instance (m : Nat) (t t' : TaggedText) : Decidable (AgreeThrough m t t') :=
  inferInstanceAs (Decidable (∀ i, i ≤ m → t.token? i = t'.token? i))

theorem isSolid_iff {t : TaggedText} {i : Nat} :
    t.IsSolid i ↔ ∃ token, t.token? i = some token ∧ token.isBlank = false := by
  constructor
  · rintro ⟨hlt, hblank⟩
    have htoken := token?_of_lt hlt
    exact ⟨_, htoken, (isBlankAt_of_token? htoken).symm.trans hblank⟩
  · rintro ⟨token, htoken, hblank⟩
    refine ⟨?_, (isBlankAt_of_token? htoken).trans hblank⟩
    by_contra hge
    rw [token?_eq_none (Nat.le_of_not_lt hge)] at htoken
    exact absurd htoken (Option.some_ne_none token).symm

namespace AgreeThrough

variable {m i : Nat} {t t' : TaggedText} {p p' : Piece} {e e' : Extent}

/-! ### What is read of a token -/

theorem symm (h : AgreeThrough m t t') : AgreeThrough m t' t :=
  fun i hi => (h i hi).symm

theorem hasRole (h : AgreeThrough m t t') (hi : i ≤ m) (r : Role) :
    t.hasRole i r = t'.hasRole i r := by
  rw [TaggedText.hasRole, TaggedText.hasRole, role?, role?, h i hi]

theorem isSolid_iff (h : AgreeThrough m t t') (hi : i ≤ m) : t.IsSolid i ↔ t'.IsSolid i := by
  rw [TaggedText.isSolid_iff, TaggedText.isSolid_iff, h i hi]

theorem cutAt_iff (h : AgreeThrough m t t') (hi : i ≤ m) : t.CutAt i ↔ t'.CutAt i := by
  rw [CutAt, CutAt, h.hasRole hi, h.hasRole (Nat.le_trans (Nat.sub_le i 1) hi)]

theorem slice_eq (h : AgreeThrough m t t') (hstop : e.stop ≤ m + 1) : t.slice e = t'.slice e := by
  rw [slice_eq_filterMap, slice_eq_filterMap]
  refine List.filterMap_congr fun i hi => h i ?_
  exact Nat.le_of_lt_succ (Nat.lt_of_lt_of_le (Extent.mem_indices.mp hi).2 hstop)

/-! ### Where the section and its list start -/

/-- The section of a token reaches back as far in the other text. -/
theorem start_trim_le (h : AgreeThrough m t t') (hp : p ∈ Piece.kept t) (hp' : p' ∈ Piece.kept t')
    (hm : (t.trim p.extent).contains m = true) (hm' : (t'.trim p'.extent).contains m = true) :
    (t'.trim p'.extent).start ≤ (t.trim p.extent).start := by
  obtain ⟨htrim, hlt⟩ := Piece.trimmed_of_mem_kept hp
  have hle := (Extent.contains_iff.mp hm).1
  rcases Nat.eq_or_lt_of_le hle with heq | hbefore
  · rw [heq]
    exact (Extent.contains_iff.mp hm').1
  · -- the first token of the section in `t` is in the section of `m` in `t'` too
    have hsolid : t.IsSolid (t.trim p.extent).start :=
      ⟨Nat.lt_of_lt_of_le hlt (Piece.stop_trim_le_length hp), htrim.first hlt⟩
    have hself : (t.trim p.extent).contains (t.trim p.extent).start = true :=
      Extent.contains_iff.mpr ⟨Nat.le_refl _, hlt⟩
    have hnone : ¬ ∃ k, (t.trim p.extent).start < k ∧ k ≤ m ∧ t'.CutAt k := by
      rintro ⟨k, hk, hkm, hcut⟩
      exact Piece.not_cutAt_of_contains hp hself hm ⟨k, hk, hkm, (h.cutAt_iff hkm).mpr hcut⟩
    have hcontains := Piece.contains_of_not_cutAt hp' hm' ((h.isSolid_iff hle).mp hsolid) hbefore
      hnone
    exact (Extent.contains_iff.mp hcontains).1

/-- The section of a token starts where it does in the other text. -/
theorem start_trim_eq (h : AgreeThrough m t t') (hp : p ∈ Piece.kept t)
    (hp' : p' ∈ Piece.kept t') (hm : (t.trim p.extent).contains m = true)
    (hm' : (t'.trim p'.extent).contains m = true) :
    (t.trim p.extent).start = (t'.trim p'.extent).start :=
  Nat.le_antisymm (h.symm.start_trim_le hp' hp hm' hm) (h.start_trim_le hp hp' hm hm')

/-- A list that is open by a token is opened where it is in the other text. -/
theorem openingOf_eq (h : AgreeThrough m t t') (hstart : e.start = e'.start)
    (hm : e.contains m = true) (hm' : e'.contains m = true)
    (hopen : t.hasRole m .listOpen = true) :
    ParameterList.openingOf t e = ParameterList.openingOf t' e' ∧
      ParameterList.openingOf t e ≤ m := by
  rw [Extent.contains_iff] at hm hm'
  cases hfind : e.indices.find? fun i => t.hasRole i .listOpen with
  | none =>
    have hnone := Extent.find?_indices_eq_none.mp hfind m hm.1 hm.2
    rw [hopen] at hnone
    exact absurd hnone Bool.noConfusion
  | some o =>
    obtain ⟨⟨hle, -⟩, ho, hleast⟩ := Extent.find?_indices_eq_some.mp hfind
    have hom : o ≤ m := by
      by_contra hgt
      have hfalse := hleast m hm.1 (Nat.lt_of_not_le hgt)
      rw [hopen] at hfalse
      exact absurd hfalse Bool.noConfusion
    have hfind' : (e'.indices.find? fun i => t'.hasRole i .listOpen) = some o := by
      refine Extent.find?_indices_eq_some.mpr
        ⟨⟨hstart ▸ hle, Nat.lt_of_le_of_lt hom hm'.2⟩, ?_, fun j hj hjo => ?_⟩
      · rw [← h.hasRole hom]
        exact ho
      · rw [← h.hasRole (Nat.le_trans (Nat.le_of_lt hjo) hom)]
        exact hleast j (hstart ▸ hj) hjo
    rw [ParameterList.openingOf, ParameterList.openingOf, hfind, hfind']
    exact ⟨rfl, hom⟩

end AgreeThrough

end TaggedText

/-! ### Declarations -/

namespace Declaration

variable {d d' : Declaration} {m : Nat}

/-- A main section with a token that opens a list is the section of a piece, and its head goes up to
the first such token. -/
theorem IsCurrent.exists_piece (h : d.IsCurrent) (hsolid : d.text.IsSolid m)
    (hopen : d.text.hasRole m .listOpen = true)
    (hmain : d.mainSection.extent.contains m = true) :
    ∃ p ∈ Piece.kept d.text, (d.text.trim p.extent).contains m = true ∧
      d.accessExtent = ⟨(d.text.trim p.extent).start,
        ParameterList.openingOf d.text (d.text.trim p.extent)⟩ ∧
      d.beforeParameters = ⟨(d.text.trim p.extent).start,
        ParameterList.openingOf d.text (d.text.trim p.extent) + 1⟩ := by
  have hkept : Piece.kept d.text ≠ [] := fun hnil => Piece.kept_eq_nil_iff.mp hnil ⟨m, hsolid⟩
  have hmem := d.mainSection_mem
  rw [h, Outline.sections_ofText hkept] at hmem
  obtain ⟨p, hp, hsection⟩ := List.mem_map.mp hmem
  rw [← hsection, Piece.extent_toSection] at hmain
  have hall := (List.mem_filter.mp hp).1
  have htrim := (Piece.trimmed_of_mem_kept hp).1
  have hm := Extent.contains_iff.mp hmain
  have hlist : p.hasRole .listOpen = true := by
    have htoken := TaggedText.token?_of_lt hsolid.1
    rw [TaggedText.hasRole_of_token? htoken] at hopen
    rw [Piece.hasRole, List.any_eq_true]
    exact (Piece.exists_mem_tokens_iff hall fun token => token.hasRole .listOpen = true).mpr
      ⟨m, _, Nat.le_trans htrim.start_le hm.1, Nat.lt_of_lt_of_le hm.2 htrim.stop_le, htoken, hopen⟩
  rw [Piece.toSection, if_pos hlist] at hsection
  refine ⟨p, hp, hmain, ?_, ?_⟩
  · rw [accessExtent, ← hsection]
    rfl
  · rw [beforeParameters, ← hsection]
    rfl

/-- **The head of a declaration stands alone.** Two texts agree through a token that opens a list,
and the token is in the main section of either. Whatever follows it, the declarations have the same
head, and by any keywords the same access level. -/
theorem head_eq_of_agreeThrough (hd : d.IsCurrent) (hd' : d'.IsCurrent)
    (hagree : d.text.AgreeThrough m d'.text) (hsolid : d.text.IsSolid m)
    (hopen : d.text.hasRole m .listOpen = true)
    (hmain : d.mainSection.extent.contains m = true)
    (hmain' : d'.mainSection.extent.contains m = true) :
    d.beforeParameters = d'.beforeParameters ∧
    d.text.slice d.beforeParameters = d'.text.slice d'.beforeParameters ∧
    (∀ keywords, d.accessLevelBy keywords = d'.accessLevelBy keywords) ∧
    (d.keywords = d'.keywords → d.accessLevel = d'.accessLevel) := by
  have hsolid' : d'.text.IsSolid m := (hagree.isSolid_iff (Nat.le_refl m)).mp hsolid
  have hopen' : d'.text.hasRole m .listOpen = true := by
    rw [← hagree.hasRole (Nat.le_refl m)]
    exact hopen
  obtain ⟨p, hp, hm, haccess, hbefore⟩ := hd.exists_piece hsolid hopen hmain
  obtain ⟨p', hp', hm', haccess', hbefore'⟩ := hd'.exists_piece hsolid' hopen' hmain'
  have hstart := hagree.start_trim_eq hp hp' hm hm'
  obtain ⟨hopening, hle⟩ := hagree.openingOf_eq hstart hm hm' hopen
  rw [← hstart, ← hopening] at haccess' hbefore'
  have hlevel : ∀ keywords, d.accessLevelBy keywords = d'.accessLevelBy keywords := by
    intro keywords
    rw [accessLevelBy, accessLevelBy, haccess, haccess', KeywordTable.resolve, KeywordTable.resolve,
      KeywordTable.levels, KeywordTable.levels, hagree.slice_eq (Nat.le_succ_of_le hle)]
  refine ⟨hbefore.trans hbefore'.symm, ?_, hlevel, fun hkeywords => ?_⟩
  · rw [hbefore, hbefore', hagree.slice_eq (Nat.succ_le_succ hle)]
  · rw [accessLevel, accessLevel, ← hkeywords]
    exact hlevel d.keywords

end Declaration

namespace Sample

/-- `[A] internal F(private int x)`, with a section for the attribute. -/
def shortHead : TaggedText :=
  TaggedText.mk #[]
    |>.raw "[A]" |>.sectionBreak |>.modifier "internal" |>.space |>.name "F" |>.openList
    |>.tagged "private" .paramModifier |>.space |>.typeName "int" |>.space |>.name "x" |>.closeList

/-- The same up to the parameter list, in which a section of its own begins. -/
def brokenHead : TaggedText :=
  TaggedText.mk #[]
    |>.raw "[A]" |>.sectionBreak |>.modifier "internal" |>.space |>.name "F" |>.openList
    |>.openList |>.sectionBreak |>.modifier "protected" |>.space |>.name "G"

theorem head_eq_of_agreeThrough_samples :
    shortHead.AgreeThrough 7 brokenHead ∧
      (Declaration.ofText shortHead).accessLevel = .assembly ∧
      (Declaration.ofText brokenHead).accessLevel = .assembly ∧
      (Declaration.ofText brokenHead).beforeParameters = ⟨4, 8⟩ := by
  have hagree : shortHead.AgreeThrough 7 brokenHead := by decide
  have hcurrent : ∀ t, (Declaration.ofText t).IsCurrent := fun t => rfl
  obtain ⟨hbefore, -, -, hlevel⟩ := Declaration.head_eq_of_agreeThrough (hcurrent shortHead)
    (hcurrent brokenHead) hagree (by decide) (by decide) (by decide) (by decide)
  have hkeywords : ∀ t, (Declaration.ofText t).keywords = .standard := fun t => rfl
  have hshort : (Declaration.ofText shortHead).accessLevel = .assembly := by decide
  have heq := hlevel ((hkeywords _).trans (hkeywords _).symm)
  exact ⟨hagree, hshort, heq.symm.trans hshort, hbefore.symm.trans (by decide)⟩

end Sample

end DeclOutline
