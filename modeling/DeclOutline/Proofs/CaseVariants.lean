import DeclOutline.Proofs.Lookups

/-!
# Names in another case

A query that would be refused as a repetition of a name need not find it. The two rules for names
differ beyond the letters `A` to `Z`: `é` repeats `É`, and does not find it. What matters is whether
a name has another letter whose case can be changed, or one that comes from changing another. The
latter can be a letter of ASCII: the sign for kelvin is a letter of its own, and becomes a `k` in
lower case.

A name has letters `A` to `Z` alone to change if a character beyond ASCII stands in it exactly
where its lower-case form does. Both directions of this are needed: a name with an `É` has another
form, and so has one with an `é`. The forms are those that the characters have at their place, and
this matters for sigmas. There is no other way to write `aσ` but with another `a`, since a capital
sigma at the end of a word becomes a `ς`.

## Main definitions

* `Text.OnlyAsciiCased` — a text has letters `A` to `Z` alone to change
* `Catalog.FindsInAnyCase` — what repeats a name is found under it

## Main results

* `Text.forall_same_iff` — what such texts are
* `Text.onlyAsciiCased_iff_of_ascii` — which texts of ASCII characters are such
* `Catalog.find?_in_another_case` — what is found under another case of a name
-/

namespace DeclOutline

namespace Text

variable {c d : Char} {u v w name query : List Char}

/-- A text has letters `A` to `Z` alone to change: a character beyond ASCII stands somewhere in it
exactly if its lower-case form does, up to the case of these letters. -/
def OnlyAsciiCased (name : List Char) : Prop :=
  ∀ u v w c, name = u ++ v ++ w → 0x80 ≤ c.toNat →
    (v = [c] ↔ (lowerAt u.reverse c w).map Char.toLower = v.map Char.toLower)

/-! ### Characters beyond ASCII -/

theorem toLower_toLower (c : Char) : c.toLower.toLower = c.toLower := by
  refine toLower_of_not_isUpper fun hlower => ?_
  by_cases hupper : c.isUpper = true
  · have hfirst := (toNat_of_isUpper hupper).1
    have hlast := (toNat_of_isUpper hlower).2
    rw [toNat_toLower hupper] at hlast
    omega
  · rw [toLower_of_not_isUpper hupper] at hlower
    exact hupper hlower

theorem toNat_toLower_lt (h : c.toNat < 0x80) : c.toLower.toNat < 0x80 := by
  by_cases hupper : c.isUpper = true
  · have hlast := (toNat_of_isUpper hupper).2
    rw [toNat_toLower hupper]
    omega
  · rwa [toLower_of_not_isUpper hupper]

/-- Nothing else becomes a character beyond ASCII when letters `A` to `Z` do. -/
theorem eq_of_toLower_eq (h : 0x80 ≤ c.toNat) (heq : d.toLower = c.toLower) : d = c := by
  rw [toLower_of_le h] at heq
  by_cases hd : d.toNat < 0x80
  · have hlt := toNat_toLower_lt hd
    rw [heq] at hlt
    omega
  · rwa [toLower_of_le (Nat.le_of_not_lt hd)] at heq

theorem eq_singleton_of_map_toLower (h : 0x80 ≤ c.toNat)
    (heq : v.map Char.toLower = [c].map Char.toLower) : v = [c] := by
  obtain ⟨d, rfl, hd⟩ := List.map_eq_singleton_iff.mp heq
  rw [eq_of_toLower_eq h hd]

/-! ### Texts with one case but for ASCII -/

/-- The form of such a text differs from it in the letters `A` to `Z` alone. -/
theorem OnlyAsciiCased.lowerBetween_eq (h : OnlyAsciiCased name) (heq : name = u ++ w) :
    lowerBetween u.reverse w [] = w.map Char.toLower := by
  induction w generalizing u with
  | nil => rfl
  | cons c w ih =>
    have hone : lowerAt u.reverse c w = [c.toLower] := by
      by_cases hc : c.toNat < 0x80
      · exact lowerAt_of_lt hc _ _
      · have hbeyond := Nat.le_of_not_lt hc
        have hform := (h u [c] w c (by simpa using heq) hbeyond).mp rfl
        rw [eq_singleton_of_map_toLower hbeyond hform, toLower_of_le hbeyond]
    have hrest := ih (u := u ++ [c]) (by simpa using heq)
    rw [List.reverse_append] at hrest
    rw [lowerBetween, List.append_nil, hone, List.map_cons]
    exact congrArg (c.toLower :: ·) hrest

/-- **What has the form of such a text** differs from it in the letters `A` to `Z` alone. -/
theorem OnlyAsciiCased.map_toLower_eq (h : OnlyAsciiCased name) {front : List Char}
    (heq : name = u ++ w) (hfront : front.map Char.toLower = u.map Char.toLower)
    (hform : lowerBetween front.reverse query [] = w.map Char.toLower) :
    query.map Char.toLower = w.map Char.toLower := by
  -- along the query: each character has taken up the part of the name that is its form
  induction query generalizing u w front with
  | nil => exact hform
  | cons c query ih =>
    rw [lowerBetween, List.append_nil] at hform
    obtain ⟨v, w, rfl, hv, hw⟩ := List.map_eq_append_iff.mp hform.symm
    have hback : startsCased front.reverse = startsCased u.reverse := by
      have hseen := (seenAlike_map_toLower front).back []
      have hu := (seenAlike_map_toLower u).back []
      rw [hfront] at hseen
      simpa using hseen.symm.trans hu
    have hahead : startsCased query = startsCased w := by
      have hquery := (seenAlike_lowerBetween (c :: front.reverse) query []).ahead []
      have hw' := (seenAlike_map_toLower w).ahead []
      rw [← hw] at hquery
      simpa using hquery.symm.trans hw'
    have hone : v.map Char.toLower = [c.toLower] := by
      by_cases hc : c.toNat < 0x80
      · rw [hv, lowerAt_of_lt hc]
      · have hbeyond := Nat.le_of_not_lt hc
        have hmatch : (lowerAt u.reverse c w).map Char.toLower = v.map Char.toLower := by
          rw [← lowerAt_congr hback hahead, ← hv, List.map_map]
          exact List.map_congr_left fun x _ => toLower_toLower x
        rw [(h u v w c (by simpa using heq) hbeyond).mpr hmatch]
        rfl
    have hfront' : (front ++ [c]).map Char.toLower = (u ++ v).map Char.toLower := by
      rw [List.map_append, List.map_append, hfront, hone]
      rfl
    have hform' : lowerBetween (front ++ [c]).reverse query [] = w.map Char.toLower := by
      rw [List.reverse_append, hw]
      rfl
    rw [List.map_cons, List.map_append, hone, ih (by simpa using heq) hfront' hform']
    rfl

/-- In a text with nothing else to change, a character beyond ASCII is its own form. -/
theorem map_lowerAt_of_forall (h : ∀ query, lowerBetween [] query [] =
      lowerBetween [] (u ++ [c] ++ w) [] →
        query.map Char.toLower = (u ++ [c] ++ w).map Char.toLower) :
    (lowerAt u.reverse c w).map Char.toLower = [c].map Char.toLower := by
  have hseen := seenAlike_lowerAt u.reverse c w
  have hform : lowerBetween u.reverse (lowerAt u.reverse c w) w = lowerBetween u.reverse [c] w := by
    rw [lowerBetween_lowerAt, lowerBetween, List.nil_append, lowerBetween, List.append_nil]
  have hsame := h _ (lowerBetween_exchange hseen hform)
  simpa only [List.map_append, List.append_cancel_right_eq, List.append_cancel_left_eq] using hsame

/-- In a text with nothing else to change, the form of a character beyond ASCII is no part but
where the character is. -/
theorem eq_singleton_of_forall (hc : 0x80 ≤ c.toNat)
    (hmatch : (lowerAt u.reverse c w).map Char.toLower = v.map Char.toLower)
    (h : ∀ query, lowerBetween [] query [] = lowerBetween [] (u ++ v ++ w) [] →
      query.map Char.toLower = (u ++ v ++ w).map Char.toLower) : v = [c] := by
  have hseen : SeenAlike [c] v := by
    have hv := (seenAlike_map_toLower (lowerAt u.reverse c w)).symm
    rw [hmatch] at hv
    exact (seenAlike_lowerAt u.reverse c w).symm.trans (hv.trans (seenAlike_map_toLower v))
  have hform : lowerBetween u.reverse [c] w = lowerBetween u.reverse v w := by
    rw [← lowerBetween_map_toLower _ v, ← hmatch, lowerBetween_map_toLower, lowerBetween_lowerAt,
      lowerBetween, List.nil_append, lowerBetween, List.append_nil]
  have hsame := h _ (lowerBetween_exchange hseen hform)
  simp only [List.map_append, List.append_cancel_right_eq, List.append_cancel_left_eq] at hsame
  exact eq_singleton_of_map_toLower hc hsame.symm

/-- **Texts with letters `A` to `Z` alone to change** are those that have no form in common with
any other texts than the ones that differ from them in these letters. -/
theorem forall_same_iff (name : String) :
    (∀ query, lowercase query = lowercase name → sameIgnoringAsciiCase name query = true) ↔
      OnlyAsciiCased name.toList := by
  simp only [lowercase_eq_lowercase_iff, same_iff]
  constructor
  · intro h u v w c heq hc
    have hlists : ∀ query, lowerBetween [] query [] = lowerBetween [] (u ++ v ++ w) [] →
        query.map Char.toLower = (u ++ v ++ w).map Char.toLower := by
      intro query hquery
      have hsame := h (String.ofList query) (by rwa [String.toList_ofList, heq])
      rw [String.toList_ofList, heq] at hsame
      exact hsame.symm
    constructor
    · rintro rfl
      exact map_lowerAt_of_forall hlists
    · intro hmatch
      exact eq_singleton_of_forall hc hmatch hlists
  · intro h query hquery
    have hname := h.lowerBetween_eq (List.nil_append _).symm
    exact (h.map_toLower_eq (List.nil_append _).symm rfl (hquery.trans hname)).symm

/-! ### Texts of ASCII characters -/

theorem lowerAt_kelvin (before after : List Char) :
    lowerAt before (Char.ofNat 0x212A) after = ['k'] := by
  have hform : lowerChar (Char.ofNat 0x212A) = ['k'] := by decide +kernel
  rw [lowerAt, if_neg (by decide), hform]

/-- The case data move nothing but a `k` into ASCII from beyond it. -/
theorem eq_k_of_moved : ∀ r ∈ lowerRanges, ∀ n ∈ capitalsOf r, 0x80 ≤ n →
    ((n : Int) + r.2.2.2).toNat < 0x80 → ((n : Int) + r.2.2.2).toNat = 0x6B := by
  decide +kernel

/-- A character beyond ASCII whose form is in ASCII becomes a `k`. -/
theorem lowerAt_eq_k (hc : 0x80 ≤ c.toNat) (h : ∀ x ∈ lowerAt u c w, x.toNat < 0x80) :
    lowerAt u c w = ['k'] := by
  rw [lowerAt] at h ⊢
  split at h
  · have hsigma := h _ List.mem_cons_self
    rw [lowerSigma] at hsigma
    split at hsigma <;> exact absurd hsigma (by decide)
  · next hne =>
    rw [if_neg hne]
    rcases lowerChar_cases c with hform | ⟨-, hform⟩ | ⟨r, hr, hn, hform⟩
    · rw [hform] at h
      have := h c List.mem_cons_self
      omega
    · rw [hform] at h
      exact absurd (h (Char.ofNat 0x307) (by simp)) (by decide)
    · have hlt := h _ (hform ▸ List.mem_cons_self)
      rw [toNat_ofNat (isValidChar_of_mem_smalls _ (mem_smalls hr hn))] at hlt
      rw [hform, eq_k_of_moved r hr _ hn hc hlt]

theorem eq_k_of_toLower (h : c.toLower = 'k') : c = 'k' ∨ c = 'K' := by
  by_cases hupper : c.isUpper = true
  · have hnat := congrArg Char.toNat h
    rw [toNat_toLower hupper] at hnat
    refine .inr (Char.toNat_inj.mp ?_)
    exact Nat.add_right_cancel hnat
  · exact .inl (toLower_of_not_isUpper hupper ▸ h)

/-- A text of ASCII characters has nothing else to change exactly if it has no `k`. -/
theorem onlyAsciiCased_iff_of_ascii (hascii : ∀ x ∈ name, x.toNat < 0x80) :
    OnlyAsciiCased name ↔ 'k' ∉ name ∧ 'K' ∉ name := by
  constructor
  · intro h
    -- with the sign for kelvin in its place, the name would have the same form
    have hnone : ∀ x, x.toLower = 'k' → x ∉ name := by
      intro x hx hmem
      obtain ⟨u, w, heq⟩ := List.append_of_mem hmem
      have hmatch : (lowerAt u.reverse (Char.ofNat 0x212A) w).map Char.toLower =
          [x].map Char.toLower := by
        rw [lowerAt_kelvin, List.map_singleton, List.map_singleton, hx]
        rfl
      have hkelvin := (h u [x] w _ (by simpa using heq) (by decide)).mpr hmatch
      have hlt := hascii x hmem
      rw [List.singleton_inj.mp hkelvin] at hlt
      exact absurd hlt (by decide)
    exact ⟨hnone 'k' (by decide), hnone 'K' (by decide)⟩
  · rintro ⟨hk, hK⟩ u v w c rfl hc
    have hv : ∀ x ∈ v, x.toNat < 0x80 := fun x hx => hascii x (by simp [hx])
    constructor
    · rintro rfl
      have := hv c List.mem_cons_self
      omega
    · intro hmatch
      have hform : lowerAt u.reverse c w = ['k'] := by
        refine lowerAt_eq_k hc fun x hx => ?_
        by_contra hbeyond
        have hmem : x ∈ v.map Char.toLower := by
          rw [← hmatch, ← toLower_of_le (Nat.le_of_not_lt hbeyond)]
          exact List.mem_map_of_mem hx
        obtain ⟨y, hy, rfl⟩ := List.mem_map.mp hmem
        exact hbeyond (toNat_toLower_lt (hv y hy))
      rw [hform] at hmatch
      obtain ⟨y, rfl, hy⟩ := List.map_eq_singleton_iff.mp hmatch.symm
      rcases eq_k_of_toLower hy with rfl | rfl
      · exact absurd (by simp) hk
      · exact absurd (by simp) hK

end Text

namespace Catalog

variable {c : Catalog} {p : Profile} {query : String}

/-- Whatever would be refused as a repetition of the name of a profile finds a profile. -/
def FindsInAnyCase (c : Catalog) (p : Profile) : Prop :=
  ∀ query, Text.lowercase query = Text.lowercase p.name → ∃ found, c.find? query = some found

/-- Under another case of a name its profile is found, or none. -/
theorem WellFormed.find?_of_lowercase_eq (h : c.WellFormed) (hp : p ∈ c.languages)
    (hname : Text.lowercase query = Text.lowercase p.name) :
    c.find? query = if Text.sameIgnoringAsciiCase p.name query then some p else none := by
  split
  · next hfits => exact h.find?_eq_some_iff.mpr ⟨hp, hfits⟩
  · next hfits =>
    refine Option.eq_none_iff_forall_ne_some.mpr fun found hfound => hfits ?_
    obtain ⟨hmem, hsame⟩ := h.find?_eq_some_iff.mp hfound
    have hlower := (Text.lowercase_eq_of_same hsame).trans hname
    rwa [h.eq_of_lowercase_eq hmem hp hlower] at hsame

theorem WellFormed.findsInAnyCase_iff (h : c.WellFormed) (hp : p ∈ c.languages) :
    c.FindsInAnyCase p ↔ Text.OnlyAsciiCased p.name.toList := by
  rw [← Text.forall_same_iff]
  refine forall₂_congr fun query hname => ?_
  rw [h.find?_of_lowercase_eq hp hname]
  split
  · next hfits => simp [hfits]
  · next hfits => simp [hfits]

/-- **What is found under another case of a name.** In a catalog that was read, a query with the
lower-case form of a name finds the profile of that name if the two differ in the letters `A` to `Z`
alone, and nothing otherwise. All such queries find one exactly if the name has these letters alone
to change. For a name of ASCII characters this means that it has no `k`. -/
theorem find?_in_another_case {read : Toml.Reader} {document : String} {c : Catalog}
    (h : parse read document = .ok c) {p : Profile} (hp : p ∈ c.languages) :
    (∀ query, Text.lowercase query = Text.lowercase p.name →
      c.find? query = if Text.sameIgnoringAsciiCase p.name query then some p else none) ∧
    (c.FindsInAnyCase p ↔ Text.OnlyAsciiCased p.name.toList) ∧
    ((∀ x ∈ p.name.toList, x.toNat < 0x80) →
      (c.FindsInAnyCase p ↔ 'k' ∉ p.name.toList ∧ 'K' ∉ p.name.toList)) := by
  have hwell := wellFormed_of_parse h
  have hiff := hwell.findsInAnyCase_iff hp
  refine ⟨fun query => hwell.find?_of_lowercase_eq hp, hiff, fun hascii => ?_⟩
  rw [hiff, Text.onlyAsciiCased_iff_of_ascii hascii]

end Catalog

namespace Sample

/-- A language that is named by a letter beyond ASCII, and one with nothing to confuse. -/
def accentDocument : String :=
  "[[language]]\nname = \"É\"\n[[language]]\nname = \"Pascal\"\n"

/-- What the document says. -/
def accentCatalog : Catalog where
  languages := [{ name := "É" }, { name := "Pascal" }]

theorem parse_accentDocument : Catalog.parse Toml.read? accentDocument = .ok accentCatalog := by
  decide +kernel

theorem lowercase_accent : Text.lowercase "é" = Text.lowercase "É" := by
  decide +kernel

/-- What repeats a name need not find it: as a name `é` would be refused, as a query it finds
nothing. -/
theorem not_findsInAnyCase_accent :
    Catalog.parse Toml.read? accentDocument = .ok accentCatalog ∧
      ¬ ∀ p ∈ accentCatalog.languages, accentCatalog.FindsInAnyCase p := by
  refine ⟨parse_accentDocument, fun h => ?_⟩
  obtain ⟨found, hfound⟩ := h _ List.mem_cons_self "é" lowercase_accent
  have hnone : accentCatalog.find? "é" = none := by decide +kernel
  rw [hnone] at hfound
  cases hfound

theorem find?_in_another_case_accent :
    Catalog.parse Toml.read? accentDocument = .ok accentCatalog ∧
      accentCatalog.find? "é" = none ∧
      accentCatalog.FindsInAnyCase { name := "Pascal" } := by
  obtain ⟨hfind, -, -⟩ :=
    Catalog.find?_in_another_case parse_accentDocument (p := { name := "É" }) (by decide)
  obtain ⟨-, -, hascii⟩ :=
    Catalog.find?_in_another_case parse_accentDocument (p := { name := "Pascal" }) (by decide)
  refine ⟨parse_accentDocument, ?_, (hascii (by simp)).mpr (by decide)⟩
  rw [hfind "é" lowercase_accent, if_neg (by decide +kernel)]

end Sample

end DeclOutline
