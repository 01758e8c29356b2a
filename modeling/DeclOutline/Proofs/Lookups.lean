import DeclOutline.Proofs.FirstFaults
import DeclOutline.Proofs.LetterCase

/-!
# Looking up a language

The names of a catalog are told apart by one rule and looked up by another. When a catalog is
checked, names are the same if they have the same lower-case form, by the rules of Unicode. When a
language is looked up, a name fits if it differs from the query in the case of the letters `A` to
`Z` alone. What fits by the second rule is the same by the first, a sigma at the end of a word and
all. So in a catalog that passed its check one profile at most fits a query, and the first one that
does is the only one, in whatever order the profiles come.

## Main results

* `Text.lowercase_eq_of_same` — the second rule is the stricter one
* `Catalog.WellFormed.find?_eq_some_iff` — what is found in a well-formed catalog
* `Catalog.find?_unambiguous` — lookups in a catalog that was read
-/

namespace DeclOutline

namespace Text

theorem same_refl (s : String) : sameIgnoringAsciiCase s s = true := by
  simp [sameIgnoringAsciiCase]

theorem same_iff {s t : String} :
    sameIgnoringAsciiCase s t = true ↔ s.toList.map Char.toLower = t.toList.map Char.toLower := by
  simp [sameIgnoringAsciiCase]

/-- Texts that differ in the case of the letters `A` to `Z` alone have the same lower-case form. -/
theorem lowercase_eq_of_same {s t : String} (h : sameIgnoringAsciiCase s t = true) :
    lowercase s = lowercase t := by
  rw [lowercase_eq_lowercase_iff, ← lowerBetween_map_toLower, same_iff.mp h,
    lowerBetween_map_toLower]

end Text

namespace Catalog

variable {c c' : Catalog} {p q : Profile} {query : String}

/-- A catalog that is read is well formed. -/
theorem wellFormed_of_parse {read : Toml.Reader} {document : String}
    (h : parse read document = .ok c) : c.WellFormed :=
  validate_eq_ok_iff.mp (checked_eq_ok_iff.mp h).2

/-- Profiles with the same name in lower case are one profile. -/
theorem WellFormed.eq_of_lowercase_eq (h : c.WellFormed) (hp : p ∈ c.languages)
    (hq : q ∈ c.languages) (hname : Text.lowercase p.name = Text.lowercase q.name) : p = q := by
  have hnodup : (c.languages.map fun p => Text.lowercase p.name).Nodup :=
    List.pairwise_map.mpr h.names
  exact List.inj_on_of_nodup_map hnodup hp hq hname

/-- Profiles whose names fit one query are one profile. -/
theorem WellFormed.eq_of_same (h : c.WellFormed) (hp : p ∈ c.languages) (hq : q ∈ c.languages)
    (hfits : Text.sameIgnoringAsciiCase p.name query = true)
    (hfits' : Text.sameIgnoringAsciiCase q.name query = true) : p = q :=
  h.eq_of_lowercase_eq hp hq
    ((Text.lowercase_eq_of_same hfits).trans (Text.lowercase_eq_of_same hfits').symm)

/-- What is found is one of the profiles, and fits. -/
theorem fits_of_find? (h : c.find? query = some p) :
    p ∈ c.languages ∧ Text.sameIgnoringAsciiCase p.name query = true :=
  ⟨List.mem_of_find?_eq_some h,
    List.find?_some (p := fun p : Profile => Text.sameIgnoringAsciiCase p.name query) h⟩

/-- What is found is the profile that fits. -/
theorem WellFormed.find?_eq_some_iff (h : c.WellFormed) :
    c.find? query = some p ↔
      p ∈ c.languages ∧ Text.sameIgnoringAsciiCase p.name query = true := by
  constructor
  · exact fits_of_find?
  · rintro ⟨hp, hfits⟩
    cases hfind : c.find? query with
    | none => exact absurd hfits (List.find?_eq_none.mp hfind p hp)
    | some q =>
      obtain ⟨hq, hfits'⟩ := fits_of_find? hfind
      rw [h.eq_of_same hq hp hfits' hfits]

/-- One profile at most fits a query. -/
theorem WellFormed.countP_le_one (h : c.WellFormed) (query : String) :
    c.languages.countP (fun p => Text.sameIgnoringAsciiCase p.name query) ≤ 1 := by
  rw [List.countP_eq_length_filter]
  have hnames := h.names.filter fun p => Text.sameIgnoringAsciiCase p.name query
  have hfits {p : Profile}
      (hp : p ∈ c.languages.filter fun p => Text.sameIgnoringAsciiCase p.name query) :
      Text.lowercase p.name = Text.lowercase query :=
    Text.lowercase_eq_of_same (List.mem_filter.mp hp).2
  -- the first two that fit would have different names in lower case
  cases hlist : c.languages.filter fun p => Text.sameIgnoringAsciiCase p.name query with
  | nil => exact Nat.zero_le 1
  | cons p rest =>
    cases rest with
    | nil => exact Nat.le_refl 1
    | cons q rest =>
      rw [hlist] at hnames hfits
      have hne := (List.pairwise_cons.mp hnames).1 q List.mem_cons_self
      have hq : q ∈ p :: q :: rest := List.mem_cons_of_mem p List.mem_cons_self
      exact absurd ((hfits List.mem_cons_self).trans (hfits hq).symm) hne

/-- A catalog stays well formed when its profiles are put in another order. -/
theorem WellFormed.perm (h : c.WellFormed) (hperm : c'.languages.Perm c.languages) :
    c'.WellFormed := by
  refine ⟨fun p hp => h.profiles p (hperm.mem_iff.mp hp), ?_⟩
  exact (hperm.pairwise_iff fun hne => hne.symm).mpr h.names

theorem WellFormed.find?_perm (h : c.WellFormed) (hperm : c'.languages.Perm c.languages)
    (query : String) : c'.find? query = c.find? query := by
  refine Option.ext fun p => ?_
  rw [(h.perm hperm).find?_eq_some_iff, h.find?_eq_some_iff, hperm.mem_iff]

/-- **Lookups are not ambiguous.** In a catalog that was read one profile at most fits a query. So
every profile is found by its own name, and the order of the profiles does not matter. -/
theorem find?_unambiguous {read : Toml.Reader} {document : String} {c : Catalog}
    (h : parse read document = .ok c) :
    (∀ query, c.languages.countP (fun p => Text.sameIgnoringAsciiCase p.name query) ≤ 1) ∧
    (∀ p ∈ c.languages, c.find? p.name = some p) ∧
    ∀ c' : Catalog, c'.languages.Perm c.languages → ∀ query, c'.find? query = c.find? query := by
  have hwell := wellFormed_of_parse h
  refine ⟨hwell.countP_le_one, fun p hp => ?_, fun c' hperm => hwell.find?_perm hperm⟩
  exact hwell.find?_eq_some_iff.mpr ⟨hp, Text.same_refl p.name⟩

end Catalog

namespace Sample

/-- Two languages whose names have a sigma, at the end of a word and not. -/
def sigmaDocument : String :=
  "[[language]]\nname = \"cΣ\"\ncase_sensitive = false\n[[language]]\nname = \"CΣC\"\n"

/-- What the document says. -/
def sigmaCatalog : Catalog where
  languages := [{ name := "cΣ", caseSensitive := false }, { name := "CΣC" }]

theorem find?_unambiguous_sigma :
    Catalog.parse Toml.read? sigmaDocument = .ok sigmaCatalog ∧
      sigmaCatalog.languages.countP (fun p => Text.sameIgnoringAsciiCase p.name "CΣ") ≤ 1 ∧
      sigmaCatalog.find? "cΣ" = some { name := "cΣ", caseSensitive := false } ∧
      Catalog.find? ⟨sigmaCatalog.languages.reverse⟩ "cΣc" = sigmaCatalog.find? "cΣc" := by
  have h : Catalog.parse Toml.read? sigmaDocument = .ok sigmaCatalog := by decide +kernel
  obtain ⟨hone, hown, hperm⟩ := Catalog.find?_unambiguous h
  exact ⟨h, hone _, hown _ List.mem_cons_self, hperm _ (List.reverse_perm _) _⟩

end Sample

end DeclOutline
