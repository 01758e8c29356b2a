import DeclOutline.Proofs.ByteOrder
import DeclOutline.Proofs.Keywords

/-!
# The first fault of a catalog

Any number of things can be wrong with a catalog at once, and one is reported. Both its profiles
and their keywords are checked in order, so it is the fault of the first element that has any. For
profiles this is the order of the document. Keywords are kept in the order of their bytes, so there
it is the smallest keyword at fault, and what it repeats is a smaller one.

Whether two keywords are the same is decided after folding, and whether one is smaller before.

## Main definitions

* `Profile.WellFormed`, `Profile.KeywordFault`, `Profile.FirstFault` — faults of a profile
* `Catalog.WellFormed`, `Catalog.FirstFault` — faults of a catalog

## Main results

* `Profile.validate_eq_error_iff`, `Profile.validate_eq_ok_iff` — what the check of a profile
  reports and accepts
* `Catalog.parse_reports` — the same of a catalog that is read
-/

namespace DeclOutline

/-! ### Keywords -/

namespace Profile

open KeywordTable (foldWord)

/-- A profile is well formed: its name is not blank, no keyword is blank, and no two keywords fold
to the same form. -/
structure WellFormed (p : Profile) : Prop where
  name : Text.isBlank p.name = false
  keywords : ∀ word ∈ p.keywords.words, Text.isBlank word = false
  folds : p.keywords.words.Pairwise fun v w =>
    foldWord p.caseSensitive v ≠ foldWord p.caseSensitive w

/-- What is wrong with a keyword: it is blank, or else folds to what a smaller one folds to. -/
inductive KeywordFault (p : Profile) (word : String) : ProfileError → Prop
  | blank (h : Text.isBlank word = true) : KeywordFault p word (.emptyKeyword p.name)
  | again (hblank : Text.isBlank word = false)
    (h : ∃ smaller ∈ p.keywords.words, Text.bytes smaller < Text.bytes word ∧
      foldWord p.caseSensitive smaller = foldWord p.caseSensitive word) :
    KeywordFault p word (.duplicateKeyword p.name word)

/-- What is first wrong with a profile: that its name is blank, or else what is wrong with the
smallest keyword that has a fault. -/
inductive FirstFault (p : Profile) : ProfileError → Prop
  | name (h : Text.isBlank p.name = true) : FirstFault p .emptyName
  | keyword {word : String} {fault : ProfileError} (hname : Text.isBlank p.name = false)
    (hword : word ∈ p.keywords.words) (h : p.KeywordFault word fault)
    (hsmaller : ∀ smaller ∈ p.keywords.words, Text.bytes smaller < Text.bytes word →
      ∀ other, ¬ p.KeywordFault smaller other) : FirstFault p fault

/-- A keyword has a fault of its own: it is blank. -/
def BlankKeyword (p : Profile) (word : String) (fault : ProfileError) : Prop :=
  Text.isBlank word = true ∧ fault = .emptyKeyword p.name

/-- What is wrong with a keyword after the ones before it is what is wrong with it at all. -/
theorem faultAfter_iff_keywordFault {p : Profile} {before after : List String} {word : String}
    {fault : ProfileError} (h : p.keywords.words = before ++ word :: after) :
    FaultAfter p.BlankKeyword (foldWord p.caseSensitive) (.duplicateKeyword p.name) before word
        fault ↔
      p.KeywordFault word fault := by
  constructor
  · rintro (⟨hblank, rfl⟩ | ⟨hown, smaller, hbefore, hfold⟩)
    · exact .blank hblank
    · have hblank : Text.isBlank word = false :=
        Bool.eq_false_iff.mpr fun hblank => hown _ ⟨hblank, rfl⟩
      obtain ⟨hmem, hlt⟩ := (WordMap.mem_before_iff h).mp hbefore
      exact .again hblank ⟨smaller, hmem, hlt, hfold⟩
  · rintro (hblank | ⟨hblank, smaller, hmem, hlt, hfold⟩)
    · exact .own ⟨hblank, rfl⟩
    · have hown : ∀ fault, ¬ p.BlankKeyword word fault := by
        rintro fault ⟨hword, -⟩
        rw [hblank] at hword
        contradiction
      exact .again hown ⟨smaller, (WordMap.mem_before_iff h).mpr ⟨hmem, hlt⟩, hfold⟩

/-- The first keyword with a fault is the smallest one. -/
theorem firstFaultIn_words_iff {p : Profile} {fault : ProfileError} :
    FirstFaultIn p.BlankKeyword (foldWord p.caseSensitive) (.duplicateKeyword p.name) []
        p.keywords.words fault ↔
      ∃ word ∈ p.keywords.words, p.KeywordFault word fault ∧
        ∀ smaller ∈ p.keywords.words, Text.bytes smaller < Text.bytes word →
          ∀ other, ¬ p.KeywordFault smaller other := by
  constructor
  · rintro ⟨before, word, after, hsplit, hfault, hnone⟩
    have hword : word ∈ p.keywords.words := hsplit ▸ List.mem_append_right _ List.mem_cons_self
    refine ⟨word, hword, (faultAfter_iff_keywordFault hsplit).mp hfault, ?_⟩
    intro smaller hmem hlt other hother
    obtain ⟨earlier, between, rfl⟩ :=
      List.append_of_mem ((WordMap.mem_before_iff hsplit).mpr ⟨hmem, hlt⟩)
    rw [List.append_assoc, List.cons_append] at hsplit
    exact hnone earlier smaller between rfl other
      ((faultAfter_iff_keywordFault hsplit).mpr hother)
  · rintro ⟨word, hword, hfault, hsmaller⟩
    obtain ⟨before, after, hsplit⟩ := List.append_of_mem hword
    refine ⟨before, word, after, hsplit, (faultAfter_iff_keywordFault hsplit).mpr hfault, ?_⟩
    -- a keyword before this one is smaller, and its own front part is that of a split of all words
    rintro earlier other between rfl fault' hfault'
    have hother : other ∈ earlier ++ other :: between :=
      List.mem_append_right _ List.mem_cons_self
    obtain ⟨hmem, hlt⟩ := (WordMap.mem_before_iff hsplit).mp hother
    rw [List.append_assoc, List.cons_append] at hsplit
    exact hsmaller other hmem hlt fault' ((faultAfter_iff_keywordFault hsplit).mp hfault')

theorem checkKeywords_eq_error_iff {p : Profile} {fault : ProfileError} :
    p.checkKeywords [] p.keywords.words = .error fault ↔
      FirstFaultIn p.BlankKeyword (foldWord p.caseSensitive) (.duplicateKeyword p.name) []
        p.keywords.words fault := by
  rw [checkKeywords_eq_checkInOrder]
  refine checkInOrder_eq_error_iff (fun word fault => ?_) []
  by_cases hblank : Text.isBlank word = true
  · rw [if_pos hblank]
    constructor
    · rintro ⟨⟩
      exact ⟨hblank, rfl⟩
    · rintro ⟨-, rfl⟩
      rfl
  · rw [if_neg hblank]
    constructor
    · intro h
      cases h
    · rintro ⟨hblank', -⟩
      exact absurd hblank' hblank

/-- **The first fault of a profile is the one reported.** -/
theorem validate_eq_error_iff {p : Profile} {fault : ProfileError} :
    p.validate = .error fault ↔ p.FirstFault fault := by
  rw [validate]
  by_cases hname : Text.isBlank p.name = true
  · rw [if_pos hname]
    constructor
    · rintro ⟨⟩
      exact .name hname
    · rintro (_ | hname')
      · rfl
      · rw [hname] at hname'
        contradiction
  · rw [if_neg hname, checkKeywords_eq_error_iff, firstFaultIn_words_iff]
    constructor
    · rintro ⟨word, hword, hfault, hsmaller⟩
      exact .keyword (Bool.eq_false_iff.mpr hname) hword hfault hsmaller
    · rintro (hname' | ⟨_, hword, hfault, hsmaller⟩)
      · exact absurd hname' hname
      · exact ⟨_, hword, hfault, hsmaller⟩

/-- A profile is accepted exactly if it is well formed. -/
theorem validate_eq_ok_iff {p : Profile} : p.validate = .ok () ↔ p.WellFormed := by
  rw [validate]
  by_cases hname : Text.isBlank p.name = true
  · rw [if_pos hname]
    constructor
    · intro h
      cases h
    · intro h
      rw [h.name] at hname
      contradiction
  · rw [if_neg hname, checkKeywords_eq_ok_iff, List.Nodup, List.pairwise_map]
    constructor
    · rintro ⟨hkeywords, hfolds, -⟩
      exact ⟨Bool.eq_false_iff.mpr hname, hkeywords, hfolds⟩
    · intro h
      exact ⟨h.keywords, h.folds, fun _ _ => List.not_mem_nil⟩

end Profile

/-! ### Catalogs -/

namespace Catalog

/-- A catalog is well formed: its profiles are, and no two have the same name in lower case. -/
structure WellFormed (c : Catalog) : Prop where
  profiles : ∀ p ∈ c.languages, p.WellFormed
  names : c.languages.Pairwise fun p q => Text.lowercase p.name ≠ Text.lowercase q.name

/-- What is first wrong with a catalog: what is first wrong with the first profile at fault, or
else that this profile has the name of an earlier one in lower case. -/
def FirstFault (c : Catalog) (fault : ProfileError) : Prop :=
  FirstFaultIn Profile.FirstFault (fun p => Text.lowercase p.name)
    (fun p => .duplicateLanguage p.name) [] c.languages fault

theorem validate_eq_error_iff {c : Catalog} {fault : ProfileError} :
    c.validate = .error fault ↔ c.FirstFault fault := by
  rw [validate, checkLanguages_eq_checkInOrder]
  exact checkInOrder_eq_error_iff (fun _ _ => Profile.validate_eq_error_iff) []

theorem validate_eq_ok_iff {c : Catalog} : c.validate = .ok () ↔ c.WellFormed := by
  rw [validate, checkLanguages_eq_checkInOrder, checkInOrder_eq_ok_iff]
  simp only [Profile.validate_eq_ok_iff]
  exact ⟨fun h => ⟨h.1, h.2.1⟩, fun h => ⟨h.profiles, h.names, fun _ _ => List.not_mem_nil⟩⟩

/-- **The first fault of a catalog is the one reported.** Whatever profiles a document gives, it is
accepted exactly if they are well formed. It fails exactly if they are not, and then with the first
fault in the order of the document. -/
theorem parse_reports {read : Toml.Reader} {document : String} {c : Catalog}
    (h : (read document).bind ofTable? = some c) :
    (parse read document = .ok c ↔ c.WellFormed) ∧
    ((∃ fault, parse read document = .error fault) ↔ ¬ c.WellFormed) ∧
    ∀ fault, parse read document = .error fault ↔ c.FirstFault fault := by
  have hrun : parse read document = c.validate.map fun _ => c := by
    rw [parse, h]
    rfl
  rw [hrun, ← validate_eq_ok_iff]
  simp only [← validate_eq_error_iff]
  cases c.validate with
  | ok _ => simp [Except.map]
  | error fault => simp [Except.map]

end Catalog

namespace Sample

/-- Three languages, of which the first is as it should be. The second has the same name in lower
case, two keywords that fold to the same form and a larger one that is blank, and the third has a
blank name. -/
def faultyDocument : String :=
  "[[language]]\nname = \"ΣΑΣ\"\n" ++
    "[[language]]\nname = \"σας\"\ncase_sensitive = false\n[language.access_keywords]\n" ++
    "\"\u3000\" = \"public\"\n\"é\" = \"public\"\n\"É\" = \"private\"\n" ++
    "[[language]]\nname = \" \"\n"

/-- What the document says. -/
def faultyCatalog : Catalog where
  languages := [
    { name := "ΣΑΣ" },
    { name := "σας", caseSensitive := false,
      keywords := ⟨[("É", .owner), ("é", .everyone), ("\u3000", .everyone)], by decide⟩ },
    { name := " " }]

/-- The keyword is reported, rather than the name of its language or a later fault. -/
theorem parse_reports_repeatedKeyword :
    (Toml.read? faultyDocument).bind Catalog.ofTable? = some faultyCatalog ∧
      Catalog.parse Toml.read? faultyDocument = .error (.duplicateKeyword "σας" "é") ∧
      faultyCatalog.FirstFault (.duplicateKeyword "σας" "é") ∧ ¬ faultyCatalog.WellFormed := by
  have h : (Toml.read? faultyDocument).bind Catalog.ofTable? = some faultyCatalog := by
    decide +kernel
  have hrun : Catalog.parse Toml.read? faultyDocument = .error (.duplicateKeyword "σας" "é") := by
    rw [Catalog.parse, h]
    decide +kernel
  obtain ⟨-, hfails, hfirst⟩ := Catalog.parse_reports h
  exact ⟨h, hrun, (hfirst _).mp hrun, hfails.mp ⟨_, hrun⟩⟩

end Sample

end DeclOutline
