import DeclOutline.Proofs.Checks
import Mathlib.Data.List.Nodup

/-!
# A checked profile loses no keyword

A keyword is folded in three places: when a profile is checked, when the keyword enters the table,
and when a word is looked up. The table keeps one level for each folded form, so an entry that folds
to what an earlier one does takes its place without a trace. A profile that passed its check has no
two such keywords, and then the table is the profile's declaration and nothing else: it has as many
entries, and a word has the level of the keyword that folds to the same form.

## Main definitions

* `KeywordTable.Holds` — a table holds some declared keywords, and nothing else

## Main results

* `KeywordTable.lookup?_insert` — what one keyword changes
* `KeywordTable.Holds.insert`, `KeywordTable.Holds.insertAll` — one more keyword, and many
* `Profile.table_holds_declared` — the table of a profile that was read
-/

namespace DeclOutline

namespace KeywordTable

variable {k : KeywordTable} {declared words : List (String × AccessLevel)}

/-! ### One keyword -/

@[simp] theorem caseSensitive_insert (k : KeywordTable) (word : String) (level : AccessLevel) :
    (k.insert word level).caseSensitive = k.caseSensitive := rfl

theorem insertAll_cons (k : KeywordTable) (word : String) (level : AccessLevel)
    (words : List (String × AccessLevel)) :
    k.insertAll ((word, level) :: words) = (k.insert word level).insertAll words := rfl

theorem caseSensitive_insertAll (k : KeywordTable) (words : List (String × AccessLevel)) :
    (k.insertAll words).caseSensitive = k.caseSensitive := by
  induction words generalizing k with
  | nil => rfl
  | cons d words ih => rw [insertAll_cons, ih, caseSensitive_insert]

/-- Leaving out entries of another key does not change what a key has. -/
theorem lookup_filter_ne {key other : String} (h : key ≠ other)
    (entries : List (String × AccessLevel)) :
    (entries.filter fun entry => entry.1 != other).lookup key = entries.lookup key := by
  induction entries with
  | nil => rfl
  | cons entry entries ih =>
    obtain ⟨first, level⟩ := entry
    by_cases hother : first = other
    · have hkey : (key == first) = false := by simpa [hother] using h
      rw [List.filter_cons_of_neg (by simp [hother]), ih, List.lookup_cons, hkey]
    · rw [List.filter_cons_of_pos (by simpa using hother), List.lookup_cons, List.lookup_cons, ih]

/-- A keyword that is given a level has it, and so has every word that folds to the same form. No
other word is affected. -/
theorem lookup?_insert (k : KeywordTable) (word : String) (level : AccessLevel) (query : String) :
    (k.insert word level).lookup? query =
      if foldWord k.caseSensitive word = foldWord k.caseSensitive query then some level
      else k.lookup? query := by
  rw [lookup?, caseSensitive_insert, insert, List.lookup_cons]
  split
  · next heq =>
    have heq' : foldWord k.caseSensitive query = foldWord k.caseSensitive word := by simpa using heq
    rw [if_pos heq'.symm]
  · next hne =>
    have hne' : foldWord k.caseSensitive query ≠ foldWord k.caseSensitive word := by simpa using hne
    rw [if_neg hne'.symm, lookup_filter_ne hne']
    rfl

/-- A keyword that no entry folds to is one entry more. -/
theorem size_insert {word : String} (h : k.lookup? word = none) (level : AccessLevel) :
    (k.insert word level).size = k.size + 1 := by
  have hnew : ∀ entry ∈ k.entries, (entry.1 != foldWord k.caseSensitive word) = true := by
    intro entry hentry
    exact bne_comm.trans (List.lookup_eq_none_iff.mp h entry hentry)
  rw [size, insert, List.length_cons, List.filter_eq_self.mpr hnew]
  rfl

/-! ### Declared keywords -/

/-- A table holds declared keywords: it has as many entries, and a word has a level exactly if a
keyword of that level folds to the same form. -/
structure Holds (k : KeywordTable) (declared : List (String × AccessLevel)) : Prop where
  size : k.size = declared.length
  lookup? : ∀ query level, k.lookup? query = some level ↔
    ∃ word, (word, level) ∈ declared ∧
      foldWord k.caseSensitive word = foldWord k.caseSensitive query

theorem holds_nil (caseSensitive : Bool) : Holds { caseSensitive } [] :=
  ⟨rfl, by simp [KeywordTable.lookup?]⟩

/-- **One more keyword.** If no declared keyword folds to the same form, none is lost. -/
theorem Holds.insert (h : k.Holds declared) {word : String} (level : AccessLevel)
    (hnew : ∀ d ∈ declared, foldWord k.caseSensitive d.1 ≠ foldWord k.caseSensitive word) :
    (k.insert word level).Holds (declared ++ [(word, level)]) := by
  constructor
  · have hnone : k.lookup? word = none := by
      rw [Option.eq_none_iff_forall_not_mem]
      intro found hfound
      obtain ⟨other, hother, hfold⟩ := (h.lookup? word found).mp hfound
      exact hnew (other, found) hother hfold
    rw [size_insert hnone, h.size, List.length_append]
    rfl
  · intro query found
    rw [lookup?_insert, caseSensitive_insert]
    constructor
    · intro hfound
      split at hfound
      · next hfold =>
        obtain rfl := Option.some.inj hfound
        exact ⟨word, List.mem_append_right _ List.mem_cons_self, hfold⟩
      · obtain ⟨other, hother, hfold⟩ := (h.lookup? query found).mp hfound
        exact ⟨other, List.mem_append_left _ hother, hfold⟩
    · rintro ⟨other, hother, hfold⟩
      rcases List.mem_append.mp hother with hother | hother
      · -- an earlier keyword answers, and the new one folds to another form
        rw [if_neg fun heq => hnew _ hother (hfold.trans heq.symm)]
        exact (h.lookup? query found).mpr ⟨other, hother, hfold⟩
      · obtain ⟨rfl, rfl⟩ := Prod.mk.inj (List.mem_singleton.mp hother)
        rw [if_pos hfold]

/-- **Many keywords.** Keywords that fold to different forms are all held. -/
theorem Holds.insertAll (h : k.Holds declared)
    (hnodup : ((declared ++ words).map fun d => foldWord k.caseSensitive d.1).Nodup) :
    (k.insertAll words).Holds (declared ++ words) := by
  induction words generalizing k declared with
  | nil => rwa [List.append_nil]
  | cons d words ih =>
    obtain ⟨word, level⟩ := d
    have hnew : ∀ d ∈ declared,
        foldWord k.caseSensitive d.1 ≠ foldWord k.caseSensitive word := by
      intro d hd heq
      rw [List.map_append, List.nodup_append] at hnodup
      exact hnodup.2.2 _ (List.mem_map_of_mem hd) _ List.mem_cons_self heq
    have hassoc : declared ++ (word, level) :: words = declared ++ [(word, level)] ++ words := by
      simp
    rw [hassoc] at hnodup ⊢
    rw [insertAll_cons]
    exact ih (h.insert level hnew) hnodup

end KeywordTable

/-! ### What a profile declares -/

namespace Profile

open KeywordTable (foldWord)

/-- The keywords of a profile that passed its check fold to different forms. -/
theorem nodup_of_validate {p : Profile} (h : p.validate = .ok ()) :
    (p.keywords.entries.map fun d => foldWord p.caseSensitive d.1).Nodup := by
  rw [validate] at h
  split at h
  · simp at h
  · have hnodup := ((p.checkKeywords_eq_ok_iff [] p.keywords.words).mp h).2.1
    rwa [WordMap.words, List.map_map] at hnodup

/-- The usual keywords are in lower case, and so fold to themselves. -/
theorem nodup_usual (caseSensitive : Bool) :
    (KeywordTable.usual.map fun d => foldWord caseSensitive d.1).Nodup := by
  cases caseSensitive <;> decide

/-- A table of keywords that fold to different forms holds them. -/
theorem holds_table {p : Profile}
    (h : (p.tableWords.map fun d => foldWord p.caseSensitive d.1).Nodup) :
    p.table.Holds p.tableWords :=
  (KeywordTable.holds_nil p.caseSensitive).insertAll h

/-- **A checked profile loses no keyword.** The table of a profile that was read folds as the
profile says, and holds the keywords that the profile declares. If it declares none, it holds the
usual ones. -/
theorem table_holds_declared {read : Toml.Reader} {document : String} {p : Profile}
    (h : parse read document = .ok p) :
    p.table.caseSensitive = p.caseSensitive ∧
    (p.keywords.entries ≠ [] → p.table.Holds p.keywords.entries) ∧
    (p.keywords.entries = [] → p.table.Holds
      [("public", .everyone), ("private", .owner), ("protected", .family),
       ("internal", .assembly)]) := by
  have hvalid := (checked_eq_ok_iff.mp h).2
  refine ⟨KeywordTable.caseSensitive_insertAll _ _, fun hne => ?_, fun hnil => ?_⟩
  · have hwords : p.tableWords = p.keywords.entries := by
      simp [tableWords, WordMap.isEmpty, hne]
    rw [← hwords]
    exact holds_table (hwords ▸ nodup_of_validate hvalid)
  · have hwords : p.tableWords = KeywordTable.usual := by
      simp [tableWords, WordMap.isEmpty, hnil]
    show p.table.Holds KeywordTable.usual
    rw [← hwords]
    exact holds_table (hwords ▸ nodup_usual p.caseSensitive)

end Profile

namespace Sample

/-- A language that does not tell upper from lower case. A sigma at the end of a keyword has a
lower-case form of its own. -/
def foldedDocument : String :=
  "name = \"D\"\ncase_sensitive = false\n[access_keywords]\nPUBLIC = \"public\"\n" ++
    "\"ΜΕΛΟΣ\" = \"private\"\n"

/-- What the document says. -/
def foldedProfile : Profile where
  name := "D"
  caseSensitive := false
  keywords := ⟨[("PUBLIC", .everyone), ("ΜΕΛΟΣ", .owner)], by decide⟩

theorem table_holds_declared_folded :
    Profile.parse Toml.read? foldedDocument = .ok foldedProfile ∧
      foldedProfile.table.size = 2 ∧ foldedProfile.table.lookup? "Μελος" = some .owner := by
  have h : Profile.parse Toml.read? foldedDocument = .ok foldedProfile := by decide +kernel
  have hholds := (Profile.table_holds_declared h).2.1 (by decide)
  have hfold : KeywordTable.foldWord false "ΜΕΛΟΣ" = KeywordTable.foldWord false "Μελος" := by
    decide +kernel
  exact ⟨h, hholds.size, (hholds.lookup? _ _).mpr ⟨"ΜΕΛΟΣ", by decide, hfold⟩⟩

end Sample

end DeclOutline
