/-!
# Maps from words

A finite map from words, held as a list of entries in strictly increasing order of the words. The
order is that of code points, which is also the order of the bytes of the words, and it is part of
the type: two maps with the same entries are equal, and visiting the entries in order is visiting
the words in order.
-/

namespace DeclOutline

/-- A finite map from words, in the order of the words. -/
structure WordMap (α : Type) where
  entries : List (String × α)
  sorted : entries.Pairwise fun a b => a.1 < b.1
deriving DecidableEq

namespace WordMap

variable {α : Type}

/-- The map without entries. -/
def empty : WordMap α :=
  ⟨[], .nil⟩

/-- Sets the value of a word in a list of entries. -/
def put (word : String) (value : α) : List (String × α) → List (String × α)
  | [] => [(word, value)]
  | entry :: rest =>
    if word < entry.1 then (word, value) :: entry :: rest
    else if word = entry.1 then (word, value) :: rest
    else entry :: put word value rest

theorem mem_put {word : String} {value : α} {a : String × α} {es : List (String × α)}
    (h : a ∈ put word value es) : a = (word, value) ∨ a ∈ es := by
  induction es with
  | nil => simpa [put] using h
  | cons entry rest ih =>
    simp only [put] at h
    split at h
    · simpa using h
    · split at h
      · rcases List.mem_cons.mp h with h | h
        · exact .inl h
        · exact .inr (List.mem_cons_of_mem _ h)
      · rcases List.mem_cons.mp h with h | h
        · exact .inr (h ▸ List.mem_cons_self ..)
        · exact (ih h).imp id (List.mem_cons_of_mem _)

theorem sorted_put (word : String) (value : α) {es : List (String × α)}
    (h : es.Pairwise fun a b => a.1 < b.1) :
    (put word value es).Pairwise fun a b => a.1 < b.1 := by
  induction es with
  | nil => simp [put]
  | cons entry rest ih =>
    obtain ⟨hhead, hrest⟩ := List.pairwise_cons.mp h
    simp only [put]
    split
    next hlt =>
      refine List.pairwise_cons.mpr ⟨fun a ha => ?_, h⟩
      rcases List.mem_cons.mp ha with rfl | ha
      · exact hlt
      · exact String.lt_trans hlt (hhead a ha)
    next hge =>
      split
      next heq => exact List.pairwise_cons.mpr ⟨fun a ha => heq ▸ hhead a ha, hrest⟩
      next hne =>
        refine List.pairwise_cons.mpr ⟨fun a ha => ?_, ih hrest⟩
        rcases mem_put ha with rfl | ha
        · refine Decidable.byContradiction fun hn => hne ?_
          exact String.le_antisymm (String.not_lt.mp hn) (String.not_lt.mp hge)
        · exact hhead a ha

/-- The map with a word set to a value. -/
def insert (m : WordMap α) (word : String) (value : α) : WordMap α :=
  ⟨put word value m.entries, sorted_put word value m.sorted⟩

/-- The map of some entries, of which later ones win. -/
def ofList (es : List (String × α)) : WordMap α :=
  es.foldl (fun m (word, value) => m.insert word value) empty

/-- Whether there are no entries. -/
def isEmpty (m : WordMap α) : Bool :=
  m.entries.isEmpty

/-- The words of the map, in order. -/
def words (m : WordMap α) : List String :=
  m.entries.map Prod.fst

/-- No word has two entries. -/
theorem nodup_words (m : WordMap α) : m.words.Nodup := by
  refine (List.pairwise_map.mpr m.sorted).imp fun {a b} h => ?_
  rintro rfl
  exact String.lt_irrefl _ h

theorem ext {m n : WordMap α} (h : m.entries = n.entries) : m = n := by
  cases m
  cases n
  congr

end WordMap

end DeclOutline
