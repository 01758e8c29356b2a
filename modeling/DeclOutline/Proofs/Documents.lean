import DeclOutline.Proofs.FirstFaults
import DeclOutline.Proofs.Printing

/-!
# Profiles come back from their documents

A profile is printed as a document, and what is read from a text is taken for a profile. If printer
and reader keep what documents say, this gives the profile back. They need not keep the order of
keys: fields are looked up by name, and the keywords of a profile are in an order of their own. What
is read last is the profile itself, so that checking it finds what checking the profile finds.

Nothing else is asked of the printer and the reader. The ones that are at hand here are an instance.

## Main definitions

* `Profile.IsFault` — the faults that a check of a profile can find
* `Profile.RoundTrips` — a profile, or its fault, comes back from the profile's document

## Main results

* `WordMap.ofList_perm` — the order of entries does not matter to the map that they make
* `Profile.ofTable?_of_same` — the order of keys does not matter to the profile that is read
* `Profile.ofTable?_content` — what a profile's document says is the profile
* `Profile.roundTrips_of_faithful` — profiles come back
* `Profile.ofDocument_of_toDocument` — the same of the printer and the reader that run
-/

namespace DeclOutline

open Toml (Value Table)

/-! ### Maps from entries in any order -/

namespace WordMap

variable {α : Type}

theorem perm_put {word : String} {value : α} {es : List (String × α)}
    (h : word ∉ es.map Prod.fst) : (put word value es).Perm ((word, value) :: es) := by
  induction es with
  | nil => exact .refl _
  | cons e es ih =>
    obtain ⟨hne, hes⟩ : word ≠ e.1 ∧ word ∉ es.map Prod.fst := by simpa using h
    rw [put, if_neg hne]
    split
    · exact .refl _
    · exact ((ih hes).cons e).trans (.swap _ _ _)

/-- Entries whose words are all different are all kept. -/
theorem perm_entries_foldl_insert {m : WordMap α} {es : List (String × α)}
    (h : ((m.entries ++ es).map Prod.fst).Nodup) :
    (es.foldl (fun m (word, value) => m.insert word value) m).entries.Perm (m.entries ++ es) := by
  induction es generalizing m with
  | nil => rw [List.foldl_nil, List.append_nil]
  | cons e es ih =>
    have hnew : e.1 ∉ m.entries.map Prod.fst := by
      rw [List.map_append, List.nodup_append] at h
      exact fun hmem => h.2.2 e.1 hmem e.1 List.mem_cons_self rfl
    have hput : (m.insert e.1 e.2).entries.Perm (e :: m.entries) := perm_put hnew
    have hmove : ((m.insert e.1 e.2).entries ++ es).Perm (m.entries ++ e :: es) :=
      (hput.append_right es).trans List.perm_middle.symm
    exact (ih ((hmove.map Prod.fst).nodup_iff.mpr h)).trans hmove

theorem perm_entries_ofList {es : List (String × α)} (h : (es.map Prod.fst).Nodup) :
    (ofList es).entries.Perm es :=
  perm_entries_foldl_insert (m := empty) h

/-- Maps with the same entries in some order are equal, because both are in order. -/
theorem eq_of_perm {m n : WordMap α} (h : m.entries.Perm n.entries) : m = n := by
  refine ext (h.eq_of_pairwise ?_ m.sorted n.sorted)
  intro a b _ _ hab hba
  exact absurd (String.lt_trans hab hba) (String.lt_irrefl _)

/-- **The order of entries does not matter.** -/
theorem ofList_perm {es fs : List (String × α)} (hperm : es.Perm fs)
    (h : (es.map Prod.fst).Nodup) : ofList es = ofList fs := by
  have h' : (fs.map Prod.fst).Nodup := (hperm.map Prod.fst).nodup_iff.mp h
  exact eq_of_perm ((perm_entries_ofList h).trans (hperm.trans (perm_entries_ofList h').symm))

/-- Entries of a map make the map. -/
theorem ofList_entries (m : WordMap α) : ofList m.entries = m :=
  eq_of_perm (perm_entries_ofList m.nodup_words)

end WordMap

/-! ### Profiles from keys in any order -/

theorem mapM_cons_eq_some {α β : Type} {f : α → Option β} {x : α} {xs : List α} {us : List β} :
    (x :: xs).mapM f = some us ↔ ∃ v vs, f x = some v ∧ xs.mapM f = some vs ∧ v :: vs = us := by
  simp [List.mapM_cons, Option.bind_eq_some_iff]

/-- Reading a list in another order gives the results in another order. -/
theorem mapM_perm {α β : Type} {f : α → Option β} {xs ys : List α} (hperm : xs.Perm ys)
    {us : List β} (h : xs.mapM f = some us) : ∃ vs, ys.mapM f = some vs ∧ us.Perm vs := by
  induction hperm generalizing us with
  | nil => exact ⟨us, h, .refl us⟩
  | cons x _ ih =>
    obtain ⟨v, vs, hv, hvs, rfl⟩ := mapM_cons_eq_some.mp h
    obtain ⟨ws, hws, hperm⟩ := ih hvs
    exact ⟨v :: ws, mapM_cons_eq_some.mpr ⟨v, ws, hv, hws, rfl⟩, hperm.cons v⟩
  | swap x y xs =>
    obtain ⟨v, vs, hv, hvs, rfl⟩ := mapM_cons_eq_some.mp h
    obtain ⟨w, ws, hw, hws, rfl⟩ := mapM_cons_eq_some.mp hvs
    have hrest := mapM_cons_eq_some.mpr ⟨v, ws, hv, hws, rfl⟩
    exact ⟨w :: v :: ws, mapM_cons_eq_some.mpr ⟨w, v :: ws, hw, hrest, rfl⟩, .swap w v ws⟩
  | trans _ _ ih ih' =>
    obtain ⟨vs, hvs, hperm⟩ := ih h
    obtain ⟨ws, hws, hperm'⟩ := ih' hvs
    exact ⟨ws, hws, hperm.trans hperm'⟩

/-- Keywords are read one by one. -/
theorem keys_of_mapM {α β : Type} {f : α → Option β} {es : List (String × α)}
    {us : List (String × β)} (h : (es.mapM fun e => (f e.2).map fun u => (e.1, u)) = some us) :
    us.map Prod.fst = es.map Prod.fst := by
  induction es generalizing us with
  | nil =>
    obtain rfl : [] = us := by simpa using h
    rfl
  | cons e es ih =>
    obtain ⟨v, vs, hv, hvs, rfl⟩ := mapM_cons_eq_some.mp h
    obtain ⟨u, -, rfl⟩ := Option.map_eq_some_iff.mp hv
    rw [List.map_cons, List.map_cons, ih hvs]

namespace Toml

variable {v w : Value}

theorem Value.Same.text?_eq (h : v.Same w) : v.text? = w.text? := by
  rcases h.eq_or_tables with rfl | ⟨es, fs, rfl, rfl, -⟩ <;> rfl

theorem Value.Same.boolean?_eq (h : v.Same w) : v.boolean? = w.boolean? := by
  rcases h.eq_or_tables with rfl | ⟨es, fs, rfl, rfl, -⟩ <;> rfl

/-- Two tables of the same keywords make one map. -/
theorem Value.Same.wordMap_eq (h : v.Same w)
    (hnodup : ∀ es, v = .table es → (es.map Prod.fst).Nodup) :
    WordMap.ofValue? v = WordMap.ofValue? w := by
  rcases h.eq_or_tables with rfl | ⟨es, fs, rfl, rfl, hperm⟩
  · rfl
  · rw [WordMap.ofValue?, WordMap.ofValue?]
    cases hes : es.mapM fun e : String × Value =>
        (AccessLevel.ofValue? e.2).map fun level => (e.1, level) with
    | some us =>
      obtain ⟨vs, hvs, hperm'⟩ := mapM_perm hperm hes
      have hkeys : (us.map Prod.fst).Nodup := keys_of_mapM hes ▸ hnodup es rfl
      rw [hvs, Option.map_some, Option.map_some, WordMap.ofList_perm hperm' hkeys]
    | none =>
      cases hfs : fs.mapM fun e : String × Value =>
          (AccessLevel.ofValue? e.2).map fun level => (e.1, level) with
      | none => rfl
      | some vs =>
        obtain ⟨us, hus, -⟩ := mapM_perm hperm.symm hfs
        rw [hes] at hus
        cases hus

/-- What is said of two values that are the same is the same, if there are any. -/
theorem map_eq_of_rel {α : Type} {f : Value → α} {a b : Option Value}
    (h : Option.Rel Value.Same a b) (hf : ∀ v w, a = some v → v.Same w → f v = f w) :
    a.map f = b.map f := by
  cases h with
  | none => rfl
  | some h => exact congrArg some (hf _ _ rfl h)

/-- The keys of a document are those of its settings and its tables. -/
theorem Document.nodup_keys (d : Document) : (d.table.map Prod.fst).Nodup := by
  have hkeys : d.table.map Prod.fst = d.settings.map Prod.fst ++ d.tables.map Prod.fst := by
    simp [Document.table, tableOf, Function.comp_def]
  rw [hkeys]
  exact d.distinct

/-- The keys of a table in a document are all different. -/
theorem Document.nodup_of_mem {d : Document} {key : String} {es : Table}
    (h : (key, .table es) ∈ d.table) : (es.map Prod.fst).Nodup := by
  rcases List.mem_append.mp h with h | h
  · obtain ⟨e, -, he⟩ := List.mem_map.mp h
    obtain ⟨-, hvalue⟩ := Prod.mk.inj he
    cases hscalar : e.2 <;> rw [hscalar] at hvalue <;> cases hvalue
  · obtain ⟨t, ht, he⟩ := List.mem_map.mp h
    obtain ⟨-, hvalue⟩ := Prod.mk.inj he
    obtain rfl : tableOf t.2 = es := Value.table.inj hvalue
    rw [tableOf, List.map_map]
    exact d.distinctInTables t ht

end Toml

namespace Profile

variable {t : Table}

/-- **The order of keys does not matter** to the profile that is read. -/
theorem ofTable?_of_same {d : Toml.Document} (h : d.table.Same t) :
    ofTable? t = ofTable? d.table := by
  have hkeys : (t.all fun e => fieldNames.contains e.1) =
      d.table.all fun e => fieldNames.contains e.1 := by
    have hperm := h.perm_keys.all_eq (f := fun key => fieldNames.contains key)
    rwa [List.all_map, List.all_map, eq_comm] at hperm
  have hlookup := h.lookup d.nodup_keys
  have htext : (d.table.lookup "name").bind Value.text? = (t.lookup "name").bind Value.text? := by
    have hmap := Toml.map_eq_of_rel (hlookup "name") fun _ _ _ hsame => hsame.text?_eq
    simpa only [Option.bind_map, Function.id_comp] using congrArg (Option.bind · id) hmap
  have hboolean : ∀ key,
      (d.table.lookup key).map Value.boolean? = (t.lookup key).map Value.boolean? :=
    fun key => Toml.map_eq_of_rel (hlookup key) fun _ _ _ hsame => hsame.boolean?_eq
  have hwords : (d.table.lookup "access_keywords").map WordMap.ofValue? =
      (t.lookup "access_keywords").map WordMap.ofValue? := by
    refine Toml.map_eq_of_rel (hlookup "access_keywords") fun v w hv hsame => ?_
    refine hsame.wordMap_eq ?_
    rintro es rfl
    exact Toml.Document.nodup_of_mem ((Toml.lookup_eq_some_iff_mem d.nodup_keys).mp hv)
  rw [ofTable?, ofTable?, hkeys, ofFields?, ofFields?, htext, hboolean, hboolean, hwords]

/-! ### Round trips -/

theorem ofValue?_keywords (p : Profile) :
    WordMap.ofValue? (.table (Toml.tableOf
      (p.keywords.entries.map fun e => (e.1, .text e.2.label)))) = some p.keywords := by
  have hlevel : ∀ e : String × AccessLevel,
      ((AccessLevel.ofValue? (.string e.2.label)).map fun level => (e.1, level)) = some e := by
    intro e
    rw [AccessLevel.ofValue?, AccessLevel.ofLabel?_label, Option.map_some]
  have hlevels : ((Toml.tableOf (p.keywords.entries.map fun e => (e.1, .text e.2.label))).mapM
      fun e : String × Value => (AccessLevel.ofValue? e.2).map fun level => (e.1, level)) =
        some p.keywords.entries := by
    rw [Toml.tableOf, List.map_map, List.mapM_map]
    simp only [Function.comp_def, Toml.Scalar.value, hlevel]
    exact List.mapM_pure.trans (congrArg some (List.map_id _))
  rw [WordMap.ofValue?, hlevels, Option.map_some, WordMap.ofList_entries]

/-- What a profile's document says is the profile. -/
theorem ofTable?_content (p : Profile) : ofTable? p.content.table = some p := by
  have hnames : (p.content.table.all fun e => fieldNames.contains e.1) = true := by rfl
  have hfields : ofFields? (p.content.table.lookup "name")
      (p.content.table.lookup "supports_implied_types") (p.content.table.lookup "case_sensitive")
      (p.content.table.lookup "access_keywords") =
      (WordMap.ofValue? (.table (Toml.tableOf
        (p.keywords.entries.map fun e => (e.1, .text e.2.label))))).bind fun keywords =>
          some { p with keywords } := by rfl
  rw [ofTable?, if_pos hnames, hfields, ofValue?_keywords]
  rfl

/-- A text that says what a profile's document says is read as the profile, or as its fault. -/
theorem parse_of_same {read : Toml.Reader} {document : String} {p : Profile}
    (hread : read document = some t) (h : p.content.table.Same t) :
    parse read document = p.validate.map fun _ => p := by
  rw [parse, hread, Option.bind_some, ofTable?_of_same h, ofTable?_content]
  rfl

/-- A fault that checking a profile can find. -/
def IsFault (p : Profile) (fault : ProfileError) : Prop :=
  fault = .emptyName ∨ fault = .emptyKeyword p.name ∨
    ∃ word ∈ p.keywords.words, fault = .duplicateKeyword p.name word

theorem isFault_of_validate {p : Profile} {fault : ProfileError}
    (h : p.validate = .error fault) : p.IsFault fault := by
  cases validate_eq_error_iff.mp h with
  | name _ => exact .inl rfl
  | keyword _ hword hfault _ =>
    cases hfault with
    | blank _ => exact .inr (.inl rfl)
    | again _ _ => exact .inr (.inr ⟨_, hword, rfl⟩)

/-- A profile has a document, and reading the document gives the profile back, or the fault that
checking the profile finds. -/
def RoundTrips (print : Toml.Printer) (read : Toml.Reader) (p : Profile) : Prop :=
  ∃ document, p.serialize print = .ok document ∧
    match p.validate with
    | .ok _ => parse read document = .ok p
    | .error fault => parse read document = .error fault ∧ p.IsFault fault

/-- **Profiles come back from their documents**, whatever printer and reader keep what documents
say. A valid profile is read back, and of an invalid one its fault; the document itself is never at
fault. -/
theorem roundTrips_of_faithful {print : Toml.Printer} {read : Toml.Reader}
    (h : Toml.Faithful print read) (p : Profile) : p.RoundTrips print read := by
  obtain ⟨document, hprint⟩ := h.prints p.content
  obtain ⟨t, hread, hsame⟩ := h.reads p.content document hprint
  have hparse := parse_of_same hread hsame
  refine ⟨document, hprint, ?_⟩
  cases hvalid : p.validate with
  | ok _ =>
    rw [hvalid] at hparse
    exact hparse
  | error fault =>
    rw [hvalid] at hparse
    exact ⟨hparse, isFault_of_validate hvalid⟩

/-- The document that is printed here is read here as the profile, or as its fault. -/
theorem ofDocument_of_toDocument {p : Profile} {document : String}
    (h : p.toDocument = .ok document) : ofDocument document = p.validate.map fun _ => p :=
  parse_of_same (Toml.read?_of_print h) (.refl _)

end Profile

namespace Sample

/-- A language whose name has quotes, a backslash, a line feed and a control character in it. Its
keywords are in need of quotes, and one has quotes of both kinds. -/
def awkwardProfile : Profile where
  name := "it's \"C\\\"\n\x01é"
  caseSensitive := false
  keywords := ⟨[("'\"'", .owner), ("a.b = 1", .family), ("λ", .everyone)], by decide⟩

/-- A language with two keywords that are one after folding. -/
def repeatingProfile : Profile :=
  { awkwardProfile with keywords := ⟨[("Λ", .owner), ("λ", .everyone)], by decide⟩ }

/-- One comes back and the other is refused for its keyword. -/
theorem roundTrips_awkwardProfile :
    Toml.Faithful (fun d => .ok (Toml.format d)) Toml.read? ∧
      (∃ document, awkwardProfile.serialize (fun d => .ok (Toml.format d)) = .ok document ∧
        Profile.parse Toml.read? document = .ok awkwardProfile) ∧
      ∃ document, repeatingProfile.serialize (fun d => .ok (Toml.format d)) = .ok document ∧
        Profile.parse Toml.read? document =
          .error (.duplicateKeyword repeatingProfile.name "λ") := by
  have hvalid : awkwardProfile.validate = .ok () := by decide +kernel
  have hfault : repeatingProfile.validate =
      .error (.duplicateKeyword repeatingProfile.name "λ") := by decide +kernel
  have hback := Profile.roundTrips_of_faithful Toml.faithful_format awkwardProfile
  have hrefused := Profile.roundTrips_of_faithful Toml.faithful_format repeatingProfile
  rw [Profile.RoundTrips, hvalid] at hback
  rw [Profile.RoundTrips, hfault] at hrefused
  obtain ⟨document, hprint, hread, -⟩ := hrefused
  exact ⟨Toml.faithful_format, hback, document, hprint, hread⟩

end Sample

end DeclOutline
