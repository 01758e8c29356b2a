import DeclOutline.Proofs.Containment

/-!
# What a full type is made of

A full type is put together from the tokens at some indices: an extent of the text if blanks alone
interrupt them, and otherwise their runs set side by side. Either way it may hold blanks that were
not among them, those inside a run and the spaces between runs. Here blanks are disregarded: the
tokens of a full type that are not blank are those at the indices that are not, in order.

## Main definitions

* `TaggedText.solids`, `Excerpt.solids` — the tokens that are not blank

## Main results

* `ParameterList.solids_runs` — runs keep what is not blank
* `ParameterList.solids_assemble` — and so does a full type
* `ParameterList.typeIndices_sublist` — the indices of a full type are some of its parameter's
* `ParameterList.fullType?_eq_assemble` — there is a full type where there is a type
-/

namespace DeclOutline

namespace TaggedText

variable {t : TaggedText} {e : Extent}

/-- The tokens of an extent that are not blank. -/
def solids (t : TaggedText) (e : Extent) : List Token :=
  (t.slice e).filter fun token => !token.isBlank

/-- The tokens at indices that are not blank. -/
def solidsAt (t : TaggedText) (is : List Nat) : List Token :=
  (is.filterMap t.token?).filter fun token => !token.isBlank

theorem solidsAt_append (t : TaggedText) (is js : List Nat) :
    t.solidsAt (is ++ js) = t.solidsAt is ++ t.solidsAt js := by
  simp [solidsAt]

theorem solidsAt_cons (t : TaggedText) (i : Nat) (is : List Nat) :
    t.solidsAt (i :: is) = t.solidsAt [i] ++ t.solidsAt is :=
  t.solidsAt_append [i] is

theorem solids_eq_solidsAt (h : e.stop ≤ t.length) : t.solids e = t.solidsAt e.indices := by
  rw [solids, slice, Nat.min_eq_left h, solidsAt]

/-- Blank tokens do not count. -/
theorem solidsAt_eq_nil {is : List Nat} (h : ∀ i ∈ is, t.isBlankAt i = true) :
    t.solidsAt is = [] := by
  refine List.filter_eq_nil_iff.mpr fun token htoken => ?_
  obtain ⟨i, hi, htoken⟩ := List.mem_filterMap.mp htoken
  have hblank := h i hi
  rw [isBlankAt_of_token? htoken] at hblank
  simp [hblank]

end TaggedText

namespace Excerpt

/-- The tokens of an excerpt, in order of their offsets. -/
def tokens (x : Excerpt) : List Token :=
  (List.range x.length).filterMap x.token?

/-- The tokens of an excerpt that are not blank. -/
def solids (x : Excerpt) : List Token :=
  x.tokens.filter fun token => !token.isBlank

theorem tokens_eq_filterMap (x : Excerpt) :
    x.tokens = x.extent.indices.filterMap x.source.token? := by
  rw [tokens, Extent.indices, List.range'_eq_map_range, List.filterMap_map]
  refine List.filterMap_congr fun offset hoffset => ?_
  have hlt : offset < x.length := List.mem_range.mp hoffset
  simp [token?, index?, hlt]

theorem solids_within (t : TaggedText) (e : Extent) :
    (within t e).solids = t.solidsAt e.indices := by
  rw [solids, tokens_eq_filterMap]
  rfl

theorem tokens_whole (t : TaggedText) : (whole t).tokens = t.tokens.toList := by
  have hlen : (whole t).length = t.length := Nat.sub_zero _
  have htoken : ∀ i, i < t.length → (whole t).token? i = t.token? i := by
    intro i hi
    simp [token?, index?, hlen, hi, source, extent, TaggedText.full]
  obtain ⟨hlength, hget⟩ := filterMap_range_of_isSome (f := (whole t).token?) (n := t.length)
    fun i hi => by rw [htoken i hi, TaggedText.token?_of_lt hi]; rfl
  refine List.ext_getElem? fun i => ?_
  rw [tokens, hlen, ← TaggedText.token?_eq_getElem?]
  rcases Nat.lt_or_ge i t.length with hi | hi
  · rw [hget i hi, htoken i hi]
  · rw [List.getElem?_eq_none (by omega), TaggedText.token?_eq_none hi]

end Excerpt

namespace ParameterList

variable {t : TaggedText} {e : Extent} {is : List Nat}

/-! ### Runs -/

theorem head_le_getLast? {i last : Nat} (hsorted : (i :: is).Pairwise (· < ·))
    (hlast : (i :: is).getLast? = some last) : i ≤ last := by
  rcases List.mem_cons.mp (List.mem_of_getLast? hlast) with rfl | hmem
  · exact Nat.le_refl _
  · exact Nat.le_of_lt ((List.pairwise_cons.mp hsorted).1 last hmem)

/-- Between the first and the last index of a run there are blanks alone besides the run. -/
theorem solidsAt_hull (hsorted : is.Pairwise (· < ·))
    (hchain : is.IsChain fun i j => onlyBlanksBetween t i j = true) (h : hull? is = some e) :
    t.solidsAt e.indices = t.solidsAt is := by
  obtain ⟨first, last, hfirst, hlast, rfl⟩ := hull?_eq_some h
  induction is generalizing first with
  | nil => simp at hfirst
  | cons i is ih =>
    obtain rfl := Option.some.inj hfirst
    cases is with
    | nil =>
      obtain rfl := Option.some.inj hlast
      simp [Extent.indices]
    | cons j is =>
      obtain ⟨hlt, hsorted⟩ := List.pairwise_cons.mp hsorted
      obtain ⟨hblanks, hchain⟩ := List.isChain_cons_cons.mp hchain
      rw [List.getLast?_cons_cons] at hlast
      have hij : i < j := hlt j List.mem_cons_self
      have hjlast : j ≤ last := head_le_getLast? hsorted hlast
      have hnil : t.solidsAt (Extent.mk (i + 1) j).indices = [] :=
        TaggedText.solidsAt_eq_nil (List.all_eq_true.mp hblanks)
      have hrest := ih hsorted hchain j rfl hlast (by simp [hull?, hlast])
      calc t.solidsAt (Extent.mk i (last + 1)).indices
          = t.solidsAt [i] ++ (t.solidsAt (Extent.mk (i + 1) j).indices ++
              t.solidsAt (Extent.mk j (last + 1)).indices) := by
            rw [Extent.indices_cons (by omega), ← Extent.indices_append hij (by omega),
              TaggedText.solidsAt_cons, TaggedText.solidsAt_append]
        _ = t.solidsAt (i :: j :: is) := by
            rw [hnil, hrest, List.nil_append, ← TaggedText.solidsAt_cons]

theorem hull?_eq_none_iff : hull? is = none ↔ is = [] := by
  cases is with
  | nil => simp [hull?]
  | cons i is => simp [hull?, List.getLast?_cons]

theorem solidsAt_hulls {gs : List (List Nat)} (hsorted : ∀ g ∈ gs, g.Pairwise (· < ·))
    (hchain : ∀ g ∈ gs, g.IsChain fun i j => onlyBlanksBetween t i j = true) :
    ((gs.filterMap hull?).flatMap fun e => t.solidsAt e.indices) = t.solidsAt gs.flatten := by
  induction gs with
  | nil => rfl
  | cons g gs ih =>
    have ih := ih (fun g' hg' => hsorted g' (List.mem_cons_of_mem g hg'))
      fun g' hg' => hchain g' (List.mem_cons_of_mem g hg')
    rw [List.flatten_cons, TaggedText.solidsAt_append, ← ih]
    cases hhull : hull? g with
    | none =>
      obtain rfl := hull?_eq_none_iff.mp hhull
      rw [List.filterMap_cons_none hhull]
      rfl
    | some e =>
      have hg := solidsAt_hull (hsorted g List.mem_cons_self) (hchain g List.mem_cons_self) hhull
      rw [List.filterMap_cons_some hhull, List.flatMap_cons, hg]

/-- Runs keep what is not blank. -/
theorem solids_runs (hsorted : is.Pairwise (· < ·)) :
    ((runs t is).flatMap fun e => t.solidsAt e.indices) = t.solidsAt is := by
  have hflatten := List.flatten_splitBy (onlyBlanksBetween t) is
  rw [runs, solidsAt_hulls (fun g hg => ?_) fun g hg => List.isChain_of_mem_splitBy hg, hflatten]
  refine hsorted.sublist ?_
  rw [← hflatten]
  exact List.sublist_flatten_of_mem hg

/-- There is a run if there is an index. -/
theorem runs_ne_nil (h : is ≠ []) : runs t is ≠ [] := by
  intro hnil
  have hnone : ∀ g ∈ is.splitBy (onlyBlanksBetween t), hull? g = none :=
    List.filterMap_eq_nil_iff.mp hnil
  refine h ?_
  rw [← List.flatten_splitBy (onlyBlanksBetween t) is, List.flatten_eq_nil_iff]
  exact fun g hg => hull?_eq_none_iff.mp (hnone g hg)

theorem stop_le_of_mem_runs (hlen : ∀ i ∈ is, i < t.length) (h : e ∈ runs t is) :
    e.stop ≤ t.length := by
  obtain ⟨g, hg, hhull⟩ := List.mem_filterMap.mp h
  obtain ⟨first, last, -, hlast, rfl⟩ := hull?_eq_some hhull
  refine hlen last ?_
  rw [← List.flatten_splitBy (onlyBlanksBetween t) is]
  exact List.mem_flatten_of_mem hg (List.mem_of_getLast? hlast)

/-! ### Full types -/

/-- What is put between runs is blank. -/
theorem filter_glue (t : TaggedText) (left right : Extent) :
    ((glue t left right).filter fun token => !token.isBlank) = [] := by
  rw [glue]
  split
  · decide
  · rfl

theorem filter_joinRuns (t : TaggedText) (run : Extent) (rest : List Extent) :
    ((joinRuns t run rest).filter fun token => !token.isBlank) =
      (run :: rest).flatMap t.solids := by
  induction rest generalizing run with
  | nil => simp [joinRuns, TaggedText.solids]
  | cons next rest ih =>
    rw [joinRuns, List.filter_append, List.filter_append, filter_glue, ih, List.append_nil]
    rfl

/-- The type made of the tokens at some indices keeps what is not blank. -/
theorem solids_assemble (hsorted : is.Pairwise (· < ·)) (hlen : ∀ i ∈ is, i < t.length) :
    (assemble t is).map Excerpt.solids =
      if is.any fun i => t.hasRole i .typeName then some (t.solidsAt is) else none := by
  rw [assemble]
  split
  · next hany =>
    have hne : is ≠ [] := by
      rintro rfl
      simp at hany
    have hsolids : (runs t is).flatMap t.solids = t.solidsAt is := by
      rw [← solids_runs hsorted]
      exact List.flatMap_congr fun e he =>
        TaggedText.solids_eq_solidsAt (stop_le_of_mem_runs hlen he)
    split
    · next hruns => exact absurd hruns (runs_ne_nil hne)
    · next run hruns =>
      have hmem : run ∈ runs t is := hruns ▸ List.mem_singleton_self run
      rw [Option.map_some, Excerpt.solids_within, ← hsolids, hruns, List.flatMap_singleton,
        TaggedText.solids_eq_solidsAt (stop_le_of_mem_runs hlen hmem)]
    · next run rest _ hruns =>
      rw [Option.map_some, Excerpt.solids, Excerpt.tokens_whole, filter_joinRuns, ← hruns, hsolids]
  · rfl

/-- The indices of a full type are some of its parameter's. -/
theorem typeIndices_sublist (t : TaggedText) (own : Bool) (e : Extent) :
    (typeIndices t own e).Sublist e.indices := by
  have hfrom : ∀ (visits : List (Nat × Nat)) (g : Groups),
      (typeIndicesFrom t own g visits).Sublist (visits.map Prod.fst) := by
    intro visits
    induction visits with
    | nil => exact fun g => List.Sublist.slnil
    | cons v visits ih =>
      intro g
      rw [typeIndicesFrom, List.map_cons]
      split
      · exact (ih _).cons_cons v.1
      · exact (ih _).cons v.1
  rw [← Nesting.map_fst_walk .all t e]
  exact hfrom _ {}

/-- A type's name outside of all groups is always taken. -/
theorem mem_typeIndices {own : Bool} {i : Nat} (hi : (i, 0) ∈ Nesting.all.walk t e)
    (hrole : t.hasRole i .typeName = true) : i ∈ typeIndices t own e := by
  have hfrom : ∀ (visits : List (Nat × Nat)) (g : Groups), (i, 0) ∈ visits →
      i ∈ typeIndicesFrom t own g visits := by
    intro visits
    induction visits with
    | nil => simp
    | cons v visits ih =>
      intro g hmem
      rw [typeIndicesFrom]
      rcases List.mem_cons.mp hmem with rfl | hmem
      · have htakes : g.takes own 0 (t.role? i) = true := by
          rw [beq_iff_eq.mp hrole]
          simp [Groups.takes, Role.isTypePart]
        simp [htakes]
      · split
        · exact List.mem_cons_of_mem v.1 (ih _ hmem)
        · exact ih _ hmem
  exact hfrom _ {} hi

theorem exists_of_isSome_ownType? (h : (ownType? t e).isSome = true) :
    ∃ i, (i, 0) ∈ Nesting.all.walk t e ∧ t.hasRole i .typeName = true := by
  rw [ownType?, firstRun?] at h
  split at h
  · simp at h
  · next first rest hdrop =>
    have hmem : first ∈ Nesting.all.walk t e :=
      (List.dropWhile_sublist _).subset (hdrop ▸ List.mem_cons_self)
    have hrun : inRun t .typeName first = true := by
      have hhead := List.head?_dropWhile_not (fun v => !inRun t .typeName v)
        (Nesting.all.walk t e)
      rw [hdrop] at hhead
      simpa using hhead
    obtain ⟨hlevel, hrole⟩ := Bool.and_eq_true_iff.mp hrun
    exact ⟨first.1, beq_iff_eq.mp hlevel ▸ hmem, hrole⟩

/-- The parameter that a type comes from has it. -/
theorem hasOwnType_of_typeDonor? {l : ParameterList} {index donor : Nat} {implied : Bool}
    (h : l.typeDonor? t index implied = some donor) : l.hasOwnType t donor = true := by
  rw [typeDonor?] at h
  split at h
  · split at h
    · next hown => exact Option.some.inj h ▸ hown
    · split at h
      · exact List.find?_some h
      · simp at h
  · simp at h

/-- **Every type has a full type.** It is put together from what it takes of the parameter that
the type comes from, and a type's name is among that. -/
theorem fullType?_eq_assemble {l : ParameterList} {index donor : Nat} {implied : Bool}
    (hdonor : l.typeDonor? t index implied = some donor) (he : l.parameter? donor = some e) :
    l.fullType? t index implied = assemble t (typeIndices t (donor == index) e) ∧
      ((typeIndices t (donor == index) e).any fun i => t.hasRole i .typeName) = true := by
  have hown := hasOwnType_of_typeDonor? hdonor
  rw [hasOwnType, he, Option.any_some] at hown
  obtain ⟨i, hi, hrole⟩ := exists_of_isSome_ownType? hown
  refine ⟨?_, List.any_eq_true.mpr ⟨i, mem_typeIndices hi hrole, hrole⟩⟩
  rw [fullType?, hdonor, Option.bind_some, he, Option.bind_some]

end ParameterList

end DeclOutline
