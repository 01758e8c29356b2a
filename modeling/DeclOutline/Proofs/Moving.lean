import DeclOutline.Proofs.Answers
import DeclOutline.Proofs.Passages
import Mathlib.Data.List.SplitBy

/-!
# Moving a passage

A passage may stand in two texts, `k` tokens further on in one than in the other. The map `· + k`
carries it, and passes over nothing. So more is carried than in general: what a type takes is taken
on both sides, layout included, and the full type put together from it is the same, token by token.

## Main definitions

* `Excerpt.move` — an excerpt, `k` tokens further on in another text

## Main results

* `Carries.of_standsAt` — a passage that stands in two texts is carried
* `Carries.assemble_add` — full types are put together alike
* `Carries.tokens_move` — and have the same tokens
-/

namespace DeclOutline

/-- An excerpt of one text as an excerpt of another, `k` tokens further on. -/
def Excerpt.move (t : TaggedText) (k : Nat) : Excerpt → Excerpt
  | within _ extent => within t (extent.image (· + k))
  | whole text => whole text

/-- The first and the last index of one extent lie in another. -/
structure Extent.Holds (e x : Extent) : Prop where
  start_le : e.start ≤ x.start
  start_lt : x.start < e.stop
  lt_stop : e.start < x.stop
  stop_le : x.stop ≤ e.stop

theorem carried_add (k i : Nat) : carried (· + k) i = true :=
  carried_iff.mpr (Nat.add_right_comm i 1 k)

theorem filter_carried_add (k : Nat) (is : List Nat) : is.filter (carried (· + k)) = is :=
  List.filter_eq_self.mpr fun i _ => carried_add k i

theorem Extent.indices_image_add (k : Nat) (e : Extent) :
    (e.image (· + k)).indices = e.indices.map (· + k) := by
  have hlen : k + e.stop - (k + e.start) = e.stop - e.start := by omega
  simp only [indices, image, Nat.add_comm _ k, hlen]
  exact (List.map_add_range' ..).symm

/-- Splitting a list commutes with a map that keeps the test. -/
theorem splitBy_map {α β : Type} {f : α → β} {p : α → α → Bool} {q : β → β → Bool} {l : List α}
    (h : ∀ a ∈ l, ∀ b ∈ l, q (f a) (f b) = p a b) :
    (l.map f).splitBy q = (l.splitBy p).map (List.map f) := by
  have hmem : ∀ g ∈ l.splitBy p, ∀ a ∈ g, a ∈ l := by
    intro g hg a ha
    rw [← List.flatten_splitBy p l]
    exact List.mem_flatten_of_mem hg ha
  have hmap : l.map f = ((l.splitBy p).map (List.map f)).flatten := by
    rw [← List.map_flatten, List.flatten_splitBy]
  -- the images of the groups hold together and stay apart as the groups do
  rw [hmap]
  refine List.splitBy_flatten ?_ ?_ ?_
  · simp
  · intro g' hg'
    obtain ⟨g, hg, rfl⟩ := List.mem_map.mp hg'
    refine (List.isChain_map f).mpr ((List.isChain_of_mem_splitBy hg).imp_of_mem_imp ?_)
    intro a b ha hb hab
    rwa [h a (hmem g hg a ha) b (hmem g hg b hb)]
  · refine (List.isChain_map _).mpr
      ((List.isChain_getLast_head_splitBy p l).imp_of_mem_imp ?_)
    rintro g g' hg hg' ⟨hne, hne', hapart⟩
    refine ⟨by simpa using hne, by simpa using hne', ?_⟩
    rwa [List.getLast_map, List.head_map,
      h _ (hmem g hg _ (List.getLast_mem hne)) _ (hmem g' hg' _ (List.head_mem hne'))]

namespace TaggedText

variable {t : TaggedText}

/-- The bound of a slice does no more than the tokens. -/
theorem slice_eq_filterMap (t : TaggedText) (e : Extent) :
    t.slice e = e.indices.filterMap t.token? := by
  rw [slice]
  rcases Nat.le_total e.stop t.length with hle | hle
  · rw [Nat.min_eq_left hle]
  · rw [Nat.min_eq_right hle]
    have hnil : ∀ start, t.length ≤ start →
        (Extent.mk start e.stop).indices.filterMap t.token? = [] := by
      intro start hstart
      refine List.filterMap_eq_nil_iff.mpr fun i hi => ?_
      exact token?_eq_none (Nat.le_trans hstart (Extent.mem_indices.mp hi).1)
    rcases Nat.le_total e.start t.length with hstart | hstart
    · have hcut := Extent.indices_append hstart hle
      rw [show e.indices = _ from hcut.symm, List.filterMap_append, hnil _ (Nat.le_refl _),
        List.append_nil]
    · rw [Extent.indices_eq_nil hstart, show e.indices.filterMap t.token? = [] from
        hnil e.start hstart]
      rfl

end TaggedText

namespace Carries

variable {t t' : TaggedText} {e : Extent} {is : List Nat} {i j k : Nat}

/-- A passage that stands in two texts is carried from one to the other. -/
theorem of_standsAt {ts : List Token} (h : t.StandsAt i ts) (h' : t'.StandsAt (i + k) ts) :
    Carries (· + k) t t' ⟨i, i + ts.length⟩ := by
  intro m hm hm'
  obtain ⟨n, rfl⟩ := Nat.exists_eq_add_of_le hm
  have hn : n < ts.length := Nat.lt_of_add_lt_add_left hm'
  refine Or.inl ⟨Nat.add_right_comm (i + n) 1 k, ?_⟩
  show t'.token? (i + n + k) = t.token? (i + n)
  rw [Nat.add_right_comm, h.token?_add hn, h'.token?_add hn]

/-- Nothing is passed over, so tokens are found `k` further on. -/
theorem token?_add (h : Carries (· + k) t t' e) (hi : e.start ≤ i) (hi' : i < e.stop) :
    t'.token? (i + k) = t.token? i :=
  h.token? hi hi' (carried_add k i)

theorem slice_add (h : Carries (· + k) t t' e) : t'.slice (e.image (· + k)) = t.slice e := by
  rw [TaggedText.slice_eq_filterMap, TaggedText.slice_eq_filterMap, Extent.indices_image_add,
    List.filterMap_map]
  refine List.filterMap_congr fun i hi => ?_
  exact h.token?_add (Extent.mem_indices.mp hi).1 (Extent.mem_indices.mp hi).2

theorem typeIndices_add (h : Carries (· + k) t t' e) (hle : e.start ≤ e.stop) (own : Bool) :
    ParameterList.typeIndices t' own (e.image (· + k)) =
      (ParameterList.typeIndices t own e).map (· + k) := by
  rw [h.typeIndices hle, filter_carried_add]

theorem onlyBlanksBetween_add (h : Carries (· + k) t t' e) (hi : e.start ≤ i) (hj : j ≤ e.stop) :
    ParameterList.onlyBlanksBetween t' (i + k) (j + k) =
      ParameterList.onlyBlanksBetween t i j := by
  have hindices : (Extent.mk (i + k + 1) (j + k)).indices =
      (Extent.mk (i + 1) j).indices.map (· + k) := by
    rw [← Extent.indices_image_add, Nat.add_right_comm i k 1]
    rfl
  rw [ParameterList.onlyBlanksBetween, ParameterList.onlyBlanksBetween, hindices, List.all_map]
  rw [Bool.eq_iff_iff, List.all_eq_true, List.all_eq_true]
  refine forall₂_congr fun m hm => ?_
  obtain ⟨hm, hm'⟩ := Extent.mem_indices.mp hm
  have hblank : t'.isBlankAt (m + k) = t.isBlankAt m :=
    h.isBlankAt (by simp only at hm; omega) (by simp only at hm'; omega) (carried_add k m)
  rw [Function.comp_apply, hblank]

/-! ### Full types -/

theorem runs_add (h : Carries (· + k) t t' e) (hmem : ∀ i ∈ is, e.start ≤ i ∧ i < e.stop) :
    ParameterList.runs t' (is.map (· + k)) =
      (ParameterList.runs t is).map (Extent.image (· + k)) := by
  have hsplit : (is.map (· + k)).splitBy (ParameterList.onlyBlanksBetween t') =
      (is.splitBy (ParameterList.onlyBlanksBetween t)).map (List.map (· + k)) :=
    splitBy_map fun i hi j hj =>
      h.onlyBlanksBetween_add (hmem i hi).1 (Nat.le_of_lt (hmem j hj).2)
  rw [ParameterList.runs, ParameterList.runs, hsplit, List.filterMap_map, List.map_filterMap]
  refine List.filterMap_congr fun g _ => ?_
  exact hull? fun i _ => carried_add k i

/-- A run begins and ends where the indices do. -/
theorem holds_of_mem_runs (hmem : ∀ i ∈ is, e.start ≤ i ∧ i < e.stop) {run : Extent}
    (h : run ∈ ParameterList.runs t is) : e.Holds run := by
  obtain ⟨g, hg, hhull⟩ := List.mem_filterMap.mp h
  obtain ⟨first, last, hfirst, hlast, rfl⟩ := ParameterList.hull?_eq_some hhull
  have hgroup : ∀ i ∈ g, e.start ≤ i ∧ i < e.stop := by
    intro i hi
    refine hmem i ?_
    rw [← List.flatten_splitBy (ParameterList.onlyBlanksBetween t) is]
    exact List.mem_flatten_of_mem hg hi
  obtain ⟨h₁, h₂⟩ := hgroup first (List.mem_of_head? hfirst)
  obtain ⟨h₃, h₄⟩ := hgroup last (List.mem_of_getLast? hlast)
  exact ⟨h₁, h₂, Nat.lt_succ_of_le h₃, h₄⟩

theorem kind?_add (h : Carries (· + k) t t' e) (hi : e.start ≤ i) (hi' : i < e.stop) :
    t'.kind? (i + k) = t.kind? i := by
  rw [TaggedText.kind?, TaggedText.kind?, h.token?_add hi hi']

theorem glue_add (h : Carries (· + k) t t' e) {left right : Extent} (hleft : e.Holds left)
    (hright : e.Holds right) :
    ParameterList.glue t' (left.image (· + k)) (right.image (· + k)) =
      ParameterList.glue t left right := by
  obtain ⟨-, -, h₁, h₂⟩ := hleft
  have hlast : left.stop + k - 1 = left.stop - 1 + k := by omega
  have hkind : t'.kind? (left.stop - 1 + k) = t.kind? (left.stop - 1) :=
    h.kind?_add (by omega) (by omega)
  have hkind' : t'.kind? (right.start + k) = t.kind? right.start :=
    h.kind?_add hright.start_le hright.start_lt
  simp only [ParameterList.glue, Extent.image, hlast, hkind, hkind']

/-- Runs in a carried extent are set side by side alike. -/
theorem joinRuns_add (h : Carries (· + k) t t' e) {run : Extent} {rest : List Extent}
    (hholds : ∀ x ∈ run :: rest, e.Holds x) :
    ParameterList.joinRuns t' (run.image (· + k)) (rest.map (Extent.image (· + k))) =
      ParameterList.joinRuns t run rest := by
  induction rest generalizing run with
  | nil =>
    have hrun := hholds run List.mem_cons_self
    exact (h.mono hrun.start_le hrun.stop_le).slice_add
  | cons next rest ih =>
    have hrun := hholds run List.mem_cons_self
    have hnext := hholds next (List.mem_cons_of_mem run List.mem_cons_self)
    rw [List.map_cons, ParameterList.joinRuns, ParameterList.joinRuns,
      (h.mono hrun.start_le hrun.stop_le).slice_add, h.glue_add hrun hnext,
      ih fun x hx => hholds x (List.mem_cons_of_mem run hx)]

/-- Full types are put together alike. -/
theorem assemble_add (h : Carries (· + k) t t' e) (hmem : ∀ i ∈ is, e.start ≤ i ∧ i < e.stop) :
    ParameterList.assemble t' (is.map (· + k)) =
      (ParameterList.assemble t is).map (Excerpt.move t' k) := by
  have hany := h.any_hasRole_map hmem .typeName
  rw [filter_carried_add] at hany
  rw [ParameterList.assemble, ParameterList.assemble, hany, h.runs_add hmem]
  split
  · cases hruns : ParameterList.runs t is with
    | nil => rfl
    | cons run rest =>
      cases rest with
      | nil => rfl
      | cons next rest =>
        have hjoin := h.joinRuns_add fun x hx => holds_of_mem_runs hmem (hruns ▸ hx)
        rw [List.map_cons] at hjoin
        simp only [List.map_cons, hjoin, Option.map_some, Excerpt.move]
  · rfl

/-- A full type has the same tokens wherever its parameter stands. -/
theorem tokens_move (h : Carries (· + k) t t' e) (hmem : ∀ i ∈ is, e.start ≤ i ∧ i < e.stop) :
    ((ParameterList.assemble t is).map (Excerpt.move t' k)).map Excerpt.tokens =
      (ParameterList.assemble t is).map Excerpt.tokens := by
  rw [ParameterList.assemble]
  split
  · split
    · rfl
    · next run hruns =>
      have hrun : e.Holds run := holds_of_mem_runs hmem (hruns ▸ List.mem_singleton_self run)
      have hslice := (h.mono hrun.start_le hrun.stop_le).slice_add
      rw [TaggedText.slice_eq_filterMap, TaggedText.slice_eq_filterMap] at hslice
      simp only [Option.map_some, Excerpt.tokens_eq_filterMap]
      exact congrArg some hslice
    · rfl
  · rfl

end Carries

end DeclOutline
