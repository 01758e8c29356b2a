import DeclOutline.Proofs.FirstRuns
import DeclOutline.Proofs.Stitching

/-!
# Types inside full types

The type of a parameter and its full type come from two walks over the same tokens. One looks for
a run and stops at its end. The other keeps counters of open groups, takes tokens one by one, and
puts together what it took. They meet in one point: a type's name at level zero is always taken, at
whatever the counters stand, so no tagging can set the two answers apart.

A run holds such names and blanks alone. Between two tokens that are taken from it lie blanks, which
a full type keeps. So the whole run stands in the full type as it stands in the text.

## Main definitions

* `Excerpt.Includes` — the tokens of an extent stand in an excerpt, side by side

## Main results

* `ParameterList.stitch_isInfix` — parts are stitched together as they are in the whole
* `ParameterList.slice_isInfix_stitch` — a run stands in what is stitched together
* `ParameterList.baseType?_within_fullType?` — types stand in full types
-/

namespace DeclOutline

namespace ParameterList

variable {t : TaggedText} {is js : List Nat} {e b : Extent} {i : Nat} {p : Nat → Prop}

/-! ### Parts of what is stitched together -/

theorem exists_stitch_append (t : TaggedText) (is js : List Nat) :
    ∃ between, stitch t (is ++ js) = stitch t is ++ between ++ stitch t js := by
  cases hlast : is.getLast? with
  | none =>
    obtain rfl := List.getLast?_eq_none_iff.mp hlast
    exact ⟨[], rfl⟩
  | some last =>
    cases hfirst : js.head? with
    | none =>
      obtain rfl := List.head?_eq_none_iff.mp hfirst
      exact ⟨[], by simp [stitch]⟩
    | some first => exact ⟨tokensBetween t last first, stitch_append hlast hfirst⟩

/-- Neighbours among some indices are stitched together as they are among all. -/
theorem stitch_isInfix (h : js <:+: is) : stitch t js <:+: stitch t is := by
  obtain ⟨before, after, rfl⟩ := h
  obtain ⟨left, hleft⟩ := exists_stitch_append t before js
  obtain ⟨right, hright⟩ := exists_stitch_append t (before ++ js) after
  refine ⟨stitch t before ++ left, right ++ stitch t after, ?_⟩
  rw [hright, hleft, List.append_assoc _ right]

/-- Indices are one run if what is left out between them is blank. -/
theorem isChain_blanksBetween (hsorted : is.Pairwise (· < ·))
    (h : ∀ i ∈ is, ∀ j ∈ is, ∀ k, i < k → k < j → k ∉ is → t.isBlankAt k = true) :
    is.IsChain t.BlanksBetween := by
  rw [List.isChain_iff_getElem]
  intro n hn k hlow hhigh
  refine h _ (List.getElem_mem _) _ (List.getElem_mem hn) k hlow hhigh fun hk => ?_
  -- no index stands between two neighbours
  obtain ⟨m, hm, rfl⟩ := List.mem_iff_getElem.mp hk
  have hstrict := List.pairwise_iff_getElem.mp hsorted
  rcases Nat.lt_trichotomy m n with hlt | rfl | hgt
  · exact Nat.lt_asymm hlow (hstrict m n hm (by omega) hlt)
  · exact Nat.lt_irrefl _ hlow
  · rcases Nat.eq_or_lt_of_le (Nat.succ_le_of_lt hgt) with rfl | hgt
    · exact Nat.lt_irrefl _ hhigh
    · exact Nat.lt_asymm hhigh (hstrict (n + 1) m hn hm hgt)

/-- The hull of indices of an extent is the extent if its first and its last index are there. -/
theorem hull?_eq_some_of_mem {last : Nat} (hsorted : is.Pairwise (· < ·))
    (hmem : ∀ i ∈ is, i ∈ b.indices) (hfirst : b.start ∈ is) (hlast : last ∈ is)
    (hstop : b.stop = last + 1) : hull? is = some b := by
  obtain ⟨x, hx⟩ := Option.ne_none_iff_exists'.mp
    (mt hull?_eq_none_iff.mp (List.ne_nil_of_mem hfirst))
  obtain ⟨first', last', hfirst', hlast', rfl⟩ := hull?_eq_some hx
  obtain ⟨-, -, hleast⟩ := TaggedText.le_of_head?_filter (p := fun _ => true) hsorted
    (by simpa using hfirst')
  obtain ⟨-, -, hgreatest⟩ := TaggedText.le_of_getLast?_filter (p := fun _ => true) hsorted
    (by simpa using hlast')
  have hstart : first' = b.start := Nat.le_antisymm (hleast _ hfirst rfl)
    (Extent.mem_indices.mp (hmem first' (List.mem_of_head? hfirst'))).1
  have hend : last' + 1 = b.stop := by
    have hle := hgreatest last hlast rfl
    have hlt := (Extent.mem_indices.mp (hmem last' (List.mem_of_getLast? hlast'))).2
    omega
  rw [hx, hstart, hend]

/-- **A run stands in what is stitched together.** If indices of an extent are taken, and all those
with a property among them, the first run of these stands there as it stands in the text. -/
theorem slice_isInfix_stitch (h : t.IsFirstRun p b) (hp : ∀ i, p i → i ∈ is)
    (hsub : is.Sublist e.indices) : t.slice b <:+: stitch t is := by
  obtain ⟨last, hstop, hreach, hlast, -⟩ := h.last
  have hfirst := Extent.mem_indices.mp (hsub.subset (hp _ h.start))
  have hlast' := Extent.mem_indices.mp (hsub.subset (hp _ hlast))
  -- the indices before the run, those of the run and those after it
  have hcut : e.indices = (Extent.mk e.start b.start).indices ++
      (b.indices ++ (Extent.mk b.stop e.stop).indices) := by
    rw [Extent.indices_append (a := b.start) (by omega) (by omega),
      Extent.indices_append hfirst.1 (by omega)]
  rw [hcut] at hsub
  obtain ⟨before, rest, rfl, hbefore, hrest⟩ := List.sublist_append_iff.mp hsub
  obtain ⟨run, after, rfl, hrun, hafter⟩ := List.sublist_append_iff.mp hrest
  have hmem : ∀ i, p i → i ∈ b.indices → i ∈ run := by
    intro i hpi hi
    have hi := Extent.mem_indices.mp hi
    rcases List.mem_append.mp (hp i hpi) with hi' | hi'
    · have := Extent.mem_indices.mp (hbefore.subset hi')
      simp only at this
      omega
    · rcases List.mem_append.mp hi' with hi' | hi'
      · exact hi'
      · have := Extent.mem_indices.mp (hafter.subset hi')
        simp only at this
        omega
  have hsorted := b.pairwise_indices.sublist hrun
  have hchain : run.IsChain t.BlanksBetween := by
    refine isChain_blanksBetween hsorted fun i hi j hj k hik hkj hk => ?_
    have hi := Extent.mem_indices.mp (hrun.subset hi)
    have hj := Extent.mem_indices.mp (hrun.subset hj)
    have hkb : k ∈ b.indices := Extent.mem_indices.mpr ⟨by omega, by omega⟩
    exact (h.or_of_mem hkb).resolve_left fun hpk => hk (hmem k hpk hkb)
  have hhull : hull? run = some b :=
    hull?_eq_some_of_mem hsorted (fun i hi => hrun.subset hi)
      (hmem _ h.start (Extent.mem_indices.mpr ⟨Nat.le_refl _, by omega⟩))
      (hmem _ hlast (Extent.mem_indices.mpr ⟨hreach, by omega⟩)) hstop
  rw [← stitch_eq_slice hsorted hchain hhull]
  exact stitch_isInfix ⟨before, after, List.append_assoc _ _ _⟩

/-- The full type of a parameter is stitched together from indices that hold every type's name at
level zero. -/
theorem mem_typeIndices_of_standsOut {own : Bool} (h : StandsOut t .all .typeName e i) :
    i ∈ typeIndices t own e := by
  obtain ⟨hi, hlevel, hrole⟩ := h
  refine mem_typeIndices ?_ (beq_iff_eq.mpr hrole)
  rw [Nesting.walk_eq_map, ← hlevel]
  exact List.mem_map_of_mem hi

end ParameterList

namespace Excerpt

/-- The tokens of an extent of a text stand in the excerpt, side by side. -/
structure Includes (x : Excerpt) (t : TaggedText) (b : Extent) : Prop where
  /-- They are a part of the tokens. -/
  tokens : t.slice b <:+: x.tokens
  /-- Each name of a type is there. -/
  typeNames : ∀ i ∈ b.indices, t.role? i = some .typeName →
    ∃ token ∈ x.tokens, t.token? i = some token
  /-- Their text is a part of the text. -/
  text : ∃ before after, x.text = before ++ t.extentText b ++ after

/-- It is enough that the tokens are there. -/
theorem includes_of_isInfix {x : Excerpt} {t : TaggedText} {b : Extent}
    (htext : x.text.toList = x.tokens.flatMap fun token => token.text.toList)
    (hb : b.stop ≤ t.length) (h : t.slice b <:+: x.tokens) : x.Includes t b := by
  refine ⟨h, fun i hi hrole => ?_, ?_⟩
  · obtain ⟨token, htoken, -⟩ := Option.bind_eq_some_iff.mp hrole
    refine ⟨token, h.subset ?_, htoken⟩
    rw [TaggedText.slice_eq_filterMap]
    exact List.mem_filterMap.mpr ⟨i, hi, htoken⟩
  · obtain ⟨before, after, htokens⟩ := h
    refine ⟨String.ofList (before.flatMap fun token => token.text.toList),
      String.ofList (after.flatMap fun token => token.text.toList), ?_⟩
    rw [← String.toList_inj, htext, ← htokens, String.toList_append, String.toList_append,
      TaggedText.extentText_eq_join hb, TaggedText.toList_join_tokenText,
      ← TaggedText.slice_eq_filterMap]
    simp

end Excerpt

namespace ParameterList

variable {t : TaggedText} {l : ParameterList} {e : Extent} {index donor : Nat} {implied : Bool}

/-! ### Types and full types -/

/-- The parameter that a type comes from has a run of types' names. -/
theorem exists_ownType?_of_typeDonor? (h : l.typeDonor? t index implied = some donor) :
    ∃ e b, l.parameter? donor = some e ∧ ownType? t e = some b ∧
      l.baseType? t index implied = some b := by
  obtain ⟨e, he, hown⟩ := (Option.any_eq_true _ _).mp (hasOwnType_of_typeDonor? h)
  obtain ⟨b, hb⟩ := Option.isSome_iff_exists.mp hown
  refine ⟨e, b, he, hb, ?_⟩
  rw [baseType?, h, Option.bind_some, he, Option.bind_some, hb]

/-- A type stands in the full type if the parameter it comes from lies in the text. -/
theorem exists_includes (hdonor : l.typeDonor? t index implied = some donor)
    (hstop : ∀ e, l.parameter? donor = some e → e.stop ≤ t.length) :
    ∃ b x, l.baseType? t index implied = some b ∧ l.fullType? t index implied = some x ∧
      x.Includes t b := by
  obtain ⟨e, b, he, hown, hb⟩ := exists_ownType?_of_typeDonor? hdonor
  have hstop := hstop e he
  obtain ⟨x, hx, hstitched⟩ := stitchedFrom_fullType? hdonor he hstop
  refine ⟨b, x, hb, hx, ?_⟩
  have hsub := typeIndices_sublist t (donor == index) e
  have hlen : ∀ i ∈ typeIndices t (donor == index) e, i < t.length := fun i hi =>
    Nat.lt_of_lt_of_le (Extent.mem_indices.mp (hsub.subset hi)).2 hstop
  rw [(fullType?_eq_assemble hdonor he).1] at hx
  have htokens := tokens_assemble (e.pairwise_indices.sublist hsub) hx
  have hrun := firstRun?_eq_some_iff.mp hown
  refine Excerpt.includes_of_isInfix ?_ ?_ ?_
  · rw [hstitched.text, htokens, flatMap_stitch hlen]
  · exact Nat.le_trans (Extent.encloses_iff.mp (encloses_firstRun? hown)).2.1 hstop
  · rw [htokens]
    exact slice_isInfix_stitch hrun (fun i => mem_typeIndices_of_standsOut) hsub

/-- **Types stand in full types.** However the text is tagged, a parameter has a type exactly if it
has a full type, and then the tokens of the type stand in the full type as they stand in the text.
This holds of the parameter list of any extent, with and without implied types. -/
theorem baseType?_within_fullType? (t : TaggedText) (e : Extent) (hasName impliesTypes : Bool)
    (index : Nat) (implied : Bool) :
    ((analyze t e hasName impliesTypes).baseType? t index implied = none ∧
      (analyze t e hasName impliesTypes).fullType? t index implied = none) ∨
    ∃ b x, (analyze t e hasName impliesTypes).baseType? t index implied = some b ∧
      (analyze t e hasName impliesTypes).fullType? t index implied = some x ∧ x.Includes t b := by
  cases hdonor : (analyze t e hasName impliesTypes).typeDonor? t index implied with
  | none =>
    obtain ⟨hbase, hfull, -⟩ := no_type_of_typeDonor? hdonor
    exact .inl ⟨hbase, hfull⟩
  | some donor => exact .inr (exists_includes hdonor fun p hp => stop_le_of_parameter? hp)

end ParameterList

namespace Sample

/-- `f(] unsigned  long (* int > x)`. A bracket is closed before any is opened, the list inside is
never closed, and an angle closes it. -/
def unbalanced : TaggedText :=
  TaggedText.mk #[]
    |>.raw "f" |>.openList
    |>.tagged "]" .paramGroupClose |>.space
    |>.typeName "unsigned" |>.space |>.space |>.typeName "long" |>.space
    |>.openList |>.tagged "*" .typeModifier |>.space |>.typeName "int" |>.space
    |>.tagged ">" .typeGroupClose |>.space |>.name "x"
    |>.closeList

/-- The parameters of `unbalanced`. -/
def unbalancedList : ParameterList :=
  ParameterList.analyze unbalanced unbalanced.full false true

example :
    (unbalancedList.baseType? unbalanced 0 true).map unbalanced.extentText =
        some "unsigned  long" ∧
      (unbalancedList.fullType? unbalanced 0 true).map Excerpt.text = some "unsigned  long>" := by
  decide

end Sample

end DeclOutline
