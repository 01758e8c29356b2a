import DeclOutline.Proofs.Composition
import DeclOutline.Proofs.Grouping
import Mathlib.Data.List.TakeWhile

/-!
# First runs

The name of a parameter and its type are found alike. Tokens of one role count if they stand at
level zero. The first of them starts a run, and the run goes on to the last one that is reached
through tokens that count and blanks. What is said here of runs holds however the text is tagged.

Which tokens stand at level zero is a matter of one counter, and the counter need not know of all
groups: for names it passes over those that modify the parameter. Where the tokens are well nested,
the level of a token is the number of groups around it that count. So a name is looked for outside
of all type groups and parameter lists, and a type outside of all groups.

## Main definitions

* `Nesting.levelAt` — the level of a token
* `TaggedText.IsFirstRun` — the first run of the indices with a property
* `ParameterList.BelongsToName`, `ParameterList.BelongsToBaseType` — the tokens that may be part of
  a name and of a type

## Main results

* `ParameterList.firstRun?_eq_some_iff` — a run that is found is the first one
* `Nesting.levelAt_eq_depthOf` — levels of well-nested tokens
* `ParameterList.name?_baseType?_firstRun` — where names and types are found
-/

namespace DeclOutline

open GroupKind

/-- The indices of an extent that pass a test are cut off from the others at the first that does
not. -/
theorem Extent.span_indices (q : Nat → Bool) (e : Extent) :
    ∃ m, e.start ≤ m ∧ m ≤ max e.start e.stop ∧
      e.indices.takeWhile q = (Extent.mk e.start m).indices ∧
      e.indices.dropWhile q = (Extent.mk m e.stop).indices ∧
      (∀ k, e.start ≤ k → k < m → q k = true) ∧ (m < e.stop → q m = false) := by
  have hspan : e.indices = e.indices.takeWhile q ++ e.indices.dropWhile q :=
    List.takeWhile_append_dropWhile.symm
  obtain ⟨n, hn, htake, hdrop⟩ := List.range'_eq_append_iff.mp hspan
  have htake : e.indices.takeWhile q = (Extent.mk e.start (e.start + n)).indices := by
    rw [htake, indices, Nat.add_sub_cancel_left]
  have hdrop : e.indices.dropWhile q = (Extent.mk (e.start + n) e.stop).indices := by
    rw [hdrop, indices, Nat.sub_sub, Nat.mul_one]
  refine ⟨e.start + n, Nat.le_add_right _ _, by omega, htake, hdrop, fun k hk hk' => ?_,
    fun hlt => ?_⟩
  · have hmem : k ∈ e.indices.takeWhile q := htake ▸ mem_indices.mpr ⟨hk, hk'⟩
    exact List.mem_takeWhile_imp hmem
  · have hhead := List.head?_dropWhile_not q e.indices
    rw [hdrop, indices_cons hlt] at hhead
    exact hhead

namespace Nesting

variable {n : Nesting} {t : TaggedText} {e : Extent} {i : Nat}

/-! ### Levels -/

/-- The depth before an index of an extent. -/
def depthBefore (n : Nesting) (t : TaggedText) (e : Extent) (i : Nat) : Nat :=
  ((Extent.mk e.start i).indices.map t.role?).foldl n.after 0

/-- The level at which the token at an index of an extent stands. -/
def levelAt (n : Nesting) (t : TaggedText) (e : Extent) (i : Nat) : Nat :=
  n.level (n.depthBefore t e i) (t.role? i)

theorem depthBefore_succ (hi : e.start ≤ i) :
    n.depthBefore t e (i + 1) = n.after (n.depthBefore t e i) (t.role? i) := by
  rw [depthBefore, Extent.indices_succ hi, List.map_append, List.foldl_append]
  rfl

/-- A walk visits tokens with their levels. -/
theorem walk_eq_map (n : Nesting) (t : TaggedText) (e : Extent) :
    n.walk t e = e.indices.map fun i => (i, n.levelAt t e i) := by
  have hfrom : ∀ i, e.start ≤ i →
      n.walkFrom t (n.depthBefore t e i) (Extent.mk i e.stop).indices =
        (Extent.mk i e.stop).indices.map fun j => (j, n.levelAt t e j) := by
    intro i
    refine Extent.indices_induction e.stop (motive := fun i is => e.start ≤ i →
      n.walkFrom t (n.depthBefore t e i) is = is.map fun j => (j, n.levelAt t e j)) ?_ ?_ i
    · exact fun _ _ _ => rfl
    · intro start _ ih hstart
      rw [walkFrom, List.map_cons, ← depthBefore_succ hstart, ih (Nat.le_succ_of_le hstart)]
      rfl
  have hzero : n.depthBefore t e e.start = 0 := by
    rw [depthBefore, Extent.indices_eq_nil (Nat.le_refl _)]
    rfl
  rw [walk, ← hzero]
  exact hfrom e.start (Nat.le_refl _)

end Nesting

namespace TaggedText

variable {t : TaggedText} {p : Nat → Prop} {x x' : Extent} {i j : Nat}

/-! ### First runs -/

/-- An index has a property and is reached from another one through indices that have it and
blanks. -/
def Reaches (t : TaggedText) (p : Nat → Prop) (i j : Nat) : Prop :=
  i ≤ j ∧ p j ∧ ∀ k, i < k → k < j → p k ∨ t.isBlankAt k = true

/-- An extent starts at the first index with a property and ends after the last one that is reached
from there. -/
structure IsFirstRun (t : TaggedText) (p : Nat → Prop) (x : Extent) : Prop where
  start : p x.start
  least : ∀ i, p i → x.start ≤ i
  last : ∃ last, x.stop = last + 1 ∧ t.Reaches p x.start last
  greatest : ∀ i, t.Reaches p x.start i → i < x.stop

theorem IsFirstRun.unique (h : t.IsFirstRun p x) (h' : t.IsFirstRun p x') : x = x' := by
  obtain ⟨a, b⟩ := x
  obtain ⟨a', b'⟩ := x'
  obtain rfl : a = a' := Nat.le_antisymm (h.least a' h'.start) (h'.least a h.start)
  obtain ⟨last, rfl, hlast⟩ := h.last
  obtain ⟨last', rfl, hlast'⟩ := h'.last
  have hle := h.greatest last' hlast'
  have hle' := h'.greatest last hlast
  rw [Nat.le_antisymm (Nat.le_of_lt_succ hle) (Nat.le_of_lt_succ hle')]

/-- A run holds what counts and blanks. -/
theorem IsFirstRun.or_of_mem (h : t.IsFirstRun p x) (hi : i ∈ x.indices) :
    p i ∨ t.isBlankAt i = true := by
  obtain ⟨hstart, hstop⟩ := Extent.mem_indices.mp hi
  obtain ⟨last, hlast, -, hplast, hbetween⟩ := h.last
  rcases Nat.eq_or_lt_of_le hstart with rfl | hlt
  · exact .inl h.start
  · rcases Nat.eq_or_lt_of_le (Nat.le_of_lt_succ (hlast ▸ hstop)) with rfl | hlt'
    · exact .inl hplast
    · exact hbetween i hlt hlt'

end TaggedText

namespace ParameterList

variable {t : TaggedText} {n : Nesting} {r : Role} {e x : Extent} {i : Nat}

/-- Whether a token of an extent has a role and stands at level zero. -/
def StandsOut (t : TaggedText) (n : Nesting) (r : Role) (e : Extent) (i : Nat) : Prop :=
  i ∈ e.indices ∧ n.levelAt t e i = 0 ∧ t.role? i = some r

/-- The last index that passes a test up to a bound, from one that passes on. -/
theorem exists_last {q : Nat → Bool} {m stop : Nat} (hm : q m = true) (hlt : m < stop) :
    ∃ last, (((Extent.mk (m + 1) stop).indices.filter q).getLast?).getD m = last ∧ m ≤ last ∧
      last < stop ∧ q last = true ∧ ∀ k, m ≤ k → k < stop → q k = true → k ≤ last := by
  cases hlast : ((Extent.mk (m + 1) stop).indices.filter q).getLast? with
  | none =>
    refine ⟨m, rfl, Nat.le_refl m, hlt, hm, fun k hk hk' hq => ?_⟩
    by_contra hgt
    have hmem : k ∈ (Extent.mk (m + 1) stop).indices.filter q :=
      List.mem_filter.mpr ⟨Extent.mem_indices.mpr ⟨by simp only; omega, hk'⟩, hq⟩
    rw [List.getLast?_eq_none_iff.mp hlast] at hmem
    exact List.not_mem_nil hmem
  | some last =>
    obtain ⟨hmem, hq, hgreatest⟩ :=
      TaggedText.le_of_getLast?_filter (Extent.pairwise_indices _) hlast
    obtain ⟨hstart, hstop⟩ := Extent.mem_indices.mp hmem
    refine ⟨last, rfl, Nat.le_of_succ_le hstart, hstop, hq, fun k hk hk' hqk => ?_⟩
    rcases Nat.eq_or_lt_of_le hk with rfl | hlt'
    · exact Nat.le_of_succ_le hstart
    · exact hgreatest k (Extent.mem_indices.mpr ⟨hlt', hk'⟩) hqk

/-- From an index that passes a test, the last one that is reached is the last one that passes
before the first that neither passes nor is blank. -/
theorem exists_reached {p : Nat → Prop} {q : Nat → Bool} {m stop : Nat}
    (hp : ∀ i, m ≤ i → (p i ↔ i < stop ∧ q i = true)) (hm : p m) :
    ∃ last, ((((Extent.mk (m + 1) stop).indices.takeWhile fun i => q i || t.isBlankAt i).filter
        q).getLast?).getD m = last ∧
      t.Reaches p m last ∧ ∀ i, t.Reaches p m i → i ≤ last := by
  obtain ⟨hlt, hqm⟩ := (hp m (Nat.le_refl m)).mp hm
  obtain ⟨bound, hbound, hle, htake, -, hpass, hfail⟩ :=
    (Extent.mk (m + 1) stop).span_indices fun i => q i || t.isBlankAt i
  simp only [Nat.max_eq_right (Nat.succ_le_of_lt hlt)] at hbound hle hpass hfail
  obtain ⟨last, hlast, hmlast, hlastbound, hqlast, hgreatest⟩ := exists_last hqm hbound
  rw [htake]
  refine ⟨last, hlast, ⟨hmlast, (hp last hmlast).mpr ⟨by omega, hqlast⟩, ?_⟩, ?_⟩
  · intro k hk hk'
    rcases Bool.or_eq_true_iff.mp (hpass k hk (by omega)) with hq | hblank
    · exact .inl ((hp k (by omega)).mpr ⟨by omega, hq⟩)
    · exact .inr hblank
  · rintro i ⟨hi, hpi, hbetween⟩
    obtain ⟨histop, hqi⟩ := (hp i hi).mp hpi
    -- the index that ends the run is not passed on the way
    have hibound : i < bound := by
      by_contra hge
      have hstopped := hfail (by omega)
      rcases Nat.eq_or_lt_of_le (Nat.le_of_not_lt hge) with rfl | hgt
      · simp [hqi] at hstopped
      · rcases hbetween bound hbound hgt with hpb | hblank
        · simp [((hp bound (by omega)).mp hpb).2] at hstopped
        · simp [hblank] at hstopped
    exact hgreatest i hi hibound hqi

/-- **Runs.** Either there is nothing to find, or the first run is found. -/
theorem firstRun?_cases (t : TaggedText) (n : Nesting) (r : Role) (e : Extent) :
    (firstRun? t n r e = none ∧ ∀ i, ¬ StandsOut t n r e i) ∨
      ∃ x, firstRun? t n r e = some x ∧ t.IsFirstRun (StandsOut t n r e) x := by
  set q : Nat → Bool := fun i => inRun t r (i, n.levelAt t e i)
  have hstands : ∀ i, e.start ≤ i → (StandsOut t n r e i ↔ i < e.stop ∧ q i = true) := by
    intro i hi
    simp [q, inRun, StandsOut, TaggedText.hasRole, hi]
  obtain ⟨m, hm, -, -, hdrop, hbefore, hsome⟩ := e.span_indices fun i => !q i
  have hleast : ∀ i, StandsOut t n r e i → m ≤ i := by
    intro i hi
    have hstart := (Extent.mem_indices.mp hi.1).1
    by_contra hlt
    have hfalse := hbefore i hstart (Nat.lt_of_not_le hlt)
    simp [((hstands i hstart).mp hi).2] at hfalse
  rw [firstRun?, Nesting.walk_eq_map, List.dropWhile_map]
  simp only [Function.comp_def]
  rw [hdrop]
  rcases Nat.lt_or_ge m e.stop with hlt | hge
  · have hqm : q m = true := by simpa using hsome hlt
    have hpm : StandsOut t n r e m := (hstands m hm).mpr ⟨hlt, hqm⟩
    obtain ⟨last, hlast, hreached, hgreatest⟩ :=
      exists_reached (t := t) (fun i hi => hstands i (Nat.le_trans hm hi)) hpm
    refine .inr ⟨⟨m, last + 1⟩, ?_, hpm, hleast, ⟨last, rfl, hreached⟩, ?_⟩
    · rw [Extent.indices_cons hlt, List.map_cons, ← hlast]
      simp only [List.takeWhile_map, List.filter_map, List.getLast?_map, Option.getD_map,
        Function.comp_def]
      rfl
    · exact fun i hi => Nat.lt_succ_of_le (hgreatest i hi)
  · rw [Extent.indices_eq_nil hge]
    refine .inl ⟨rfl, fun i hi => ?_⟩
    have hstop := (Extent.mem_indices.mp hi.1).2
    have hmi := hleast i hi
    omega

theorem firstRun?_eq_some_iff :
    firstRun? t n r e = some x ↔ t.IsFirstRun (StandsOut t n r e) x := by
  rcases firstRun?_cases t n r e with ⟨hnone, hnot⟩ | ⟨x', hsome, hrun⟩
  · refine iff_of_false (by simp [hnone]) fun h => hnot _ h.start
  · rw [hsome, Option.some_inj]
    exact ⟨fun h => h ▸ hrun, fun h => hrun.unique h⟩

theorem isSome_firstRun?_iff :
    (firstRun? t n r e).isSome = true ↔ ∃ i, StandsOut t n r e i := by
  rcases firstRun?_cases t n r e with ⟨hnone, hnot⟩ | ⟨x, hsome, hrun⟩
  · exact iff_of_false (by simp [hnone]) fun ⟨i, hi⟩ => hnot i hi
  · exact iff_of_true (by simp [hsome]) ⟨_, hrun.start⟩

end ParameterList

/-! ### Levels of well-nested tokens -/

namespace Nesting

variable {n : Nesting} {t : TaggedText} {e : Extent} {i : Nat} {groups groups' : List GroupKind}
  {roles : List (Option Role)}

theorem foldl_after_depthOf (h : passAll? groups roles = some groups') :
    roles.foldl n.after (n.depthOf groups) = n.depthOf groups' := by
  induction roles generalizing groups with
  | nil => exact congrArg n.depthOf (Option.some.inj h)
  | cons role roles ih =>
    obtain ⟨next, hnext, hrest⟩ := Option.bind_eq_some_iff.mp h
    rw [List.foldl_cons, (pass_depthOf hnext).2, ih hrest]

/-- **Levels of well-nested tokens.** A token stands at the number of groups around it that
count. -/
theorem levelAt_eq_depthOf (h : t.WellNested e) (hi : i ∈ e.indices) :
    n.levelAt t e i = n.depthOf (t.groupsAround e i) := by
  obtain ⟨groups, hbefore, hrest⟩ := h.passAll? hi
  rw [Extent.indices_cons (Extent.mem_indices.mp hi).2] at hrest
  obtain ⟨next, hnext, -⟩ := Option.bind_eq_some_iff.mp hrest
  have hdepth : n.depthBefore t e i = n.depthOf groups := foldl_after_depthOf hbefore
  rw [levelAt, hdepth, (pass_depthOf hnext).1, TaggedText.groupsAround_eq hbefore]

end Nesting

namespace ParameterList

variable {t : TaggedText} {e : Extent} {i : Nat}

/-! ### Names and types -/

/-- Whether a token of a parameter may be part of its name: it is a name, and no group that modifies
a type and no parameter list is around it. Groups that modify the parameter may be. -/
def BelongsToName (t : TaggedText) (e : Extent) (i : Nat) : Prop :=
  i ∈ e.indices ∧ t.role? i = some .name ∧
    .type ∉ t.groupsAround e i ∧ .list ∉ t.groupsAround e i

/-- Whether a token of a parameter may be part of its type, without what modifies it: it is a type's
name, and no group is around it. -/
def BelongsToBaseType (t : TaggedText) (e : Extent) (i : Nat) : Prop :=
  i ∈ e.indices ∧ t.role? i = some .typeName ∧ t.groupsAround e i = []

theorem standsOut_name_iff (h : t.WellNested e) :
    StandsOut t .exceptParamGroups .name e i ↔ BelongsToName t e i := by
  refine and_congr_right fun hi => ?_
  rw [Nesting.levelAt_eq_depthOf h hi, Nesting.depthOf, List.countP_eq_zero, and_comm]
  refine and_congr_right fun _ => ?_
  constructor
  · intro hnone
    exact ⟨fun htype => hnone _ htype rfl, fun hlist => hnone _ hlist rfl⟩
  · rintro ⟨htype, hlist⟩ kind hkind
    cases kind with
    | list => exact absurd hkind hlist
    | type => exact absurd hkind htype
    | param => decide

theorem standsOut_typeName_iff (h : t.WellNested e) :
    StandsOut t .all .typeName e i ↔ BelongsToBaseType t e i := by
  refine and_congr_right fun hi => ?_
  rw [Nesting.levelAt_eq_depthOf h hi, Nesting.depthOf, List.countP_eq_zero, and_comm,
    List.eq_nil_iff_forall_not_mem]
  simp [Nesting.countsKind]

/-- **Where names and types are found.** The name of a parameter whose tokens are well nested is the
first run of its names outside of all type groups and parameter lists, and there is one if there is
such a name. Without implied types, the type is the first run of its types' names outside of all
groups, and there is one if there is such a type's name. -/
theorem name?_baseType?_firstRun {l : ParameterList} {index : Nat} {implied : Bool}
    (he : l.parameter? index = some e) (h : t.WellNested e)
    (himplied : (implied && l.impliesTypes) = false) :
    ((l.name? t index).isSome = true ↔ ∃ i, BelongsToName t e i) ∧
    (∀ x, l.name? t index = some x ↔ t.IsFirstRun (BelongsToName t e) x) ∧
    ((l.baseType? t index implied).isSome = true ↔ ∃ i, BelongsToBaseType t e i) ∧
    ∀ x, l.baseType? t index implied = some x ↔ t.IsFirstRun (BelongsToBaseType t e) x := by
  have hname : StandsOut t .exceptParamGroups .name e = BelongsToName t e :=
    funext fun _ => propext (standsOut_name_iff h)
  have htype : StandsOut t .all .typeName e = BelongsToBaseType t e :=
    funext fun _ => propext (standsOut_typeName_iff h)
  have hbase : l.baseType? t index implied = firstRun? t .all .typeName e :=
    (baseType?_of_not_implied himplied).trans (baseType?_own he)
  rw [name?, he, Option.bind_some, hbase, ← hname, ← htype]
  exact ⟨isSome_firstRun?_iff, fun x => firstRun?_eq_some_iff, isSome_firstRun?_iff,
    fun x => firstRun?_eq_some_iff⟩

end ParameterList

namespace Sample

/-- `f(unsigned long<T n> [*cb id](int q))`. Angles modify the type, and brackets modify the
parameter and wrap its name, which is two words like the type. -/
def wordyParameter : TaggedText :=
  TaggedText.mk #[]
    |>.raw "f" |>.openList
    |>.typeName "unsigned" |>.space |>.typeName "long"
    |>.tagged "<" .typeGroupOpen |>.typeName "T" |>.space |>.name "n" |>.tagged ">" .typeGroupClose
    |>.space |>.tagged "[" .paramGroupOpen |>.tagged "*" .paramModifier
    |>.name "cb" |>.space |>.name "id" |>.tagged "]" .paramGroupClose
    |>.openList |>.typeName "int" |>.space |>.name "q" |>.closeList
    |>.closeList

/-- The parameters of `wordyParameter`. -/
def wordyList : ParameterList :=
  ParameterList.analyze wordyParameter wordyParameter.full false false

/-- Neither the words in angles nor those of the inner list are found. -/
theorem name?_baseType?_wordyParameter :
    wordyParameter.WellNested ⟨2, 22⟩ ∧
      wordyParameter.IsFirstRun (ParameterList.BelongsToName wordyParameter ⟨2, 22⟩) ⟨13, 16⟩ ∧
      wordyParameter.extentText ⟨13, 16⟩ = "cb id" ∧
      wordyParameter.IsFirstRun (ParameterList.BelongsToBaseType wordyParameter ⟨2, 22⟩) ⟨2, 5⟩ ∧
      wordyParameter.extentText ⟨2, 5⟩ = "unsigned long" := by
  have hparameter : wordyList.parameter? 0 = some ⟨2, 22⟩ := by decide
  have hnested : wordyParameter.WellNested ⟨2, 22⟩ := by decide
  have himplied : (true && wordyList.impliesTypes) = false := by decide
  obtain ⟨-, hname, -, htype⟩ :=
    ParameterList.name?_baseType?_firstRun hparameter hnested himplied
  exact ⟨hnested, (hname _).mp (by decide), by decide, (htype _).mp (by decide), by decide⟩

end Sample

end DeclOutline
