import DeclOutline.Proofs.FirstRuns
import DeclOutline.Proofs.Heads
import DeclOutline.Proofs.ImpliedTypes
import DeclOutline.Proofs.Stitching

/-!
# What a full type hands on

A parameter without a type of its own has the full type of an earlier one, without what modifies
the earlier parameter. So it should have nothing that the earlier one has not. All that a parameter
lends it keeps itself, but for names: the full type of its own leaves out each name that a group
around it makes part of the declarator, as `cb` in `int (*cb)`, and where those groups are not
counted, as in the type that is handed on, nothing says that the name is one of these. If the name
moreover stands inside a group that modifies the type, it is handed on and not kept.

Counters are compared along the tokens of a parameter, for the full type that is kept and the one
that is lent. This needs no balance of groups. Where tokens are well nested, the groups around a
token say when a name is lost.

## Main definitions

* `TaggedText.openBefore` — how many groups of a kind are open, other kinds aside
* `ParameterList.takenAt` — whether a full type takes a token
* `ParameterList.WrappedInBoth` — a name inside groups of both kinds

## Main results

* `ParameterList.typeIndices_eq_filter_takenAt` — a full type as a filter, however text is tagged
* `ParameterList.takenAt_of_lent` — what is lent is kept, but for such names
* `ParameterList.solidsAt_lent_sublist_iff` — the names that are lent and not kept
* `ParameterList.solids_inherited_sublist` — how far the full type that is handed on is a part of
  the one that is kept
-/

namespace DeclOutline

open GroupKind

namespace TaggedText

variable {t : TaggedText} {is : List Nat} {i : Nat} {p q : Nat → Bool}

/-! ### Tokens that are not blank -/

/-- The token at an index, unless it is blank. -/
def solid? (t : TaggedText) (i : Nat) : Option Token :=
  (t.token? i).filter fun token => !token.isBlank

theorem solidsAt_eq_filterMap (t : TaggedText) (is : List Nat) :
    t.solidsAt is = is.filterMap t.solid? :=
  List.filter_filterMap

theorem isSome_solid? (t : TaggedText) (i : Nat) : (t.solid? i).isSome = decide (t.IsSolid i) := by
  rw [Bool.eq_iff_iff, decide_eq_true_eq, isSolid_iff, solid?]
  cases t.token? i <;> simp

/-- Tokens are picked by their roles before or after blanks are left out. -/
theorem filter_solidsAt (t : TaggedText) (is : List Nat) (q : Option Role → Bool) :
    (t.solidsAt is).filter (fun token => q token.role) =
      t.solidsAt (is.filter fun i => q (t.role? i)) := by
  rw [solidsAt_eq_filterMap, solidsAt_eq_filterMap, List.filter_filterMap, List.filterMap_filter]
  refine List.filterMap_congr fun i _ => ?_
  rw [solid?, role?]
  cases t.token? i with
  | none => simp
  | some token =>
    cases hblank : token.isBlank <;> cases hq : q token.role <;> simp [Option.filter, hblank, hq]

/-- What is picked by a stronger test, blanks aside, is a part of what is picked by a weaker one. -/
theorem solidsAt_filter_sublist (h : ∀ i ∈ is, t.IsSolid i → p i = true → q i = true) :
    (t.solidsAt (is.filter p)).Sublist (t.solidsAt (is.filter q)) := by
  have hcongr : t.solidsAt (is.filter p) = t.solidsAt ((is.filter q).filter p) := by
    rw [List.filter_filter]
    simp only [solidsAt_eq_filterMap, List.filterMap_filter]
    refine List.filterMap_congr fun i hi => ?_
    by_cases hsolid : t.IsSolid i
    · have := h i hi hsolid
      grind
    · have hnone : t.solid? i = none := by
        rw [← Option.isNone_iff_eq_none, ← Option.isSome_eq_false_iff, isSome_solid?]
        exact decide_eq_false hsolid
      simp [hnone]
  rw [hcongr]
  exact (List.filter_sublist.filterMap t.token?).filter _

theorem length_solidsAt (t : TaggedText) (is : List Nat) :
    (t.solidsAt is).length = (is.filter fun i => t.IsSolid i).length := by
  rw [solidsAt_eq_filterMap, List.length_filterMap_eq_countP, List.countP_eq_length_filter]
  simp only [isSome_solid?]

/-- If the weaker test picks no more tokens of a role, it picks the same ones. -/
theorem of_solidsAt_filter_sublist {r : Role}
    (hqp : ∀ i ∈ is, t.role? i = some r → q i = true → p i = true)
    (h : (t.solidsAt (is.filter p)).Sublist (t.solidsAt (is.filter q))) (hi : i ∈ is)
    (hsolid : t.IsSolid i) (hrole : t.role? i = some r) (hp : p i = true) : q i = true := by
  have hlen := (h.filter fun token => token.role == some r).length_le
  rw [filter_solidsAt _ _ (· == some r), filter_solidsAt _ _ (· == some r), length_solidsAt,
    length_solidsAt] at hlen
  set picked := ((is.filter p).filter fun i => t.role? i == some r).filter fun i => t.IsSolid i
  have hq : ((is.filter q).filter fun i => t.role? i == some r).filter (fun i => t.IsSolid i) =
      picked.filter q := by
    simp only [picked, List.filter_filter]
    refine List.filter_congr fun i hi => ?_
    have := hqp i hi
    grind
  rw [hq] at hlen
  have hall := List.filter_eq_self.mp (List.filter_sublist.eq_of_length_le hlen)
  exact hall i (by simp [picked, hi, hsolid, hrole, hp])

end TaggedText

/-! ### Counters along a parameter -/

/-- The number of open groups of a kind after a token, from the number before it. Groups of other
kinds are passed over, and where none is open there is nothing to close. -/
def GroupKind.openAfter (kind : GroupKind) (count : Nat) (role : Option Role) : Nat :=
  if role.bind opened? = some kind then count + 1
  else if role.bind closed? = some kind then count - 1
  else count

/-- The number of groups of a kind that are open before an index of an extent, however groups of
different kinds are opened and closed. -/
def TaggedText.openBefore (t : TaggedText) (kind : GroupKind) (e : Extent) (i : Nat) : Nat :=
  ((Extent.mk e.start i).indices.map t.role?).foldl kind.openAfter 0

theorem TaggedText.openBefore_succ {t : TaggedText} {kind : GroupKind} {e : Extent} {i : Nat}
    (hi : e.start ≤ i) :
    t.openBefore kind e (i + 1) = kind.openAfter (t.openBefore kind e i) (t.role? i) := by
  rw [openBefore, Extent.indices_succ hi, List.map_append, List.foldl_append]
  rfl

namespace ParameterList

variable {t : TaggedText} {e : Extent} {own : Bool} {i : Nat}

/-- The counters of a full type before an index. -/
def groupsCounted (t : TaggedText) (own : Bool) (e : Extent) (i : Nat) : Groups :=
  (Extent.mk e.start i).indices.foldl
    (fun g j => g.after own (Nesting.all.levelAt t e j) (t.role? j)) {}

/-- Whether the counters of a full type take the token at an index. -/
def takenAt (t : TaggedText) (own : Bool) (e : Extent) (i : Nat) : Bool :=
  (groupsCounted t own e i).takes own (Nesting.all.levelAt t e i) (t.role? i)

theorem groupsCounted_succ (hi : e.start ≤ i) :
    groupsCounted t own e (i + 1) =
      (groupsCounted t own e i).after own (Nesting.all.levelAt t e i) (t.role? i) := by
  rw [groupsCounted, Extent.indices_succ hi, List.foldl_append]
  rfl

/-- A full type collects the indices that its counters take. -/
theorem typeIndices_eq_filter_takenAt (t : TaggedText) (own : Bool) (e : Extent) :
    typeIndices t own e = e.indices.filter (takenAt t own e) := by
  have hfrom : ∀ i, e.start ≤ i →
      typeIndicesFrom t own (groupsCounted t own e i)
          ((Extent.mk i e.stop).indices.map fun j => (j, Nesting.all.levelAt t e j)) =
        (Extent.mk i e.stop).indices.filter (takenAt t own e) := by
    intro i
    refine Extent.indices_induction e.stop (motive := fun i is => e.start ≤ i →
      typeIndicesFrom t own (groupsCounted t own e i)
        (is.map fun j => (j, Nesting.all.levelAt t e j)) = is.filter (takenAt t own e)) ?_ ?_ i
    · exact fun _ _ _ => rfl
    · intro start _ ih hstart
      rw [List.map_cons, typeIndicesFrom, ← groupsCounted_succ hstart,
        ih (Nat.le_succ_of_le hstart), List.filter_cons]
      rfl
  have hzero : groupsCounted t own e e.start = {} := by
    rw [groupsCounted, Extent.indices_eq_nil (Nat.le_refl _)]
    rfl
  rw [typeIndices, Nesting.walk_eq_map, ← hzero]
  exact hfrom e.start (Nat.le_refl _)

/-! ### Counters with and without the parameter's own groups -/

namespace Groups

variable {lent kept : Groups} {types params level : Nat} {role : Option Role}

/-- The counters of a type that is lent stay below those of the type that is kept, and both below
the numbers of open groups. -/
structure Below (lent kept : Groups) (types params : Nat) : Prop where
  params_lent : lent.params = 0
  types_lent : lent.types ≤ kept.types
  types_open : lent.types ≤ types
  params_open : kept.params ≤ params

theorem Below.inside (h : Below lent kept types params) (hinside : lent.inside = true) :
    0 < lent.types ∧ kept.inside = true := by
  have htypes : 0 < lent.types := by simpa [Groups.inside, h.params_lent] using hinside
  have hkept := Nat.lt_of_lt_of_le htypes h.types_lent
  exact ⟨htypes, by simp [Groups.inside, hkept]⟩

/-- No token changes that. -/
theorem Below.after (h : Below lent kept types params) (level : Nat) (role : Option Role) :
    Below (lent.after false level role) (kept.after true level role)
      (GroupKind.type.openAfter types role) (GroupKind.param.openAfter params role) := by
  have hinside := h.inside
  obtain ⟨h₁, h₂, h₃, h₄⟩ := h
  cases role with
  | none => exact ⟨h₁, h₂, h₃, h₄⟩
  | some r =>
    cases r with
    | typeGroupOpen =>
      have hopen : GroupKind.type.openAfter types (some .typeGroupOpen) = types + 1 := rfl
      have hparams : GroupKind.param.openAfter params (some .typeGroupOpen) = params := rfl
      rw [hopen, hparams, Groups.after, Groups.after]
      split
      · next hlent =>
        have hkept : (level == 0 || kept.inside) = true := by
          rcases Bool.or_eq_true_iff.mp hlent with hlevel | hlent
          · simp [hlevel]
          · simp [(hinside hlent).2]
        rw [if_pos hkept]
        exact ⟨h₁, Nat.succ_le_succ h₂, Nat.succ_le_succ h₃, h₄⟩
      · split
        · exact ⟨h₁, Nat.le_succ_of_le h₂, Nat.le_succ_of_le h₃, h₄⟩
        · exact ⟨h₁, h₂, Nat.le_succ_of_le h₃, h₄⟩
    | typeGroupClose => exact ⟨h₁, Nat.sub_le_sub_right h₂ 1, Nat.sub_le_sub_right h₃ 1, h₄⟩
    | paramGroupOpen =>
      have hopen : GroupKind.param.openAfter params (some .paramGroupOpen) = params + 1 := rfl
      have htypes : GroupKind.type.openAfter types (some .paramGroupOpen) = types := rfl
      have hlent : lent.after false level (some .paramGroupOpen) = lent := rfl
      rw [hopen, htypes, hlent, Groups.after]
      split
      · exact ⟨h₁, h₂, h₃, Nat.succ_le_succ h₄⟩
      · exact ⟨h₁, h₂, h₃, Nat.le_succ_of_le h₄⟩
    | paramGroupClose =>
      exact ⟨by simp [Groups.after, h₁], h₂, h₃, Nat.sub_le_sub_right h₄ 1⟩
    | _ => exact ⟨h₁, h₂, h₃, h₄⟩

/-- What is lent is kept, but for a name inside groups of both kinds. -/
theorem Below.takes (h : Below lent kept types params) (hlent : lent.takes false level role = true)
    (hname : ¬ (role = some .name ∧ 0 < types ∧ 0 < params)) :
    kept.takes true level role = true := by
  rw [takes_iff] at hlent ⊢
  rcases hlent with ⟨hinside, -⟩ | ⟨hlevel, hrole | ⟨hown, -⟩⟩
  · obtain ⟨htypes, hkept⟩ := h.inside hinside
    refine .inl ⟨hkept, fun hrole => ?_⟩
    by_contra hparams
    exact hname ⟨hrole, Nat.lt_of_lt_of_le htypes h.types_open,
      Nat.lt_of_lt_of_le (Nat.pos_of_ne_zero hparams) h.params_open⟩
  · exact .inr ⟨hlevel, .inl hrole⟩
  · exact Bool.noConfusion hown

end Groups

theorem below_groupsCounted (hi : e.start ≤ i) :
    Groups.Below (groupsCounted t false e i) (groupsCounted t true e i)
      (t.openBefore .type e i) (t.openBefore .param e i) := by
  induction i, hi using Nat.le_induction with
  | base =>
    have hnil : (Extent.mk e.start e.start).indices = [] := Extent.indices_eq_nil (Nat.le_refl _)
    simp only [groupsCounted, TaggedText.openBefore, hnil]
    exact ⟨rfl, Nat.le_refl 0, Nat.le_refl 0, Nat.le_refl 0⟩
  | succ i hi ih =>
    rw [groupsCounted_succ hi, groupsCounted_succ hi, TaggedText.openBefore_succ hi,
      TaggedText.openBefore_succ hi]
    exact ih.after _ _

/-- A name that stands inside a group that modifies the type and inside one that modifies the
parameter. -/
def WrappedInBoth (t : TaggedText) (e : Extent) (i : Nat) : Prop :=
  t.role? i = some .name ∧ 0 < t.openBefore .type e i ∧ 0 < t.openBefore .param e i

instance (t : TaggedText) (e : Extent) (i : Nat) : Decidable (WrappedInBoth t e i) :=
  inferInstanceAs (Decidable (_ ∧ _))

/-- **What is lent is kept.** However the text is tagged, what a parameter hands on of its type it
has in its own, but for names inside groups of both kinds. -/
theorem takenAt_of_lent (hi : i ∈ e.indices) (hlent : takenAt t false e i = true)
    (hname : ¬ WrappedInBoth t e i) : takenAt t true e i = true :=
  (below_groupsCounted (Extent.mem_indices.mp hi).1).takes hlent hname

/-! ### Where tokens are well nested -/

theorem belongsToType_of_lent {groups : List GroupKind} {role : Option Role}
    (h : BelongsToType false groups role) (hname : ¬ (role = some .name ∧ .param ∈ groups)) :
    BelongsToType true groups role := by
  rcases h with ⟨hnil, hrole | ⟨hown, -⟩⟩ | ⟨hout | ⟨hown, -⟩, -⟩
  · exact .inl ⟨hnil, .inl hrole⟩
  · exact Bool.noConfusion hown
  · exact .inr ⟨.inl hout, fun ⟨_, hwrapped⟩ => hname hwrapped⟩
  · exact Bool.noConfusion hown

/-- A name is lent if the outermost group around it modifies the type. -/
theorem belongsToType_lent_name_iff {groups : List GroupKind} :
    BelongsToType false groups (some .name) ↔ groups.getLast? = some .type := by
  simp [BelongsToType, OutermostModifies]

/-- A name is kept if moreover no group around it modifies the parameter. -/
theorem belongsToType_kept_name_iff {groups : List GroupKind} :
    BelongsToType true groups (some .name) ↔
      groups.getLast? = some .type ∧ .param ∉ groups := by
  rw [BelongsToType, OutermostModifies]
  constructor
  · rintro (⟨-, h⟩ | ⟨hout | ⟨-, hout⟩, hname⟩)
    · simp at h
    · exact ⟨hout, fun hparam => hname ⟨rfl, rfl, hparam⟩⟩
    · exact absurd ⟨rfl, rfl, List.mem_of_getLast? hout⟩ hname
  · rintro ⟨hout, hparam⟩
    exact .inr ⟨.inl hout, fun h => hparam h.2.2⟩

/-- **What is lent is kept where tokens are well nested.** It is, unless a name stands in a group
that modifies the parameter, and the outermost group around it modifies the type. -/
theorem solidsAt_lent_sublist_iff (t : TaggedText) (e : Extent) :
    (t.solidsAt (e.indices.filter fun k =>
        BelongsToType false (t.groupsAround e k) (t.role? k))).Sublist
      (t.solidsAt (e.indices.filter fun k =>
        BelongsToType true (t.groupsAround e k) (t.role? k))) ↔
    ∀ k ∈ e.indices, t.IsSolid k → t.role? k = some .name →
      (t.groupsAround e k).getLast? = some .type → .param ∉ t.groupsAround e k := by
  constructor
  · intro hsub k hk hsolid hrole hout
    have hkept : BelongsToType true (t.groupsAround e k) (t.role? k) := by
      refine of_decide_eq_true
        (TaggedText.of_solidsAt_filter_sublist ?_ hsub hk hsolid hrole (decide_eq_true ?_))
      · -- a name that is kept is lent
        intro m _ hrole hkept
        rw [decide_eq_true_eq, hrole] at hkept ⊢
        exact belongsToType_lent_name_iff.mpr (belongsToType_kept_name_iff.mp hkept).1
      · rw [hrole]
        exact belongsToType_lent_name_iff.mpr hout
    rw [hrole] at hkept
    exact (belongsToType_kept_name_iff.mp hkept).2
  · intro hnone
    refine TaggedText.solidsAt_filter_sublist fun k hk hsolid hlent => ?_
    rw [decide_eq_true_eq] at hlent ⊢
    refine belongsToType_of_lent hlent ?_
    rintro ⟨hrole, hparam⟩
    rw [hrole] at hlent
    exact hnone k hk hsolid hrole (belongsToType_lent_name_iff.mp hlent) hparam

/-! ### Full types that are handed on -/

variable {l : ParameterList} {index donor : Nat} {implied : Bool}

/-- Every type has a full type, made of what it collects of the parameter it comes from, whether
that parameter lies in the text or not. -/
theorem exists_solids_fullType? (hdonor : l.typeDonor? t index implied = some donor)
    (he : l.parameter? donor = some e) :
    ∃ x, l.fullType? t index implied = some x ∧
      x.solids = t.solidsAt (typeIndices t (donor == index) e) := by
  obtain ⟨hassemble, hany⟩ := fullType?_eq_assemble hdonor he
  obtain ⟨x, hx⟩ := exists_assemble hany
  refine ⟨x, hassemble.trans hx, solids_of_assemble ?_ hx⟩
  exact e.pairwise_indices.sublist (typeIndices_sublist t (donor == index) e)

/-- **What a full type hands on.** Blanks aside, the full type that a parameter has from an earlier
one is a part of the earlier one's own, in order, but for names:

* however the text is tagged, all that is not a name is there;
* all is there if no name stands inside a group that modifies the type and inside one that modifies
  the parameter;
* where tokens are well nested, all is there exactly if no name stands in such groups of which the
  outermost modifies the type. -/
theorem solids_inherited_sublist {i j : Nat} (hdonor : l.typeDonor? t i true = some j) (hlt : j < i)
    (he : l.parameter? j = some e) :
    ∃ x y, l.fullType? t i true = some x ∧ l.fullType? t j true = some y ∧
      (x.solids.filter fun token => !token.hasRole .name).Sublist y.solids ∧
      ((∀ k ∈ e.indices, t.IsSolid k → ¬ WrappedInBoth t e k) → x.solids.Sublist y.solids) ∧
      (t.WellNested e → (x.solids.Sublist y.solids ↔
        ∀ k ∈ e.indices, t.IsSolid k → t.role? k = some .name →
          (t.groupsAround e k).getLast? = some .type → .param ∉ t.groupsAround e k)) := by
  have hne : (j == i) = false := beq_false_of_ne (Nat.ne_of_lt hlt)
  obtain ⟨x, hx, hlent⟩ := exists_solids_fullType? hdonor he
  obtain ⟨y, hy, hkept⟩ := exists_solids_fullType?
    (typeDonor?_of_hasOwnType (hasOwnType_of_typeDonor? hdonor)) he
  rw [hne] at hlent
  rw [beq_self_eq_true] at hkept
  refine ⟨x, y, hx, hy, ?_, fun hnone => ?_, fun hnested => ?_⟩
  · have hnames : (x.solids.filter fun token => !token.hasRole .name) =
        t.solidsAt ((typeIndices t false e).filter fun k => !(t.role? k == some .name)) := by
      rw [hlent]
      exact t.filter_solidsAt _ fun role => !(role == some .name)
    rw [hnames, hkept, typeIndices_eq_filter_takenAt, typeIndices_eq_filter_takenAt,
      List.filter_filter]
    refine TaggedText.solidsAt_filter_sublist fun k hk _ hk' => ?_
    obtain ⟨hrole, htaken⟩ := Bool.and_eq_true_iff.mp hk'
    exact takenAt_of_lent hk htaken fun hwrapped => by simp [hwrapped.1] at hrole
  · rw [hlent, hkept, typeIndices_eq_filter_takenAt, typeIndices_eq_filter_takenAt]
    exact TaggedText.solidsAt_filter_sublist fun k hk hsolid hk' =>
      takenAt_of_lent hk hk' (hnone k hk hsolid)
  · rw [hlent, hkept, typeIndices_eq_filter hnested, typeIndices_eq_filter hnested]
    exact solidsAt_lent_sublist_iff t e

end ParameterList

namespace Sample

/-- `f(Map<(cb)> x, y)`. -/
def wrappedInAngles : TaggedText :=
  TaggedText.mk #[]
    |>.raw "f" |>.openList
    |>.typeName "Map" |>.tagged "<" .typeGroupOpen
    |>.tagged "(" .paramGroupOpen |>.name "cb" |>.tagged ")" .paramGroupClose
    |>.tagged ">" .typeGroupClose |>.space |>.name "x" |>.separator |>.space |>.name "y"
    |>.closeList

/-- The parameters of `wrappedInAngles`. -/
def wrappedInAnglesList : ParameterList :=
  ParameterList.analyze wrappedInAngles wrappedInAngles.full false true

/-- The second parameter has a name in its type that the first, where the type comes from, has
not. -/
theorem not_sublist_wrappedInAngles :
    wrappedInAnglesList.typeDonor? wrappedInAngles 1 true = some 0 ∧
      ∃ x y, wrappedInAnglesList.fullType? wrappedInAngles 1 true = some x ∧
        wrappedInAnglesList.fullType? wrappedInAngles 0 true = some y ∧
        x.text = "Map<(cb)>" ∧ y.text = "Map<()>" ∧ ¬ x.solids.Sublist y.solids := by
  have hx : (wrappedInAnglesList.fullType? wrappedInAngles 1 true).map
      (fun x => (x.text, x.solids.length)) = some ("Map<(cb)>", 6) := by decide
  have hy : (wrappedInAnglesList.fullType? wrappedInAngles 0 true).map
      (fun y => (y.text, y.solids.length)) = some ("Map<()>", 5) := by decide
  obtain ⟨x, hx, hx'⟩ := Option.map_eq_some_iff.mp hx
  obtain ⟨y, hy, hy'⟩ := Option.map_eq_some_iff.mp hy
  obtain ⟨hxtext, hxlen⟩ := Prod.mk.inj hx'
  obtain ⟨hytext, hylen⟩ := Prod.mk.inj hy'
  refine ⟨by decide, x, y, hx, hy, hxtext, hytext, fun hsub => ?_⟩
  have hlen := hsub.length_le
  omega

/-- `f(int <K [> *] x, y)`. The angle is closed inside the bracket. -/
def crossedGroups : TaggedText :=
  TaggedText.mk #[]
    |>.raw "f" |>.openList
    |>.typeName "int" |>.space |>.tagged "<" .typeGroupOpen |>.raw "K" |>.space
    |>.tagged "[" .paramGroupOpen |>.tagged ">" .typeGroupClose |>.space
    |>.tagged "*" .paramModifier |>.tagged "]" .paramGroupClose |>.space
    |>.name "x" |>.separator |>.space |>.name "y"
    |>.closeList

/-- The parameters of `crossedGroups`. -/
def crossedGroupsList : ParameterList :=
  ParameterList.analyze crossedGroups crossedGroups.full false true

/-- What is handed on is all there where groups cross, and where a name stands inside groups of both
kinds, but the outermost modifies the parameter. -/
theorem solids_inherited_crossedGroups_nestedGroups :
    ¬ crossedGroups.WellNested ⟨2, 14⟩ ∧
      (∃ x y, crossedGroupsList.fullType? crossedGroups 1 true = some x ∧
        crossedGroupsList.fullType? crossedGroups 0 true = some y ∧
        x.text = "int <K [>" ∧ x.solids.Sublist y.solids) ∧
      ParameterList.WrappedInBoth nestedGroups ⟨2, 25⟩ 16 ∧
      ∃ x y, nestedGroupsList.fullType? nestedGroups 1 true = some x ∧
        nestedGroupsList.fullType? nestedGroups 0 true = some y ∧
        x.text = "Map<K (V)>" ∧ x.solids.Sublist y.solids := by
  obtain ⟨x, y, hx, hy, -, hnone, -⟩ := ParameterList.solids_inherited_sublist
    (by decide : crossedGroupsList.typeDonor? crossedGroups 1 true = some 0) (by decide)
    (by decide : crossedGroupsList.parameter? 0 = some ⟨2, 14⟩)
  obtain ⟨x', y', hx', hy', -, -, hnested⟩ := ParameterList.solids_inherited_sublist
    (by decide : nestedGroupsList.typeDonor? nestedGroups 1 true = some 0) (by decide)
    (by decide : nestedGroupsList.parameter? 0 = some ⟨2, 25⟩)
  have htext : (crossedGroupsList.fullType? crossedGroups 1 true).map Excerpt.text =
      some "int <K [>" := by decide
  have htext' : (nestedGroupsList.fullType? nestedGroups 1 true).map Excerpt.text =
      some "Map<K (V)>" := by decide
  rw [hx] at htext
  rw [hx'] at htext'
  refine ⟨by decide, ⟨x, y, hx, hy, Option.some.inj htext, hnone (by decide)⟩, by decide,
    x', y', hx', hy', Option.some.inj htext', ?_⟩
  exact (hnested (by decide)).mpr (by decide)

end Sample

end DeclOutline
