import DeclOutline.Proofs.FullTypes

/-!
# Which tokens belong to a full type

Three kinds of groups stand in a parameter: parameter lists, groups that modify the type and groups
that modify the parameter. Here the groups around a token are a list of their kinds, innermost
first, and tokens are well nested if each one that closes a group closes the innermost.

With the groups around each token at hand, it can be said of every token by itself whether it
belongs to a full type. A full type is collected without such a list: a level and two counters are
kept, and they do not know in which order the groups were opened. Where the tokens are well nested,
the counters are read off the list at every token, and the full type holds what belongs to it.

## Main definitions

* `GroupKind.passAll?` — the groups that are open after some tokens
* `Nesting.depthOf` — how many of some groups count
* `TaggedText.WellNested` — every group is closed, and none before the groups inside it
* `TaggedText.groupsAround` — the groups around a token
* `ParameterList.BelongsToType` — what makes a token a part of a full type
* `ParameterList.Groups.counting` — the counters that go with the groups around a token

## Main results

* `ParameterList.Groups.takes_counting` — the counters take a token if it belongs to the type
* `ParameterList.Groups.after_counting` — and go on to be the counters of the next token
* `ParameterList.typeIndices_eq_filter` — what a full type collects
* `ParameterList.solids_fullType?` — what a full type is made of
-/

namespace DeclOutline

/-- The kinds of groups. -/
inductive GroupKind where
  /-- Parameter lists. -/
  | list
  /-- Groups that modify a type. -/
  | type
  /-- Groups that modify a parameter. -/
  | param
deriving DecidableEq

namespace GroupKind

variable {groups groups' : List GroupKind} {role : Option Role} {roles roles' : List (Option Role)}

/-- The kind of group that a token of a role opens. -/
def opened? : Role → Option GroupKind
  | .listOpen => some list
  | .typeGroupOpen => some type
  | .paramGroupOpen => some param
  | _ => none

/-- The kind of group that a token of a role closes. -/
def closed? : Role → Option GroupKind
  | .listClose => some list
  | .typeGroupClose => some type
  | .paramGroupClose => some param
  | _ => none

/-- The groups that are open after a token, from those open before it, innermost first. There is
no answer for a token that closes a group of another kind than the innermost. -/
def pass? (groups : List GroupKind) (role : Option Role) : Option (List GroupKind) :=
  match role.bind opened?, role.bind closed? with
  | some kind, _ => some (kind :: groups)
  | none, some kind => if groups.head? = some kind then some groups.tail else none
  | none, none => some groups

/-- The groups that are open after tokens. -/
def passAll? (groups : List GroupKind) : List (Option Role) → Option (List GroupKind)
  | [] => some groups
  | role :: roles => (pass? groups role).bind fun groups' => passAll? groups' roles

/-- The groups around a token, from those open before it. A token that closes a group stands
outside of it. -/
def around (groups : List GroupKind) (role : Option Role) : List GroupKind :=
  if (role.bind closed?).isSome then groups.tail else groups

/-- A token opens a group, closes the innermost one, or does neither. -/
theorem pass?_cases (h : pass? groups role = some groups') :
    (∃ r kind, role = some r ∧ opened? r = some kind ∧ groups' = kind :: groups ∧
      around groups role = groups) ∨
    (∃ r kind, role = some r ∧ closed? r = some kind ∧ groups = kind :: groups' ∧
      around groups role = groups') ∨
    (role.bind opened? = none ∧ role.bind closed? = none ∧ groups' = groups ∧
      around groups role = groups) := by
  rw [pass?] at h
  split at h
  · next kind hopened =>
    obtain ⟨r, rfl, hr⟩ := Option.bind_eq_some_iff.mp hopened
    refine .inl ⟨r, kind, rfl, hr, (Option.some.inj h).symm, ?_⟩
    cases r <;> simp_all [around, opened?, closed?]
  · next kind _ hclosed =>
    obtain ⟨r, rfl, hr⟩ := Option.bind_eq_some_iff.mp hclosed
    split at h
    · next hhead =>
      obtain ⟨rest, rfl⟩ := List.head?_eq_some_iff.mp hhead
      obtain rfl := Option.some.inj h
      exact .inr (.inl ⟨r, kind, rfl, hr, rfl, by simp [around, hr]⟩)
    · simp at h
  · next hopened hclosed =>
    exact .inr (.inr ⟨hopened, hclosed, (Option.some.inj h).symm, by simp [around, hclosed]⟩)

theorem passAll?_append :
    passAll? groups (roles ++ roles') = (passAll? groups roles).bind (passAll? · roles') := by
  induction roles generalizing groups with
  | nil => rfl
  | cons role roles ih =>
    rw [List.cons_append, passAll?, passAll?, Option.bind_assoc]
    exact congrArg _ (funext fun _ => ih)

/-- Tokens without a role open and close nothing. -/
theorem passAll?_of_forall_eq_none (h : ∀ role ∈ roles, role = none) :
    passAll? groups roles = some groups := by
  induction roles with
  | nil => rfl
  | cons role roles ih =>
    obtain ⟨hrole, hroles⟩ := List.forall_mem_cons.mp h
    rw [hrole]
    exact ih hroles

end GroupKind

open GroupKind

namespace Nesting

variable {n : Nesting} {groups groups' : List GroupKind} {role : Option Role}

/-- Whether groups of a kind count. -/
def countsKind : Nesting → GroupKind → Bool
  | all, _ => true
  | exceptParamGroups, kind => kind != .param

/-- How many of some groups count. -/
def depthOf (n : Nesting) (groups : List GroupKind) : Nat :=
  groups.countP n.countsKind

theorem depthOf_cons (n : Nesting) (kind : GroupKind) (groups : List GroupKind) :
    n.depthOf (kind :: groups) = n.depthOf groups + if n.countsKind kind then 1 else 0 :=
  List.countP_cons

theorem opensAt_eq (n : Nesting) (role : Option Role) :
    n.opensAt role = (role.bind opened?).any n.countsKind := by
  cases role with
  | none => rfl
  | some r => cases n <;> cases r <;> rfl

theorem closesAt_eq (n : Nesting) (role : Option Role) :
    n.closesAt role = (role.bind closed?).any n.countsKind := by
  cases role with
  | none => rfl
  | some r => cases n <;> cases r <;> rfl

/-- Along well-nested tokens the depth is the number of open groups that count, and the level the
number of groups around a token. -/
theorem pass_depthOf (h : pass? groups role = some groups') :
    n.level (n.depthOf groups) role = n.depthOf (around groups role) ∧
      n.after (n.depthOf groups) role = n.depthOf groups' := by
  rw [level, after, opensAt_eq, closesAt_eq]
  rcases pass?_cases h with ⟨r, kind, rfl, hr, rfl, haround⟩ | ⟨r, kind, rfl, hr, rfl, haround⟩ |
    ⟨hopened, hclosed, rfl, haround⟩ <;> rw [haround]
  · have hclosed : closed? r = none := by cases r <;> simp_all [opened?, closed?]
    cases hkind : n.countsKind kind <;> simp [hr, hclosed, hkind, depthOf_cons]
  · have hopened : opened? r = none := by cases r <;> simp_all [opened?, closed?]
    cases hkind : n.countsKind kind <;> simp [hr, hopened, hkind, depthOf_cons]
  · simp [hopened, hclosed]

/-- Where all groups count, the depth is the number of open groups. -/
theorem pass_length (h : pass? groups role = some groups') :
    all.level groups.length role = (around groups role).length ∧
      all.after groups.length role = groups'.length := by
  have hall : ∀ groups, all.depthOf groups = groups.length := fun groups =>
    congrFun List.countP_true groups
  simpa only [hall] using pass_depthOf (n := all) h

end Nesting

namespace TaggedText

variable {t : TaggedText} {e : Extent} {i : Nat} {groups : List GroupKind}

/-- Every token of an extent that closes a group closes the innermost one, and no group stays
open. -/
def WellNested (t : TaggedText) (e : Extent) : Prop :=
  passAll? [] (e.indices.map t.role?) = some []

instance (t : TaggedText) (e : Extent) : Decidable (t.WellNested e) :=
  inferInstanceAs (Decidable (_ = _))

/-- The groups of an extent that are open before an index. -/
def groupsBefore? (t : TaggedText) (e : Extent) (i : Nat) : Option (List GroupKind) :=
  passAll? [] ((Extent.mk e.start i).indices.map t.role?)

/-- The groups of an extent around the token at an index, innermost first. -/
def groupsAround (t : TaggedText) (e : Extent) (i : Nat) : List GroupKind :=
  around ((t.groupsBefore? e i).getD []) (t.role? i)

theorem groupsAround_eq (h : t.groupsBefore? e i = some groups) :
    t.groupsAround e i = around groups (t.role? i) := by
  rw [groupsAround, h, Option.getD_some]

theorem groupsBefore?_succ (hi : e.start ≤ i) :
    t.groupsBefore? e (i + 1) = (t.groupsBefore? e i).bind (pass? · (t.role? i)) := by
  rw [groupsBefore?, Extent.indices_succ hi, List.map_append, passAll?_append]
  refine congrArg _ (funext fun groups => ?_)
  exact Option.bind_fun_some _

/-- The groups that are open before an index are closed from there on. -/
theorem WellNested.passAll? (h : t.WellNested e) (hi : i ∈ e.indices) :
    ∃ groups, t.groupsBefore? e i = some groups ∧
      GroupKind.passAll? groups ((Extent.mk i e.stop).indices.map t.role?) = some [] := by
  obtain ⟨hstart, hstop⟩ := Extent.mem_indices.mp hi
  have hsplit : e.indices = (Extent.mk e.start i).indices ++ (Extent.mk i e.stop).indices :=
    (Extent.indices_append hstart (Nat.le_of_lt hstop)).symm
  rw [WellNested, hsplit, List.map_append, passAll?_append] at h
  exact Option.bind_eq_some_iff.mp h

/-- Past the last token there are no groups that could be closed. -/
theorem WellNested.groupsAround_eq_nil (h : t.WellNested e) (hi : i ∈ e.indices)
    (hlen : t.length ≤ i) : t.groupsAround e i = [] := by
  obtain ⟨groups, hbefore, hrest⟩ := h.passAll? hi
  have hnone : ∀ j, i ≤ j → t.role? j = none := by
    intro j hj
    rw [role?, token?_eq_none (Nat.le_trans hlen hj), Option.bind_none]
  rw [passAll?_of_forall_eq_none] at hrest
  · obtain rfl := Option.some.inj hrest
    rw [groupsAround_eq hbefore, hnone i (Nat.le_refl i)]
    rfl
  · intro role hrole
    obtain ⟨j, hj, rfl⟩ := List.mem_map.mp hrole
    exact hnone j (Extent.mem_indices.mp hj).1

end TaggedText

namespace ParameterList

variable {t : TaggedText} {e : Extent} {own : Bool} {groups groups' : List GroupKind}
  {role : Option Role}

/-! ### What belongs to a full type -/

/-- Whether the outermost of some groups modifies the type, or the parameter that owns the type. -/
def OutermostModifies (own : Bool) (groups : List GroupKind) : Prop :=
  groups.getLast? = some .type ∨ own = true ∧ groups.getLast? = some .param

instance (own : Bool) (groups : List GroupKind) : Decidable (OutermostModifies own groups) :=
  inferInstanceAs (Decidable (_ ∨ _))

/-- Whether a token of a role with some groups around it belongs to the full type of a parameter,
which owns the type or is only the one it comes from. Outside of all groups these are the parts of
a type, and of what modifies a parameter that owns it. Inside a group that modifies either it is
everything but the name that a group may wrap. -/
def BelongsToType (own : Bool) (groups : List GroupKind) (role : Option Role) : Prop :=
  groups = [] ∧
      (role ∈ [some .typeName, some .typeModifier, some .typeQualifier, some .typeGroupOpen,
          some .typeGroupClose] ∨
        own = true ∧ role ∈ [some .paramModifier, some .paramGroupOpen, some .paramGroupClose]) ∨
    OutermostModifies own groups ∧ ¬ (own = true ∧ role = some .name ∧ .param ∈ groups)

instance (own : Bool) (groups : List GroupKind) (role : Option Role) :
    Decidable (BelongsToType own groups role) :=
  inferInstanceAs (Decidable (_ ∨ _))

theorem outermostModifies_cons {kind : GroupKind} (h : groups ≠ []) :
    OutermostModifies own (kind :: groups) ↔ OutermostModifies own groups := by
  rw [OutermostModifies, OutermostModifies, List.getLast?_cons_of_ne_nil h]

/-- Nothing inside a parameter list belongs to a type, if no other group is around the list. -/
theorem not_belongsToType_of_list (h : groups.getLast? = some .list) :
    ¬ BelongsToType own groups role := by
  have hne : groups ≠ [] := by
    rintro rfl
    simp at h
  simp [BelongsToType, OutermostModifies, h, hne]

/-! ### Counters in place of a list -/

namespace Groups

/-- The counters that go with the groups around a token. They stay at zero inside groups that are
not taken, and without the type the groups that modify the parameter do not count. -/
def counting (own : Bool) (groups : List GroupKind) : Groups :=
  if OutermostModifies own groups then
    { types := groups.count .type, params := if own then groups.count .param else 0 }
  else {}

theorem inside_counting :
    (counting own groups).inside = true ↔ OutermostModifies own groups := by
  rw [counting]
  split
  · next h =>
    refine iff_of_true ?_ h
    rcases h with h | ⟨rfl, h⟩
    all_goals
      have hpos := List.count_pos_iff.mpr (List.mem_of_getLast? h)
      simp [inside, hpos]
  · next h => exact iff_of_false (by decide) h

theorem params_counting (h : OutermostModifies own groups) :
    (counting own groups).params = 0 ↔ ¬ (own = true ∧ .param ∈ groups) := by
  rw [counting, if_pos h]
  cases own <;> simp [List.count_eq_zero]

/-- All tokens inside are taken but for names, and outside it depends on the role. -/
theorem takes_iff {g : Groups} {level : Nat} :
    g.takes own level role = true ↔
      g.inside = true ∧ (role = some .name → g.params = 0) ∨
      level = 0 ∧
        (role ∈ [some .typeName, some .typeModifier, some .typeQualifier, some .typeGroupOpen,
            some .typeGroupClose] ∨
          own = true ∧ role ∈ [some .paramModifier, some .paramGroupOpen]) := by
  cases role with
  | none => simp [takes]
  | some r => cases r <;> simp [takes, Role.isTypePart, and_comm]

/-- **Taken tokens.** The counters that go with the groups around a token take it if it belongs to
the type. -/
theorem takes_counting (h : pass? groups role = some groups') :
    (counting own groups).takes own (around groups role).length role = true ↔
      BelongsToType own (around groups role) role := by
  have hinside : ((counting own groups).inside = true ∧
        (role = some .name → (counting own groups).params = 0)) ↔
      OutermostModifies own groups ∧ ¬ (own = true ∧ role = some .name ∧ .param ∈ groups) := by
    rw [inside_counting]
    refine and_congr_right fun hout => ?_
    rw [params_counting hout]
    tauto
  rw [takes_iff, List.length_eq_zero_iff, hinside, BelongsToType]
  rcases pass?_cases h with ⟨r, kind, rfl, hr, rfl, haround⟩ | ⟨r, kind, rfl, hr, rfl, haround⟩ |
    ⟨-, hclosed, rfl, haround⟩ <;> rw [haround]
  · cases r <;> simp [opened?] at hr <;> simp [or_comm]
  · -- the counters still count the group that is closed here
    by_cases hnil : groups' = []
    · subst hnil
      cases r <;> simp [closed?] at hr <;> subst hr <;> simp [OutermostModifies]
    · rw [outermostModifies_cons hnil]
      cases r <;> simp [closed?] at hr <;> simp [hnil]
  · have hne : role ≠ some .paramGroupClose := by
      rintro rfl
      simp [closed?] at hclosed
    simp [hne, or_comm]

/-- **Counters along a text.** After a token the counters go with the groups that are open then. -/
theorem after_counting (h : pass? groups role = some groups') :
    (counting own groups).after own (around groups role).length role = counting own groups' := by
  rcases pass?_cases h with ⟨r, kind, rfl, hr, rfl, haround⟩ | ⟨r, kind, rfl, hr, rfl, haround⟩ |
    ⟨hopened, hclosed, rfl, -⟩
  · rw [haround]
    by_cases hnil : groups = []
    · subst hnil
      cases own <;> cases r <;> simp [opened?] at hr <;> subst hr <;> rfl
    · cases r <;> simp [opened?] at hr <;> subst hr <;> cases own <;>
        simp [after, hnil, inside_counting] <;>
        simp [counting, outermostModifies_cons hnil] <;> grind
  · rw [haround]
    by_cases hnil : groups' = []
    · subst hnil
      cases own <;> cases r <;> simp [closed?] at hr <;> subst hr <;> rfl
    · cases r <;> simp [closed?] at hr <;> subst hr <;> cases own <;>
        simp [after, counting, outermostModifies_cons hnil] <;> grind
  · cases role with
    | none => rfl
    | some r => cases r <;> simp [opened?, closed?] at hopened hclosed <;> rfl

end Groups

/-! ### What a full type collects -/

theorem typeIndicesFrom_counting {i : Nat} (hi : e.start ≤ i)
    (hbefore : t.groupsBefore? e i = some groups)
    (hpass : passAll? groups ((Extent.mk i e.stop).indices.map t.role?) = some groups') :
    typeIndicesFrom t own (.counting own groups)
        (Nesting.all.walkFrom t groups.length (Extent.mk i e.stop).indices) =
      (Extent.mk i e.stop).indices.filter fun j =>
        BelongsToType own (t.groupsAround e j) (t.role? j) := by
  induction hn : e.stop - i generalizing i groups with
  | zero =>
    rw [Extent.indices_eq_nil (by omega)]
    rfl
  | succ n ih =>
    rw [Extent.indices_cons (by omega)] at hpass ⊢
    obtain ⟨next, hnext, hrest⟩ := Option.bind_eq_some_iff.mp hpass
    have hsucc : t.groupsBefore? e (i + 1) = some next := by
      rw [TaggedText.groupsBefore?_succ hi, hbefore]
      exact hnext
    have ih := ih (Nat.le_succ_of_le hi) hsucc hrest (by omega)
    obtain ⟨hlevel, hafter⟩ := Nesting.pass_length hnext
    rw [Nesting.walkFrom, typeIndicesFrom, hlevel, hafter,
      Groups.after_counting hnext, ih, List.filter_cons, TaggedText.groupsAround_eq hbefore]
    simp only [Groups.takes_counting hnext, decide_eq_true_eq]

/-- **What a full type collects.** Of a parameter whose tokens are well nested, these are the
tokens that belong to the type. -/
theorem typeIndices_eq_filter (h : t.WellNested e) :
    typeIndices t own e = e.indices.filter fun i =>
      BelongsToType own (t.groupsAround e i) (t.role? i) := by
  have hstart : t.groupsBefore? e e.start = some [] := by
    rw [TaggedText.groupsBefore?, Extent.indices_eq_nil (Nat.le_refl _)]
    rfl
  have hcounting : Groups.counting own [] = {} := by cases own <;> rfl
  rw [typeIndices, ← hcounting]
  exact typeIndicesFrom_counting (Nat.le_refl _) hstart h

/-- What a full type collects does not reach past the last token. -/
theorem lt_length_of_mem_typeIndices (h : t.WellNested e) {i : Nat}
    (hi : i ∈ typeIndices t own e) : i < t.length := by
  rw [typeIndices_eq_filter h, List.mem_filter, decide_eq_true_eq] at hi
  obtain ⟨hmem, hbelongs⟩ := hi
  by_contra hlen
  have hlen : t.length ≤ i := Nat.le_of_not_lt hlen
  have hrole : t.role? i = none := by
    rw [TaggedText.role?, TaggedText.token?_eq_none hlen, Option.bind_none]
  rw [h.groupsAround_eq_nil hmem hlen, hrole] at hbelongs
  simp [BelongsToType, OutermostModifies] at hbelongs

/-- **What a full type is made of.** If the tokens of the parameter that a type comes from are well
nested, there is a full type. Blanks aside, it is made of the tokens of that parameter that belong
to the type, in order. Nothing inside a parameter list does, if no other group is around it. -/
theorem solids_fullType? {l : ParameterList} {index donor : Nat} {implied : Bool}
    (hdonor : l.typeDonor? t index implied = some donor) (he : l.parameter? donor = some e)
    (h : t.WellNested e) :
    (∃ x, l.fullType? t index implied = some x ∧
      x.solids = t.solidsAt (e.indices.filter fun i =>
        BelongsToType (donor == index) (t.groupsAround e i) (t.role? i))) ∧
    ∀ i, (t.groupsAround e i).getLast? = some .list →
      ¬ BelongsToType (donor == index) (t.groupsAround e i) (t.role? i) := by
  obtain ⟨hassemble, hany⟩ := fullType?_eq_assemble hdonor he
  have hsorted := e.pairwise_indices.sublist (typeIndices_sublist t (donor == index) e)
  have hsolids := solids_assemble hsorted fun i hi => lt_length_of_mem_typeIndices h hi
  rw [← hassemble, if_pos hany, typeIndices_eq_filter h] at hsolids
  exact ⟨Option.map_eq_some_iff.mp hsolids, fun i hi => not_belongsToType_of_list hi⟩

end ParameterList

namespace Sample

/-- `f(Map<K (V)> [*cb <n>] (int q), y)`. Angles modify the type, and brackets modify the parameter
and wrap its name. Either holds a group of the other kind, and a parameter list follows. -/
def nestedGroups : TaggedText :=
  TaggedText.mk #[]
    |>.raw "f" |>.openList
    |>.typeName "Map" |>.tagged "<" .typeGroupOpen |>.raw "K" |>.space
    |>.tagged "(" .paramGroupOpen |>.raw "V" |>.tagged ")" .paramGroupClose
    |>.tagged ">" .typeGroupClose |>.space
    |>.tagged "[" .paramGroupOpen |>.tagged "*" .paramModifier |>.name "cb" |>.space
    |>.tagged "<" .typeGroupOpen |>.name "n" |>.tagged ">" .typeGroupClose
    |>.tagged "]" .paramGroupClose |>.space
    |>.openList |>.typeName "int" |>.space |>.name "q" |>.closeList
    |>.separator |>.space |>.name "y"
    |>.closeList

/-- The parameters of `nestedGroups`. -/
def nestedGroupsList : ParameterList :=
  ParameterList.analyze nestedGroups nestedGroups.full false true

/-- The parameter that owns the type loses both names, and the other one has its type alone. -/
theorem solids_fullType?_nestedGroups :
    nestedGroups.WellNested ⟨2, 25⟩ ∧
      ∃ x y, (nestedGroupsList.fullType? nestedGroups 0 true = some x ∧
        x.solids.map Token.text =
          ["Map", "<", "K", "(", "V", ")", ">", "[", "*", "<", ">", "]"]) ∧
        nestedGroupsList.fullType? nestedGroups 1 true = some y ∧
        y.solids.map Token.text = ["Map", "<", "K", "(", "V", ")", ">"] := by
  have hparameter : nestedGroupsList.parameter? 0 = some ⟨2, 25⟩ := by decide
  have hnested : nestedGroups.WellNested ⟨2, 25⟩ := by decide
  obtain ⟨⟨x, hx, hsolidsx⟩, -⟩ := ParameterList.solids_fullType?
    (by decide : nestedGroupsList.typeDonor? nestedGroups 0 true = some 0) hparameter hnested
  obtain ⟨⟨y, hy, hsolidsy⟩, -⟩ := ParameterList.solids_fullType?
    (by decide : nestedGroupsList.typeDonor? nestedGroups 1 true = some 0) hparameter hnested
  refine ⟨hnested, x, y, ⟨hx, ?_⟩, hy, ?_⟩
  · rw [hsolidsx]
    decide
  · rw [hsolidsy]
    decide

end Sample

end DeclOutline
