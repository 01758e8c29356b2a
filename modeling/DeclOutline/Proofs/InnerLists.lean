import DeclOutline.Proofs.Readings
import DeclOutline.Proofs.Grouping

/-!
# Values inside an inner list

The type of a parameter may end with a parameter list of its own, as in `int (*cb)(int a)`. The
marks in front of the inner list's values are not marks of the parameter, since they stand inside a
group. The values are: once it is known where to look for a value, the tokens of its role are
collected at any level. So a value in an inner list becomes the value of a parameter that has none,
and the end of the value of one that does.

## Main definitions

* `ParameterList.InnerList` — a list inside a parameter
* `ParameterList.ReachesInto` — how a value goes on in a list behind the parameter

## Main results

* `Nesting.le_level_of_passAll?` — well-nested tokens do not come out of the groups around them
* `ParameterList.valueStart_innerList` — the marks of an inner list do not count
* `ParameterList.value?_innerList` — its values do
* `ParameterList.default?_property?_innerList` — the values of a parameter with an inner list
-/

namespace DeclOutline

open GroupKind

/-! ### Levels inside groups -/

namespace Nesting

variable {t : TaggedText} {i k : Nat} {groups groups' : List GroupKind} {role : Option Role}
  {ts : List Token}

/-- One of some well-nested tokens does not come out of the `k` groups around them. -/
theorem pass_add (h : pass? groups role = some groups') (k : Nat) :
    k ≤ all.level (groups.length + k) role ∧
      all.after (groups.length + k) role = groups'.length + k := by
  rw [level, after, opensAt_eq, closesAt_eq]
  rcases pass?_cases h with ⟨r, kind, rfl, hr, rfl, -⟩ | ⟨r, kind, rfl, hr, rfl, -⟩ |
    ⟨hopened, hclosed, rfl, -⟩
  · have hclosed : closed? r = none := by cases r <;> simp_all [opened?, closed?]
    simp [hr, hclosed, countsKind, Nat.add_right_comm]
  · have hopened : opened? r = none := by cases r <;> simp_all [opened?, closed?]
    simp only [Option.bind_some, hr, hopened, Option.any_some, Option.any_none, countsKind,
      List.length_cons, Bool.false_eq_true, if_true, if_false]
    omega
  · simp [hopened, hclosed]

/-- Well-nested tokens do not come out of the `k` groups around them. -/
theorem le_level_of_passAll? (h : passAll? groups (ts.map Token.role) = some groups')
    (hstands : t.StandsAt i ts) :
    (∀ v ∈ all.walkFrom t (groups.length + k) (Extent.mk i (i + ts.length)).indices, k ≤ v.2) ∧
      all.afterAll (groups.length + k) ts = groups'.length + k := by
  induction ts generalizing i groups with
  | nil =>
    obtain rfl := Option.some.inj h
    rw [TaggedText.indices_nil]
    exact ⟨fun v hv => absurd hv List.not_mem_nil, rfl⟩
  | cons token ts ih =>
    obtain ⟨next, hnext, hrest⟩ := Option.bind_eq_some_iff.mp h
    obtain ⟨htoken, hts⟩ := TaggedText.standsAt_cons.mp hstands
    obtain ⟨hlevel, hafter⟩ := pass_add hnext k
    obtain ⟨hlevels, hafterAll⟩ := ih hrest hts
    rw [TaggedText.indices_cons, walkFrom, TaggedText.role?_of_token? htoken, hafter]
    refine ⟨List.forall_mem_cons.mpr ⟨hlevel, hlevels⟩, ?_⟩
    rw [afterAll, List.foldl_cons, hafter]
    exact hafterAll

end Nesting

/-! ### Inner lists -/

/-- From the start of an extent through the end of another. -/
def Extent.through (x y : Extent) : Extent :=
  ⟨x.start, y.stop⟩

/-- An extent with its bounds counted from an index on. -/
def Extent.since (start : Nat) (e : Extent) : Extent :=
  e.image (· - start)

namespace ParameterList

variable {t : TaggedText} {i : Nat} {mark value : Role} {p ts : List Token}

/-- A list inside a parameter, from the token that opens it through the one that closes it. -/
structure InnerList where
  opening : Marked .listOpen
  inner : List Token
  closing : Marked .listClose
  nested : passAll? [] (inner.map Token.role) = some []

namespace InnerList

/-- The tokens of an inner list. -/
def tokens (g : InnerList) : List Token :=
  g.opening.1 :: (g.inner ++ [g.closing.1])

/-- No token of an inner list stands at level zero, but for the two around it. -/
theorem inRun_eq_false (g : InnerList) (hopen : mark ≠ .listOpen) (hclose : mark ≠ .listClose)
    (h : t.StandsAt i g.tokens) (depth : Nat) :
    ∀ v ∈ Nesting.all.walkFrom t depth (Extent.mk i (i + g.tokens.length)).indices,
      inRun t mark v = false := by
  obtain ⟨hopening, hrest⟩ := TaggedText.standsAt_cons.mp h
  obtain ⟨hinner, hclosing⟩ := TaggedText.standsAt_append.mp hrest
  have hlevels := (Nesting.le_level_of_passAll? (k := depth + 1) g.nested hinner).1
  rw [List.length_nil, Nat.zero_add] at hlevels
  have hafter : Nesting.all.after depth g.opening.1.role = depth + 1 := by
    rw [g.opening.2]
    rfl
  have hstop : i + 1 + g.inner.length ≤ i + 1 + (g.inner ++ [g.closing.1]).length := by
    rw [List.length_append]
    omega
  rw [tokens, TaggedText.indices_cons, Nesting.walkFrom, TaggedText.role?_of_token? hopening,
    hafter, Nesting.all.walkFrom_standsAt (depth + 1) hinner hstop]
  refine List.forall_mem_cons.mpr ⟨?_, List.forall_mem_append.mpr ⟨fun v hv => ?_, fun v hv => ?_⟩⟩
  · simp [inRun, TaggedText.hasRole, TaggedText.role?_of_token? hopening, g.opening.2, hopen.symm]
  · have hlevel : v.2 ≠ 0 := Nat.ne_of_gt (Nat.lt_of_lt_of_le depth.succ_pos (hlevels v hv))
    simp [inRun, hlevel]
  · obtain ⟨hv, hv'⟩ := Nesting.fst_mem_of_mem_walkFrom hv
    rw [List.length_append, ← Nat.add_assoc] at hv'
    have hrole : ∀ x ∈ [g.closing.1], x.role ≠ some mark := by
      simp [g.closing.2, hclose.symm]
    simp [inRun, hclosing.hasRole_eq_false hrole hv hv']

end InnerList

/-- The marks of a list behind a parameter do not count. -/
theorem valueStart_innerList (g : InnerList) (hopen : mark ≠ .listOpen)
    (hclose : mark ≠ .listClose) (h : t.StandsAt i (p ++ g.tokens)) :
    valueStart t mark ⟨i, i + (p ++ g.tokens).length⟩ = valueStart t mark ⟨i, i + p.length⟩ := by
  obtain ⟨hp, hg⟩ := TaggedText.standsAt_append.mp h
  have hnone : (Nesting.all.walkFrom t (Nesting.all.afterAll 0 p)
      (Extent.mk (i + p.length) (i + p.length + g.tokens.length)).indices).find? (inRun t mark) =
        none := by
    refine List.find?_eq_none.mpr fun v hv => ?_
    rw [g.inRun_eq_false hopen hclose hg _ v hv]
    exact Bool.false_ne_true
  rw [valueStart, valueStart, Nesting.walk, List.length_append, ← Nat.add_assoc,
    Nesting.all.walkFrom_standsAt 0 hp (Nat.le_add_right _ _), List.find?_append, hnone,
    Option.or_none]
  rfl

/-! ### Values behind others -/

/-- The hull of indices and of others behind them. -/
theorem hull?_append (is js : List Nat) :
    hull? (is ++ js) = Option.merge Extent.through (hull? is) (hull? js) := by
  cases is with
  | nil =>
    rw [List.nil_append]
    cases hull? js <;> rfl
  | cons i is =>
    cases js with
    | nil =>
      rw [List.append_nil]
      cases hull? (i :: is) <;> rfl
    | cons j js =>
      simp [hull?, Option.merge, Extent.through, List.getLast?_cons, List.getLast?_append]

/-- The tokens of a role, found in a text or in its passage. -/
theorem filter_hasRole_standsAt (h : t.StandsAt i ts) (r : Role) :
    ((Extent.mk i (i + ts.length)).indices.filter fun k => t.hasRole k r) =
      ts.findIdxs (fun token => token.hasRole r) i := by
  induction ts generalizing i with
  | nil =>
    rw [TaggedText.indices_nil]
    rfl
  | cons token ts ih =>
    obtain ⟨htoken, hts⟩ := TaggedText.standsAt_cons.mp h
    have hrole : t.hasRole i r = token.hasRole r := by
      rw [TaggedText.hasRole, TaggedText.role?_of_token? htoken]
      rfl
    rw [TaggedText.indices_cons, List.filter_cons, List.findIdxs_cons, ih hts, hrole]

/-- A value goes on with the values of a list behind the parameter. -/
theorem value?_innerList (g : InnerList) (hopen : mark ≠ .listOpen) (hclose : mark ≠ .listClose)
    (h : t.StandsAt i (p ++ g.tokens)) :
    value? t mark value ⟨i, i + (p ++ g.tokens).length⟩ =
      Option.merge Extent.through (value? t mark value ⟨i, i + p.length⟩)
        (hull? (g.tokens.findIdxs (fun token => token.hasRole value) (i + p.length))) := by
  obtain ⟨-, hg⟩ := TaggedText.standsAt_append.mp h
  have hstart : valueStart t mark ⟨i, i + p.length⟩ ≤ i + p.length :=
    Carries.valueStart_le_stop t mark (Nat.le_add_right _ _)
  rw [value?, valueStart_innerList g hopen hclose h, List.length_append, ← Nat.add_assoc,
    ← Extent.indices_append hstart (Nat.le_add_right _ _), List.filter_append, hull?_append,
    filter_hasRole_standsAt hg]
  rfl

/-! ### The same parameter in two texts -/

/-- A value, counted from the start of its parameter, does not depend on where the parameter
stands. -/
theorem value?_since {base : TaggedText} (h : t.StandsAt i ts) (hbase : base.StandsAt 0 ts) :
    (value? t mark value ⟨i, i + ts.length⟩).map (Extent.since i) =
      value? base mark value ⟨0, 0 + ts.length⟩ := by
  have hcarries : Carries (· + i) base t ⟨0, 0 + ts.length⟩ :=
    Carries.of_standsAt hbase (by rwa [Nat.zero_add])
  have himage : (Extent.mk 0 (0 + ts.length)).image (· + i) = ⟨i, i + ts.length⟩ := by
    simp [Extent.image, Nat.add_comm]
  have hback : Extent.since i ∘ Extent.image (· + i) = id := by
    funext x
    simp [Extent.since, Extent.image]
  rw [← himage, hcarries.value? (Nat.zero_le _), Option.map_map, hback, Option.map_id]
  rfl

/-- Values behind an extent change the values in it, if there are any. -/
theorem merge_through_eq_left_iff {own more : Option Extent} {n : Nat}
    (hown : ∀ x, own = some x → x.stop ≤ n) (hmore : ∀ y, more = some y → n < y.stop) :
    Option.merge Extent.through own more = own ↔ more = none := by
  cases more with
  | none => cases own <;> simp [Option.merge]
  | some y =>
    refine iff_of_false (fun heq => ?_) (Option.some_ne_none y)
    have hlt := hmore y rfl
    cases own with
    | none => exact Option.some_ne_none y heq
    | some x =>
      have hthrough : x.through y = x := Option.some.inj heq
      have hle : (x.through y).stop ≤ n := by
        rw [hthrough]
        exact hown x rfl
      exact absurd hlt (Nat.not_lt.mpr hle)

/-- How the value of a parameter goes on in a list behind it. Both values are counted from the
parameter's start. -/
structure ReachesInto (value : Role) (p : List Token) (g : InnerList)
    (own whole : Option Extent) : Prop where
  /-- The value ends with the last value in the list. It starts where the parameter's own value
  does, or else with the first value in the list. -/
  eq : whole = Option.merge Extent.through own
    (hull? (g.tokens.findIdxs (fun token => token.hasRole value) p.length))
  /-- The list changes nothing just if it has no token of the value's role. -/
  same : whole = own ↔ ∀ token ∈ g.tokens, token.role ≠ some value

theorem reachesInto_value? {t' : TaggedText} {i' : Nat} (g : InnerList) (hopen : mark ≠ .listOpen)
    (hclose : mark ≠ .listClose) (h : t.StandsAt i p) (h' : t'.StandsAt i' (p ++ g.tokens)) :
    ReachesInto value p g ((value? t mark value ⟨i, i + p.length⟩).map (Extent.since i))
      ((value? t' mark value ⟨i', i' + (p ++ g.tokens).length⟩).map (Extent.since i')) := by
  -- both parameters stand at the start of a text that is nothing but the longer one
  obtain ⟨base, hbase⟩ : ∃ base : TaggedText, base.StandsAt 0 (p ++ g.tokens) :=
    ⟨.mk (p ++ g.tokens).toArray, List.prefix_rfl⟩
  rw [value?_since h (TaggedText.standsAt_append.mp hbase).1, value?_since h' hbase]
  have heq : value? base mark value _ = _ := value?_innerList g hopen hclose hbase
  rw [Nat.zero_add p.length] at heq ⊢
  refine ⟨heq, ?_⟩
  rw [heq, merge_through_eq_left_iff (n := p.length), hull?_eq_none_iff, List.findIdxs_eq_nil_iff]
  · simp [Token.hasRole]
  · intro x hx
    exact (Extent.encloses_iff.mp (encloses_value? hx)).2.1
  · intro y hy
    obtain ⟨first, last, -, hlast, rfl⟩ := hull?_eq_some hy
    exact Nat.lt_succ_of_le (List.ge_of_mem_findIdxs last (List.mem_of_getLast? hlast))

/-- **The values of a parameter with an inner list.** A list behind a parameter leaves the default
value and the value of the property as they are just if it has no value of the same kind, whatever
marks it has. Else its last such value ends the parameter's. -/
theorem default?_property?_innerList {l l' : ParameterList} {t' : TaggedText}
    {index index' i' : Nat} (g : InnerList)
    (hparameter : l.parameter? index = some ⟨i, i + p.length⟩)
    (hstands : t.StandsAt i p)
    (hparameter' : l'.parameter? index' = some ⟨i', i' + (p ++ g.tokens).length⟩)
    (hstands' : t'.StandsAt i' (p ++ g.tokens)) :
    ReachesInto .defaultValue p g ((l.default? t index).map (Extent.since i))
        ((l'.default? t' index').map (Extent.since i')) ∧
      ReachesInto .propertyValue p g ((l.property? t index).map (Extent.since i))
        ((l'.property? t' index').map (Extent.since i')) := by
  rw [default?, default?, property?, property?, hparameter, hparameter']
  exact ⟨reachesInto_value? g (by decide) (by decide) hstands hstands',
    reachesInto_value? g (by decide) (by decide) hstands hstands'⟩

end ParameterList

namespace Sample

open ParameterList

/-- `f(x = g)`. -/
def plainDefault : TaggedText :=
  TaggedText.mk #[]
    |>.raw "f" |>.openList
    |>.name "x" |>.space |>.tagged "=" .defaultMark |>.space |>.tagged "g" .defaultValue
    |>.closeList

/-- `(n = 1)`, where `1` has no role. -/
def callArguments : InnerList where
  opening := ⟨{ kind := .symbol, text := "(", role := some .listOpen }, rfl⟩
  inner := (TaggedText.mk #[] |>.name "n" |>.space |>.tagged "=" .defaultMark |>.space
    |>.raw "1").tokens.toList
  closing := ⟨{ kind := .symbol, text := ")", role := some .listClose }, rfl⟩
  nested := by decide

/-- `f(x = g(n = 1))`. -/
def calledDefault : TaggedText :=
  TaggedText.mk #[]
    |>.raw "f" |>.openList
    |>.name "x" |>.space |>.tagged "=" .defaultMark |>.space |>.tagged "g" .defaultValue
    |>.openList |>.name "n" |>.space |>.tagged "=" .defaultMark |>.space |>.raw "1" |>.closeList
    |>.closeList

/-- The mark in the list behind `g` changes nothing. -/
theorem default?_calledDefault :
    (callArguments.tokens.any fun token => token.hasRole .defaultMark) = true ∧
      ((analyze plainDefault plainDefault.full false false).default? plainDefault 0).map
        (Extent.since 2) = some ⟨4, 5⟩ ∧
      ((analyze calledDefault calledDefault.full false false).default? calledDefault 0).map
        (Extent.since 2) = some ⟨4, 5⟩ := by
  have hplain : ((analyze plainDefault plainDefault.full false false).default? plainDefault 0).map
      (Extent.since 2) = some ⟨4, 5⟩ := by decide
  have hparameter : (analyze plainDefault plainDefault.full false false).parameter? 0 =
      some ⟨2, 2 + (plainDefault.slice ⟨2, 7⟩).length⟩ := by decide
  have hparameter' : (analyze calledDefault calledDefault.full false false).parameter? 0 =
      some ⟨2, 2 + (plainDefault.slice ⟨2, 7⟩ ++ callArguments.tokens).length⟩ := by decide
  have hstands : plainDefault.StandsAt 2 (plainDefault.slice ⟨2, 7⟩) := ⟨_, rfl⟩
  have hstands' : calledDefault.StandsAt 2 (plainDefault.slice ⟨2, 7⟩ ++ callArguments.tokens) :=
    ⟨_, rfl⟩
  obtain ⟨hdefault, -⟩ :=
    default?_property?_innerList callArguments hparameter hstands hparameter' hstands'
  exact ⟨by decide, hplain, (hdefault.same.mpr (by decide)).trans hplain⟩

/-- `f(int (*cb))`. -/
def callback : TaggedText :=
  TaggedText.mk #[]
    |>.raw "f" |>.openList
    |>.typeName "int" |>.space |>.tagged "(" .paramGroupOpen |>.tagged "*" .paramModifier
    |>.name "cb" |>.tagged ")" .paramGroupClose
    |>.closeList

/-- `f(int (*cb)(int a = 5))`. -/
def callbackWithDefault : TaggedText :=
  TaggedText.mk #[]
    |>.raw "f" |>.openList
    |>.typeName "int" |>.space |>.tagged "(" .paramGroupOpen |>.tagged "*" .paramModifier
    |>.name "cb" |>.tagged ")" .paramGroupClose
    |>.openList |>.typeName "int" |>.space |>.name "a" |>.space
    |>.tagged "=" .defaultMark |>.space |>.tagged "5" .defaultValue |>.closeList
    |>.closeList

/-- The default value of `a` is taken for one of `cb`, which has none without the inner list. -/
theorem default?_callbackWithDefault :
    (analyze callback callback.full false false).parameter? 0 = some ⟨2, 8⟩ ∧
      (analyze callbackWithDefault callbackWithDefault.full false false).parameter? 0 =
        some ⟨2, 17⟩ ∧
      callbackWithDefault.slice ⟨2, 8⟩ = callback.slice ⟨2, 8⟩ ∧
      callback.WellNested ⟨2, 8⟩ ∧ callbackWithDefault.WellNested ⟨9, 16⟩ ∧
      (callbackWithDefault.hasRole 8 .listOpen = true ∧
        callbackWithDefault.hasRole 16 .listClose = true) ∧
      (analyze callback callback.full false false).default? callback 0 = none ∧
      (analyze callbackWithDefault callbackWithDefault.full false false).default?
        callbackWithDefault 0 = some ⟨15, 16⟩ ∧
      callbackWithDefault.extentText ⟨15, 16⟩ = "5" := by
  decide

end Sample

end DeclOutline
