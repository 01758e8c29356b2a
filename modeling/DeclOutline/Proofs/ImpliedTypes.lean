import DeclOutline.Proofs.Composition

/-!
# Implied types

In `int x, y` the second parameter has the type of the first. Where a list implies types and they
are asked for, the type of a parameter is that of the last one up to it that has a type of its own,
and it is found by going back from the parameter. Where the list does not, or they are not asked
for, a parameter answers for itself, and neither the other parameters nor their tokens matter.

A full type is not handed on as it is: it leaves out what modifies the parameter it comes from. But
it is the same for all the parameters that have it from there.

## Main definitions

* `ParameterList.LastTyped` — the last parameter up to another that has a type of its own

## Main results

* `ParameterList.typeDonor?_eq_some_iff` — where an implied type comes from
* `ParameterList.sameTypes_of_agree` — a parameter that answers for itself
* `ParameterList.types_inherited` — what is said about types, with and without implied types
-/

namespace DeclOutline

namespace ParameterList

variable {l l' : ParameterList} {t t' : TaggedText} {e : Extent} {i j : Nat}
  {implied implied' : Bool}

/-! ### Where an implied type comes from -/

/-- Going back from a bound, the last number below it that passes a test is found. -/
theorem find?_reverse_range_eq_some {p : Nat → Bool} {n j : Nat} :
    (List.range n).reverse.find? p = some j ↔
      j < n ∧ p j = true ∧ ∀ k, j < k → k < n → p k = false := by
  induction n with
  | zero => simp
  | succ n ih =>
    rw [List.range_succ, List.reverse_append, List.reverse_singleton, List.singleton_append]
    cases hn : p n with
    | true =>
      rw [List.find?_cons_of_pos hn, Option.some_inj]
      constructor
      · rintro rfl
        exact ⟨Nat.lt_succ_self n, hn, fun k hk hk' => by omega⟩
      · rintro ⟨hj, -, hafter⟩
        by_contra hne
        have hfalse := hafter n (by omega) (Nat.lt_succ_self n)
        simp [hn] at hfalse
    | false =>
      rw [List.find?_cons_of_neg (by simp [hn]), ih]
      constructor
      · rintro ⟨hj, hpj, hafter⟩
        refine ⟨by omega, hpj, fun k hk hk' => ?_⟩
        rcases Nat.eq_or_lt_of_le (Nat.le_of_lt_succ hk') with rfl | hlt
        · exact hn
        · exact hafter k hk hlt
      · rintro ⟨hj, hpj, hafter⟩
        have hne : j ≠ n := by
          rintro rfl
          simp [hn] at hpj
        exact ⟨by omega, hpj, fun k hk hk' => hafter k hk (by omega)⟩

/-- The parameter at `j` is the last one up to `i` that has a type of its own. -/
structure LastTyped (l : ParameterList) (t : TaggedText) (i j : Nat) : Prop where
  le : j ≤ i
  typed : (l.baseType? t j false).isSome = true
  untyped : ∀ k, j < k → k ≤ i → l.baseType? t k false = none

/-- There is no type past the last parameter. -/
theorem typeDonor?_eq_none (h : l.count ≤ i) : l.typeDonor? t i implied = none :=
  if_neg (Nat.not_lt.mpr h)

theorem isSome_baseType?_own (l : ParameterList) (t : TaggedText) (i : Nat) :
    (l.baseType? t i false).isSome = l.hasOwnType t i := by
  cases he : l.parameter? i with
  | none =>
    have hcount : l.count ≤ i := List.getElem?_eq_none_iff.mp he
    rw [(no_type_of_typeDonor? (typeDonor?_eq_none hcount)).1, hasOwnType, he]
    rfl
  | some e => rw [baseType?_own he, hasOwnType, he, Option.any_some]

/-- A parameter with a type of its own has it from itself. -/
theorem typeDonor?_of_hasOwnType (h : l.hasOwnType t j = true) :
    l.typeDonor? t j implied = some j := by
  obtain ⟨e, he, -⟩ := (Option.any_eq_true _ _).mp h
  have hlt : j < l.count := (List.getElem?_eq_some_iff.mp he).1
  rw [typeDonor?, if_pos hlt, if_pos h]

/-- Going back includes the parameter itself. -/
theorem typeDonor?_eq_find? (hl : l.impliesTypes = true) (hi : i < l.count) :
    l.typeDonor? t i true = (List.range (i + 1)).reverse.find? (l.hasOwnType t) := by
  rw [typeDonor?, if_pos hi, hl, List.range_succ, List.reverse_append, List.reverse_singleton,
    List.singleton_append]
  cases hown : l.hasOwnType t i with
  | true => rw [List.find?_cons_of_pos hown, if_pos rfl]
  | false =>
    rw [List.find?_cons_of_neg (by simp [hown])]
    rfl

/-- **Where an implied type comes from.** It is the last parameter that has a type of its own. -/
theorem typeDonor?_eq_some_iff (hl : l.impliesTypes = true) (hi : i < l.count) :
    l.typeDonor? t i true = some j ↔ l.LastTyped t i j := by
  rw [typeDonor?_eq_find? hl hi, find?_reverse_range_eq_some]
  simp only [← isSome_baseType?_own, Option.isSome_eq_false_iff, Option.isNone_iff_eq_none,
    Nat.lt_succ_iff]
  exact ⟨fun ⟨hle, htyped, huntyped⟩ => ⟨hle, htyped, huntyped⟩,
    fun h => ⟨h.le, h.typed, h.untyped⟩⟩

/-- A parameter has no implied type if none up to it has a type of its own. -/
theorem typeDonor?_eq_none_of_untyped (hl : l.impliesTypes = true) (hi : i < l.count)
    (h : ∀ j ≤ i, l.baseType? t j false = none) : l.typeDonor? t i true = none := by
  cases hdonor : l.typeDonor? t i true with
  | none => rfl
  | some j =>
    have hlast := (typeDonor?_eq_some_iff hl hi).mp hdonor
    have htyped := hlast.typed
    rw [h j hlast.le] at htyped
    exact Bool.noConfusion htyped

/-! ### What is said about types -/

theorem LastTyped.typeDonor? (h : l.LastTyped t i j) (hl : l.impliesTypes = true)
    (hi : i < l.count) : l.typeDonor? t i true = some j :=
  (typeDonor?_eq_some_iff hl hi).mpr h

theorem LastTyped.typeDonor?_own (h : l.LastTyped t i j) : l.typeDonor? t j false = some j :=
  typeDonor?_of_hasOwnType (isSome_baseType?_own l t j ▸ h.typed)

theorem LastTyped.baseType? (h : l.LastTyped t i j) (hl : l.impliesTypes = true)
    (hi : i < l.count) : l.baseType? t i true = l.baseType? t j false := by
  rw [ParameterList.baseType?, ParameterList.baseType?, h.typeDonor? hl hi, h.typeDonor?_own]

theorem LastTyped.fullType?_self (h : l.LastTyped t i i) (hl : l.impliesTypes = true)
    (hi : i < l.count) : l.fullType? t i true = l.fullType? t i false := by
  rw [fullType?, fullType?, h.typeDonor? hl hi, h.typeDonor?_own]

/-- A full type that is handed on leaves out what modifies the parameter it comes from. -/
theorem LastTyped.fullType?_of_lt (h : l.LastTyped t i j) (hl : l.impliesTypes = true)
    (hi : i < l.count) (hlt : j < i) :
    l.fullType? t i true =
      (l.parameter? j).bind fun e => assemble t (typeIndices t false e) := by
  have hne : (j == i) = false := beq_false_of_ne (Nat.ne_of_lt hlt)
  rw [fullType?, h.typeDonor? hl hi, Option.bind_some, hne]

theorem typeIsImplied_iff (hl : l.impliesTypes = true) (hi : i < l.count) :
    l.typeIsImplied t i true = true ↔ ∃ j, l.LastTyped t i j ∧ j ≠ i := by
  simp only [typeIsImplied, Option.any_eq_true, bne_iff_ne, typeDonor?_eq_some_iff hl hi]

/-! ### Without implied types -/

/-- Two lists say the same about the type of a parameter: the same extents, each of its own text, or
the same text of its own, and the same tokens. Neither has it from another parameter. -/
structure SameTypes (l : ParameterList) (t : TaggedText) (implied : Bool) (l' : ParameterList)
    (t' : TaggedText) (implied' : Bool) (i : Nat) : Prop where
  baseType : l'.baseType? t' i implied' = l.baseType? t i implied
  fullType : l'.fullType? t' i implied' = (l.fullType? t i implied).map (Excerpt.move t' 0)
  tokens : (l'.fullType? t' i implied').map Excerpt.tokens =
    (l.fullType? t i implied).map Excerpt.tokens
  own : l.typeIsImplied t i implied = false
  own' : l'.typeIsImplied t' i implied' = false

theorem typeIsImplied_of_not_implied (h : (implied && l.impliesTypes) = false) :
    l.typeIsImplied t i implied = false := by
  cases he : l.parameter? i with
  | none => exact (no_type_of_typeDonor? (typeDonor?_eq_none (List.getElem?_eq_none_iff.mp he))).2.2
  | some e =>
    rw [typeIsImplied, typeDonor?_of_not_implied h, typeDonor?_own he]
    split <;> simp

/-- There is no type where there are no tokens. -/
theorem ownType?_of_stop_lt (h : e.stop < e.start) : ownType? t e = none := by
  have hnil : e.indices = [] := Extent.indices_eq_nil (Nat.le_of_lt h)
  rw [ownType?, firstRun?, Nesting.walk, hnil]
  rfl

/-- **A parameter that answers for itself.** Where types are not implied, what is said about the
type of a parameter depends on its own tokens alone. -/
theorem sameTypes_of_agree (hl : (implied && l.impliesTypes) = false)
    (hl' : (implied' && l'.impliesTypes) = false) (he : l'.parameter? i = l.parameter? i)
    (h : ∀ e, l.parameter? i = some e → ∀ k ∈ e.indices, t'.token? k = t.token? k) :
    SameTypes l t implied l' t' implied' i := by
  suffices hself : l'.baseType? t' i false = l.baseType? t i false ∧
      l'.fullType? t' i false = (l.fullType? t i false).map (Excerpt.move t' 0) ∧
      (l'.fullType? t' i false).map Excerpt.tokens =
        (l.fullType? t i false).map Excerpt.tokens by
    rw [← baseType?_of_not_implied hl, ← baseType?_of_not_implied hl',
      ← fullType?_of_not_implied hl, ← fullType?_of_not_implied hl'] at hself
    exact ⟨hself.1, hself.2.1, hself.2.2, typeIsImplied_of_not_implied hl,
      typeIsImplied_of_not_implied hl'⟩
  cases hparameter : l.parameter? i with
  | none =>
    rw [hparameter] at he
    obtain ⟨hbase, hfull, -⟩ := no_type_of_typeDonor?
      (typeDonor?_eq_none (t := t) (List.getElem?_eq_none_iff.mp hparameter))
    obtain ⟨hbase', hfull', -⟩ := no_type_of_typeDonor?
      (typeDonor?_eq_none (t := t') (List.getElem?_eq_none_iff.mp he))
    rw [hbase, hbase', hfull, hfull']
    exact ⟨rfl, rfl, rfl⟩
  | some e =>
    rw [hparameter] at he
    rcases Nat.lt_or_ge e.stop e.start with hlt | hge
    · simp [baseType?_own hparameter, baseType?_own he, fullType?_own hparameter, fullType?_own he,
        ownType?_of_stop_lt hlt]
    · -- the map that moves nothing carries the parameter from one text to the other
      have hcarries : Carries (· + 0) t t' e := fun k hk hk' =>
        .inl ⟨rfl, h e hparameter k (Extent.mem_indices.mpr ⟨hk, hk'⟩)⟩
      have hechoes := echoes_of_carries hcarries hge he hparameter
      refine ⟨?_, hechoes.fullType, hechoes.tokens⟩
      rw [hechoes.baseType]
      exact congrFun Option.map_id _

/-! ### With and without -/

/-- **Implied types.** In a list that implies types, if they are asked for:

* a parameter has the type of the last one up to it that has a type of its own;
* its full type is its own if it has a type of its own, and otherwise it is the same for all the
  parameters that have it from the same one;
* it has no type if there is none up to it;
* its type is implied if it has one from another parameter.

In a list that does not, or if they are not asked for, what is said about the type of a parameter
depends on its own tokens alone. Past the last parameter there is no type. -/
theorem types_inherited (l : ParameterList) (t : TaggedText) :
    (l.impliesTypes = true → ∀ i < l.count,
      (∀ j, l.LastTyped t i j →
        l.baseType? t i true = l.baseType? t j false ∧
        (j = i → l.fullType? t i true = l.fullType? t i false) ∧
        (j < i → ∀ i' < l.count, j < i' → l.LastTyped t i' j →
          l.fullType? t i' true = l.fullType? t i true)) ∧
      ((∀ j ≤ i, l.baseType? t j false = none) →
        l.baseType? t i true = none ∧ l.fullType? t i true = none) ∧
      (l.typeIsImplied t i true = true ↔ ∃ j, l.LastTyped t i j ∧ j ≠ i)) ∧
    (∀ (implied : Bool), (implied && l.impliesTypes) = false →
      ∀ (l' : ParameterList) (t' : TaggedText) (implied' : Bool),
        (implied' && l'.impliesTypes) = false → ∀ i, l'.parameter? i = l.parameter? i →
        (∀ e, l.parameter? i = some e → ∀ k ∈ e.indices, t'.token? k = t.token? k) →
        SameTypes l t implied l' t' implied' i) ∧
    ∀ i, l.count ≤ i → ∀ implied, l.baseType? t i implied = none ∧
      l.fullType? t i implied = none ∧ l.typeIsImplied t i implied = false := by
  refine ⟨fun hl i hi => ⟨fun j hlast => ⟨hlast.baseType? hl hi, ?_, ?_⟩, ?_,
    typeIsImplied_iff hl hi⟩, ?_, ?_⟩
  · rintro rfl
    exact hlast.fullType?_self hl hi
  · intro hlt i' hi' hlt' hlast'
    rw [hlast.fullType?_of_lt hl hi hlt, hlast'.fullType?_of_lt hl hi' hlt']
  · intro huntyped
    obtain ⟨hbase, hfull, -⟩ := no_type_of_typeDonor? (typeDonor?_eq_none_of_untyped hl hi huntyped)
    exact ⟨hbase, hfull⟩
  · exact fun implied hl l' t' implied' hl' i he h => sameTypes_of_agree hl hl' he h
  · exact fun i hi implied => no_type_of_typeDonor? (typeDonor?_eq_none hi)

end ParameterList

namespace Sample

/-- `f(a, int *x, y, z, char c)`. -/
def handedOn : TaggedText :=
  TaggedText.mk #[]
    |>.raw "f" |>.openList
    |>.name "a" |>.separator |>.space
    |>.typeName "int" |>.space |>.tagged "*" .paramModifier |>.name "x" |>.separator |>.space
    |>.name "y" |>.separator |>.space |>.name "z" |>.separator |>.space
    |>.typeName "char" |>.space |>.name "c"
    |>.closeList

/-- The parameters of `handedOn`. -/
def handedOnList : ParameterList :=
  ParameterList.analyze handedOn handedOn.full false true

/-- `handedOn` without its types but the last. -/
def handedOnUntyped : TaggedText :=
  handedOn.setRole 5 none

/-- The parameters of `handedOnUntyped`, which have no implied types. -/
def handedOnUntypedList : ParameterList :=
  ParameterList.analyze handedOnUntyped handedOnUntyped.full false false

theorem lastTyped_handedOn {i : Nat} (hlow : 1 < i) (hhigh : i ≤ 3) :
    handedOnList.LastTyped handedOn i 1 := by
  refine ⟨Nat.le_of_lt hlow, by decide, fun k hk hk' => ?_⟩
  obtain rfl | rfl : k = 2 ∨ k = 3 := by omega
  all_goals decide

/-- The type of the second parameter goes to the two after it, without its star. The last parameter
says the same where nothing is implied and no other parameter has a type. -/
theorem types_inherited_handedOn :
    handedOnList.LastTyped handedOn 3 1 ∧
      handedOnList.baseType? handedOn 3 true = some ⟨5, 6⟩ ∧
      handedOnList.fullType? handedOn 2 true = handedOnList.fullType? handedOn 3 true ∧
      handedOnList.typeIsImplied handedOn 3 true = true ∧
      handedOnList.fullType? handedOn 0 true = none ∧
      ParameterList.SameTypes handedOnList handedOn false handedOnUntypedList handedOnUntyped true
        4 ∧
      handedOnList.fullType? handedOn 5 true = none := by
  have hlast : handedOnList.LastTyped handedOn 3 1 := lastTyped_handedOn (by decide) (by decide)
  have hparameter : handedOnList.parameter? 4 = some ⟨17, 20⟩ := by decide
  obtain ⟨himplied, hself, hpast⟩ := ParameterList.types_inherited handedOnList handedOn
  obtain ⟨hfrom, -, hiff⟩ := himplied (by decide) 3 (by decide)
  obtain ⟨-, hnone, -⟩ := himplied (by decide) 0 (by decide)
  obtain ⟨hbase, -, hfull⟩ := hfrom 1 hlast
  refine ⟨hlast, hbase.trans (by decide), ?_, hiff.mpr ⟨1, hlast, by decide⟩, ?_, ?_,
    (hpast 5 (by decide) true).2.1⟩
  · exact hfull (by decide) 2 (by decide) (by decide) (lastTyped_handedOn (by decide) (by decide))
  · refine (hnone fun j hj => ?_).2
    obtain rfl := Nat.le_zero.mp hj
    decide
  · refine hself false (by decide) _ _ true (by decide) 4 (by decide) fun e he => ?_
    obtain rfl := Option.some.inj (hparameter.symm.trans he)
    decide

end Sample

end DeclOutline
