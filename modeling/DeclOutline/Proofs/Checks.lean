import DeclOutline.Profile.Document

/-!
# Checks in order

Keywords and languages are checked alike: in order, each by itself, and then whether its key is that
of one before it. What is wrong with an element can therefore depend on the elements before it, and
what is reported is what is wrong with the first element that has a fault.

## Main definitions

* `checkInOrder` — the check that both loops are
* `FaultAfter`, `FirstFaultIn` — what is wrong with an element, and with the first of a list

## Main results

* `checkInOrder_eq_error_iff`, `checkInOrder_eq_ok_iff` — what the check reports and accepts
* `Profile.checkKeywords_eq_ok_iff` — what the check of keywords asks
* `checked_eq_ok_iff` — what is read and passes its check
-/

namespace DeclOutline

section InOrder

variable {α ε : Type} {Own : α → ε → Prop} {own : α → Except ε Unit} {key : α → String}
  {repeated : α → ε} {done xs : List α} {x : α} {fault : ε}

/-- Checks elements in order, after some whose keys have been `seen`: each by itself, and then that
its key is a new one. -/
def checkInOrder (own : α → Except ε Unit) (key : α → String) (repeated : α → ε)
    (seen : List String) : List α → Except ε Unit
  | [] => .ok ()
  | x :: rest => do
    own x
    if seen.contains (key x) then .error (repeated x)
    else checkInOrder own key repeated (key x :: seen) rest

/-- What is wrong with an element that comes after `earlier` ones: a fault of its own, or else that
it has the key of one of them. -/
inductive FaultAfter (Own : α → ε → Prop) (key : α → String) (repeated : α → ε) (earlier : List α)
    (x : α) : ε → Prop
  | own {fault : ε} (h : Own x fault) : FaultAfter Own key repeated earlier x fault
  | again (hown : ∀ fault, ¬ Own x fault) (h : ∃ y ∈ earlier, key y = key x) :
    FaultAfter Own key repeated earlier x (repeated x)

/-- What is wrong with the first element that has a fault, of those that come after `done` ones. -/
def FirstFaultIn (Own : α → ε → Prop) (key : α → String) (repeated : α → ε) (done xs : List α)
    (fault : ε) : Prop :=
  ∃ before x after, xs = before ++ x :: after ∧
    FaultAfter Own key repeated (done ++ before) x fault ∧
    ∀ earlier y between, before = earlier ++ y :: between →
      ∀ other, ¬ FaultAfter Own key repeated (done ++ earlier) y other

/-- The first fault is that of the first element, or else it is found after that element. -/
theorem firstFaultIn_cons :
    FirstFaultIn Own key repeated done (x :: xs) fault ↔
      FaultAfter Own key repeated done x fault ∨
        (∀ other, ¬ FaultAfter Own key repeated done x other) ∧
          FirstFaultIn Own key repeated (done ++ [x]) xs fault := by
  constructor
  · rintro ⟨before, y, after, hsplit, hfault, hnone⟩
    cases before with
    | nil =>
      obtain ⟨rfl, rfl⟩ := List.cons.inj hsplit
      rw [List.append_nil] at hfault
      exact .inl hfault
    | cons first before =>
      obtain ⟨rfl, rfl⟩ := List.cons.inj hsplit
      refine .inr ⟨?_, before, y, after, rfl, ?_, ?_⟩
      · have := hnone [] x before rfl
        rwa [List.append_nil] at this
      · rwa [List.append_assoc]
      · rintro earlier z between rfl
        rw [List.append_assoc]
        exact hnone (x :: earlier) z between rfl
  · rintro (hfault | ⟨hfirst, before, y, after, rfl, hfault, hnone⟩)
    · exact ⟨[], x, xs, rfl, by rwa [List.append_nil], by simp⟩
    · refine ⟨x :: before, y, after, rfl, ?_, ?_⟩
      · rwa [List.append_assoc] at hfault
      · intro earlier z between hsplit
        cases earlier with
        | nil =>
          obtain ⟨rfl, rfl⟩ := List.cons.inj hsplit
          rwa [List.append_nil]
        | cons first earlier =>
          obtain ⟨rfl, rfl⟩ := List.cons.inj hsplit
          have := hnone earlier z between rfl
          rwa [List.append_assoc] at this

/-- What does not fail passes. -/
theorem eq_ok_of_forall_ne_error {r : Except ε Unit} (h : ∀ fault, r ≠ .error fault) :
    r = .ok () := by
  cases r with
  | ok _ => rfl
  | error fault => exact absurd rfl (h fault)

/-- An element with a fault ends the check. -/
theorem checkInOrder_of_fault (hown : ∀ x fault, own x = .error fault ↔ Own x fault)
    (h : FaultAfter Own key repeated done x fault) (rest : List α) :
    checkInOrder own key repeated (done.map key).reverse (x :: rest) = .error fault := by
  rw [checkInOrder]
  cases h with
  | own h =>
    rw [(hown x fault).mpr h]
    rfl
  | again hnone h =>
    have hok : own x = .ok () := eq_ok_of_forall_ne_error fun e he => hnone e ((hown x e).mp he)
    have hseen : (done.map key).reverse.contains (key x) = true := by simpa using h
    rw [hok, hseen]
    rfl

/-- An element without a fault is passed, and becomes one of the earlier ones. -/
theorem checkInOrder_of_forall_not_fault (hown : ∀ x fault, own x = .error fault ↔ Own x fault)
    (h : ∀ fault, ¬ FaultAfter Own key repeated done x fault) (rest : List α) :
    checkInOrder own key repeated (done.map key).reverse (x :: rest) =
      checkInOrder own key repeated ((done ++ [x]).map key).reverse rest := by
  have hnone : ∀ fault, ¬ Own x fault := fun e he => h e (.own he)
  have hok : own x = .ok () := eq_ok_of_forall_ne_error fun e he => hnone e ((hown x e).mp he)
  have hnew : (done.map key).reverse.contains (key x) = false := by
    rw [Bool.eq_false_iff]
    intro hseen
    exact h _ (.again hnone (by simpa using hseen))
  rw [checkInOrder, hok, hnew, List.map_append, List.reverse_append]
  rfl

/-- **The first fault is the one reported.** The keys that have been seen are those of the elements
that were passed. -/
theorem checkInOrder_eq_error_iff (hown : ∀ x fault, own x = .error fault ↔ Own x fault)
    (done : List α) :
    checkInOrder own key repeated (done.map key).reverse xs = .error fault ↔
      FirstFaultIn Own key repeated done xs fault := by
  -- an element that is passed goes over to those that later ones can repeat
  induction xs generalizing done with
  | nil => simp [checkInOrder, FirstFaultIn]
  | cons x xs ih =>
    rw [firstFaultIn_cons]
    by_cases hfault : ∃ other, FaultAfter Own key repeated done x other
    · obtain ⟨other, hother⟩ := hfault
      have hrun := checkInOrder_of_fault hown hother xs
      constructor
      · intro h
        obtain rfl : other = fault := Except.error.inj (hrun.symm.trans h)
        exact .inl hother
      · rintro (h | ⟨hnone, -⟩)
        · exact checkInOrder_of_fault hown h xs
        · exact absurd hother (hnone other)
    · have hnone := not_exists.mp hfault
      rw [checkInOrder_of_forall_not_fault hown hnone, ih]
      exact ⟨fun h => .inr ⟨hnone, h⟩, fun h => h.elim (fun h => absurd h (hnone _)) And.right⟩

/-- Elements pass the check exactly if each does by itself and their keys are different and new. -/
theorem checkInOrder_eq_ok_iff (seen : List String) :
    checkInOrder own key repeated seen xs = .ok () ↔
      (∀ x ∈ xs, own x = .ok ()) ∧ (xs.Pairwise fun x y => key x ≠ key y) ∧
        ∀ x ∈ xs, key x ∉ seen := by
  induction xs generalizing seen with
  | nil => simp [checkInOrder]
  | cons x xs ih =>
    rw [checkInOrder]
    cases hown : own x with
    | error fault => simp [hown, bind, Except.bind]
    | ok _ =>
      by_cases hseen : key x ∈ seen
      · simp [hseen, bind, Except.bind]
      · simp only [bind, Except.bind, List.contains_iff_mem, hseen, if_false, ih,
          List.pairwise_cons, List.forall_mem_cons]
        grind

end InOrder

/-! ### The checks of a profile and a catalog -/

namespace Profile

open KeywordTable (foldWord)

theorem checkKeywords_eq_checkInOrder (p : Profile) (seen words : List String) :
    p.checkKeywords seen words =
      checkInOrder (fun word => if Text.isBlank word then .error (.emptyKeyword p.name) else .ok ())
        (foldWord p.caseSensitive) (.duplicateKeyword p.name) seen words := by
  induction words generalizing seen with
  | nil => rfl
  | cons word words ih =>
    rw [checkKeywords, checkInOrder]
    by_cases hblank : Text.isBlank word = true
    · rw [if_pos hblank, if_pos hblank]
      rfl
    · rw [if_neg hblank, if_neg hblank, ← ih]
      rfl

/-- Keywords pass the check exactly if none is blank and they fold to different forms, all of them
new. -/
theorem checkKeywords_eq_ok_iff (p : Profile) (seen words : List String) :
    p.checkKeywords seen words = .ok () ↔
      (∀ word ∈ words, Text.isBlank word = false) ∧
        (words.map (foldWord p.caseSensitive)).Nodup ∧
        ∀ word ∈ words, foldWord p.caseSensitive word ∉ seen := by
  rw [checkKeywords_eq_checkInOrder, checkInOrder_eq_ok_iff, List.Nodup, List.pairwise_map]
  have hown : ∀ word,
      (if Text.isBlank word then Except.error (ProfileError.emptyKeyword p.name) else .ok ()) =
        .ok () ↔ Text.isBlank word = false := by
    intro word
    cases Text.isBlank word <;> simp
  simp only [hown]

end Profile

theorem Catalog.checkLanguages_eq_checkInOrder (seen : List String) (ps : List Profile) :
    checkLanguages seen ps =
      checkInOrder Profile.validate (fun p => Text.lowercase p.name)
        (fun p => .duplicateLanguage p.name) seen ps := by
  induction ps generalizing seen with
  | nil => rfl
  | cons p ps ih =>
    rw [checkLanguages, checkInOrder]
    simp only [ih]

/-- What comes out of a check was read and has passed it. -/
theorem checked_eq_ok_iff {α : Type} {check : α → Except ProfileError Unit} {found : Option α}
    {x : α} : checked check found = .ok x ↔ found = some x ∧ check x = .ok () := by
  cases found with
  | none => simp [checked]
  | some y =>
    rw [checked, Option.some.injEq]
    cases hcheck : check y with
    | error fault =>
      refine iff_of_false (fun h => by cases h) ?_
      rintro ⟨rfl, hok⟩
      rw [hcheck] at hok
      cases hok
    | ok _ =>
      rw [Except.map, Except.ok.injEq]
      exact ⟨fun h => ⟨h, h ▸ hcheck⟩, And.left⟩

end DeclOutline
