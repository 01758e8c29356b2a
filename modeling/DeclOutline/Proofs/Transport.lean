import DeclOutline.Proofs.Containment

/-!
# Carrying answers from one text to another

Two texts may hold the same declaration at different indices: one is part of the other, or they
differ in blanks. `Carries f t t' e` says that `f` leads through the extent `e` of `t` along `t'`:
each token is taken to an equal one, or it is *layout*, a blank token without a role, and is passed
over. Bounds are carried as indices are, so an extent is taken to the extent between the images
of its bounds.

Everything that is asked about a declaration then has carried answers: what is found in `t'` is what
was found in `t`, carried. Each lemma says so for one function, and none of them looks at how `f` is
made.

The one exception are full types. They hold layout that stands inside a group, so only the
tokens that `f` carries are carried.

## Main definitions

* `Token.isLayout` — a blank token without a role
* `Carries` — an index map that passes over layout alone
* `Extent.image`, `ParameterList.image` — extents and lists, carried

## Main results

* `Carries.trim`, `Carries.analyze` — trimming and analysing commute with carrying
* `Carries.firstRun?`, `Carries.value?`, `Carries.typeIndices` — so do questions
-/

namespace DeclOutline

/-- A blank token without a role. -/
def Token.isLayout (t : Token) : Bool :=
  t.isBlank && t.role.isNone

/-- Whether there is a token at an index that is layout. -/
def TaggedText.isLayoutAt (t : TaggedText) (i : Nat) : Bool :=
  (t.token? i).any Token.isLayout

/-- An extent, carried by its bounds. -/
def Extent.image (f : Nat → Nat) (e : Extent) : Extent :=
  ⟨f e.start, f e.stop⟩

/-- A parameter list, carried. -/
def ParameterList.image (f : Nat → Nat) (l : ParameterList) : ParameterList :=
  { l with
    extent := l.extent.image f
    opening := f l.opening
    closing := l.closing.map f
    parameters := l.parameters.map (Extent.image f) }

/-- `f` leads through the extent `e` of `t` along `t'`, and passes over layout alone. -/
def Carries (f : Nat → Nat) (t t' : TaggedText) (e : Extent) : Prop :=
  ∀ i, e.start ≤ i → i < e.stop →
    (f (i + 1) = f i + 1 ∧ t'.token? (f i) = t.token? i) ∨
      (f (i + 1) = f i ∧ t.isLayoutAt i = true)

/-- Whether an index map does not pass over an index. -/
def carried (f : Nat → Nat) (i : Nat) : Bool :=
  f (i + 1) == f i + 1

theorem carried_iff {f : Nat → Nat} {i : Nat} : carried f i = true ↔ f (i + 1) = f i + 1 := by
  simp [carried]

namespace TaggedText

variable {t : TaggedText} {i : Nat}

theorem isBlankAt_of_isLayoutAt (h : t.isLayoutAt i = true) : t.isBlankAt i = true := by
  obtain ⟨token, htoken, hlayout⟩ := (Option.any_eq_true _ _).mp h
  rw [isBlankAt_of_token? htoken]
  exact (Bool.and_eq_true_iff.mp hlayout).1

theorem role?_of_isLayoutAt (h : t.isLayoutAt i = true) : t.role? i = none := by
  obtain ⟨token, htoken, hlayout⟩ := (Option.any_eq_true _ _).mp h
  simpa [role?, htoken] using (Bool.and_eq_true_iff.mp hlayout).2

end TaggedText

/-! ### Lists with elements left out -/

section Sieve

variable {α β : Type} {keep p : α → Bool} {g : α → β} {p' : β → Bool} {l : List α}

theorem filter_map_sieve (hp : ∀ a ∈ l, keep a = true → p' (g a) = p a)
    (hn : ∀ a ∈ l, keep a = false → p a = false) :
    ((l.filter keep).map g).filter p' = (l.filter p).map g := by
  rw [List.filter_map, List.filter_filter]
  congr 1
  refine List.filter_congr fun a ha => ?_
  cases hk : keep a with
  | true => simp [hp a ha hk]
  | false => simp [hn a ha hk]

/-- Elements that are left out pass the test, so they end no stretch of elements that do. -/
theorem span_map_sieve (hp : ∀ a ∈ l, keep a = true → p' (g a) = p a)
    (hn : ∀ a ∈ l, keep a = false → p a = true) :
    ((l.filter keep).map g).takeWhile p' = ((l.takeWhile p).filter keep).map g ∧
      ((l.filter keep).map g).dropWhile p' = ((l.dropWhile p).filter keep).map g := by
  induction l with
  | nil => exact ⟨rfl, rfl⟩
  | cons a l ih =>
    have ih := ih (fun b hb => hp b (List.mem_cons_of_mem a hb))
      fun b hb => hn b (List.mem_cons_of_mem a hb)
    cases hk : keep a with
    | true =>
      have hpa := hp a List.mem_cons_self hk
      cases hpa' : p a with
      | true => simp [hk, hpa, hpa', ih]
      | false => simp [hk, hpa, hpa']
    | false => simp [hk, hn a List.mem_cons_self hk, ih]

end Sieve

namespace Carries

variable {f : Nat → Nat} {t t' : TaggedText} {e e' : Extent} {i : Nat}

/-! ### One index -/

theorem mono (h : Carries f t t' e) (hstart : e.start ≤ e'.start) (hstop : e'.stop ≤ e.stop) :
    Carries f t t' e' :=
  fun i hi hi' => h i (Nat.le_trans hstart hi) (Nat.lt_of_lt_of_le hi' hstop)

theorem token? (h : Carries f t t' e) (hi : e.start ≤ i) (hi' : i < e.stop)
    (hc : carried f i = true) : t'.token? (f i) = t.token? i := by
  have hc' := carried_iff.mp hc
  rcases h i hi hi' with ⟨-, htoken⟩ | ⟨hstay, -⟩
  · exact htoken
  · omega

theorem isLayoutAt (h : Carries f t t' e) (hi : e.start ≤ i) (hi' : i < e.stop)
    (hc : carried f i = false) : f (i + 1) = f i ∧ t.isLayoutAt i = true := by
  have hc' : f (i + 1) ≠ f i + 1 := by simpa [carried] using hc
  rcases h i hi hi' with ⟨hmove, -⟩ | hstay
  · exact absurd hmove hc'
  · exact hstay

/-- A token that is not blank is carried. -/
theorem carried_of_not_blank (h : Carries f t t' e) (hi : e.start ≤ i) (hi' : i < e.stop)
    (hsolid : t.isBlankAt i = false) : carried f i = true := by
  by_contra hc
  have hlayout := (h.isLayoutAt hi hi' (by simpa using hc)).2
  simp [TaggedText.isBlankAt_of_isLayoutAt hlayout] at hsolid

/-- A token with a role is carried. -/
theorem carried_of_role? (h : Carries f t t' e) (hi : e.start ≤ i) (hi' : i < e.stop)
    (hrole : t.role? i ≠ none) : carried f i = true := by
  by_contra hc
  exact hrole (TaggedText.role?_of_isLayoutAt (h.isLayoutAt hi hi' (by simpa using hc)).2)

theorem role? (h : Carries f t t' e) (hi : e.start ≤ i) (hi' : i < e.stop)
    (hc : carried f i = true) : t'.role? (f i) = t.role? i := by
  rw [TaggedText.role?, TaggedText.role?, h.token? hi hi' hc]

theorem isBlankAt (h : Carries f t t' e) (hi : e.start ≤ i) (hi' : i < e.stop)
    (hc : carried f i = true) : t'.isBlankAt (f i) = t.isBlankAt i := by
  rw [TaggedText.isBlankAt, TaggedText.isBlankAt, h.token? hi hi' hc]

/-! ### Bounds and indices -/

/-- Bounds stay in order. -/
theorem le (h : Carries f t t' e) {a b : Nat} (ha : e.start ≤ a) (hab : a ≤ b) (hb : b ≤ e.stop) :
    f a ≤ f b := by
  induction b with
  | zero => simp [Nat.le_zero.mp hab]
  | succ b ih =>
    rcases Nat.le_succ_iff.mp hab with hab' | rfl
    · have hstep := h b (by omega) (by omega)
      have := ih hab' (by omega)
      omega
    · exact Nat.le_refl _

/-- The indices of a carried extent are the carried ones. -/
theorem indices_image {a b : Nat} (h : Carries f t t' ⟨a, b⟩) (hab : a ≤ b) :
    (Extent.mk (f a) (f b)).indices = ((Extent.mk a b).indices.filter (carried f)).map f := by
  induction a using Extent.indices_induction b with
  | nil a hba =>
    obtain rfl := Nat.le_antisymm hab hba
    simp [Extent.indices_eq_nil]
  | cons a hlt ih =>
    have hrest : Carries f t t' ⟨a + 1, b⟩ := h.mono (Nat.le_succ a) (Nat.le_refl b)
    have hle : f (a + 1) ≤ f b := hrest.le (Nat.le_refl _) hlt (Nat.le_refl _)
    cases hc : carried f a with
    | true =>
      have hmove := carried_iff.mp hc
      rw [List.filter_cons_of_pos hc, List.map_cons, ← ih hrest hlt, hmove,
        Extent.indices_cons (by omega)]
    | false =>
      have hstay := (h.isLayoutAt (Nat.le_refl a) hlt hc).1
      rw [List.filter_cons_of_neg (by simp [hc]), ← ih hrest hlt, hstay]

/-- What a test picks out of a carried extent is what it picks out of the extent, carried, if
the test is blind to layout. -/
theorem filter_indices (h : Carries f t t' e) (hle : e.start ≤ e.stop) {p : Nat → Bool}
    (p' : Nat → Bool)
    (hp : ∀ i, e.start ≤ i → i < e.stop → carried f i = true → p' (f i) = p i)
    (hn : ∀ i, e.start ≤ i → i < e.stop → carried f i = false → p i = false) :
    (e.image f).indices.filter p' = (e.indices.filter p).map f := by
  rw [Extent.image, h.indices_image hle]
  refine filter_map_sieve (fun i hi => ?_) fun i hi => ?_
  · exact hp i (Extent.mem_indices.mp hi).1 (Extent.mem_indices.mp hi).2
  · exact hn i (Extent.mem_indices.mp hi).1 (Extent.mem_indices.mp hi).2

theorem hasRole (h : Carries f t t' e) (r : Role) :
    (∀ i, e.start ≤ i → i < e.stop → carried f i = true → t'.hasRole (f i) r = t.hasRole i r) ∧
      ∀ i, e.start ≤ i → i < e.stop → carried f i = false → t.hasRole i r = false := by
  refine ⟨fun i hi hi' hc => ?_, fun i hi hi' hc => ?_⟩
  · rw [TaggedText.hasRole, TaggedText.hasRole, h.role? hi hi' hc]
  · simp [TaggedText.hasRole, TaggedText.role?_of_isLayoutAt (h.isLayoutAt hi hi' hc).2]

theorem filter_hasRole (h : Carries f t t' e) (hle : e.start ≤ e.stop) (r : Role) :
    ((e.image f).indices.filter fun i => t'.hasRole i r) =
      (e.indices.filter fun i => t.hasRole i r).map f :=
  h.filter_indices hle (fun i => t'.hasRole i r) (h.hasRole r).1 (h.hasRole r).2

/-- Every index of a carried extent is carried there. -/
theorem exists_of_mem_image (h : Carries f t t' e) (hle : e.start ≤ e.stop) {j : Nat}
    (hj : f e.start ≤ j) (hj' : j < f e.stop) :
    ∃ i, e.start ≤ i ∧ i < e.stop ∧ carried f i = true ∧ f i = j := by
  have hmem : j ∈ (Extent.mk (f e.start) (f e.stop)).indices := Extent.mem_indices.mpr ⟨hj, hj'⟩
  rw [h.indices_image hle] at hmem
  obtain ⟨i, hi, rfl⟩ := List.mem_map.mp hmem
  obtain ⟨hi, hc⟩ := List.mem_filter.mp hi
  exact ⟨i, (Extent.mem_indices.mp hi).1, (Extent.mem_indices.mp hi).2, hc, rfl⟩

/-! ### Trimming -/

/-- Trimming commutes with carrying. -/
theorem trim (h : Carries f t t' e) (hle : e.start ≤ e.stop) (hlen : e.stop ≤ t.length)
    (hlen' : f e.stop ≤ t'.length) : t'.trim (e.image f) = (t.trim e).image f := by
  have htrim := TaggedText.trimmed_trim hle hlen
  generalize t.trim e = r at htrim
  have h₁ := htrim.start_le
  have h₂ := htrim.le
  have h₃ := htrim.stop_le
  have hfirst : r.start < r.stop → carried f r.start = true := fun hlt =>
    h.carried_of_not_blank h₁ (by omega) (htrim.first hlt)
  have hlast : r.start < r.stop → carried f (r.stop - 1) = true := fun hlt =>
    h.carried_of_not_blank (by omega) (by omega) (htrim.last hlt)
  -- what is left out is carried from what was left out
  have hbefore : Carries f t t' ⟨e.start, r.start⟩ := h.mono (Nat.le_refl _) (by simp only; omega)
  have hafter : Carries f t t' ⟨r.stop, e.stop⟩ := h.mono (by simp only; omega) (Nat.le_refl _)
  have hlt_of_lt : f r.start < f r.stop → r.start < r.stop := by
    intro hlt
    by_contra hge
    rw [Nat.le_antisymm h₂ (Nat.le_of_not_lt hge)] at hlt
    exact Nat.lt_irrefl _ hlt
  refine TaggedText.Trimmed.eq_trim hlen' ⟨h.le (Nat.le_refl _) h₁ (by omega), h.le h₁ h₂ h₃,
    h.le (by omega) h₃ (Nat.le_refl _), fun j hj hj' => ?_, fun j hj hj' => ?_,
    fun hlt => ?_, fun hlt => ?_, fun heq => ?_⟩
  · obtain ⟨i, hi, hi', hc, rfl⟩ := hbefore.exists_of_mem_image h₁ hj hj'
    rw [hbefore.isBlankAt hi hi' hc]
    exact htrim.before i hi hi'
  · obtain ⟨i, hi, hi', hc, rfl⟩ := hafter.exists_of_mem_image h₃ hj hj'
    rw [hafter.isBlankAt hi hi' hc]
    exact htrim.after i hi hi'
  · have hlt' := hlt_of_lt hlt
    simp only [Extent.image]
    rw [h.isBlankAt h₁ (by omega) (hfirst hlt')]
    exact htrim.first hlt'
  · have hlt' := hlt_of_lt hlt
    have hmove := carried_iff.mp (hlast hlt')
    have hstop : f r.stop - 1 = f (r.stop - 1) := by
      rw [Nat.sub_add_cancel (by omega)] at hmove
      omega
    simp only [Extent.image, hstop]
    rw [h.isBlankAt (by omega) (by omega) (hlast hlt')]
    exact htrim.last hlt'
  · have hnot : ¬ r.start < r.stop := by
      intro hlt
      have hmove := carried_iff.mp (hfirst hlt)
      have := h.le (a := r.start + 1) (b := r.stop) (by omega) hlt h₃
      simp only [Extent.image] at heq
      omega
    simp only [Extent.image]
    rw [htrim.collapse (by omega)]

/-! ### Walks -/

/-- A visit, carried. -/
def visit (f : Nat → Nat) (v : Nat × Nat) : Nat × Nat :=
  (f v.1, v.2)

theorem walkFrom {a b : Nat} (h : Carries f t t' ⟨a, b⟩) (hab : a ≤ b) (n : Nesting)
    (depth : Nat) :
    n.walkFrom t' depth (Extent.mk (f a) (f b)).indices =
      ((n.walkFrom t depth (Extent.mk a b).indices).filter fun v => carried f v.1).map
        (visit f) := by
  induction a using Extent.indices_induction b generalizing depth with
  | nil a hba =>
    obtain rfl := Nat.le_antisymm hab hba
    simp [Extent.indices_eq_nil, Nesting.walkFrom]
  | cons a hlt ih =>
    have hrest : Carries f t t' ⟨a + 1, b⟩ := h.mono (Nat.le_succ a) (Nat.le_refl b)
    have hle : f (a + 1) ≤ f b := hrest.le (Nat.le_refl _) hlt (Nat.le_refl _)
    cases hc : carried f a with
    | true =>
      have hmove := carried_iff.mp hc
      have hrole : t'.role? (f a) = t.role? a := h.role? (Nat.le_refl a) hlt hc
      rw [Extent.indices_cons (by omega), Nesting.walkFrom, Nesting.walkFrom, hrole, ← hmove,
        ih hrest hlt, List.filter_cons_of_pos (by simpa using hc), List.map_cons, visit]
    | false =>
      obtain ⟨hstay, hlayout⟩ := h.isLayoutAt (Nat.le_refl a) hlt hc
      have hafter : n.after depth (t.role? a) = depth := by
        rw [TaggedText.role?_of_isLayoutAt hlayout]
        rfl
      rw [Nesting.walkFrom, hafter, List.filter_cons_of_neg (by simp [hc]), ← ih hrest hlt, hstay]

/-- Walking commutes with carrying. -/
theorem walk (h : Carries f t t' e) (hle : e.start ≤ e.stop) (n : Nesting) :
    n.walk t' (e.image f) = ((n.walk t e).filter fun v => carried f v.1).map (visit f) :=
  h.walkFrom hle n 0

/-- Whether a visit is part of a run is carried, and layout is part of none. -/
theorem inRun (h : Carries f t t' e) (r : Role) {v : Nat × Nat} (hv : e.start ≤ v.1)
    (hv' : v.1 < e.stop) :
    (carried f v.1 = true → ParameterList.inRun t' r (visit f v) = ParameterList.inRun t r v) ∧
      (carried f v.1 = false → ParameterList.inRun t r v = false) := by
  refine ⟨fun hc => ?_, fun hc => ?_⟩
  · simp only [ParameterList.inRun, visit, (h.hasRole r).1 v.1 hv hv' hc]
  · simp [ParameterList.inRun, (h.hasRole r).2 v.1 hv hv' hc]

/-! ### Runs and values -/

/-- From the first part of a run on, walks commute with carrying. -/
theorem dropWhile_walk (h : Carries f t t' e) (hle : e.start ≤ e.stop) (n : Nesting) (r : Role) :
    (n.walk t' (e.image f)).dropWhile (fun v => !ParameterList.inRun t' r v) =
      (((n.walk t e).dropWhile fun v => !ParameterList.inRun t r v).filter
        fun v => carried f v.1).map (visit f) := by
  rw [h.walk hle]
  refine (span_map_sieve (fun v hv hc => ?_) fun v hv hc => ?_).2
  · obtain ⟨hv, hv'⟩ := ParameterList.fst_mem_of_mem_walk hv
    rw [(h.inRun r hv hv').1 hc]
  · obtain ⟨hv, hv'⟩ := ParameterList.fst_mem_of_mem_walk hv
    rw [(h.inRun r hv hv').2 hc]
    rfl

/-- The parts of a run commute with carrying. -/
theorem filter_takeWhile {rest : List (Nat × Nat)} (h : Carries f t t' e)
    (hmem : ∀ v ∈ rest, e.start ≤ v.1 ∧ v.1 < e.stop) (r : Role) :
    (((rest.filter fun v => carried f v.1).map (visit f)).takeWhile fun v =>
        ParameterList.inRun t' r v || t'.isBlankAt v.1).filter (ParameterList.inRun t' r) =
      ((rest.takeWhile fun v => ParameterList.inRun t r v || t.isBlankAt v.1).filter
        (ParameterList.inRun t r)).map (visit f) := by
  have htake : ((rest.filter fun v => carried f v.1).map (visit f)).takeWhile (fun v =>
      ParameterList.inRun t' r v || t'.isBlankAt v.1) =
      ((rest.takeWhile fun v => ParameterList.inRun t r v || t.isBlankAt v.1).filter
        fun v => carried f v.1).map (visit f) := by
    refine (span_map_sieve (fun v hv hc => ?_) fun v hv hc => ?_).1
    · obtain ⟨hv, hv'⟩ := hmem v hv
      rw [(h.inRun r hv hv').1 hc, visit, h.isBlankAt hv hv' hc]
    · obtain ⟨hv, hv'⟩ := hmem v hv
      have hblank := TaggedText.isBlankAt_of_isLayoutAt (h.isLayoutAt hv hv' hc).2
      simp [hblank]
  rw [htake]
  refine filter_map_sieve (fun v hv hc => ?_) fun v hv hc => ?_
  · obtain ⟨hv, hv'⟩ := hmem v ((List.takeWhile_sublist _).mem hv)
    exact (h.inRun r hv hv').1 hc
  · obtain ⟨hv, hv'⟩ := hmem v ((List.takeWhile_sublist _).mem hv)
    exact (h.inRun r hv hv').2 hc

theorem carried_of_inRun (h : Carries f t t' e) {r : Role} {v : Nat × Nat} (hv : e.start ≤ v.1)
    (hv' : v.1 < e.stop) (hrun : ParameterList.inRun t r v = true) : carried f v.1 = true := by
  by_contra hc
  simp [(h.inRun r hv hv').2 (by simpa using hc)] at hrun

/-- The first run commutes with carrying. -/
theorem firstRun? (h : Carries f t t' e) (hle : e.start ≤ e.stop) (n : Nesting) (r : Role) :
    ParameterList.firstRun? t' n r (e.image f) =
      (ParameterList.firstRun? t n r e).map (Extent.image f) := by
  rw [ParameterList.firstRun?, ParameterList.firstRun?, h.dropWhile_walk hle n r]
  cases hdrop : (n.walk t e).dropWhile fun v => !ParameterList.inRun t r v with
  | nil => rfl
  | cons first rest =>
    have hmem : ∀ v ∈ first :: rest, e.start ≤ v.1 ∧ v.1 < e.stop := by
      intro v hv
      rw [← hdrop] at hv
      exact ParameterList.fst_mem_of_mem_walk ((List.dropWhile_sublist _).mem hv)
    have hfirst : ParameterList.inRun t r first = true := by
      have := List.head?_dropWhile_not (fun v => !ParameterList.inRun t r v) (n.walk t e)
      simpa [hdrop] using this
    have hc := h.carried_of_inRun (hmem first List.mem_cons_self).1
      (hmem first List.mem_cons_self).2 hfirst
    have hrest : ∀ v ∈ rest, e.start ≤ v.1 ∧ v.1 < e.stop :=
      fun v hv => hmem v (List.mem_cons_of_mem first hv)
    rw [List.filter_cons_of_pos (by simpa using hc), List.map_cons]
    simp only [h.filter_takeWhile hrest r, List.getLast?_map, Option.map_some, Option.some.injEq,
      Extent.image, Extent.mk.injEq]
    refine ⟨rfl, ?_⟩
    -- the last part of the run is carried too
    cases hlast : ((rest.takeWhile fun v => ParameterList.inRun t r v || t.isBlankAt v.1).filter
        (ParameterList.inRun t r)).getLast? with
    | none => exact (carried_iff.mp hc).symm
    | some last =>
      obtain ⟨hl, hrun⟩ := List.mem_filter.mp (List.mem_of_getLast? hlast)
      obtain ⟨hl, hl'⟩ := hrest last ((List.takeWhile_sublist _).mem hl)
      have hc' := h.carried_of_inRun hl hl' hrun
      exact (carried_iff.mp hc').symm

theorem hull? {indices : List Nat} (hc : ∀ i ∈ indices, carried f i = true) :
    ParameterList.hull? (indices.map f) = (ParameterList.hull? indices).map (Extent.image f) := by
  rw [ParameterList.hull?, ParameterList.hull?, List.head?_map, List.getLast?_map]
  cases hfirst : indices.head? with
  | none => simp
  | some first =>
    cases hlast : indices.getLast? with
    | none => simp
    | some last =>
      have hmove := carried_iff.mp (hc last (List.mem_of_getLast? hlast))
      simp [Extent.image, hmove]

/-- Where a value is looked for commutes with carrying. -/
theorem valueStart (h : Carries f t t' e) (hle : e.start ≤ e.stop) (mark : Role) :
    ParameterList.valueStart t' mark (e.image f) = f (ParameterList.valueStart t mark e) := by
  have hfind : (Nesting.all.walk t' (e.image f)).find? (ParameterList.inRun t' mark) =
      ((Nesting.all.walk t e).find? (ParameterList.inRun t mark)).map (visit f) := by
    rw [← List.head?_filter, ← List.head?_filter, ← List.head?_map, h.walk hle]
    congr 1
    refine filter_map_sieve (fun v hv hc => ?_) fun v hv hc => ?_
    · obtain ⟨hv, hv'⟩ := ParameterList.fst_mem_of_mem_walk hv
      exact (h.inRun mark hv hv').1 hc
    · obtain ⟨hv, hv'⟩ := ParameterList.fst_mem_of_mem_walk hv
      exact (h.inRun mark hv hv').2 hc
  rw [ParameterList.valueStart, ParameterList.valueStart, hfind]
  cases hv : (Nesting.all.walk t e).find? (ParameterList.inRun t mark) with
  | none => rfl
  | some v =>
    obtain ⟨hmem, hmem'⟩ := ParameterList.fst_mem_of_mem_walk (List.mem_of_find?_eq_some hv)
    have hc := h.carried_of_inRun hmem hmem' (List.find?_some hv)
    exact (carried_iff.mp hc).symm

theorem valueStart_le_stop (t : TaggedText) (mark : Role) (hle : e.start ≤ e.stop) :
    ParameterList.valueStart t mark e ≤ e.stop := by
  rw [ParameterList.valueStart]
  split
  · next i level hfind =>
    exact (ParameterList.fst_mem_of_mem_walk (List.mem_of_find?_eq_some hfind)).2
  · exact hle

/-- Values commute with carrying. -/
theorem value? (h : Carries f t t' e) (hle : e.start ≤ e.stop) (mark value : Role) :
    ParameterList.value? t' mark value (e.image f) =
      (ParameterList.value? t mark value e).map (Extent.image f) := by
  have hsub : Carries f t t' ⟨ParameterList.valueStart t mark e, e.stop⟩ :=
    h.mono (ParameterList.start_le_valueStart t mark e) (Nat.le_refl _)
  have hfilter := hsub.filter_hasRole (valueStart_le_stop t mark hle) value
  rw [ParameterList.value?, ParameterList.value?, h.valueStart hle]
  refine (congrArg _ hfilter).trans (hull? fun i hi => ?_)
  obtain ⟨hi, hrole⟩ := List.mem_filter.mp hi
  refine hsub.carried_of_role? (Extent.mem_indices.mp hi).1 (Extent.mem_indices.mp hi).2 ?_
  intro hnone
  simp [TaggedText.hasRole, hnone] at hrole

/-! ### Types -/

theorem typeIndicesFrom {visits : List (Nat × Nat)} (h : Carries f t t' e)
    (hmem : ∀ v ∈ visits, e.start ≤ v.1 ∧ v.1 < e.stop) (own : Bool) (g : ParameterList.Groups) :
    ParameterList.typeIndicesFrom t' own g
        ((visits.filter fun v => carried f v.1).map (visit f)) =
      ((ParameterList.typeIndicesFrom t own g visits).filter (carried f)).map f := by
  induction visits generalizing g with
  | nil => rfl
  | cons v visits ih =>
    obtain ⟨i, level⟩ := v
    obtain ⟨hi, hi'⟩ := hmem (i, level) List.mem_cons_self
    have ih := fun g => ih (fun v hv => hmem v (List.mem_cons_of_mem _ hv)) g
    cases hc : carried f i with
    | true =>
      have hrole : t'.role? (f i) = t.role? i := h.role? hi hi' hc
      rw [List.filter_cons_of_pos (by simpa using hc), List.map_cons, visit]
      simp only [ParameterList.typeIndicesFrom, hrole, ih]
      cases g.takes own level (t.role? i) with
      | true => simp [hc]
      | false => simp
    | false =>
      -- layout is taken inside a group, but it opens and closes none
      have hrole : t.role? i = none :=
        TaggedText.role?_of_isLayoutAt (h.isLayoutAt hi hi' hc).2
      rw [List.filter_cons_of_neg (by simp [hc]), ih]
      simp only [ParameterList.typeIndicesFrom, hrole, ParameterList.Groups.after]
      cases g.takes own level none with
      | true => simp [hc]
      | false => simp

/-- The carried part of what a type takes commutes with carrying. -/
theorem typeIndices (h : Carries f t t' e) (hle : e.start ≤ e.stop) (own : Bool) :
    ParameterList.typeIndices t' own (e.image f) =
      ((ParameterList.typeIndices t own e).filter (carried f)).map f := by
  rw [ParameterList.typeIndices, ParameterList.typeIndices, h.walk hle]
  exact h.typeIndicesFrom (fun v hv => ParameterList.fst_mem_of_mem_walk hv) own {}

/-! ### Parameter lists -/

theorem find?_hasRole (h : Carries f t t' e) (hle : e.start ≤ e.stop) (r : Role) :
    ((e.image f).indices.find? fun i => t'.hasRole i r) =
      (e.indices.find? fun i => t.hasRole i r).map f := by
  rw [← List.head?_filter, ← List.head?_filter, h.filter_hasRole hle r, List.head?_map]

/-- Whether a role occurs is carried. -/
theorem any_hasRole_map (h : Carries f t t' e) {is : List Nat}
    (hmem : ∀ i ∈ is, e.start ≤ i ∧ i < e.stop) (r : Role) :
    (((is.filter (carried f)).map f).any fun i => t'.hasRole i r) =
      is.any fun i => t.hasRole i r := by
  have hfilter : (((is.filter (carried f)).map f).filter fun i => t'.hasRole i r) =
      (is.filter fun i => t.hasRole i r).map f :=
    filter_map_sieve (fun i hi hc => (h.hasRole r).1 i (hmem i hi).1 (hmem i hi).2 hc)
      fun i hi hc => (h.hasRole r).2 i (hmem i hi).1 (hmem i hi).2 hc
  rw [← List.isSome_find?, ← List.isSome_find?, ← List.head?_filter, ← List.head?_filter, hfilter,
    List.head?_map, Option.isSome_map]

theorem any_hasRole (h : Carries f t t' e) (hle : e.start ≤ e.stop) (r : Role) :
    ((e.image f).indices.any fun i => t'.hasRole i r) = e.indices.any fun i => t.hasRole i r := by
  rw [Extent.image, h.indices_image hle]
  exact h.any_hasRole_map (fun i hi => Extent.mem_indices.mp hi) r

theorem openingOf (h : Carries f t t' e) (hle : e.start ≤ e.stop) :
    ParameterList.openingOf t' (e.image f) = f (ParameterList.openingOf t e) := by
  rw [ParameterList.openingOf, ParameterList.openingOf, h.find?_hasRole hle]
  exact Option.getD_map f e.start _

/-- The opening token of a section is carried: it has a role, or it is the section's first. -/
theorem carried_openingOf (h : Carries f t t' e) (hlt : e.start < e.stop)
    (hfirst : t.isBlankAt e.start = false) : carried f (ParameterList.openingOf t e) = true := by
  obtain ⟨hstart, hstop⟩ := ParameterList.openingOf_mem t hlt
  rw [ParameterList.openingOf] at hstart hstop ⊢
  cases hfind : e.indices.find? fun i => t.hasRole i .listOpen with
  | none => exact h.carried_of_not_blank (Nat.le_refl _) hlt hfirst
  | some i =>
    rw [hfind] at hstart hstop
    refine h.carried_of_role? hstart hstop fun hnone => ?_
    have := List.find?_some hfind
    simp only [Option.getD_some] at hnone
    simp [TaggedText.hasRole, hnone] at this

/-- The scan for separators commutes with carrying. -/
theorem splitFrom {a b : Nat} (h : Carries f t t' ⟨a, b⟩) (hab : a ≤ b) (depth : Nat) :
    (ParameterList.splitFrom t' depth (Extent.mk (f a) (f b)).indices).separators =
        (ParameterList.splitFrom t depth (Extent.mk a b).indices).separators.map f ∧
      (ParameterList.splitFrom t' depth (Extent.mk (f a) (f b)).indices).closing =
        (ParameterList.splitFrom t depth (Extent.mk a b).indices).closing.map f := by
  induction a using Extent.indices_induction b generalizing depth with
  | nil a hba =>
    obtain rfl := Nat.le_antisymm hab hba
    simp [Extent.indices_eq_nil, ParameterList.splitFrom]
  | cons a hlt ih =>
    have hrest : Carries f t t' ⟨a + 1, b⟩ := h.mono (Nat.le_succ a) (Nat.le_refl b)
    have hle : f (a + 1) ≤ f b := hrest.le (Nat.le_refl _) hlt (Nat.le_refl _)
    cases hc : carried f a with
    | true =>
      have hmove := carried_iff.mp hc
      have hrole : t'.role? (f a) = t.role? a := h.role? (Nat.le_refl a) hlt hc
      obtain ⟨ih₁, ih₂⟩ := ih hrest hlt (Nesting.all.after depth (t.role? a))
      rw [Extent.indices_cons (by omega), ← hmove]
      simp only [ParameterList.splitFrom, hrole]
      split
      · exact ⟨rfl, rfl⟩
      · refine ⟨?_, ih₂⟩
        simp only [ih₁]
        split <;> rfl
    | false =>
      obtain ⟨hstay, hlayout⟩ := h.isLayoutAt (Nat.le_refl a) hlt hc
      have hrole := TaggedText.role?_of_isLayoutAt hlayout
      have hafter : Nesting.all.after depth none = depth := rfl
      rw [← hstay]
      simpa [ParameterList.splitFrom, hrole, hafter] using ih hrest hlt depth

theorem split (h : Carries f t t' e) (hlt : e.start < e.stop)
    (hfirst : t.isBlankAt e.start = false) :
    (ParameterList.split t' (e.image f)).separators =
        (ParameterList.split t e).separators.map f ∧
      (ParameterList.split t' (e.image f)).closing = (ParameterList.split t e).closing.map f := by
  obtain ⟨hstart, hstop⟩ := ParameterList.openingOf_mem t hlt
  have hmove := carried_iff.mp (h.carried_openingOf hlt hfirst)
  have hsub : Carries f t t' ⟨ParameterList.openingOf t e + 1, e.stop⟩ :=
    h.mono (Nat.le_succ_of_le hstart) (Nat.le_refl _)
  rw [ParameterList.split, ParameterList.split, h.openingOf (Nat.le_of_lt hlt), ← hmove]
  exact hsub.splitFrom hstop 0

theorem between {ks : List Nat} (hc : ∀ k ∈ ks, carried f k = true) (start stop : Nat) :
    ParameterList.between (f start) (f stop) (ks.map f) =
      (ParameterList.between start stop ks).map (Extent.image f) := by
  induction ks generalizing start with
  | nil => rfl
  | cons k ks ih =>
    have hmove := carried_iff.mp (hc k List.mem_cons_self)
    rw [List.map_cons, ParameterList.between, ParameterList.between, List.map_cons, ← hmove,
      ih fun k' hk' => hc k' (List.mem_cons_of_mem k hk')]
    rfl

theorem stopOf (h : Carries f t t' e) (hlt : e.start < e.stop)
    (hfirst : t.isBlankAt e.start = false) :
    ParameterList.stopOf t' (e.image f) = f (ParameterList.stopOf t e) := by
  rw [ParameterList.stopOf, (h.split hlt hfirst).2]
  exact Option.getD_map f e.stop _

/-- Something remains of an extent that begins on a token that is not blank. -/
theorem image_start_lt_stop (h : Carries f t t' e) (hlt : e.start < e.stop)
    (hfirst : t.isBlankAt e.start = false) : (e.image f).start < (e.image f).stop := by
  have hmove := carried_iff.mp (h.carried_of_not_blank (Nat.le_refl _) hlt hfirst)
  have hle : f (e.start + 1) ≤ f e.stop := h.le (Nat.le_succ _) hlt (Nat.le_refl _)
  exact show f e.start < f e.stop by omega

theorem carried_separators (h : Carries f t t' e) (hlt : e.start < e.stop) :
    ∀ k ∈ (ParameterList.split t e).separators, carried f k = true := by
  intro k hk
  obtain ⟨hstart, -⟩ := ParameterList.openingOf_mem t hlt
  obtain ⟨-, hstop⟩ := ParameterList.stopOf_mem t hlt
  obtain ⟨hk₁, hk₂⟩ := (ParameterList.separators_split_mem t e).2 k hk
  rw [ParameterList.separators_split] at hk
  have hrole := (ParameterList.separatesAt_eq_true_iff.mp (List.mem_filter.mp hk).2).1
  exact h.carried_of_role? (by omega) (by omega) (by simp [hrole])

theorem parameters_analyze (h : Carries f t t' e) (hlt : e.start < e.stop)
    (hlen : e.stop ≤ t.length) (hlen' : f e.stop ≤ t'.length)
    (hfirst : t.isBlankAt e.start = false) (hasName impliesTypes : Bool) :
    (ParameterList.analyze t' (e.image f) hasName impliesTypes).parameters =
      (ParameterList.analyze t e hasName impliesTypes).parameters.map (Extent.image f) := by
  obtain ⟨hstart, -⟩ := ParameterList.openingOf_mem t hlt
  obtain ⟨hgt, hstop⟩ := ParameterList.stopOf_mem t hlt
  obtain ⟨hsorted, hmem⟩ := ParameterList.separators_split_mem t e
  have hmove := carried_iff.mp (h.carried_openingOf hlt hfirst)
  rw [ParameterList.parameters_analyze t' (h.image_start_lt_stop hlt hfirst),
    ParameterList.parameters_analyze t hlt, h.openingOf (Nat.le_of_lt hlt), h.stopOf hlt hfirst,
    (h.split hlt hfirst).1, ← hmove, between (h.carried_separators hlt), List.map_map, List.map_map]
  refine List.map_congr_left fun x hx => ?_
  obtain ⟨h₁, h₂, h₃⟩ := ParameterList.inside_between hgt hsorted hmem x hx
  have hx : Carries f t t' x := h.mono (by omega) (by omega)
  have hle : f x.stop ≤ f e.stop := h.le (by omega) (by omega) (Nat.le_refl _)
  exact hx.trim h₂ (by omega) (by omega)

/-- Analysing a section commutes with carrying. -/
theorem analyze (h : Carries f t t' e) (hlt : e.start < e.stop) (hlen : e.stop ≤ t.length)
    (hlen' : f e.stop ≤ t'.length) (hfirst : t.isBlankAt e.start = false)
    (hasName impliesTypes : Bool) :
    ParameterList.analyze t' (e.image f) hasName impliesTypes =
      (ParameterList.analyze t e hasName impliesTypes).image f := by
  have hopening := h.openingOf (Nat.le_of_lt hlt)
  have hclosing := (h.split hlt hfirst).2
  have hparameters := h.parameters_analyze hlt hlen hlen' hfirst hasName impliesTypes
  have hstyle : ParameterList.styleOf t' (e.image f) = ParameterList.styleOf t e := by
    rw [ParameterList.styleOf, ParameterList.styleOf, h.any_hasRole (Nat.le_of_lt hlt)]
  exact (ParameterList.mk.injEq ..).mpr
    ⟨rfl, rfl, hopening, hclosing, hparameters, hstyle, rfl⟩

end Carries

end DeclOutline
