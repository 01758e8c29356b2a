import DeclOutline.Proofs.FirstRuns
import DeclOutline.Proofs.Stripping

/-!
# Parameters nest as their list was cut

Nesting is counted twice. When a list is cut, one counter runs through all of it. When a parameter
is asked for its type or its values, a new counter starts at its first token. Both stay at zero
where there is nothing to close, so what is left open or closed too often in one parameter could
make them differ in the next.

They do not differ. A parameter begins behind the opening token of the list or behind a separator
at depth zero, and blanks are without a role; so the first counter is at zero, too, where the
second one starts, and from there on both do the same. A blank with a role would be passed by the
first and trimmed from the sight of the second.

The cutting is described by the tokens it visits, each with the depth that it has counted before
it. That this is what it counts is shown by cutting the list over again from the visits alone.
The walk that looks for names passes over some groups, and is not meant here.

## Main definitions

* `ParameterList.visitsFrom`, `ParameterList.visits` — tokens and depths as the cutting meets them
* `ParameterList.Split.ofVisits` — the cutting, from the visits
* `ParameterList.NestsAsCut` — the walk through a parameter finds the depths of the cutting

## Main results

* `ParameterList.splitFrom_eq_ofVisits` — the visits are those of the cutting
* `ParameterList.mem_visitsFrom` — what is visited, and at which depth
* `ParameterList.nestsAsCut_analyze`, `ParameterList.nestsAsCut_of_bareBlanks` — parameters nest as
  their list was cut
-/

namespace DeclOutline

namespace TaggedText

variable {t : TaggedText} {depth a b i : Nat}

/-! ### Blanks without a role -/

/-- No blank token has a role. -/
def BareBlanks (t : TaggedText) : Prop :=
  ∀ i < t.length, t.isBlankAt i = true → t.role? i = none

instance (t : TaggedText) : Decidable t.BareBlanks :=
  inferInstanceAs (Decidable (∀ i < t.length, _))

theorem BareBlanks.role?_eq_none (h : t.BareBlanks) (hi : t.isBlankAt i = true) :
    t.role? i = none := by
  by_cases hlt : i < t.length
  · exact h i hlt hi
  · rw [role?, token?_eq_none (Nat.le_of_not_lt hlt)]
    rfl

/-! ### Depths in two parts -/

theorem depthFrom_trans (t : TaggedText) (depth : Nat) {a b i : Nat} (hab : a ≤ b) (hbi : b ≤ i) :
    t.depthFrom depth a i = t.depthFrom (t.depthFrom depth a b) b i := by
  rw [depthFrom, depthFrom, depthFrom, ← Extent.indices_append hab hbi, List.foldl_append]

theorem depthFrom_succ (h : a ≤ i) :
    t.depthFrom depth a (i + 1) = Role.nest (t.depthFrom depth a i) (t.role? i) := by
  rw [depthFrom, Extent.indices_succ h, List.foldl_append]
  rfl

/-- Tokens without a role leave the depth as it is. -/
theorem depthFrom_of_bare (hab : a ≤ b) (h : ∀ j, a ≤ j → j < b → t.role? j = none) :
    t.depthFrom depth a b = depth := by
  induction b, hab using Nat.le_induction with
  | base => exact t.depthFrom_self depth a
  | succ b hab ih =>
    rw [depthFrom_succ hab, h b hab (Nat.lt_succ_self b),
      ih fun j hj hjb => h j hj (Nat.lt_succ_of_lt hjb)]
    rfl

/-- A walk that counts all groups counts depths. -/
theorem depthBefore_all (t : TaggedText) (e : Extent) (i : Nat) :
    Nesting.all.depthBefore t e i = t.depthFrom 0 e.start i := by
  have hstep : (fun depth j => Nesting.all.after depth (t.role? j)) =
      fun depth j => Role.nest depth (t.role? j) := by
    funext depth j
    exact Nesting.after_all depth (t.role? j)
  rw [Nesting.depthBefore, depthFrom, List.foldl_map, hstep]

/-- What is trimmed in front of a token that remains is blank. -/
theorem trim_of_mem {e : Extent} (h : i ∈ (t.trim e).indices) :
    e.start ≤ (t.trim e).start ∧ (t.trim e).stop ≤ e.stop ∧
      ∀ j, e.start ≤ j → j < (t.trim e).start → t.isBlankAt j = true := by
  rw [← trim_clamp t e] at h ⊢
  have hstop : min e.stop t.length ≤ t.length := Nat.min_le_right _ _
  rcases Nat.lt_or_ge (min e.stop t.length) e.start with hlt | hle
  · rw [trim_of_stop_lt hlt hstop, Extent.indices_eq_nil (Nat.le_of_lt hlt)] at h
    cases h
  · have htrim := trimmed_trim (e := ⟨e.start, min e.stop t.length⟩) hle hstop
    exact ⟨htrim.start_le, Nat.le_trans htrim.stop_le (Nat.min_le_left _ _), htrim.before⟩

end TaggedText

namespace ParameterList

variable {t : TaggedText} {e p x : Extent} {depth d start stop i : Nat}

/-! ### What the cutting visits -/

/-- The tokens that the cutting of a list visits, with the depth before each. The token that ends
the list is the last one. -/
def visitsFrom (t : TaggedText) (depth : Nat) : List Nat → List (Nat × Nat)
  | [] => []
  | i :: is =>
    (i, depth) ::
      if depth == 0 && t.hasRole i .listClose then []
      else visitsFrom t (Nesting.all.after depth (t.role? i)) is

/-- What the cutting of a list visits. -/
def visits (t : TaggedText) (l : ParameterList) : List (Nat × Nat) :=
  visitsFrom t 0 (Extent.mk (l.opening + 1) l.extent.stop).indices

/-- A list cut at what has been visited: all that matters is which tokens were met at depth zero. -/
def Split.ofVisits (t : TaggedText) (visits : List (Nat × Nat)) : Split where
  separators := (visits.filter fun v => v.2 == 0 && t.hasRole v.1 .separator).map Prod.fst
  closing := (visits.find? fun v => v.2 == 0 && t.hasRole v.1 .listClose).map Prod.fst
  strays := (visits.filter fun v => !(v.2 == 0 && t.hasRole v.1 .listClose)).flatMap fun v =>
    strayAt v.2 v.1 (t.role? v.1)

/-- **The visits are those of the cutting.** -/
theorem splitFrom_eq_ofVisits (t : TaggedText) (depth : Nat) (is : List Nat) :
    splitFrom t depth is = .ofVisits t (visitsFrom t depth is) := by
  induction is generalizing depth with
  | nil => rfl
  | cons i is ih =>
    rw [splitFrom, visitsFrom, ih]
    simp only [Split.ofVisits, TaggedText.hasRole]
    by_cases hend : (depth == 0 && t.role? i == some .listClose) = true
    · obtain ⟨hdepth, hrole⟩ := Bool.and_eq_true_iff.mp hend
      simp [hdepth, eq_of_beq hrole]
    · rw [Bool.not_eq_true] at hend
      simp only [List.filter_cons, List.find?_cons, hend]
      by_cases hsep : (depth == 0 && t.role? i == some .separator) = true
      · rw [if_pos hsep, if_pos hsep]
        rfl
      · rw [if_neg hsep, if_neg hsep]
        rfl

/-- A token of an extent is visited exactly if nothing before it has ended the list. -/
theorem mem_visitsFrom :
    (i, d) ∈ visitsFrom t depth (Extent.mk start stop).indices ↔
      (start ≤ i ∧ i < stop) ∧ d = t.depthFrom depth start i ∧
        ∀ j, start ≤ j → j < i → endsAt t depth start j = false := by
  induction start using Extent.indices_induction stop generalizing depth with
  | nil start h =>
    refine iff_of_false List.not_mem_nil ?_
    rintro ⟨hi, -⟩
    omega
  | cons start h ih =>
    have hends : endsAt t depth start start = (depth == 0 && t.hasRole start .listClose) := by
      rw [endsAt, t.depthFrom_self, Bool.and_comm]
    rw [visitsFrom, List.mem_cons, ← hends]
    by_cases hi : i = start
    · subst hi
      constructor
      · rintro (hhead | hrest)
        · obtain ⟨-, rfl⟩ := Prod.mk.inj hhead
          exact ⟨⟨Nat.le_refl _, h⟩, (t.depthFrom_self d i).symm, fun j hj hji => by omega⟩
        · split at hrest
          · cases hrest
          · rw [Nesting.after_all] at hrest
            have := (ih.mp hrest).1
            omega
      · rintro ⟨-, rfl, -⟩
        rw [t.depthFrom_self]
        exact .inl rfl
    · have hne : (i, d) ≠ (start, depth) := fun heq => hi (Prod.mk.inj heq).1
      rw [or_iff_right hne]
      by_cases hend : endsAt t depth start start = true
      · rw [if_pos hend]
        refine iff_of_false List.not_mem_nil ?_
        rintro ⟨hmem, -, hnone⟩
        rw [hnone start (Nat.le_refl _) (by omega)] at hend
        cases hend
      · rw [if_neg hend, Nesting.after_all, ih]
        constructor
        · rintro ⟨hmem, rfl, hnone⟩
          refine ⟨by omega, (t.depthFrom_of_lt (by omega)).symm, fun j hj hji => ?_⟩
          rcases Nat.eq_or_lt_of_le hj with rfl | hlt
          · exact Bool.eq_false_iff.mpr hend
          · rw [endsAt_of_lt hlt]
            exact hnone j hlt hji
        · rintro ⟨hmem, rfl, hnone⟩
          refine ⟨by omega, t.depthFrom_of_lt (by omega), fun j hj hji => ?_⟩
          rw [← endsAt_of_lt hj]
          exact hnone j (by omega) hji

/-- Up to its end nothing ends a list. -/
theorem not_endsAt_of_lt_stopOf (h : i < stopOf t e) :
    i < e.stop ∧ ∀ j, openingOf t e + 1 ≤ j → j ≤ i →
      endsAt t 0 (openingOf t e + 1) j = false := by
  rw [stopOf, closing_split] at h
  cases hfind : (Extent.mk (openingOf t e + 1) e.stop).indices.find?
      (endsAt t 0 (openingOf t e + 1)) with
  | none =>
    rw [hfind] at h
    exact ⟨h, fun j hj hji =>
      Extent.find?_indices_eq_none.mp hfind j hj (Nat.lt_of_le_of_lt hji h)⟩
  | some c =>
    rw [hfind] at h
    obtain ⟨⟨-, hc⟩, -, hnone⟩ := Extent.find?_indices_eq_some.mp hfind
    exact ⟨Nat.lt_trans h hc, fun j hj hji => hnone j hj (Nat.lt_of_le_of_lt hji h)⟩

theorem visits_analyze (t : TaggedText) (e : Extent) (hasName impliesTypes : Bool) :
    visits t (analyze t e hasName impliesTypes) =
      visitsFrom t 0 (Extent.mk (openingOf t e + 1) e.stop).indices := rfl

/-! ### Where parameters begin -/

/-- What lies between separators begins at the start or behind one of them, and holds none. -/
theorem between_cases {ks : List Nat} (hsorted : ks.Pairwise (· < ·)) (hmem : ∀ k ∈ ks, start ≤ k)
    (hx : x ∈ between start stop ks) :
    (x.start = start ∨ ∃ k ∈ ks, x.start = k + 1) ∧ ∀ k ∈ ks, k < x.start ∨ x.stop ≤ k := by
  induction ks generalizing start with
  | nil =>
    obtain rfl := List.mem_singleton.mp hx
    exact ⟨.inl rfl, by simp⟩
  | cons k ks ih =>
    obtain ⟨hk, hks⟩ := List.pairwise_cons.mp hsorted
    rcases List.mem_cons.mp hx with rfl | hx
    · refine ⟨.inl rfl, fun k' hk' => .inr ?_⟩
      rcases List.mem_cons.mp hk' with rfl | hk'
      · exact Nat.le_refl _
      · exact Nat.le_of_lt (hk k' hk')
    · obtain ⟨hstart, hnone⟩ := ih hks hk hx
      have hlt : k < x.start := by
        rcases hstart with hstart | ⟨k', hk', hstart⟩
        · omega
        · have := hk k' hk'
          omega
      refine ⟨.inr ?_, fun k' hk' => ?_⟩
      · rcases hstart with hstart | ⟨k', hk', hstart⟩
        · exact ⟨k, List.mem_cons_self, hstart⟩
        · exact ⟨k', List.mem_cons_of_mem k hk', hstart⟩
      · rcases List.mem_cons.mp hk' with rfl | hk'
        · exact .inl hlt
        · exact hnone k' hk'

/-- A parameter with any tokens is what is left of a part of the list between separators. -/
theorem exists_between_of_mem {hasName impliesTypes : Bool}
    (hp : p ∈ (analyze t e hasName impliesTypes).parameters) (hi : i ∈ p.indices) :
    ∃ x ∈ between (openingOf t e + 1) (stopOf t e) (split t e).separators,
      p = t.trim x ∧ openingOf t e + 1 ≤ x.start ∧ x.stop ≤ stopOf t e := by
  obtain ⟨hsorted, hmem⟩ := separators_split_mem t e
  obtain ⟨x, hx, rfl⟩ := List.mem_map.mp hp
  obtain ⟨hstart, hstop, -⟩ := TaggedText.trim_of_mem hi
  have htrim := Extent.mem_indices.mp hi
  have hx' : x ∈ between (min (openingOf t e + 1) (stopOf t e)) (stopOf t e)
      (split t e).separators := hx
  have hmem' : ∀ k ∈ (split t e).separators,
      min (openingOf t e + 1) (stopOf t e) ≤ k ∧ k < stopOf t e :=
    fun k hk => ⟨Nat.le_trans (Nat.min_le_left _ _) (hmem k hk).1, (hmem k hk).2⟩
  obtain ⟨hfrom, -, hto⟩ := inside_between (Nat.min_le_right _ _) hsorted hmem' x hx'
  -- a list that ends before it begins is one empty part
  have hle : openingOf t e + 1 ≤ stopOf t e := by
    by_contra hlt
    rw [Nat.min_eq_right (by omega)] at hfrom
    omega
  rw [Nat.min_eq_left hle] at hx' hfrom
  exact ⟨x, hx', rfl, hfrom, hto⟩

/-- Behind a separator of the list the depth is zero. -/
theorem depthAt_of_mem_separators {k : Nat} (h : k ∈ (split t e).separators) :
    t.depthAt (openingOf t e + 1) (k + 1) = 0 := by
  rw [separators_split] at h
  obtain ⟨hmem, hsep⟩ := List.mem_filter.mp h
  obtain ⟨hrole, hdepth⟩ := separatesAt_eq_true_iff.mp hsep
  rw [TaggedText.depthAt] at hdepth ⊢
  rw [TaggedText.depthFrom_succ (Extent.mem_indices.mp hmem).1, hdepth, hrole]
  rfl

/-- **Where a parameter begins the depth is zero.** -/
theorem depthAt_start {hasName impliesTypes : Bool} (hbare : t.BareBlanks)
    (hp : p ∈ (analyze t e hasName impliesTypes).parameters) (hi : i ∈ p.indices) :
    t.depthAt (openingOf t e + 1) p.start = 0 := by
  obtain ⟨hsorted, hmem⟩ := separators_split_mem t e
  obtain ⟨x, hx, rfl, hfrom, -⟩ := exists_between_of_mem hp hi
  obtain ⟨hstart, -, hblank⟩ := TaggedText.trim_of_mem hi
  have hzero : t.depthAt (openingOf t e + 1) x.start = 0 := by
    rcases (between_cases hsorted (fun k hk => (hmem k hk).1) hx).1 with hx | ⟨k, hk, hx⟩
    · rw [hx]
      exact t.depthFrom_self 0 _
    · rw [hx, depthAt_of_mem_separators hk]
  rw [TaggedText.depthAt] at hzero ⊢
  rw [t.depthFrom_trans 0 hfrom hstart, hzero]
  exact TaggedText.depthFrom_of_bare hstart fun j hj hjp => hbare.role?_eq_none (hblank j hj hjp)

/-! ### Both counters -/

section Parameter

variable {hasName impliesTypes : Bool} {v : Nat × Nat}

/-- A walk through a parameter goes by the depths of the list. -/
theorem level_of_mem_walk (hbare : t.BareBlanks)
    (hp : p ∈ (analyze t e hasName impliesTypes).parameters) (hv : v ∈ Nesting.all.walk t p) :
    v.2 = Nesting.all.level (t.depthAt (openingOf t e + 1) v.1) (t.role? v.1) := by
  rw [Nesting.walk_eq_map] at hv
  obtain ⟨i, hi, rfl⟩ := List.mem_map.mp hv
  obtain ⟨x, -, rfl, hfrom, -⟩ := exists_between_of_mem hp hi
  have hstart := Nat.le_trans hfrom (TaggedText.trim_of_mem hi).1
  have hzero := depthAt_start hbare hp hi
  rw [TaggedText.depthAt] at hzero
  rw [Nesting.levelAt, TaggedText.depthBefore_all, TaggedText.depthAt,
    t.depthFrom_trans 0 hstart (Extent.mem_indices.mp hi).1, hzero]

/-- A token of a parameter is visited before the list ends. -/
theorem lt_stopOf_of_mem (hp : p ∈ (analyze t e hasName impliesTypes).parameters)
    (hi : i ∈ p.indices) : openingOf t e + 1 ≤ i ∧ i < stopOf t e := by
  obtain ⟨x, -, rfl, hfrom, hto⟩ := exists_between_of_mem hp hi
  obtain ⟨hstart, hstop, -⟩ := TaggedText.trim_of_mem hi
  have htrim := Extent.mem_indices.mp hi
  omega

theorem mem_visits_of_mem (hp : p ∈ (analyze t e hasName impliesTypes).parameters)
    (hi : i ∈ p.indices) :
    (i, t.depthAt (openingOf t e + 1) i) ∈ visits t (analyze t e hasName impliesTypes) := by
  obtain ⟨hstart, hlt⟩ := lt_stopOf_of_mem hp hi
  obtain ⟨hstop, hnone⟩ := not_endsAt_of_lt_stopOf hlt
  rw [visits_analyze]
  exact mem_visitsFrom.mpr
    ⟨⟨hstart, hstop⟩, rfl, fun j hj hji => hnone j hj (Nat.le_of_lt hji)⟩

/-- No separator of the list is in a parameter. -/
theorem notMem_separators_of_mem (hp : p ∈ (analyze t e hasName impliesTypes).parameters)
    (hi : i ∈ p.indices) : i ∉ (split t e).separators := by
  intro hsep
  obtain ⟨hsorted, hmem⟩ := separators_split_mem t e
  obtain ⟨x, hx, rfl, -, -⟩ := exists_between_of_mem hp hi
  obtain ⟨hstart, hstop, -⟩ := TaggedText.trim_of_mem hi
  have htrim := Extent.mem_indices.mp hi
  have hout := (between_cases hsorted (fun k hk => (hmem k hk).1) hx).2 i hsep
  omega

end Parameter

/-- The walk through a parameter finds the depths at which the cutting of its list has met the
tokens. -/
structure NestsAsCut (t : TaggedText) (l : ParameterList) : Prop where
  /-- The list is cut by the depths of the visits. -/
  cut : split t l.extent = .ofVisits t (l.visits t)
  /-- The walk through a parameter visits all of its tokens in order. -/
  walked : ∀ p ∈ l.parameters, (Nesting.all.walk t p).map Prod.fst = p.indices
  /-- A token is met at one depth. -/
  once : ∀ i d d', (i, d) ∈ l.visits t → (i, d') ∈ l.visits t → d = d'
  /-- A token of a parameter stands where it was met, unless it closes a group. -/
  level : ∀ p ∈ l.parameters, ∀ v ∈ Nesting.all.walk t p,
    Nesting.all.closesAt (t.role? v.1) = false → v ∈ l.visits t
  /-- A token that closes a group stands outside of it, and was met inside. -/
  outside : ∀ p ∈ l.parameters, ∀ v ∈ Nesting.all.walk t p,
    Nesting.all.closesAt (t.role? v.1) = true → ∃ d, (v.1, d) ∈ l.visits t ∧ v.2 = d - 1
  /-- No separator stands at level zero. -/
  separator : ∀ p ∈ l.parameters, ∀ v ∈ Nesting.all.walk t p,
    t.hasRole v.1 .separator = true → v.2 ≠ 0
  /-- No closing token of a list was met at depth zero. -/
  closing : ∀ p ∈ l.parameters, ∀ i ∈ p.indices,
    t.hasRole i .listClose = true → (i, 0) ∉ l.visits t

/-- **The parameters of a list nest as it was cut**, whatever is left open or closed too often. -/
theorem nestsAsCut_analyze (hbare : t.BareBlanks) (e : Extent) (hasName impliesTypes : Bool) :
    NestsAsCut t (analyze t e hasName impliesTypes) := by
  have hindex {p : Extent} {v : Nat × Nat} (hv : v ∈ Nesting.all.walk t p) : v.1 ∈ p.indices :=
    Extent.mem_indices.mpr (fst_mem_of_mem_walk hv)
  have hlevel {p : Extent} (hp : p ∈ (analyze t e hasName impliesTypes).parameters)
      {v : Nat × Nat} (hv : v ∈ Nesting.all.walk t p)
      (hopen : Nesting.all.closesAt (t.role? v.1) = false) :
      v.2 = t.depthAt (openingOf t e + 1) v.1 := by
    rw [level_of_mem_walk hbare hp hv, Nesting.level, if_neg (by simp [hopen])]
  refine ⟨splitFrom_eq_ofVisits t 0 _, fun p _ => Nesting.map_fst_walk .all t p, ?_, ?_, ?_, ?_, ?_⟩
  · intro i d d' h h'
    exact (mem_visitsFrom.mp h).2.1.trans (mem_visitsFrom.mp h').2.1.symm
  · intro p hp v hv hopen
    have hvisit := mem_visits_of_mem hp (hindex hv)
    rwa [← hlevel hp hv hopen] at hvisit
  · intro p hp v hv hclose
    refine ⟨_, mem_visits_of_mem hp (hindex hv), ?_⟩
    rw [level_of_mem_walk hbare hp hv, Nesting.level, if_pos hclose]
  · intro p hp v hv hrole hzero
    have hsep : t.role? v.1 = some .separator := by simpa [TaggedText.hasRole] using hrole
    have hdepth := hlevel hp hv (by rw [hsep]; rfl)
    refine notMem_separators_of_mem hp (hindex hv) ?_
    rw [separators_split]
    refine List.mem_filter.mpr ⟨Extent.mem_indices.mpr (lt_stopOf_of_mem hp (hindex hv)), ?_⟩
    exact separatesAt_eq_true_iff.mpr ⟨hsep, hdepth.symm.trans hzero⟩
  · intro p hp i hi hrole hvisit
    obtain ⟨hstart, hlt⟩ := lt_stopOf_of_mem hp hi
    have hnone := (not_endsAt_of_lt_stopOf hlt).2 i hstart (Nat.le_refl i)
    rw [visits_analyze] at hvisit
    rw [endsAt, hrole, ← (mem_visitsFrom.mp hvisit).2.1] at hnone
    cases hnone

/-- **Parameters nest as their list was cut.** Where no blank has a role, this holds of every
section with parameters, and of every extent that is taken for one. -/
theorem nestsAsCut_of_bareBlanks {t : TaggedText} (hbare : t.BareBlanks) :
    (∀ impliesTypes l, .parameterized l ∈ (Outline.ofText t impliesTypes).sections →
      NestsAsCut t l) ∧
    ∀ e hasName impliesTypes l, analyzeAt t e hasName impliesTypes = .ok l → NestsAsCut t l := by
  constructor
  · intro impliesTypes l h
    obtain ⟨p, -, -, rfl⟩ := Outline.exists_of_parameterized_mem h
    exact nestsAsCut_analyze hbare _ _ _
  · intro e hasName impliesTypes l h
    rw [analyzeAt] at h
    split at h
    · obtain rfl := Except.ok.inj h
      exact nestsAsCut_analyze hbare _ _ _
    · cases h

end ParameterList

namespace Sample

/-- `f(] x], <a, b)> y)`. The closing tokens around the first parameter close nothing, and the
angle of the second is closed by a parenthesis, as if that ended a list. -/
def strayClosers : TaggedText :=
  TaggedText.mk #[]
    |>.name "f" |>.openList
    |>.tagged "]" .paramGroupClose |>.space |>.name "x" |>.tagged "]" .paramGroupClose
    |>.separator |>.space
    |>.tagged "<" .typeGroupOpen |>.typeName "a" |>.separator |>.space |>.typeName "b"
    |>.closeList |>.tagged ">" .typeGroupClose |>.space |>.name "y"
    |>.closeList

/-- The parameters of `strayClosers`. -/
def strayClosersList : ParameterList :=
  ParameterList.analyze strayClosers strayClosers.full true true

/-- In the second parameter there are a separator, met at depth one, and a parenthesis that would
have ended the list at depth zero. -/
theorem nestsAsCut_strayClosers :
    strayClosers.BareBlanks ∧
      .parameterized strayClosersList ∈ (Outline.ofText strayClosers true).sections ∧
      strayClosersList.parameters = [⟨2, 6⟩, ⟨8, 17⟩] ∧
      strayClosers.hasRole 10 .separator = true ∧ (10, 1) ∈ strayClosersList.visits strayClosers ∧
      strayClosers.hasRole 13 .listClose = true ∧ (13, 0) ∉ strayClosersList.visits strayClosers ∧
      ParameterList.NestsAsCut strayClosers strayClosersList := by
  have hbare : strayClosers.BareBlanks := by decide
  have hsection :
      .parameterized strayClosersList ∈ (Outline.ofText strayClosers true).sections := by decide
  have hnests := (ParameterList.nestsAsCut_of_bareBlanks hbare).1 true strayClosersList hsection
  have hparameters : strayClosersList.parameters = [⟨2, 6⟩, ⟨8, 17⟩] := by decide
  have hmem : Extent.mk 8 17 ∈ strayClosersList.parameters := by simp [hparameters]
  exact ⟨hbare, hsection, hparameters, by decide,
    hnests.level _ hmem (10, 1) (by decide) (by decide), by decide,
    hnests.closing _ hmem 13 (by decide) (by decide), hnests⟩

end Sample

end DeclOutline
