import DeclOutline.Proofs.Sectioning

/-!
# Cutting a parameter list

`ParameterList.splitFrom` carries a depth along and decides token by token. Here its result is
described by the depth before each token, counted from just after the opening one: the list ends
at the first closing token at depth zero, and the separators are those at depth zero before it.
Brackets need not match. The three kinds share one counter, and it stays at zero when there is
nothing to close.

Between separators lie the parameters, trimmed. Walking a section from its start through the
opening token, the parameters and what lies between them, and from the closing token on, visits
every token once and in order.

## Main definitions

* `TaggedText.depthFrom`, `TaggedText.depthAt` — the depth before a token
* `ParameterList.LaidOut` — parameters between separators
* `ParameterList.tour` — a section in pieces: parameters, gaps, and what stands around them
* `ParameterList.CutExactly` — what it means that nothing is lost or read twice

## Main results

* `ParameterList.closing_splitFrom`, `ParameterList.separators_splitFrom` — the scan by depths
* `ParameterList.laidOut_analyze` — the parameters of an analysed list
* `ParameterList.cutExactly_of_mem_sections` — lists of an outline are cut exactly
-/

namespace DeclOutline

/-! ### Depth -/

/-- The depth after a token, from the depth before it. Brackets of all three kinds count alike. -/
def Role.nest (depth : Nat) : Option Role → Nat
  | some .listOpen | some .typeGroupOpen | some .paramGroupOpen => depth + 1
  | some .listClose | some .typeGroupClose | some .paramGroupClose => depth - 1
  | _ => depth

theorem Nesting.after_all (depth : Nat) (role : Option Role) :
    Nesting.all.after depth role = Role.nest depth role := by
  rcases role with _ | r
  · rfl
  · cases r <;> rfl

namespace TaggedText

variable (t : TaggedText)

/-- The depth before the token at `i`, from a depth before the token at `start`. -/
def depthFrom (depth start i : Nat) : Nat :=
  (Extent.mk start i).indices.foldl (fun d j => Role.nest d (t.role? j)) depth

/-- The depth before the token at `i`, counted from `start`. -/
def depthAt (start i : Nat) : Nat :=
  t.depthFrom 0 start i

theorem depthFrom_self (depth start : Nat) : t.depthFrom depth start start = depth := by
  simp [depthFrom, Extent.indices_eq_nil]

theorem depthFrom_of_lt {depth start i : Nat} (h : start < i) :
    t.depthFrom depth start i =
      t.depthFrom (Role.nest depth (t.role? start)) (start + 1) i := by
  simp [depthFrom, Extent.indices_cons h]

end TaggedText

namespace ParameterList

variable {t : TaggedText}

/-! ### The scan by depths -/

/-- The list ends at `i` if nothing has ended it before. -/
def endsAt (t : TaggedText) (depth start i : Nat) : Bool :=
  t.hasRole i .listClose && t.depthFrom depth start i == 0

/-- The token at `i` separates two parameters if nothing has ended the list before. -/
def separatesAt (t : TaggedText) (depth start i : Nat) : Bool :=
  t.hasRole i .separator && t.depthFrom depth start i == 0

theorem endsAt_of_lt {depth start i : Nat} (h : start < i) :
    endsAt t depth start i = endsAt t (Role.nest depth (t.role? start)) (start + 1) i := by
  simp [endsAt, t.depthFrom_of_lt h]

theorem separatesAt_of_lt {depth start i : Nat} (h : start < i) :
    separatesAt t depth start i =
      separatesAt t (Role.nest depth (t.role? start)) (start + 1) i := by
  simp [separatesAt, t.depthFrom_of_lt h]

theorem filter_separatesAt_succ (t : TaggedText) (depth start stop : Nat) :
    (Extent.mk (start + 1) stop).indices.filter (separatesAt t depth start) =
      (Extent.mk (start + 1) stop).indices.filter
        (separatesAt t (Role.nest depth (t.role? start)) (start + 1)) :=
  Extent.filter_indices_congr fun _ hi _ => separatesAt_of_lt hi

theorem splitFrom_cons_of_endsAt {depth start : Nat} {is : List Nat}
    (h : endsAt t depth start start = true) :
    splitFrom t depth (start :: is) = { closing := some start } := by
  simp only [endsAt, TaggedText.hasRole, TaggedText.depthFrom_self, Bool.and_comm] at h
  simp [splitFrom, h]

theorem splitFrom_cons_of_not_endsAt {depth start : Nat} (is : List Nat)
    (h : endsAt t depth start start = false) :
    (splitFrom t depth (start :: is)).closing =
        (splitFrom t (Role.nest depth (t.role? start)) is).closing ∧
      (splitFrom t depth (start :: is)).separators =
        [start].filter (separatesAt t depth start) ++
          (splitFrom t (Role.nest depth (t.role? start)) is).separators := by
  simp only [endsAt, TaggedText.hasRole, TaggedText.depthFrom_self, Bool.and_comm] at h
  have hsep : separatesAt t depth start start =
      (depth == 0 && t.role? start == some .separator) := by
    simp [separatesAt, TaggedText.hasRole, TaggedText.depthFrom_self, Bool.and_comm]
  simp only [splitFrom, h, Nesting.after_all, List.filter_cons, hsep]
  refine ⟨by simp, ?_⟩
  by_cases hs : (depth == 0 && t.role? start == some .separator) = true <;> simp [hs]

/-- The scan stops at the first token that ends the list, or runs to the end. -/
theorem closing_splitFrom (t : TaggedText) (stop start depth : Nat) :
    (splitFrom t depth (Extent.mk start stop).indices).closing =
      (Extent.mk start stop).indices.find? (endsAt t depth start) := by
  induction start using Extent.indices_induction stop generalizing depth with
  | nil start h => rfl
  | cons start h ih =>
    cases hend : endsAt t depth start start with
    | true => rw [splitFrom_cons_of_endsAt hend, List.find?_cons_of_pos hend]
    | false =>
      rw [(splitFrom_cons_of_not_endsAt _ hend).1, ih, List.find?_cons_of_neg (by simp [hend])]
      exact Extent.find?_indices_congr fun i hi _ => (endsAt_of_lt hi).symm

/-- Where the scan of an extent stops. -/
theorem getD_closing_splitFrom_gt {stop start depth : Nat} (h : start < stop) :
    start < (splitFrom t depth (Extent.mk (start + 1) stop).indices).closing.getD stop := by
  rw [closing_splitFrom]
  cases hfind : (Extent.mk (start + 1) stop).indices.find? (endsAt t depth (start + 1)) with
  | none => exact h
  | some c => exact (Extent.find?_indices_eq_some.mp hfind).1.1

/-- The separators are those at depth zero up to the end of the list. -/
theorem separators_splitFrom (t : TaggedText) (stop start depth : Nat) :
    (splitFrom t depth (Extent.mk start stop).indices).separators =
      (Extent.mk start
        ((splitFrom t depth (Extent.mk start stop).indices).closing.getD stop)).indices.filter
          (separatesAt t depth start) := by
  induction start using Extent.indices_induction stop generalizing depth with
  | nil start h => simp [splitFrom, Extent.indices_eq_nil h]
  | cons start h ih =>
    cases hend : endsAt t depth start start with
    | true => simp [splitFrom_cons_of_endsAt hend, Extent.indices_eq_nil]
    | false =>
      obtain ⟨hclosing, hseparators⟩ :=
        splitFrom_cons_of_not_endsAt (Extent.mk (start + 1) stop).indices hend
      rw [hclosing, hseparators, ih, Extent.indices_cons (getD_closing_splitFrom_gt h),
        ← filter_separatesAt_succ]
      exact (List.filter_append [start] _).symm

/-! ### Parameters between separators -/

/-- Parameters from `start` to `stop`, trimmed, with a separator between any two of them. -/
inductive LaidOut (t : TaggedText) (stop : Nat) : Nat → List Nat → List Extent → Prop
  | last {start : Nat} {p : Extent} : start ≤ stop → t.Trimmed ⟨start, stop⟩ p →
      LaidOut t stop start [] [p]
  | cons {start k : Nat} {ks : List Nat} {p : Extent} {ps : List Extent} : k < stop →
      t.Trimmed ⟨start, k⟩ p → LaidOut t stop (k + 1) ks ps →
      LaidOut t stop start (k :: ks) (p :: ps)

theorem laidOut_between {start stop : Nat} {ks : List Nat} (hle : start ≤ stop)
    (hstop : stop ≤ t.length) (hsorted : ks.Pairwise (· < ·))
    (hmem : ∀ k ∈ ks, start ≤ k ∧ k < stop) :
    LaidOut t stop start ks ((between start stop ks).map t.trim) := by
  induction ks generalizing start with
  | nil => exact .last hle (TaggedText.trimmed_trim hle hstop)
  | cons k ks ih =>
    obtain ⟨hk, hks⟩ := List.pairwise_cons.mp hsorted
    obtain ⟨hstart, hlt⟩ := hmem k List.mem_cons_self
    refine .cons hlt (TaggedText.trimmed_trim hstart (by simp only; omega)) (ih hlt hks ?_)
    intro k' hk'
    exact ⟨hk k' hk', (hmem k' (List.mem_cons_of_mem k hk')).2⟩

/-- What lies between separators lies where it should. -/
theorem inside_between {start stop : Nat} {ks : List Nat} (hle : start ≤ stop)
    (hsorted : ks.Pairwise (· < ·)) (hmem : ∀ k ∈ ks, start ≤ k ∧ k < stop) :
    ∀ x ∈ between start stop ks, start ≤ x.start ∧ x.start ≤ x.stop ∧ x.stop ≤ stop := by
  induction ks generalizing start with
  | nil =>
    intro x hx
    rw [List.mem_singleton.mp hx]
    exact ⟨Nat.le_refl _, hle, Nat.le_refl _⟩
  | cons k ks ih =>
    obtain ⟨hk, hks⟩ := List.pairwise_cons.mp hsorted
    obtain ⟨hstart, hlt⟩ := hmem k List.mem_cons_self
    intro x hx
    rcases List.mem_cons.mp hx with rfl | hx
    · exact ⟨Nat.le_refl _, hstart, Nat.le_of_lt hlt⟩
    · have hrest : ∀ k' ∈ ks, k + 1 ≤ k' ∧ k' < stop :=
        fun k' hk' => ⟨hk k' hk', (hmem k' (List.mem_cons_of_mem k hk')).2⟩
      obtain ⟨h₁, h₂, h₃⟩ := ih hlt hks hrest x hx
      exact ⟨by omega, h₂, h₃⟩

namespace LaidOut

variable {start stop : Nat} {ks : List Nat} {ps : List Extent}

/-- Parameters lie where they should, each with its bounds in order. -/
theorem inside (h : LaidOut t stop start ks ps) :
    ∀ p ∈ ps, start ≤ p.start ∧ p.start ≤ p.stop ∧ p.stop ≤ stop := by
  induction h with
  | last _ htrim =>
    intro p hp
    rw [List.mem_singleton.mp hp]
    exact ⟨htrim.start_le, htrim.le, htrim.stop_le⟩
  | @cons start k _ q _ hk htrim _ ih =>
    have h₁ := htrim.start_le
    have h₂ := htrim.le
    have h₃ := htrim.stop_le
    simp only at h₁ h₃
    intro p hp
    rcases List.mem_cons.mp hp with rfl | hp
    · exact ⟨h₁, h₂, by omega⟩
    · obtain ⟨h₄, h₅, h₆⟩ := ih p hp
      exact ⟨by omega, h₅, h₆⟩

/-- Parameters come in order, with a separator between them. -/
theorem ordered (h : LaidOut t stop start ks ps) : ps.Pairwise fun p q => p.stop < q.start := by
  induction h with
  | last _ _ => exact List.pairwise_singleton _ _
  | cons _ htrim hrest ih =>
    refine List.pairwise_cons.mpr ⟨fun q hq => ?_, ih⟩
    exact Nat.lt_of_le_of_lt htrim.stop_le (hrest.inside q hq).1

/-- Blanks alone lie before the first parameter. -/
theorem first_gap (h : LaidOut t stop start ks ps) {p : Extent} (hp : ps.head? = some p) :
    ∀ i, start ≤ i → i < p.start → t.isBlankAt i = true := by
  cases h with
  | last _ htrim =>
    obtain rfl := Option.some.inj hp
    exact htrim.before
  | cons _ htrim _ =>
    obtain rfl := Option.some.inj hp
    exact htrim.before

/-- Blanks alone lie behind the last parameter. -/
theorem last_gap (h : LaidOut t stop start ks ps) {p : Extent} (hp : ps.getLast? = some p) :
    ∀ i, p.stop ≤ i → i < stop → t.isBlankAt i = true := by
  induction h with
  | last _ htrim =>
    obtain rfl := Option.some.inj hp
    exact htrim.after
  | cons _ _ hrest ih =>
    refine ih ?_
    cases hrest <;> simpa using hp

/-- No separator comes before the end of the first parameter. -/
theorem stop_le_separator (h : LaidOut t stop start ks ps) {p : Extent}
    (hp : ps.head? = some p) : ∀ k ∈ ks, p.stop ≤ k := by
  induction h generalizing p with
  | last _ _ => simp
  | @cons start k ks q ps hk htrim hrest ih =>
    obtain rfl := Option.some.inj hp
    have hstop : q.stop ≤ k := htrim.stop_le
    intro k' hk'
    rcases List.mem_cons.mp hk' with rfl | hk'
    · exact hstop
    · cases hps : ps with
      | nil => rw [hps] at hrest; cases hrest
      | cons q' ps' =>
        have hmem : q' ∈ ps := by simp [hps]
        obtain ⟨h₁, h₂, -⟩ := hrest.inside q' hmem
        have h₃ := ih (by rw [hps]; rfl) k' hk'
        omega

/-- Between two parameters lie one separator and blanks. -/
theorem inner_gap (h : LaidOut t stop start ks ps) {j : Nat} {p q : Extent}
    (hp : ps[j]? = some p) (hq : ps[j + 1]? = some q) :
    ∃ k ∈ ks, p.stop ≤ k ∧ k < q.start ∧
      ∀ i, p.stop ≤ i → i < q.start → i ≠ k → t.isBlankAt i = true ∧ i ∉ ks := by
  induction h generalizing j with
  | last _ _ => simp at hq
  | @cons start k ks r ps hk htrim hrest ih =>
    cases j with
    | zero =>
      obtain rfl := Option.some.inj hp
      have hq' : ps.head? = some q := by simpa [List.head?_eq_getElem?] using hq
      have hqmem : q ∈ ps := List.mem_of_mem_head? hq'
      refine ⟨k, List.mem_cons_self, htrim.stop_le, (hrest.inside q hqmem).1, ?_⟩
      intro i hpi hiq hik
      constructor
      · rcases Nat.lt_or_gt_of_ne hik with hlt | hgt
        · exact htrim.after i hpi hlt
        · exact hrest.first_gap hq' i hgt hiq
      · intro hmem
        have := hrest.stop_le_separator hq' i ((List.mem_cons.mp hmem).resolve_left hik)
        have := (hrest.inside q hqmem).2.1
        omega
    | succ j =>
      obtain ⟨k', hk', h₁, h₂, h₃⟩ := ih (by simpa using hp) (by simpa using hq)
      refine ⟨k', List.mem_cons_of_mem k hk', h₁, h₂, fun i hpi hiq hik => ?_⟩
      obtain ⟨hblank, hnot⟩ := h₃ i hpi hiq hik
      refine ⟨hblank, fun hmem => hnot ((List.mem_cons.mp hmem).resolve_left ?_)⟩
      have hpmem : p ∈ ps := List.mem_of_getElem? (by simpa using hp)
      obtain ⟨h₄, h₅, -⟩ := hrest.inside p hpmem
      omega

end LaidOut

/-! ### Analysed lists -/

/-- Where the list ends: at the closing token, or with the section. -/
def stop (l : ParameterList) : Nat :=
  l.closing.getD l.extent.stop

/-- Where the list of a section ends. -/
def stopOf (t : TaggedText) (e : Extent) : Nat :=
  (split t e).closing.getD e.stop

variable {e : Extent}

/-- The opening token lies in the section. -/
theorem openingOf_mem (t : TaggedText) (h : e.start < e.stop) :
    e.start ≤ openingOf t e ∧ openingOf t e < e.stop := by
  rcases openingOf_eq_start_or_mem t e with heq | hmem
  · omega
  · exact Extent.mem_indices.mp hmem

/-- The list ends at the first closing token at depth zero after the opening one. -/
theorem closing_split (t : TaggedText) (e : Extent) :
    (split t e).closing =
      (Extent.mk (openingOf t e + 1) e.stop).indices.find? (endsAt t 0 (openingOf t e + 1)) :=
  closing_splitFrom t e.stop (openingOf t e + 1) 0

/-- The separators of a list are those at depth zero between the opening token and the end. -/
theorem separators_split (t : TaggedText) (e : Extent) :
    (split t e).separators =
      (Extent.mk (openingOf t e + 1) (stopOf t e)).indices.filter
        (separatesAt t 0 (openingOf t e + 1)) :=
  separators_splitFrom t e.stop (openingOf t e + 1) 0

/-- The list ends after its opening token and inside the section. -/
theorem stopOf_mem (t : TaggedText) (h : e.start < e.stop) :
    openingOf t e < stopOf t e ∧ stopOf t e ≤ e.stop := by
  refine ⟨getD_closing_splitFrom_gt (openingOf_mem t h).2, ?_⟩
  rw [stopOf, closing_split]
  cases hfind : (Extent.mk (openingOf t e + 1) e.stop).indices.find?
      (endsAt t 0 (openingOf t e + 1)) with
  | none => exact Nat.le_refl _
  | some c => exact Nat.le_of_lt (Extent.find?_indices_eq_some.mp hfind).1.2

/-- The parameters of an analysed list are what its separators leave, trimmed. -/
theorem parameters_analyze (t : TaggedText) (h : e.start < e.stop) (hasName impliesTypes : Bool) :
    (analyze t e hasName impliesTypes).parameters =
      (between (openingOf t e + 1) (stopOf t e) (split t e).separators).map t.trim := by
  have hmin : min (openingOf t e + 1) (stopOf t e) = openingOf t e + 1 :=
    Nat.min_eq_left (stopOf_mem t h).1
  rw [← hmin]
  rfl

/-- Separators come in order, between the opening token and the end of the list. -/
theorem separators_split_mem (t : TaggedText) (e : Extent) :
    (split t e).separators.Pairwise (· < ·) ∧
      ∀ k ∈ (split t e).separators, openingOf t e + 1 ≤ k ∧ k < stopOf t e := by
  rw [separators_split]
  exact ⟨(Extent.pairwise_indices _).filter _,
    fun k hk => Extent.mem_indices.mp (List.mem_filter.mp hk).1⟩

/-- The parameters of an analysed list lie between its separators. -/
theorem laidOut_analyze (h : e.start < e.stop) (hlen : e.stop ≤ t.length)
    (hasName impliesTypes : Bool) :
    LaidOut t (stopOf t e) (openingOf t e + 1) (split t e).separators
      (analyze t e hasName impliesTypes).parameters := by
  obtain ⟨hgt, hle⟩ := stopOf_mem t h
  obtain ⟨hsorted, hmem⟩ := separators_split_mem t e
  rw [parameters_analyze t h]
  exact laidOut_between hgt (by omega) hsorted hmem

/-! ### A tour of a section -/

/-- Parameters and the gaps around them, from `start` to `stop`. -/
def weave (start stop : Nat) : List Extent → List Extent
  | [] => [⟨start, stop⟩]
  | p :: ps => ⟨start, p.start⟩ :: p :: weave p.stop stop ps

/-- A section in pieces: through the opening token, parameters and gaps in turn, and from the
closing token on if there is one. -/
def tour (l : ParameterList) : List Extent :=
  l.before :: weave (l.opening + 1) l.stop l.parameters ++ l.after?.toList

/-- Parameters and gaps leave nothing out. -/
theorem LaidOut.flatMap_indices_weave {start stop start' : Nat} {ks : List Nat} {ps : List Extent}
    (h : LaidOut t stop start ks ps) (hle : start' ≤ start) :
    (weave start' stop ps).flatMap Extent.indices = (Extent.mk start' stop).indices := by
  induction h generalizing start' with
  | @last start p hstop htrim =>
    have h₁ := htrim.start_le
    have h₂ := htrim.le
    have h₃ := htrim.stop_le
    simp only at h₁ h₃
    simp only [weave, List.flatMap_cons, List.flatMap_nil, List.append_nil]
    rw [Extent.indices_append h₂ h₃, Extent.indices_append (by omega) (by omega)]
  | @cons start k ks p ps hk htrim hrest ih =>
    have h₁ := htrim.start_le
    have h₂ := htrim.le
    have h₃ := htrim.stop_le
    simp only at h₁ h₃
    simp only [weave, List.flatMap_cons]
    rw [ih (by omega), Extent.indices_append h₂ (by omega),
      Extent.indices_append (by omega) (by omega)]

theorem stop_le_of_mem_weave {start stop : Nat} {ps : List Extent}
    (h : ∀ p ∈ ps, p.start ≤ p.stop ∧ p.stop ≤ stop) :
    ∀ e ∈ weave start stop ps, e.stop ≤ stop := by
  induction ps generalizing start with
  | nil => simp [weave]
  | cons p ps ih =>
    intro e he
    obtain ⟨h₁, h₂⟩ := h p List.mem_cons_self
    simp only [weave, List.mem_cons] at he
    rcases he with rfl | rfl | he
    · exact Nat.le_trans h₁ h₂
    · exact h₂
    · exact ih (fun q hq => h q (List.mem_cons_of_mem p hq)) e he

/-! ### Nothing lost, nothing read twice -/

end ParameterList

namespace TaggedText

variable {t : TaggedText} {e : Extent}

theorem extentText_eq_join (h : e.stop ≤ t.length) :
    t.extentText e = String.join (e.indices.map t.tokenText) := by
  by_cases hempty : e.stop ≤ e.start
  · have hnil : e.indices = [] := Extent.indices_eq_nil hempty
    simp [extentText, Extent.isEmpty, hempty, hnil]
  · have hlen : ¬ t.length < e.stop := by omega
    simp [extentText, Extent.isEmpty, hempty, hlen]

/-- The texts of extents, one after another, are the texts of their tokens. -/
theorem join_map_extentText {es : List Extent} (h : ∀ e ∈ es, e.stop ≤ t.length) :
    String.join (es.map t.extentText) =
      String.join ((es.flatMap Extent.indices).map t.tokenText) := by
  induction es with
  | nil => rfl
  | cons e es ih =>
    rw [List.map_cons, String.join_cons, ih fun e' he' => h e' (List.mem_cons_of_mem e he'),
      extentText_eq_join (h e List.mem_cons_self), List.flatMap_cons, List.map_append,
      String.join_append]

end TaggedText

namespace ParameterList

variable {t : TaggedText} {e : Extent}

/-- The tour of an analysed list visits every token of the section once, in order. -/
theorem flatMap_indices_tour_analyze (h : e.start < e.stop) (hlen : e.stop ≤ t.length)
    (hasName impliesTypes : Bool) :
    (analyze t e hasName impliesTypes).tour.flatMap Extent.indices = e.indices := by
  obtain ⟨hstart, hopen⟩ := openingOf_mem t h
  obtain ⟨hgt, hle⟩ := stopOf_mem t h
  have hweave := (laidOut_analyze h hlen hasName impliesTypes).flatMap_indices_weave (Nat.le_refl _)
  have hafter : ((analyze t e hasName impliesTypes).after?.toList).flatMap Extent.indices =
      (Extent.mk (stopOf t e) e.stop).indices := by
    cases hclosing : (split t e).closing with
    | none => simp [analyze, after?, stopOf, hclosing, Extent.indices_eq_nil]
    | some c => simp [analyze, after?, stopOf, hclosing]
  have htour : (analyze t e hasName impliesTypes).tour =
      ⟨e.start, openingOf t e + 1⟩ ::
        (weave (openingOf t e + 1) (stopOf t e) (analyze t e hasName impliesTypes).parameters ++
          (analyze t e hasName impliesTypes).after?.toList) := rfl
  rw [htour, List.flatMap_cons, List.flatMap_append, hweave, hafter,
    Extent.indices_append hgt hle, Extent.indices_append (by omega) (by omega)]

theorem stop_le_of_mem_tour_analyze (h : e.start < e.stop) (hlen : e.stop ≤ t.length)
    (hasName impliesTypes : Bool) :
    ∀ e' ∈ (analyze t e hasName impliesTypes).tour, e'.stop ≤ e.stop := by
  obtain ⟨hstart, hopen⟩ := openingOf_mem t h
  obtain ⟨hgt, hle⟩ := stopOf_mem t h
  have hlaid := laidOut_analyze h hlen hasName impliesTypes
  intro e' he'
  simp only [tour, List.mem_cons, List.mem_append, Option.mem_toList] at he'
  rcases he' with (rfl | he') | he'
  · exact hopen
  · exact Nat.le_trans (stop_le_of_mem_weave (fun p hp => (hlaid.inside p hp).2) e' he') hle
  · obtain ⟨c, -, rfl⟩ := Option.map_eq_some_iff.mp he'
    exact Nat.le_refl _

/-- A parameter list is cut exactly where depths say, and nothing of its section is lost or read
twice. -/
structure CutExactly (t : TaggedText) (l : ParameterList) : Prop where
  /-- The list ends at the first closing token at depth zero. -/
  closing : ∀ c, l.closing = some c ↔
    (l.opening < c ∧ c < l.extent.stop ∧ t.role? c = some .listClose ∧
      t.depthAt (l.opening + 1) c = 0) ∧
    ∀ i, l.opening < i → i < c →
      ¬ (t.role? i = some .listClose ∧ t.depthAt (l.opening + 1) i = 0)
  /-- Without such a token the list is not closed. -/
  unclosed : l.closing = none ↔ ∀ i, l.opening < i → i < l.extent.stop →
    ¬ (t.role? i = some .listClose ∧ t.depthAt (l.opening + 1) i = 0)
  /-- There is one parameter more than separators at depth zero. -/
  count : l.count = 1 + ((Extent.mk (l.opening + 1) l.stop).indices.filter fun i =>
    t.role? i = some .separator ∧ t.depthAt (l.opening + 1) i = 0).length
  /-- The pieces of the section are its tokens, once each and in order. -/
  tokens : l.tour.flatMap Extent.indices = l.extent.indices
  /-- Blanks alone lie before the first parameter. -/
  first_gap : ∀ p, l.parameters.head? = some p →
    ∀ i, l.opening + 1 ≤ i → i < p.start → t.isBlankAt i = true
  /-- One separator at depth zero lies between two parameters, and blanks. -/
  inner_gap : ∀ j p q, l.parameter? j = some p → l.parameter? (j + 1) = some q →
    ∃ k, p.stop ≤ k ∧ k < q.start ∧
      (t.role? k = some .separator ∧ t.depthAt (l.opening + 1) k = 0) ∧
      ∀ i, p.stop ≤ i → i < q.start → i ≠ k → t.isBlankAt i = true ∧
        ¬ (t.role? i = some .separator ∧ t.depthAt (l.opening + 1) i = 0)
  /-- Blanks alone lie behind the last parameter. -/
  last_gap : ∀ p, l.parameters.getLast? = some p →
    ∀ i, p.stop ≤ i → i < l.stop → t.isBlankAt i = true
  /-- The texts of the pieces make up the text of the section. -/
  text : String.join (l.tour.map t.extentText) = t.extentText l.extent

theorem endsAt_eq_true_iff {start i : Nat} :
    endsAt t 0 start i = true ↔ t.role? i = some .listClose ∧ t.depthAt start i = 0 := by
  simp [endsAt, TaggedText.hasRole, TaggedText.depthAt]

theorem separatesAt_eq_true_iff {start i : Nat} :
    separatesAt t 0 start i = true ↔ t.role? i = some .separator ∧ t.depthAt start i = 0 := by
  simp [separatesAt, TaggedText.hasRole, TaggedText.depthAt]

theorem count_analyze_eq (t : TaggedText) (e : Extent) (hasName impliesTypes : Bool) :
    (analyze t e hasName impliesTypes).count =
      1 + ((Extent.mk (openingOf t e + 1) (stopOf t e)).indices.filter fun i =>
        t.role? i = some .separator ∧ t.depthAt (openingOf t e + 1) i = 0).length := by
  rw [count_analyze, separators_split, Nat.add_comm]
  congr 3
  funext i
  rw [Bool.eq_iff_iff, separatesAt_eq_true_iff, decide_eq_true_iff]

/-- The analysis of a section cuts its list exactly. -/
theorem cutExactly_analyze (h : e.start < e.stop) (hlen : e.stop ≤ t.length)
    (hasName impliesTypes : Bool) : CutExactly t (analyze t e hasName impliesTypes) := by
  have hlaid := laidOut_analyze h hlen hasName impliesTypes
  have htokens := flatMap_indices_tour_analyze h hlen hasName impliesTypes
  have hstops := stop_le_of_mem_tour_analyze h hlen hasName impliesTypes
  have hnot {i : Nat} : endsAt t 0 (openingOf t e + 1) i = false ↔
      ¬ (t.role? i = some .listClose ∧ t.depthAt (openingOf t e + 1) i = 0) := by
    rw [← endsAt_eq_true_iff, Bool.not_eq_true]
  refine ⟨fun c => ?_, ?_, count_analyze_eq t e hasName impliesTypes, htokens,
    fun p hp => hlaid.first_gap hp, fun j p q hp hq => ?_, fun p hp => hlaid.last_gap hp, ?_⟩
  · change (split t e).closing = some c ↔ _
    rw [closing_split, Extent.find?_indices_eq_some, endsAt_eq_true_iff]
    simp only [hnot, Nat.succ_le_iff, and_assoc]
    rfl
  · change (split t e).closing = none ↔ _
    rw [closing_split, Extent.find?_indices_eq_none]
    simp only [hnot, Nat.succ_le_iff]
    rfl
  · obtain ⟨k, hk, hpk, hkq, hgap⟩ := hlaid.inner_gap hp hq
    rw [separators_split] at hk hgap
    refine ⟨k, hpk, hkq, separatesAt_eq_true_iff.mp (List.mem_filter.mp hk).2, ?_⟩
    intro i hpi hiq hik
    obtain ⟨hblank, hnotsep⟩ := hgap i hpi hiq hik
    refine ⟨hblank, fun hsep => hnotsep (List.mem_filter.mpr ⟨?_, ?_⟩)⟩
    · -- the gap lies inside the list, so a separator in it would have been seen
      have hpmem := hlaid.inside p (List.mem_of_getElem? hp)
      have hqmem := hlaid.inside q (List.mem_of_getElem? hq)
      exact Extent.mem_indices.mpr ⟨by simp only; omega, by simp only; omega⟩
    · exact separatesAt_eq_true_iff.mpr hsep
  · rw [TaggedText.join_map_extentText fun e' he' => Nat.le_trans (hstops e' he') hlen, htokens,
      ← TaggedText.extentText_eq_join hlen]
    rfl

/-- **Lists are cut exactly.** Whatever roles the tokens have, every parameter list of an outline is
cut where depths say, and its section is read once and in order. -/
theorem cutExactly_of_mem_sections (t : TaggedText) (impliesTypes : Bool) (l : ParameterList)
    (h : .parameterized l ∈ (Outline.ofText t impliesTypes).sections) : CutExactly t l := by
  obtain ⟨p, hp, -, rfl⟩ := Outline.exists_of_parameterized_mem h
  exact cutExactly_analyze (Piece.trimmed_of_mem_kept hp).2 (Piece.stop_trim_le_length hp) _ _

/-- A list of three parameters, one of them with a separator inside its type. -/
theorem cutExactly_wide :
    .parameterized ⟨⟨0, 38⟩, true, 7, some 37, [⟨8, 11⟩, ⟨14, 23⟩, ⟨26, 37⟩], .typeFirst, true⟩ ∈
        (Outline.ofText (Sample.wide 3) true).sections ∧
      CutExactly (Sample.wide 3)
        ⟨⟨0, 38⟩, true, 7, some 37, [⟨8, 11⟩, ⟨14, 23⟩, ⟨26, 37⟩], .typeFirst, true⟩ :=
  ⟨by decide, cutExactly_of_mem_sections (Sample.wide 3) true _ (by decide)⟩

end ParameterList

end DeclOutline
