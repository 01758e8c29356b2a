import DeclOutline.Proofs.FullTypes
import DeclOutline.Proofs.Transport

/-!
# Answers about a carried declaration

Where an index map carries the section of a parameter list, every question about a parameter has
the same answer on both sides: an extent is answered by its image, a yes or no by itself. So two
declarations whose sections are carried from one to the other say the same, up to where they say
it and to blanks: an extent and its image read the same tokens, blanks aside.

A full type is compared by its tokens alone. It holds layout that the map passes over, and the
spaces between its pieces are not in the text at all.

## Main definitions

* `Declaration.Content`, `Declaration.content` — what a declaration says, blanks aside
* `Declaration.CarriedTo` — the sections of one declaration are those of another, carried

## Main results

* `Carries.solids` — an extent and its image have the same tokens, blanks aside
* `Carries.typeDonor?` — a parameter and its image have their type from the same parameter
* `Carries.fullType?` — and the same full type, blanks aside
* `Declaration.CarriedTo.content_eq` — carrying keeps the content
-/

namespace DeclOutline

namespace Carries

variable {f : Nat → Nat} {t t' : TaggedText} {e : Extent} {is : List Nat}

/-! ### Tokens -/

/-- Tokens that are told from layout are the same on both sides. -/
theorem filter_tokens (h : Carries f t t' e) (hmem : ∀ i ∈ is, e.start ≤ i ∧ i < e.stop)
    {p : Token → Bool} (hp : ∀ token, token.isLayout = true → p token = false) :
    (((is.filter (carried f)).map f).filterMap t'.token?).filter p =
      (is.filterMap t.token?).filter p := by
  induction is with
  | nil => rfl
  | cons i is ih =>
    obtain ⟨hi, hi'⟩ := hmem i List.mem_cons_self
    have ih := ih fun j hj => hmem j (List.mem_cons_of_mem i hj)
    cases hc : carried f i with
    | true =>
      have htoken : t'.token? (f i) = t.token? i := h.token? hi hi' hc
      rw [List.filter_cons_of_pos hc, List.map_cons, List.filterMap_cons, List.filterMap_cons,
        htoken]
      cases t.token? i with
      | none => exact ih
      | some token => simp only [List.filter_cons, ih]
    | false =>
      obtain ⟨token, htoken, hlayout⟩ :=
        (Option.any_eq_true _ _).mp (h.isLayoutAt hi hi' hc).2
      rw [List.filter_cons_of_neg (by simp [hc]), List.filterMap_cons_some htoken,
        List.filter_cons_of_neg (by simp [hp token hlayout]), ih]

theorem filter_slice (h : Carries f t t' e) (hle : e.start ≤ e.stop) (hlen : e.stop ≤ t.length)
    (hlen' : f e.stop ≤ t'.length) {p : Token → Bool}
    (hp : ∀ token, token.isLayout = true → p token = false) :
    (t'.slice (e.image f)).filter p = (t.slice e).filter p := by
  have hindices : (e.image f).indices = (e.indices.filter (carried f)).map f := h.indices_image hle
  rw [TaggedText.slice, TaggedText.slice, Nat.min_eq_left hlen,
    Nat.min_eq_left (show (e.image f).stop ≤ _ from hlen')]
  rw [show (Extent.mk (e.image f).start (e.image f).stop).indices = _ from hindices]
  exact h.filter_tokens (fun i hi => Extent.mem_indices.mp hi) hp

theorem solidsAt (h : Carries f t t' e) (hmem : ∀ i ∈ is, e.start ≤ i ∧ i < e.stop) :
    t'.solidsAt ((is.filter (carried f)).map f) = t.solidsAt is :=
  h.filter_tokens hmem fun token hlayout => by simp [(Bool.and_eq_true_iff.mp hlayout).1]

/-- An extent and its image have the same tokens, blanks aside. -/
theorem solids (h : Carries f t t' e) (hle : e.start ≤ e.stop) (hlen : e.stop ≤ t.length)
    (hlen' : f e.stop ≤ t'.length) : t'.solids (e.image f) = t.solids e :=
  h.filter_slice hle hlen hlen' fun token hlayout => by
    simp [(Bool.and_eq_true_iff.mp hlayout).1]

/-- An extent and its image state the same access level. -/
theorem resolve (h : Carries f t t' e) (hle : e.start ≤ e.stop) (hlen : e.stop ≤ t.length)
    (hlen' : f e.stop ≤ t'.length) (keywords : KeywordTable) :
    keywords.resolve t' (e.image f) = keywords.resolve t e := by
  rw [KeywordTable.resolve, KeywordTable.resolve, KeywordTable.levels, KeywordTable.levels,
    h.filter_slice hle hlen hlen' fun token hlayout => ?_]
  simp [Option.isNone_iff_eq_none.mp (Bool.and_eq_true_iff.mp hlayout).2]

/-! ### Questions about a parameter -/

variable {l : ParameterList} {i : Nat}

theorem parameter?_image (f : Nat → Nat) (l : ParameterList) (i : Nat) :
    (l.image f).parameter? i = (l.parameter? i).map (Extent.image f) :=
  List.getElem?_map ..

theorem parameter (h : Carries f t t' l.extent) (hl : l.WellPlaced)
    (hi : l.parameter? i = some e) :
    Carries f t t' e ∧ e.start ≤ e.stop ∧ e.stop ≤ l.extent.stop := by
  obtain ⟨h₁, h₂, h₃⟩ := hl.inside e (List.mem_of_getElem? hi)
  have := hl.start_le_opening
  exact ⟨h.mono (by omega) h₃, h₂, h₃⟩

/-- A question about a parameter is carried if it is about an extent. -/
theorem bind_parameter? (h : Carries f t t' l.extent) (hl : l.WellPlaced)
    {q q' : Extent → Option Extent}
    (hq : ∀ e, Carries f t t' e → e.start ≤ e.stop → q' (e.image f) = (q e).map (Extent.image f))
    (i : Nat) :
    ((l.image f).parameter? i).bind q' = ((l.parameter? i).bind q).map (Extent.image f) := by
  rw [parameter?_image]
  cases hi : l.parameter? i with
  | none => rfl
  | some e =>
    obtain ⟨he, hle, -⟩ := h.parameter hl hi
    exact hq e he hle

theorem name? (h : Carries f t t' l.extent) (hl : l.WellPlaced) (i : Nat) :
    (l.image f).name? t' i = (l.name? t i).map (Extent.image f) :=
  h.bind_parameter? hl (fun _ he hle => he.firstRun? hle _ _) i

theorem default? (h : Carries f t t' l.extent) (hl : l.WellPlaced) (i : Nat) :
    (l.image f).default? t' i = (l.default? t i).map (Extent.image f) :=
  h.bind_parameter? hl (fun _ he hle => he.value? hle _ _) i

theorem property? (h : Carries f t t' l.extent) (hl : l.WellPlaced) (i : Nat) :
    (l.image f).property? t' i = (l.property? t i).map (Extent.image f) :=
  h.bind_parameter? hl (fun _ he hle => he.value? hle _ _) i

theorem hasOwnType (h : Carries f t t' l.extent) (hl : l.WellPlaced) (i : Nat) :
    (l.image f).hasOwnType t' i = l.hasOwnType t i := by
  rw [ParameterList.hasOwnType, ParameterList.hasOwnType, parameter?_image]
  cases hi : l.parameter? i with
  | none => rfl
  | some e =>
    obtain ⟨he, hle, -⟩ := h.parameter hl hi
    simp [ParameterList.ownType?, he.firstRun? hle]

theorem count_image (f : Nat → Nat) (l : ParameterList) : (l.image f).count = l.count :=
  List.length_map _

/-- Types come from the same parameter on both sides. -/
theorem typeDonor? (h : Carries f t t' l.extent) (hl : l.WellPlaced) (i : Nat) (implied : Bool) :
    (l.image f).typeDonor? t' i implied = l.typeDonor? t i implied := by
  have hown : (l.image f).hasOwnType t' = l.hasOwnType t := funext (h.hasOwnType hl)
  rw [ParameterList.typeDonor?, ParameterList.typeDonor?, count_image, hown]
  rfl

theorem typeIsImplied (h : Carries f t t' l.extent) (hl : l.WellPlaced) (i : Nat)
    (implied : Bool) : (l.image f).typeIsImplied t' i implied = l.typeIsImplied t i implied := by
  rw [ParameterList.typeIsImplied, ParameterList.typeIsImplied, h.typeDonor? hl]

theorem baseType? (h : Carries f t t' l.extent) (hl : l.WellPlaced) (i : Nat) (implied : Bool) :
    (l.image f).baseType? t' i implied = (l.baseType? t i implied).map (Extent.image f) := by
  rw [ParameterList.baseType?, ParameterList.baseType?, h.typeDonor? hl]
  cases l.typeDonor? t i implied with
  | none => rfl
  | some donor => exact h.bind_parameter? hl (fun _ he hle => he.firstRun? hle _ _) donor

/-! ### Full types -/

/-- An extent and its image have the same full type, blanks aside. -/
theorem assemble (h : Carries f t t' e) (hle : e.start ≤ e.stop) (hlen : e.stop ≤ t.length)
    (hlen' : f e.stop ≤ t'.length) (own : Bool) :
    (ParameterList.assemble t' (ParameterList.typeIndices t' own (e.image f))).map Excerpt.solids =
      (ParameterList.assemble t (ParameterList.typeIndices t own e)).map Excerpt.solids := by
  have hsub := ParameterList.typeIndices_sublist t own e
  have hsub' := ParameterList.typeIndices_sublist t' own (e.image f)
  have hmem : ∀ i ∈ ParameterList.typeIndices t own e, e.start ≤ i ∧ i < e.stop :=
    fun i hi => Extent.mem_indices.mp (hsub.mem hi)
  have hmem' : ∀ i ∈ ParameterList.typeIndices t' own (e.image f), i < f e.stop :=
    fun i hi => (Extent.mem_indices.mp (hsub'.mem hi)).2
  rw [ParameterList.solids_assemble ((Extent.pairwise_indices _).sublist hsub')
      fun i hi => Nat.lt_of_lt_of_le (hmem' i hi) hlen',
    ParameterList.solids_assemble (e.pairwise_indices.sublist hsub)
      fun i hi => Nat.lt_of_lt_of_le (hmem i hi).2 hlen,
    h.typeIndices hle, h.any_hasRole_map hmem, h.solidsAt hmem]

theorem fullType? (h : Carries f t t' l.extent) (hl : l.WellPlaced)
    (hlen : l.extent.stop ≤ t.length) (hlen' : f l.extent.stop ≤ t'.length) (i : Nat)
    (implied : Bool) :
    ((l.image f).fullType? t' i implied).map Excerpt.solids =
      (l.fullType? t i implied).map Excerpt.solids := by
  rw [ParameterList.fullType?, ParameterList.fullType?, h.typeDonor? hl]
  cases l.typeDonor? t i implied with
  | none => rfl
  | some donor =>
    simp only [Option.bind_some, parameter?_image]
    cases hdonor : l.parameter? donor with
    | none => rfl
    | some e =>
      obtain ⟨he, hle, hstop⟩ := h.parameter hl hdonor
      have hstop' : f e.stop ≤ f l.extent.stop := by
        have h₁ := hl.start_le_opening
        have h₂ := (hl.inside e (List.mem_of_getElem? hdonor)).1
        exact h.le (by omega) hstop (Nat.le_refl _)
      exact he.assemble hle (by omega) (by omega) (donor == i)

end Carries

/-! ### Questions about a declaration -/

/-- A section, carried. -/
def Section.image (f : Nat → Nat) : Section → Section
  | .plain extent hasName => .plain (extent.image f) hasName
  | .parameterized list => .parameterized (list.image f)

namespace Declaration

/-- What a declaration says, without regard to where it says it and to blanks. -/
@[ext] structure Content where
  /-- Of each section, whether it has a name and whether it has a parameter list. -/
  sections : List (Bool × Bool)
  main : Nat
  style : ParameterStyle
  accessLevel : AccessLevel
  parameterCount : Nat
  beforeParameters : List Token
  afterParameters? : Option (List Token)
  parameter? : Nat → Option (List Token)
  name? : Nat → Option (List Token)
  default? : Nat → Option (List Token)
  property? : Nat → Option (List Token)
  baseType? : Nat → Bool → Option (List Token)
  fullType? : Nat → Bool → Option (List Token)
  typeIsImplied : Nat → Bool → Bool

/-- The content of a declaration: extents are read as their tokens that are not blank. -/
def content (d : Declaration) : Content where
  sections := d.outline.sections.map fun s => (s.hasName, s.hasList)
  main := d.outline.main
  style := d.style
  accessLevel := d.accessLevel
  parameterCount := d.parameterCount
  beforeParameters := d.text.solids d.beforeParameters
  afterParameters? := d.afterParameters?.map d.text.solids
  parameter? i := (d.parameter? i).map d.text.solids
  name? i := (d.name? i).map d.text.solids
  default? i := (d.default? i).map d.text.solids
  property? i := (d.property? i).map d.text.solids
  baseType? i implied := (d.baseType? i implied).map d.text.solids
  fullType? i implied := (d.fullType? i implied).map Excerpt.solids
  typeIsImplied := d.typeIsImplied

/-- The sections of a declaration are those of another, carried, and so is the text of its main
section. -/
structure CarriedTo (f : Nat → Nat) (d d' : Declaration) : Prop where
  keywords : d'.keywords = d.keywords
  sections : d'.outline.sections = d.outline.sections.map (Section.image f)
  main : d'.outline.main = d.outline.main
  placed : d.WellPlaced
  carries : Carries f d.text d'.text d.mainSection.extent
  stop_le : d.mainSection.extent.stop ≤ d.text.length
  image_stop_le : f d.mainSection.extent.stop ≤ d'.text.length
  /-- The map does not pass over the token that opens the main section's list. -/
  opening : ∀ l, d.mainList? = some l → carried f l.opening = true

namespace CarriedTo

variable {f : Nat → Nat} {d d' : Declaration}

theorem mainSection (h : d.CarriedTo f d') : d'.mainSection = d.mainSection.image f := by
  have hget : ∀ o : Outline, o.sections[o.main]? = some o.mainSection :=
    fun o => List.getElem?_eq_getElem o.main_lt
  have hmain := hget d'.outline
  rw [h.sections, h.main, List.getElem?_map, hget d.outline] at hmain
  exact (Option.some.inj hmain).symm

theorem mainList? (h : d.CarriedTo f d') :
    d'.mainList? = d.mainList?.map (ParameterList.image f) := by
  rw [Declaration.mainList?, Declaration.mainList?, h.mainSection]
  cases d.mainSection <;> rfl

/-- The main section's list is well placed, and carried. -/
theorem list (h : d.CarriedTo f d') {l : ParameterList} (hl : d.mainList? = some l) :
    l.WellPlaced ∧ Carries f d.text d'.text l.extent := by
  have hs := mainSection_of_mainList? hl
  have hplaced := h.placed.mainSection
  have hcarries := h.carries
  rw [hs] at hplaced hcarries
  exact ⟨hplaced, hcarries⟩

/-- What is inside the main section is carried to what is inside the other text. -/
theorem inside (h : d.CarriedTo f d') {x : Extent}
    (hin : d.mainSection.extent.encloses x = true) :
    Carries f d.text d'.text x ∧ x.start ≤ x.stop ∧ x.stop ≤ d.text.length ∧
      f x.stop ≤ d'.text.length := by
  obtain ⟨h₁, h₂, h₃⟩ := Extent.encloses_iff.mp hin
  have hstop : f x.stop ≤ f d.mainSection.extent.stop := h.carries.le (by omega) h₂ (Nat.le_refl _)
  exact ⟨h.carries.mono h₁ h₂, h₃, Nat.le_trans h₂ h.stop_le, Nat.le_trans hstop h.image_stop_le⟩

theorem solids (h : d.CarriedTo f d') {x : Extent}
    (hin : d.mainSection.extent.encloses x = true) :
    d'.text.solids (x.image f) = d.text.solids x := by
  obtain ⟨hcarries, hle, hstop, himage⟩ := h.inside hin
  exact hcarries.solids hle hstop himage

/-- An answer about the list is the same, blanks aside, if it is carried and inside the
section. -/
theorem bind_mainList? (h : d.CarriedTo f d') {q q' : ParameterList → Option Extent}
    (hq : ∀ l, l.WellPlaced → Carries f d.text d'.text l.extent →
      q' (l.image f) = (q l).map (Extent.image f))
    (hin : ∀ x, d.mainList?.bind q = some x → d.mainSection.extent.encloses x = true) :
    (d'.mainList?.bind q').map d'.text.solids = (d.mainList?.bind q).map d.text.solids := by
  rw [h.mainList?]
  cases hl : d.mainList? with
  | none => rfl
  | some l =>
    obtain ⟨hplaced, hcarries⟩ := h.list hl
    simp only [Option.map_some, Option.bind_some, hq l hplaced hcarries]
    cases hx : q l with
    | none => rfl
    | some x => exact congrArg some (h.solids (hin x (by rw [hl, Option.bind_some, hx])))

theorem afterParameters? (h : d.CarriedTo f d') :
    d'.afterParameters?.map d'.text.solids = d.afterParameters?.map d.text.solids := by
  refine h.bind_mainList? (fun l _ _ => ?_) fun x => h.placed.encloses_afterParameters
  simp [ParameterList.after?, ParameterList.image, Extent.image, Function.comp_def]

theorem parameter? (h : d.CarriedTo f d') (i : Nat) :
    (d'.parameter? i).map d'.text.solids = (d.parameter? i).map d.text.solids :=
  h.bind_mainList? (fun l _ _ => Carries.parameter?_image f l i) (h.placed.contained.parameter i)

theorem name? (h : d.CarriedTo f d') (i : Nat) :
    (d'.name? i).map d'.text.solids = (d.name? i).map d.text.solids :=
  h.bind_mainList? (fun _ hplaced hcarries => hcarries.name? hplaced i)
    fun _ => h.placed.encloses_answer fun _ hx => ⟨i, ParameterList.exists_of_name? hx⟩

theorem default? (h : d.CarriedTo f d') (i : Nat) :
    (d'.default? i).map d'.text.solids = (d.default? i).map d.text.solids :=
  h.bind_mainList? (fun _ hplaced hcarries => hcarries.default? hplaced i)
    fun _ => h.placed.encloses_answer fun _ hx => ⟨i, ParameterList.exists_of_default? hx⟩

theorem property? (h : d.CarriedTo f d') (i : Nat) :
    (d'.property? i).map d'.text.solids = (d.property? i).map d.text.solids :=
  h.bind_mainList? (fun _ hplaced hcarries => hcarries.property? hplaced i)
    fun _ => h.placed.encloses_answer fun _ hx => ⟨i, ParameterList.exists_of_property? hx⟩

theorem baseType? (h : d.CarriedTo f d') (i : Nat) (implied : Bool) :
    (d'.baseType? i implied).map d'.text.solids = (d.baseType? i implied).map d.text.solids := by
  refine h.bind_mainList? (fun l hplaced hcarries => hcarries.baseType? hplaced i implied)
    fun _ => h.placed.encloses_answer fun l hx => ?_
  obtain ⟨donor, own, -, hown, hx'⟩ := ParameterList.exists_of_baseType? hx
  exact ⟨donor, own, hown, hx'⟩

theorem fullType? (h : d.CarriedTo f d') (i : Nat) (implied : Bool) :
    (d'.fullType? i implied).map Excerpt.solids = (d.fullType? i implied).map Excerpt.solids := by
  rw [Declaration.fullType?, Declaration.fullType?, h.mainList?]
  cases hl : d.mainList? with
  | none => rfl
  | some l =>
    obtain ⟨hplaced, hcarries⟩ := h.list hl
    have hstop := h.stop_le
    have himage := h.image_stop_le
    rw [mainSection_of_mainList? hl] at hstop himage
    exact hcarries.fullType? hplaced hstop himage i implied

theorem typeIsImplied (h : d.CarriedTo f d') (i : Nat) (implied : Bool) :
    d'.typeIsImplied i implied = d.typeIsImplied i implied := by
  rw [Declaration.typeIsImplied, Declaration.typeIsImplied, h.mainList?]
  cases hl : d.mainList? with
  | none => rfl
  | some l =>
    obtain ⟨hplaced, hcarries⟩ := h.list hl
    exact hcarries.typeIsImplied hplaced i implied

theorem beforeParameters (h : d.CarriedTo f d') :
    d'.text.solids d'.beforeParameters = d.text.solids d.beforeParameters := by
  have himage : d'.beforeParameters = d.beforeParameters.image f := by
    have hopening := h.opening
    rw [Declaration.mainList?] at hopening
    rw [Declaration.beforeParameters, Declaration.beforeParameters, h.mainSection]
    cases hs : d.mainSection with
    | plain extent hasName => rfl
    | parameterized l =>
      rw [hs] at hopening
      have hmove := carried_iff.mp (hopening l rfl)
      exact congrArg (Extent.mk (f l.extent.start)) hmove.symm
  rw [himage]
  exact h.solids h.placed.encloses_beforeParameters

theorem accessLevel (h : d.CarriedTo f d') : d'.accessLevel = d.accessLevel := by
  have himage : d'.accessExtent = d.accessExtent.image f := by
    rw [accessExtent, accessExtent, h.mainSection]
    cases d.mainSection <;> rfl
  rw [Declaration.accessLevel, Declaration.accessLevel, accessLevelBy, accessLevelBy, himage,
    h.keywords]
  obtain ⟨hcarries, hle, hstop, himage⟩ := h.inside h.placed.encloses_accessExtent
  exact hcarries.resolve hle hstop himage d.keywords

/-- Carrying keeps the content. -/
theorem content_eq (h : d.CarriedTo f d') : d'.content = d.content := by
  refine Content.ext ?_ h.main ?_ h.accessLevel ?_ h.beforeParameters h.afterParameters?
    (funext h.parameter?) (funext h.name?) (funext h.default?) (funext h.property?)
    (funext fun i => funext (h.baseType? i)) (funext fun i => funext (h.fullType? i))
    (funext fun i => funext (h.typeIsImplied i))
  · simp only [content, h.sections, List.map_map]
    refine List.map_congr_left fun s _ => ?_
    cases s <;> rfl
  · show d'.style = d.style
    rw [style, style, h.mainList?]
    cases d.mainList? <;> rfl
  · show d'.parameterCount = d.parameterCount
    rw [parameterCount, parameterCount, h.mainList?]
    cases d.mainList? with
    | none => rfl
    | some l => exact Carries.count_image f l

end CarriedTo

end Declaration

end DeclOutline
