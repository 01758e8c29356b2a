import DeclOutline.Proofs.Sectioning
import Mathlib.Data.List.Sort

/-!
# The main section

An outline finds its main section on the way, among pieces of the text as lists of tokens. Here the
same is said by indices alone. The cuts of a text divide it into stretches, and those with a token
that is not blank are its sections, in order. A section has parameters exactly if its stretch opens
a parameter list, and the main section is the first whose stretch has a name, else the first whose
stretch opens a list, else the first.

Stretches of blanks are dropped before anything is counted. So a name on a blank token of such a
stretch does not make a section the main one, and the number of a section is not that of its stretch
among all of them. A name on a blank token of any other stretch counts, though the token may be
trimmed.

## Main definitions

* `TaggedText.cuts`, `TaggedText.stretches` — where a text is cut, and what lies between the cuts
* `TaggedText.solidStretches` — the stretches that are not blank
* `TaggedText.HasRoleIn` — an extent has a token of a role
* `TaggedText.IsMainOf` — the position of the main one of some extents

## Main results

* `Piece.map_extent_all`, `Piece.map_extent_kept` — pieces lie where the stretches do
* `Outline.main_ofText` — the main section, and the sections with parameters
-/

namespace DeclOutline

/-- The extents from `start` to `stop` between cuts. -/
def Extent.parts (start stop : Nat) : List Nat → List Extent
  | [] => [⟨start, stop⟩]
  | k :: ks => ⟨start, k⟩ :: parts k stop ks

namespace TaggedText

instance (t : TaggedText) (k : Nat) : Decidable (t.CutAt k) :=
  inferInstanceAs (Decidable (_ ∨ _))

/-- The indices at which a text is cut. -/
def cuts (t : TaggedText) : List Nat :=
  (List.range t.length).filter fun k => 0 < k ∧ t.CutAt k

/-- What lies between the cuts of a text. -/
def stretches (t : TaggedText) : List Extent :=
  Extent.parts 0 t.length t.cuts

/-- The stretches of a text with a token that is not blank. -/
def solidStretches (t : TaggedText) : List Extent :=
  t.stretches.filter fun e => ∃ i ∈ e.indices, t.IsSolid i

/-- An extent has a token of a role. -/
def HasRoleIn (t : TaggedText) (e : Extent) (r : Role) : Prop :=
  ∃ i ∈ e.indices, t.hasRole i r = true

instance (t : TaggedText) (e : Extent) (r : Role) : Decidable (t.HasRoleIn e r) :=
  inferInstanceAs (Decidable (∃ i ∈ e.indices, t.hasRole i r = true))

/-- The stretch at a position, blank ones aside, has a token of a role. -/
def StretchHas (t : TaggedText) (n : Nat) (r : Role) : Prop :=
  ∃ e, t.solidStretches[n]? = some e ∧ t.HasRoleIn e r

/-- The position of the first of some extents that has a token of a role. -/
structure IsFirstWith (t : TaggedText) (r : Role) (es : List Extent) (n : Nat) : Prop where
  has : ∃ e, es[n]? = some e ∧ t.HasRoleIn e r
  least : ∀ m e, m < n → es[m]? = some e → ¬ t.HasRoleIn e r

/-- The position of the main one of some extents: the first with a name, else the first that opens a
parameter list, else the first. -/
def IsMainOf (t : TaggedText) (es : List Extent) (n : Nat) : Prop :=
  t.IsFirstWith .name es n ∨
    (∀ e ∈ es, ¬ t.HasRoleIn e .name) ∧
      (t.IsFirstWith .listOpen es n ∨ (∀ e ∈ es, ¬ t.HasRoleIn e .listOpen) ∧ n = 0)

variable {t : TaggedText} {r : Role} {es : List Extent} {n : Nat}

theorem findIdx?_hasRoleIn_eq_some :
    es.findIdx? (fun e => t.HasRoleIn e r) = some n ↔ t.IsFirstWith r es n := by
  rw [List.findIdx?_eq_some_iff_getElem]
  simp only [decide_eq_true_eq]
  constructor
  · rintro ⟨hlt, hn, hbefore⟩
    refine ⟨⟨es[n], List.getElem?_eq_getElem hlt, hn⟩, fun m e hm he => ?_⟩
    obtain ⟨hlt', rfl⟩ := List.getElem?_eq_some_iff.mp he
    exact hbefore m hm
  · rintro ⟨⟨e, he, hn⟩, hleast⟩
    obtain ⟨hlt, rfl⟩ := List.getElem?_eq_some_iff.mp he
    exact ⟨hlt, hn, fun m hm =>
      hleast m _ hm (List.getElem?_eq_getElem (Nat.lt_trans hm hlt))⟩

theorem findIdx?_hasRoleIn_eq_none :
    es.findIdx? (fun e => t.HasRoleIn e r) = none ↔ ∀ e ∈ es, ¬ t.HasRoleIn e r := by
  simp [List.findIdx?_eq_none_iff]

theorem mem_cuts {k : Nat} : k ∈ t.cuts ↔ k < t.length ∧ 0 < k ∧ t.CutAt k := by
  simp [cuts]

end TaggedText

namespace Piece

variable {t : TaggedText} {p : Piece} {r : Role}

/-! ### Pieces lie where the stretches do -/

/-- Placed groups are cut where all but the first start. -/
theorem map_extent_place (start : Nat) (g : List Token) (gs : List (List Token)) :
    (place start (g :: gs)).map extent =
      Extent.parts start (start + (g :: gs).flatten.length)
        ((place (start + g.length) gs).map Piece.start) := by
  induction gs generalizing start g with
  | nil => simp [place, extent, Extent.parts]
  | cons next gs ih =>
    have hstop : start + (g :: next :: gs).flatten.length =
        start + g.length + (next :: gs).flatten.length := by
      rw [List.flatten_cons, List.length_append, Nat.add_assoc]
    rw [hstop, place, List.map_cons, ih]
    rfl

theorem start_lt_stop_of_mem_all (h : p ∈ all t) : p.start < p.extent.stop := by
  obtain ⟨l, r, heq, -⟩ := exists_of_mem_all h
  have hne : p.tokens ≠ [] := by
    intro hnil
    refine List.nil_notMem_splitBy holdsTogether t.tokens.toList ?_
    simp [heq, hnil]
  exact Nat.lt_add_of_pos_right (List.length_pos_iff.mpr hne)

/-- All pieces but the first start at cuts, and there are no other cuts. -/
theorem map_start_eq_cuts {ps : List Piece} (h : all t = p :: ps) (hp : p.start = 0) :
    ps.map Piece.start = t.cuts := by
  have hmem : ∀ q ∈ ps, q ∈ all t := fun q hq => h ▸ List.mem_cons_of_mem p hq
  obtain ⟨hfirst, hps⟩ := List.pairwise_cons.mp (h ▸ pairwise_all t)
  refine List.Pairwise.eq_of_mem_iff (r := (· < ·)) ?_ (List.pairwise_lt_range.filter _) ?_
  · refine List.pairwise_map.mpr (hps.imp_of_mem fun {a b} ha _ hab => ?_)
    exact Nat.lt_of_lt_of_le (start_lt_stop_of_mem_all (hmem a ha)) hab
  · intro k
    show k ∈ ps.map Piece.start ↔ k ∈ t.cuts
    rw [TaggedText.mem_cuts]
    constructor
    · intro hk
      obtain ⟨q, hq, rfl⟩ := List.mem_map.mp hk
      have hpos : 0 < q.start := Nat.lt_of_lt_of_le
        (Nat.lt_of_le_of_lt (Nat.zero_le _) (start_lt_stop_of_mem_all (h ▸ List.mem_cons_self)))
        (hfirst q hq)
      exact ⟨Nat.lt_of_lt_of_le (start_lt_stop_of_mem_all (hmem q hq))
        (stop_le_length_of_mem_all (hmem q hq)), hpos, cutAt_start (hmem q hq) hpos⟩
    · rintro ⟨hlt, hpos, hcut⟩
      -- the piece that holds the token at a cut starts there
      obtain ⟨q, hq, hstart, hstop⟩ := exists_mem_all hlt
      have heq : q.start = k := by
        by_contra hne
        exact not_cutAt_of_mem_all hq (Nat.lt_of_le_of_ne hstart hne) hstop hcut
      rcases List.mem_cons.mp (h ▸ hq) with rfl | hq'
      · omega
      · exact List.mem_map.mpr ⟨q, hq', heq⟩

/-- Pieces lie where the stretches do, unless there is no token. -/
theorem map_extent_all (h : 0 < t.length) : (all t).map extent = t.stretches := by
  obtain ⟨p, hp, -⟩ := exists_mem_all h
  have hlen : (t.tokens.toList.splitBy holdsTogether).flatten.length = t.length := by
    rw [List.flatten_splitBy]
    rfl
  cases hgs : t.tokens.toList.splitBy holdsTogether with
  | nil => simp [all, hgs, place] at hp
  | cons g gs =>
    have hall : all t = ⟨0, g⟩ :: place (0 + g.length) gs := by rw [all, hgs, place]
    rw [hgs] at hlen
    rw [TaggedText.stretches, ← map_start_eq_cuts hall rfl, ← hlen, all, hgs, map_extent_place,
      Nat.zero_add]

theorem isBlank_eq_false_iff_isSolid (h : p ∈ all t) :
    p.isBlank = false ↔ ∃ i ∈ p.extent.indices, t.IsSolid i := by
  rw [isBlank_eq_false_iff h]
  constructor
  · rintro ⟨i, hstart, hstop, hi⟩
    exact ⟨i, Extent.mem_indices.mpr ⟨hstart, hstop⟩,
      Nat.lt_of_lt_of_le hstop (stop_le_length_of_mem_all h), hi⟩
  · rintro ⟨i, hi, hsolid⟩
    obtain ⟨hstart, hstop⟩ := Extent.mem_indices.mp hi
    exact ⟨i, hstart, hstop, hsolid.2⟩

/-- **Pieces that are kept.** They lie where the stretches do that are not blank. -/
theorem map_extent_kept (t : TaggedText) : (kept t).map extent = t.solidStretches := by
  rcases Nat.eq_zero_or_pos t.length with hzero | hpos
  · have hnone : ∀ i, ¬ t.IsSolid i := fun i hi => by
      have := hi.1
      omega
    have hkept : kept t = [] := kept_eq_nil_iff.mpr fun ⟨i, hi⟩ => hnone i hi
    rw [hkept, TaggedText.solidStretches, List.map_nil, eq_comm, List.filter_eq_nil_iff]
    simp [hnone]
  · rw [TaggedText.solidStretches, ← map_extent_all hpos, kept, List.filter_map]
    refine congrArg _ (List.filter_congr fun p hp => ?_)
    rw [Bool.eq_iff_iff, Function.comp_apply, decide_eq_true_eq, ← isBlank_eq_false_iff_isSolid hp]
    simp

/-! ### The main piece -/

theorem hasRole_iff (h : p ∈ all t) : p.hasRole r = true ↔ t.HasRoleIn p.extent r := by
  rw [hasRole, List.any_eq_true, exists_mem_tokens_iff h fun token => token.hasRole r = true]
  constructor
  · rintro ⟨i, token, hstart, hstop, htoken, hr⟩
    refine ⟨i, Extent.mem_indices.mpr ⟨hstart, hstop⟩, ?_⟩
    rw [TaggedText.hasRole_of_token? htoken, hr]
  · rintro ⟨i, hi, hr⟩
    obtain ⟨hstart, hstop⟩ := Extent.mem_indices.mp hi
    have htoken := TaggedText.token?_of_lt
      (Nat.lt_of_lt_of_le hstop (stop_le_length_of_mem_all h))
    exact ⟨i, _, hstart, hstop, htoken, by rw [← TaggedText.hasRole_of_token? htoken, hr]⟩

theorem findIdx?_kept (t : TaggedText) (r : Role) :
    (kept t).findIdx? (·.hasRole r) = t.solidStretches.findIdx? (fun e => t.HasRoleIn e r) := by
  have hmap : (kept t).map (·.hasRole r) =
      t.solidStretches.map (fun e => decide (t.HasRoleIn e r)) := by
    rw [← map_extent_kept, List.map_map]
    refine List.map_congr_left fun p hp => ?_
    rw [Bool.eq_iff_iff, Function.comp_apply, decide_eq_true_eq]
    exact hasRole_iff (List.mem_filter.mp hp).1
  calc (kept t).findIdx? (·.hasRole r)
      = ((kept t).map (·.hasRole r)).findIdx? id := by rw [List.findIdx?_map, Function.id_comp]
    _ = (t.solidStretches.map fun e => decide (t.HasRoleIn e r)).findIdx? id := by rw [hmap]
    _ = t.solidStretches.findIdx? (fun e => t.HasRoleIn e r) := by
      rw [List.findIdx?_map, Function.id_comp]

/-- The main piece is the main stretch. -/
theorem isMainOf_mainIndex (t : TaggedText) :
    t.IsMainOf t.solidStretches (mainIndex (kept t)) := by
  rw [mainIndex, findIdx?_kept, findIdx?_kept]
  cases hname : t.solidStretches.findIdx? (fun e => t.HasRoleIn e .name) with
  | some n => exact .inl (TaggedText.findIdx?_hasRoleIn_eq_some.mp hname)
  | none =>
    refine .inr ⟨TaggedText.findIdx?_hasRoleIn_eq_none.mp hname, ?_⟩
    cases hopen : t.solidStretches.findIdx? (fun e => t.HasRoleIn e .listOpen) with
    | some n => exact .inl (TaggedText.findIdx?_hasRoleIn_eq_some.mp hopen)
    | none => exact .inr ⟨TaggedText.findIdx?_hasRoleIn_eq_none.mp hopen, rfl⟩

theorem hasName_toSection (t : TaggedText) (impliesTypes : Bool) (p : Piece) :
    (p.toSection t impliesTypes).hasName = p.hasRole .name := by
  simp only [toSection]
  split <;> rfl

theorem hasList_toSection (t : TaggedText) (impliesTypes : Bool) (p : Piece) :
    (p.toSection t impliesTypes).hasList = p.hasRole .listOpen := by
  simp only [toSection]
  split
  · next h => rw [h]; rfl
  · next h => rw [Bool.eq_false_of_not_eq_true h]; rfl

end Piece

/-! ### Outlines -/

namespace Outline

variable {t : TaggedText} {impliesTypes : Bool} {n : Nat} {s : Section}

/-- **Sections and stretches.** Either a section is the stretch at its position, trimmed, or all
tokens are blank, and the section is all there is. -/
theorem section_cases (h : (ofText t impliesTypes).sections[n]? = some s) :
    (∃ e, t.solidStretches[n]? = some e ∧ t.Trimmed e s.extent ∧
      (s.hasName = true ↔ t.HasRoleIn e .name) ∧ (s.hasList = true ↔ t.HasRoleIn e .listOpen)) ∨
    (¬ ∃ i, t.IsSolid i) ∧ t.solidStretches = [] ∧ s = .plain t.full false := by
  by_cases hkept : Piece.kept t = []
  · refine .inr ⟨Piece.kept_eq_nil_iff.mp hkept, ?_, ?_⟩
    · rw [← Piece.map_extent_kept, hkept, List.map_nil]
    · rw [ofText_of_blank hkept] at h
      exact List.mem_singleton.mp (List.mem_of_getElem? h)
  · rw [sections_ofText hkept, List.getElem?_map] at h
    obtain ⟨p, hp, rfl⟩ := Option.map_eq_some_iff.mp h
    have hmem := List.mem_of_getElem? hp
    have hall : p ∈ Piece.all t := (List.mem_filter.mp hmem).1
    refine .inl ⟨p.extent, ?_, ?_, ?_, ?_⟩
    · rw [← Piece.map_extent_kept, List.getElem?_map, hp, Option.map_some]
    · rw [Piece.extent_toSection]
      exact (Piece.trimmed_of_mem_kept hmem).1
    · rw [Piece.hasName_toSection, Piece.hasRole_iff hall]
    · rw [Piece.hasList_toSection, Piece.hasRole_iff hall]

/-- The flags of a section are those of the stretch at its position. -/
theorem flags_iff_stretchHas (h : (ofText t impliesTypes).sections[n]? = some s) :
    (s.hasName = true ↔ t.StretchHas n .name) ∧ (s.hasList = true ↔ t.StretchHas n .listOpen) := by
  rcases section_cases h with ⟨e, he, -, hname, hlist⟩ | ⟨-, hnone, rfl⟩
  · simp [TaggedText.StretchHas, he, hname, hlist]
  · simp [TaggedText.StretchHas, hnone, Section.hasName, Section.hasList, Section.list?]

theorem isMainOf_main (t : TaggedText) (impliesTypes : Bool) :
    t.IsMainOf t.solidStretches (ofText t impliesTypes).main := by
  have hmain := Piece.isMainOf_mainIndex t
  by_cases hkept : Piece.kept t = []
  · rw [hkept] at hmain
    rw [ofText_of_blank hkept]
    exact hmain
  · have heq : (ofText t impliesTypes).main = Piece.mainIndex (Piece.kept t) := by
      simp [ofText, hkept]
    rw [heq]
    exact hmain

/-- **The main section.** Cut a text where sections end and drop the stretches of blanks. The main
section is at the position of the first stretch with a name, else of the first that opens a
parameter list, else the first one. A section has parameters exactly if the stretch at its position
opens a list. There are as many sections as stretches, or the one section of a text of blanks, and
the main one is among them. -/
theorem main_ofText (t : TaggedText) (impliesTypes : Bool) :
    t.IsMainOf t.solidStretches (ofText t impliesTypes).main ∧
    (∀ n : Fin (ofText t impliesTypes).sections.length,
      ((ofText t impliesTypes).sections.get n).hasList = true ↔ t.StretchHas n .listOpen) ∧
    (ofText t impliesTypes).sections.length = max 1 t.solidStretches.length ∧
    (ofText t impliesTypes).main < (ofText t impliesTypes).sections.length := by
  refine ⟨isMainOf_main t impliesTypes, fun n => ?_, ?_, (ofText t impliesTypes).main_lt⟩
  · exact (flags_iff_stretchHas (List.getElem?_eq_getElem n.2)).2
  · rw [← Piece.map_extent_kept, List.length_map]
    by_cases hkept : Piece.kept t = []
    · rw [ofText_of_blank hkept, hkept]
      rfl
    · have hpos := List.length_pos_iff.mpr hkept
      rw [sections_ofText hkept, List.length_map]
      omega

-- the name is in a stretch of blanks, so it does not count, and the second section opens a list
example :
    let t := TaggedText.tokenize " x;y" |>.setRole 0 (some .name) |>.setRole 1 (some .sectionStart)
      |>.setRole 2 (some .sectionEnd) |>.setRole 3 (some .listOpen)
    t.stretches = [⟨0, 1⟩, ⟨1, 3⟩, ⟨3, 4⟩] ∧ t.solidStretches = [⟨1, 3⟩, ⟨3, 4⟩] ∧
      (ofText t true).main = 1 := by decide

end Outline

end DeclOutline
