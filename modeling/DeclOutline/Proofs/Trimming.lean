import DeclOutline.TaggedText.Basic
import Mathlib.Data.List.Basic
import Mathlib.Tactic.Push

/-!
# Trimming

What `TaggedText.trim` leaves of an extent that lies inside the text. `Trimmed t e r` says it
without the scan: `r` lies in `e`, blanks alone are left out on either side, a part that remains
begins and ends on a token that is not blank, and if nothing remains the extent collapses to its
start.
These conditions determine `r`, so a trimmed extent is computed by naming it and checking them.

The extent must not reach past the last token and must not be inverted. All extents that
outlining trims are of this kind.

## Main definitions

* `TaggedText.IsSolid` — there is a token at an index, and it is not blank
* `TaggedText.Trimmed` — the relation between an extent and what trimming leaves of it

## Main results

* `Extent.indices_cons`, `Extent.indices_append` — the indices of an extent, cut in two
* `TaggedText.trimmed_trim`, `TaggedText.Trimmed.eq_trim` — `trim` is the only solution
-/

namespace DeclOutline

/-! ### Indices of an extent -/

namespace Extent

theorem indices_eq_nil {a b : Nat} (h : b ≤ a) : (Extent.mk a b).indices = [] := by
  simp [indices, Nat.sub_eq_zero_of_le h]

theorem indices_cons {a b : Nat} (h : a < b) :
    (Extent.mk a b).indices = a :: (Extent.mk (a + 1) b).indices := by
  have hlen : b - a = b - (a + 1) + 1 := by omega
  simp only [indices, hlen, List.range'_succ]

theorem indices_append {a b c : Nat} (hab : a ≤ b) (hbc : b ≤ c) :
    (Extent.mk a b).indices ++ (Extent.mk b c).indices = (Extent.mk a c).indices := by
  have hmid : a + (b - a) = b := by omega
  have hlen : b - a + (c - b) = c - a := by omega
  have h := List.range'_append_1 (s := a) (m := b - a) (n := c - b)
  rwa [hmid, hlen] at h

theorem indices_succ {a i : Nat} (h : a ≤ i) :
    (Extent.mk a (i + 1)).indices = (Extent.mk a i).indices ++ [i] := by
  rw [← indices_append h (Nat.le_succ i), indices_cons (Nat.lt_succ_self i),
    indices_eq_nil (Nat.le_refl _)]

theorem encloses_trans {a b c : Extent} (hab : a.encloses b = true) (hbc : b.encloses c = true) :
    a.encloses c = true := by
  rw [encloses_iff] at *
  omega

theorem pairwise_indices (e : Extent) : e.indices.Pairwise (· < ·) :=
  List.pairwise_lt_range'

theorem filter_indices_congr {e : Extent} {p q : Nat → Bool}
    (h : ∀ i, e.start ≤ i → i < e.stop → p i = q i) : e.indices.filter p = e.indices.filter q :=
  List.filter_congr fun i hi => h i (mem_indices.mp hi).1 (mem_indices.mp hi).2

theorem find?_indices_eq_some {e : Extent} {p : Nat → Bool} {i : Nat} :
    e.indices.find? p = some i ↔
      (e.start ≤ i ∧ i < e.stop) ∧ p i = true ∧ ∀ j, e.start ≤ j → j < i → p j = false := by
  simp only [indices, List.find?_range'_eq_some, List.mem_range'_1, Bool.not_eq_eq_eq_not,
    Bool.not_true]
  constructor
  · rintro ⟨hp, hi, hleast⟩
    exact ⟨by omega, hp, hleast⟩
  · rintro ⟨hi, hp, hleast⟩
    exact ⟨hp, by omega, hleast⟩

theorem find?_indices_eq_none {e : Extent} {p : Nat → Bool} :
    e.indices.find? p = none ↔ ∀ i, e.start ≤ i → i < e.stop → p i = false := by
  simp [List.find?_eq_none]

theorem find?_indices_congr {e : Extent} {p q : Nat → Bool}
    (h : ∀ i, e.start ≤ i → i < e.stop → p i = q i) : e.indices.find? p = e.indices.find? q := by
  rw [← List.head?_filter, ← List.head?_filter, filter_indices_congr h]

/-- Induction along the indices of an extent, from its start. -/
theorem indices_induction (stop : Nat) {motive : Nat → List Nat → Prop}
    (nil : ∀ start, stop ≤ start → motive start [])
    (cons : ∀ start, start < stop → motive (start + 1) (Extent.mk (start + 1) stop).indices →
      motive start (start :: (Extent.mk (start + 1) stop).indices))
    (start : Nat) : motive start (Extent.mk start stop).indices := by
  by_cases h : start < stop
  · rw [indices_cons h]
    exact cons start h (indices_induction stop nil cons (start + 1))
  · rw [indices_eq_nil (Nat.le_of_not_lt h)]
    exact nil start (Nat.le_of_not_lt h)
termination_by stop - start

end Extent

namespace TaggedText

variable {t : TaggedText} {e r : Extent}

/-! ### Solid tokens -/

/-- There is a token at an index, and it is not blank. -/
def IsSolid (t : TaggedText) (i : Nat) : Prop :=
  i < t.length ∧ t.isBlankAt i = false

instance (t : TaggedText) (i : Nat) : Decidable (t.IsSolid i) :=
  inferInstanceAs (Decidable (_ ∧ _))

theorem token?_of_lt {i : Nat} (h : i < t.length) : t.token? i = some (t.tokens[i]) :=
  Array.getElem?_eq_getElem h

theorem token?_eq_none {i : Nat} (h : t.length ≤ i) : t.token? i = none := by
  simpa [token?, TaggedText.length] using h

/-! ### The relation -/

/-- `r` is what trimming leaves of `e`. -/
structure Trimmed (t : TaggedText) (e r : Extent) : Prop where
  start_le : e.start ≤ r.start
  le : r.start ≤ r.stop
  stop_le : r.stop ≤ e.stop
  /-- Blanks alone are left out in front. -/
  before : ∀ i, e.start ≤ i → i < r.start → t.isBlankAt i = true
  /-- Blanks alone are left out behind. -/
  after : ∀ i, r.stop ≤ i → i < e.stop → t.isBlankAt i = true
  /-- What remains begins on a token that is not blank. -/
  first : r.start < r.stop → t.isBlankAt r.start = false
  /-- What remains ends on a token that is not blank. -/
  last : r.start < r.stop → t.isBlankAt (r.stop - 1) = false
  /-- An extent of blanks collapses to its start. -/
  collapse : r.start = r.stop → r.start = e.start

/-- Tokens of the extent that are not blank remain. -/
theorem Trimmed.mem_of_not_blank (h : Trimmed t e r) {i : Nat} (hstart : e.start ≤ i)
    (hstop : i < e.stop) (hi : t.isBlankAt i = false) : r.start ≤ i ∧ i < r.stop := by
  constructor
  · by_contra hlt
    simp [h.before i hstart (by omega)] at hi
  · by_contra hge
    simp [h.after i (by omega) hstop] at hi

/-- Something remains exactly if a token of the extent is not blank. -/
theorem Trimmed.start_lt_stop_iff (h : Trimmed t e r) :
    r.start < r.stop ↔ ∃ i, e.start ≤ i ∧ i < e.stop ∧ t.isBlankAt i = false := by
  constructor
  · intro hlt
    exact ⟨r.start, h.start_le, by have := h.stop_le; omega, h.first hlt⟩
  · rintro ⟨i, hstart, hstop, hi⟩
    have := h.mem_of_not_blank hstart hstop hi
    omega

/-- The conditions have at most one solution. -/
theorem Trimmed.unique {r' : Extent} (h : Trimmed t e r) (h' : Trimmed t e r') : r = r' := by
  have hle := h.le
  have hle' := h'.le
  have hiff : r.start < r.stop ↔ r'.start < r'.stop := by
    rw [h.start_lt_stop_iff, h'.start_lt_stop_iff]
  by_cases hlt : r.start < r.stop
  · have hlt' := hiff.mp hlt
    have hr := h.start_le
    have hr' := h'.start_le
    have hs := h.stop_le
    have hs' := h'.stop_le
    -- the first and the last token of either solution remain in the other
    have hf := h'.mem_of_not_blank hr (by omega) (h.first hlt)
    have hf' := h.mem_of_not_blank hr' (by omega) (h'.first hlt')
    have hl := h'.mem_of_not_blank (by omega) (by omega) (h.last hlt)
    have hl' := h.mem_of_not_blank (by omega) (by omega) (h'.last hlt')
    obtain ⟨a, b⟩ := r
    obtain ⟨a', b'⟩ := r'
    simp only [Extent.mk.injEq] at *
    omega
  · have hlt' : ¬ r'.start < r'.stop := fun hn => hlt (hiff.mpr hn)
    have hc := h.collapse (by omega)
    have hc' := h'.collapse (by omega)
    obtain ⟨a, b⟩ := r
    obtain ⟨a', b'⟩ := r'
    simp only [Extent.mk.injEq] at *
    omega

/-! ### `trim` solves it -/

/-- The first index of an increasing list that passes a test is below all others that do. -/
theorem le_of_head?_filter {l : List Nat} {p : Nat → Bool} {i : Nat} (hl : l.Pairwise (· < ·))
    (h : (l.filter p).head? = some i) :
    i ∈ l ∧ p i = true ∧ ∀ j ∈ l, p j = true → i ≤ j := by
  obtain ⟨rest, hrest⟩ := List.head?_eq_some_iff.mp h
  have hmem : i ∈ l.filter p := hrest ▸ List.mem_cons_self
  have hpair : (i :: rest).Pairwise (· < ·) := hrest ▸ hl.filter p
  refine ⟨(List.mem_filter.mp hmem).1, (List.mem_filter.mp hmem).2, fun j hj hpj => ?_⟩
  have hj' : j ∈ i :: rest := hrest ▸ List.mem_filter.mpr ⟨hj, hpj⟩
  rcases List.mem_cons.mp hj' with rfl | hj'
  · exact Nat.le_refl _
  · exact Nat.le_of_lt ((List.pairwise_cons.mp hpair).1 j hj')

/-- The last index of an increasing list that passes a test is above all others that do. -/
theorem le_of_getLast?_filter {l : List Nat} {p : Nat → Bool} {i : Nat} (hl : l.Pairwise (· < ·))
    (h : (l.filter p).getLast? = some i) :
    i ∈ l ∧ p i = true ∧ ∀ j ∈ l, p j = true → j ≤ i := by
  obtain ⟨rest, hrest⟩ := List.getLast?_eq_some_iff.mp h
  have hmem : i ∈ l.filter p := hrest ▸ List.mem_append_right rest List.mem_cons_self
  have hpair : (rest ++ [i]).Pairwise (· < ·) := hrest ▸ hl.filter p
  refine ⟨(List.mem_filter.mp hmem).1, (List.mem_filter.mp hmem).2, fun j hj hpj => ?_⟩
  have hj' : j ∈ rest ++ [i] := hrest ▸ List.mem_filter.mpr ⟨hj, hpj⟩
  rcases List.mem_append.mp hj' with hj' | hj'
  · exact Nat.le_of_lt ((List.pairwise_append.mp hpair).2.2 j hj' i List.mem_cons_self)
  · exact Nat.le_of_eq (List.mem_singleton.mp hj')

/-- Trimming leaves what it should. -/
theorem trimmed_trim (hle : e.start ≤ e.stop) (hstop : e.stop ≤ t.length) :
    Trimmed t e (t.trim e) := by
  obtain ⟨a, b⟩ := e
  have hmin : min b t.length = b := Nat.min_eq_left hstop
  have hsorted := Extent.pairwise_indices ⟨a, b⟩
  simp only [trim, hmin]
  cases hfirst : ((Extent.mk a b).indices.filter fun i => !t.isBlankAt i).head? with
  | none =>
    have hblank : ∀ i, a ≤ i → i < b → t.isBlankAt i = true := by
      simpa [List.filter_eq_nil_iff] using List.head?_eq_none_iff.mp hfirst
    have hcond : a ≤ b := hle
    simp only [hcond, if_true]
    exact ⟨Nat.le_refl a, Nat.le_refl a, hle, fun i h h' => absurd h' (Nat.not_lt.mpr h), hblank,
      fun h => absurd h (Nat.lt_irrefl a), fun h => absurd h (Nat.lt_irrefl a), fun _ => rfl⟩
  | some first =>
    cases hlast : ((Extent.mk a b).indices.filter fun i => !t.isBlankAt i).getLast? with
    | none => simp [List.getLast?_eq_none_iff.mp hlast] at hfirst
    | some last =>
      obtain ⟨hmem, hsolid, hleast⟩ := le_of_head?_filter hsorted hfirst
      obtain ⟨hmem', hsolid', hgreatest⟩ := le_of_getLast?_filter hsorted hlast
      simp only [Extent.mem_indices, Bool.not_eq_eq_eq_not, Bool.not_true] at *
      have hfl : first ≤ last := hleast last hmem' hsolid'
      have hbefore : ∀ i, a ≤ i → i < first → t.isBlankAt i = true := by
        intro i hi hlt
        by_contra hn
        have := hleast i ⟨hi, by omega⟩ (by simpa using hn)
        omega
      have hafter : ∀ i, last + 1 ≤ i → i < b → t.isBlankAt i = true := by
        intro i hi hlt
        by_contra hn
        have := hgreatest i ⟨by omega, hlt⟩ (by simpa using hn)
        omega
      exact ⟨hmem.1, Nat.le_succ_of_le hfl, hmem'.2, hbefore, hafter, fun _ => hsolid,
        fun _ => hsolid', fun h => absurd h (Nat.ne_of_lt (Nat.lt_succ_of_le hfl))⟩

/-- Trimming brings the stop down to the number of tokens, wherever the extent lies. -/
theorem stop_trim_le (t : TaggedText) (e : Extent) : (t.trim e).stop ≤ t.length := by
  have hmin := Nat.min_le_right e.stop t.length
  rw [trim]
  split
  · next last _ hlast =>
    have hmem := (List.mem_filter.mp (List.mem_of_getLast? hlast)).1
    exact Nat.le_trans (Extent.mem_indices.mp hmem).2 hmin
  · split
    · next hle => exact Nat.le_trans hle hmin
    · exact hmin

/-- A solution is what trimming leaves. -/
theorem Trimmed.eq_trim (hstop : e.stop ≤ t.length) (h : Trimmed t e r) : t.trim e = r := by
  have hle : e.start ≤ e.stop := Nat.le_trans h.start_le (Nat.le_trans h.le h.stop_le)
  exact (trimmed_trim hle hstop).unique h

end TaggedText

end DeclOutline
