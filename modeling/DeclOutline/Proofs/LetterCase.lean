import DeclOutline.Text.Lowercase
import Mathlib.Data.List.Basic

/-!
# Lower-casing in context

Lower-casing goes character by character, and only a capital sigma looks around: it asks whether
the next character that is not looked over, on either side, is a cased one. So texts can be
exchanged for others inside of a longer text if they answer this question alike, whatever stands
behind them.

A character and its lower-case form do answer alike. This is not by construction but a property of
the case data: letters that change are cased and not looked over, and so are the letters that they
become. The data also say that these letters do not change any further.

## Main definitions

* `bitsOf`, `bitsIn` — sets of code points, as numbers
* `capitals`, `smalls` — code points that change, and what they become
* `lowerAt`, `lowerBetween` — the lower-case forms of a character and of a text at its place
* `SeenAlike` — two texts answer alike whether a cased character comes next

## Main results

* `lowerChar_cases` — what a character can become
* `seenAlike_lowerAt`, `lowerBetween_lowerAt` — the form of a character at its place is seen like
  the character, and is in lower case
* `lowerBetween_map_toLower` — the case of the letters `A` to `Z` does not matter
-/

namespace DeclOutline.Text

/-! ### Sets of code points

A set of code points is a number with a bit for each of them. What is to be known of some thousand
letters is then an operation on two numbers. -/

/-- The set of some code points. -/
def bitsOf (ns : List Nat) : Nat :=
  ns.foldr (fun n bits => 1 <<< n ||| bits) 0

/-- The set of the code points in some ranges. -/
def bitsIn (ranges : List (Nat × Nat)) : Nat :=
  ranges.foldr (fun r bits => (1 <<< (r.2 + 1 - r.1) - 1) <<< r.1 ||| bits) 0

theorem testBit_bitsOf (ns : List Nat) (n : Nat) : (bitsOf ns).testBit n = decide (n ∈ ns) := by
  induction ns with
  | nil => simp [bitsOf]
  | cons m ns ih =>
    have hcons : bitsOf (m :: ns) = 1 <<< m ||| bitsOf ns := rfl
    rw [hcons, Nat.testBit_or, ih, Nat.one_shiftLeft, Nat.testBit_two_pow]
    simp [eq_comm]

theorem testBit_bitsIn (ranges : List (Nat × Nat)) (n : Nat) :
    (bitsIn ranges).testBit n = inRanges ranges n := by
  induction ranges with
  | nil => simp [bitsIn, inRanges]
  | cons r ranges ih =>
    have hcons : bitsIn (r :: ranges) =
        (1 <<< (r.2 + 1 - r.1) - 1) <<< r.1 ||| bitsIn ranges := rfl
    have hrange : (decide (n ≥ r.1) && decide (n - r.1 < r.2 + 1 - r.1)) =
        (decide (r.1 ≤ n) && decide (n ≤ r.2)) := by
      rw [Bool.eq_iff_iff]
      simp only [Bool.and_eq_true, decide_eq_true_eq]
      omega
    rw [hcons, Nat.testBit_or, ih, Nat.testBit_shiftLeft, Nat.one_shiftLeft,
      Nat.testBit_two_pow_sub_one, hrange]
    rfl

/-! ### Letters that change -/

/-- The code points that a range of the case data moves. -/
def capitalsOf (r : Nat × Nat × Nat × Int) : List Nat :=
  List.range' r.1 ((r.2.1 - r.1) / r.2.2.1 + 1) r.2.2.1

/-- The code points of characters that are not in lower case. -/
def capitals : List Nat :=
  0x130 :: lowerRanges.flatMap capitalsOf

/-- The code points of single characters that others become. A final sigma comes first. -/
def smalls : List Nat :=
  0x3C2 :: lowerRanges.flatMap fun r =>
    (capitalsOf r).map fun n : Nat => ((n : Int) + r.2.2.2).toNat

theorem mem_capitalsOf {r : Nat × Nat × Nat × Int} {n : Nat} (hfirst : r.1 ≤ n)
    (hlast : n ≤ r.2.1) (hstride : (n - r.1) % r.2.2.1 = 0) : n ∈ capitalsOf r := by
  refine List.mem_range'.mpr ⟨(n - r.1) / r.2.2.1, ?_, ?_⟩
  · exact Nat.lt_succ_of_le (Nat.div_le_div_right (by omega))
  · have := Nat.div_add_mod (n - r.1) r.2.2.1
    omega

theorem mem_capitals {r : Nat × Nat × Nat × Int} {n : Nat} (hr : r ∈ lowerRanges)
    (hn : n ∈ capitalsOf r) : n ∈ capitals :=
  List.mem_cons_of_mem _ (List.mem_flatMap.mpr ⟨r, hr, hn⟩)

theorem mem_smalls {r : Nat × Nat × Nat × Int} {n : Nat} (hr : r ∈ lowerRanges)
    (hn : n ∈ capitalsOf r) : ((n : Int) + r.2.2.2).toNat ∈ smalls :=
  List.mem_cons_of_mem _ (List.mem_flatMap.mpr ⟨r, hr, List.mem_map.mpr ⟨n, hn, rfl⟩⟩)

theorem isValidChar_of_mem_smalls : ∀ n ∈ smalls, n.isValidChar := by
  decide +kernel

theorem and_bitsIn_caseIgnorableRanges :
    bitsOf (capitals ++ smalls) &&& bitsIn caseIgnorableRanges = 0 := by
  decide +kernel

theorem and_bitsIn_casedRanges :
    bitsOf (capitals ++ smalls) &&& bitsIn casedRanges = bitsOf (capitals ++ smalls) := by
  decide +kernel

theorem bitsOf_capitals_and_smalls : bitsOf capitals &&& bitsOf smalls = 0 := by
  decide +kernel

/-- Letters that change and what they become are cased and not looked over. -/
theorem cased_of_mem {c : Char} (h : c.toNat ∈ capitals ++ smalls) :
    isCased c = true ∧ isCaseIgnorable c = false := by
  have hbit : (bitsOf (capitals ++ smalls)).testBit c.toNat = true := by
    rw [testBit_bitsOf, decide_eq_true h]
  constructor
  · have hand := congrArg (Nat.testBit · c.toNat) and_bitsIn_casedRanges
    simpa [Nat.testBit_and, hbit, testBit_bitsIn, isCased] using hand
  · have hand := congrArg (Nat.testBit · c.toNat) and_bitsIn_caseIgnorableRanges
    simpa [Nat.testBit_and, hbit, testBit_bitsIn, isCaseIgnorable] using hand

/-- What letters become does not change any further. -/
theorem notMem_capitals_of_mem_smalls {n : Nat} (h : n ∈ smalls) : n ∉ capitals := by
  intro hcapital
  have hand := congrArg (Nat.testBit · n) bitsOf_capitals_and_smalls
  simp [Nat.testBit_and, testBit_bitsOf, h, hcapital] at hand

theorem lowerChar_of_lt {c : Char} (h : c.toNat < 0x80) : lowerChar c = [c.toLower] := by
  simp [lowerChar, h]

theorem val_of_isUpper {c : Char} (h : c.isUpper = true) :
    'A'.val ≤ c.val ∧ c.val ≤ 'Z'.val :=
  of_decide_eq_true h

theorem toNat_of_isUpper {c : Char} (h : c.isUpper = true) :
    0x41 ≤ c.toNat ∧ c.toNat ≤ 0x5A :=
  ⟨UInt32.le_iff_toNat_le.mp (val_of_isUpper h).1, UInt32.le_iff_toNat_le.mp (val_of_isUpper h).2⟩

theorem toNat_toLower {c : Char} (h : c.isUpper = true) : c.toLower.toNat = c.toNat + 32 := by
  have hlast := (toNat_of_isUpper h).2
  have hfits : c.toNat + 32 < UInt32.size :=
    Nat.lt_of_le_of_lt (Nat.add_le_add_right hlast 32) (by decide)
  have hlower : c.toLower.val = c.val + ('a'.val - 'A'.val) :=
    congrArg Char.val (dif_pos (val_of_isUpper h))
  rw [← Char.toNat_val, hlower, UInt32.toNat_add]
  exact Nat.mod_eq_of_lt hfits

theorem toLower_of_not_isUpper {c : Char} (h : ¬ c.isUpper = true) : c.toLower = c :=
  dif_neg fun hval => h (decide_eq_true hval)

theorem toNat_ofNat {n : Nat} (h : n.isValidChar) : (Char.ofNat n).toNat = n :=
  congrArg Char.toNat (dif_pos h)

/-- A character is its own lower-case form, or a capital `I` with a dot, or is moved by a range of
the case data. -/
theorem lowerChar_cases (c : Char) :
    lowerChar c = [c] ∨ c.toNat = 0x130 ∧ lowerChar c = ['i', Char.ofNat 0x307] ∨
      ∃ r ∈ lowerRanges, c.toNat ∈ capitalsOf r ∧
        lowerChar c = [Char.ofNat ((c.toNat : Int) + r.2.2.2).toNat] := by
  by_cases hascii : c.toNat < 0x80
  · rw [lowerChar_of_lt hascii]
    by_cases hupper : c.isUpper = true
    · obtain ⟨hfirst, hlast⟩ := toNat_of_isUpper hupper
      refine .inr (.inr ⟨(0x41, 0x5A, 1, 32), by decide, ?_, ?_⟩)
      · exact mem_capitalsOf hfirst hlast (Nat.mod_one _)
      · rw [← Char.ofNat_toNat c.toLower, toNat_toLower hupper]
        rfl
    · rw [toLower_of_not_isUpper hupper]
      exact .inl rfl
  · by_cases hdotted : c.toNat = 0x130
    · exact .inr (.inl ⟨hdotted, by simp [lowerChar, hdotted]⟩)
    · simp only [lowerChar, hascii, hdotted, if_false]
      split
      · next first last stride shift hfind =>
        have hmoved := List.find?_some hfind
        simp only [Bool.and_eq_true, decide_eq_true_eq, beq_iff_eq] at hmoved
        refine .inr (.inr ⟨_, List.mem_of_find?_eq_some hfind, ?_, rfl⟩)
        exact mem_capitalsOf hmoved.1.1 hmoved.1.2 hmoved.2
      · exact .inl rfl

/-! ### What is seen of a text -/

@[simp] theorem startsCased_nil : startsCased [] = false := rfl

@[simp] theorem startsCased_cons (c : Char) (cs : List Char) :
    startsCased (c :: cs) = if isCaseIgnorable c then startsCased cs else isCased c := by
  by_cases h : isCaseIgnorable c = true
  · simp [startsCased, h]
  · simp [startsCased, h]

/-- Whether a text starts with a cased character depends on what follows it only through what is
seen of that. -/
theorem startsCased_append_congr {after after' : List Char}
    (h : startsCased after = startsCased after') (cs : List Char) :
    startsCased (cs ++ after) = startsCased (cs ++ after') := by
  induction cs with
  | nil => exact h
  | cons c cs ih => rw [List.cons_append, List.cons_append, startsCased_cons, startsCased_cons, ih]

/-- Two texts answer alike whether a cased character comes next, from either side and whatever lies
behind them. -/
structure SeenAlike (u v : List Char) : Prop where
  ahead : ∀ after, startsCased (u ++ after) = startsCased (v ++ after)
  back : ∀ before, startsCased (u.reverse ++ before) = startsCased (v.reverse ++ before)

namespace SeenAlike

variable {u u' v v' w : List Char}

protected theorem refl (u : List Char) : SeenAlike u u :=
  ⟨fun _ => rfl, fun _ => rfl⟩

protected theorem symm (h : SeenAlike u v) : SeenAlike v u :=
  ⟨fun after => (h.ahead after).symm, fun before => (h.back before).symm⟩

protected theorem trans (h : SeenAlike u v) (h' : SeenAlike v w) : SeenAlike u w :=
  ⟨fun after => (h.ahead after).trans (h'.ahead after),
    fun before => (h.back before).trans (h'.back before)⟩

protected theorem append (h : SeenAlike u v) (h' : SeenAlike u' v') :
    SeenAlike (u ++ u') (v ++ v') := by
  constructor
  · intro after
    rw [List.append_assoc, List.append_assoc, h.ahead,
      startsCased_append_congr (h'.ahead after)]
  · intro before
    rw [List.reverse_append, List.reverse_append, List.append_assoc, List.append_assoc, h'.back,
      startsCased_append_congr (h.back before)]

theorem singleton {c d : Char} (hignored : isCaseIgnorable c = isCaseIgnorable d)
    (hcased : isCased c = isCased d) : SeenAlike [c] [d] := by
  constructor <;> intro _ <;> simp [hignored, hcased]

end SeenAlike

/-! ### Lower-casing at a place -/

/-- The lower-case form of a character between others. Those before it are held nearest first. -/
def lowerAt (before : List Char) (c : Char) (after : List Char) : List Char :=
  if c = 'Σ' then [lowerSigma before after] else lowerChar c

/-- The lower-case form of a text between others. -/
def lowerBetween (before : List Char) : List Char → List Char → List Char
  | [], _ => []
  | c :: cs, after => lowerAt before c (cs ++ after) ++ lowerBetween (c :: before) cs after

variable {before before' after after' : List Char} {c : Char}

theorem lowerAfter_eq_lowerBetween (before cs : List Char) :
    lowerAfter before cs = lowerBetween before cs [] := by
  induction cs generalizing before with
  | nil => rfl
  | cons c cs ih => rw [lowerAfter, lowerBetween, ih, List.append_nil, lowerAt]

theorem lowercase_eq_lowercase_iff {s t : String} :
    lowercase s = lowercase t ↔ lowerBetween [] s.toList [] = lowerBetween [] t.toList [] := by
  rw [lowercase, lowercase, String.ofList_inj, lowerAfter_eq_lowerBetween,
    lowerAfter_eq_lowerBetween]

theorem lowerAt_congr (hbefore : startsCased before = startsCased before')
    (hafter : startsCased after = startsCased after') (c : Char) :
    lowerAt before c after = lowerAt before' c after' := by
  rw [lowerAt, lowerAt, lowerSigma, lowerSigma, hbefore, hafter]

/-- A form depends on what stands around only through what is seen of it. -/
theorem lowerBetween_congr (hbefore : startsCased before = startsCased before')
    (hafter : startsCased after = startsCased after') (cs : List Char) :
    lowerBetween before cs after = lowerBetween before' cs after' := by
  induction cs generalizing before before' with
  | nil => rfl
  | cons c cs ih =>
    have hstep : startsCased (c :: before) = startsCased (c :: before') :=
      startsCased_append_congr hbefore [c]
    rw [lowerBetween, lowerBetween, ih hstep,
      lowerAt_congr hbefore (startsCased_append_congr hafter cs)]

theorem lowerBetween_append (before u v after : List Char) :
    lowerBetween before (u ++ v) after =
      lowerBetween before u (v ++ after) ++ lowerBetween (u.reverse ++ before) v after := by
  induction u generalizing before with
  | nil => rfl
  | cons c u ih =>
    rw [List.cons_append, lowerBetween, lowerBetween, ih, List.reverse_cons, List.append_assoc,
      List.append_assoc, List.append_assoc]
    rfl

/-- **A part of a text can be exchanged** for one that is seen alike and has the same form there. -/
theorem lowerBetween_exchange {u v v' w : List Char} (hseen : SeenAlike v v')
    (hform : lowerBetween u.reverse v w = lowerBetween u.reverse v' w) :
    lowerBetween [] (u ++ v ++ w) [] = lowerBetween [] (u ++ v' ++ w) [] := by
  have hahead : startsCased (v ++ w) = startsCased (v' ++ w) := hseen.ahead w
  have hback : startsCased ((u ++ v).reverse) = startsCased ((u ++ v').reverse) := by
    rw [List.reverse_append, List.reverse_append, hseen.back]
  simp only [lowerBetween_append, List.append_nil]
  rw [lowerBetween_congr rfl hahead, lowerBetween_congr hback rfl, hform]

/-! ### The form of a character -/

theorem lowerSigma_mem_smalls (before after : List Char) :
    (lowerSigma before after).toNat ∈ smalls := by
  rw [lowerSigma]
  split
  · exact List.mem_cons_self
  · exact mem_smalls (r := (0x3A3, 0x3AB, 1, 32)) (n := 0x3A3) (by decide) (by decide)

/-- A character is its own form, or a capital. The form of a capital is a small letter, or two
characters for a capital `I` with a dot. -/
theorem lowerAt_cases (before : List Char) (c : Char) (after : List Char) :
    lowerAt before c after = [c] ∨ c.toNat ∈ capitals ∧
      (lowerAt before c after = ['i', Char.ofNat 0x307] ∨
        ∃ d, d.toNat ∈ smalls ∧ lowerAt before c after = [d]) := by
  rw [lowerAt]
  split
  · next hsigma =>
    subst hsigma
    refine .inr ⟨?_, .inr ⟨_, lowerSigma_mem_smalls before after, rfl⟩⟩
    exact mem_capitals (r := (0x3A3, 0x3AB, 1, 32)) (by decide) (by decide)
  · rcases lowerChar_cases c with h | ⟨hdotted, h⟩ | ⟨r, hr, hc, h⟩
    · exact .inl h
    · exact .inr ⟨hdotted ▸ List.mem_cons_self, .inl h⟩
    · have hsmall := mem_smalls hr hc
      refine .inr ⟨mem_capitals hr hc, .inr ⟨_, ?_, h⟩⟩
      rwa [toNat_ofNat (isValidChar_of_mem_smalls _ hsmall)]

/-- A small letter stays as it is. -/
theorem lowerAt_of_mem_smalls (h : c.toNat ∈ smalls) (before after : List Char) :
    lowerAt before c after = [c] :=
  (lowerAt_cases before c after).resolve_right fun hcapital =>
    notMem_capitals_of_mem_smalls h hcapital.1

/-- What stays as it is at one place does so everywhere. -/
theorem lowerAt_of_lowerAt (h : lowerAt before c after = [c]) (before' after' : List Char) :
    lowerAt before' c after' = [c] := by
  have hne : c ≠ 'Σ' := by
    rintro rfl
    have hform : lowerSigma before after = 'Σ' := List.head_eq_of_cons_eq h
    rw [lowerSigma] at hform
    split at hform <;> exact absurd hform (by decide)
  rwa [lowerAt, if_neg hne] at h ⊢

theorem toNat_i_mem_smalls : 'i'.toNat ∈ smalls :=
  mem_smalls (r := (0x41, 0x5A, 1, 32)) (n := 0x49) (by decide) (by decide)

theorem lowerChar_dot : lowerChar (Char.ofNat 0x307) = [Char.ofNat 0x307] := by
  decide +kernel

theorem isCaseIgnorable_dot : isCaseIgnorable (Char.ofNat 0x307) = true := by
  decide +kernel

/-- The form of a character is in lower case. -/
theorem lowerBetween_lowerAt (before : List Char) (c : Char) (after before' after' : List Char) :
    lowerBetween before' (lowerAt before c after) after' = lowerAt before c after := by
  rcases lowerAt_cases before c after with h | ⟨-, h | ⟨d, hd, h⟩⟩
  · rw [h, lowerBetween, lowerAt_of_lowerAt h]
    rfl
  · rw [h, lowerBetween, lowerBetween, lowerAt_of_mem_smalls toNat_i_mem_smalls, lowerAt,
      if_neg (by decide), lowerChar_dot]
    rfl
  · rw [h, lowerBetween, lowerAt_of_mem_smalls hd]
    rfl

/-- A character and its form are seen alike. -/
theorem seenAlike_lowerAt (before : List Char) (c : Char) (after : List Char) :
    SeenAlike (lowerAt before c after) [c] := by
  rcases lowerAt_cases before c after with h | ⟨hc, hform⟩
  · rw [h]
    exact .refl _
  · obtain ⟨hcased, hplain⟩ := cased_of_mem (List.mem_append_left smalls hc)
    rcases hform with h | ⟨d, hd, h⟩
    · obtain ⟨hcased', hplain'⟩ := cased_of_mem (List.mem_append_right capitals toNat_i_mem_smalls)
      rw [h]
      constructor <;> intro _ <;> simp [hcased, hplain, hcased', hplain', isCaseIgnorable_dot]
    · obtain ⟨hcased', hplain'⟩ := cased_of_mem (List.mem_append_right capitals hd)
      rw [h]
      exact .singleton (hplain'.trans hplain.symm) (hcased'.trans hcased.symm)

theorem seenAlike_lowerBetween (before cs after : List Char) :
    SeenAlike (lowerBetween before cs after) cs := by
  induction cs generalizing before with
  | nil => exact .refl _
  | cons c cs ih => exact (seenAlike_lowerAt before c _).append (ih _)

/-! ### The letters `A` to `Z` -/

theorem toLower_of_le (h : 0x80 ≤ c.toNat) : c.toLower = c := by
  refine toLower_of_not_isUpper fun hupper => ?_
  have := (toNat_of_isUpper hupper).2
  omega

theorem lowerAt_of_lt (h : c.toNat < 0x80) (before after : List Char) :
    lowerAt before c after = [c.toLower] := by
  have hne : c ≠ 'Σ' := by
    rintro rfl
    exact absurd h (by decide)
  rw [lowerAt, if_neg hne, lowerChar_of_lt h]

/-- A letter and its lower-case form have the same form. -/
theorem lowerAt_toLower (before : List Char) (c : Char) (after : List Char) :
    lowerAt before c.toLower after = lowerAt before c after := by
  by_cases h : c.toNat < 0x80
  · have hform := lowerBetween_lowerAt before c after before after
    rw [lowerAt_of_lt h] at hform
    rw [lowerAt_of_lt h]
    simpa [lowerBetween] using hform
  · rw [toLower_of_le (Nat.le_of_not_lt h)]

theorem seenAlike_map_toLower (cs : List Char) : SeenAlike (cs.map Char.toLower) cs := by
  induction cs with
  | nil => exact .refl _
  | cons c cs ih =>
    have hone : SeenAlike [c.toLower] [c] := by
      by_cases h : c.toNat < 0x80
      · have hform := seenAlike_lowerAt [] c []
        rwa [lowerAt_of_lt h] at hform
      · rw [toLower_of_le (Nat.le_of_not_lt h)]
        exact .refl _
    exact hone.append ih

/-- **The case of the letters `A` to `Z` does not matter** for the form of a text, wherever it
stands. -/
theorem lowerBetween_map_toLower (before cs after : List Char) :
    lowerBetween before (cs.map Char.toLower) after = lowerBetween before cs after := by
  induction cs generalizing before with
  | nil => rfl
  | cons c cs ih =>
    have hahead := (seenAlike_map_toLower cs).ahead after
    have hback : startsCased (c.toLower :: before) = startsCased (c :: before) :=
      (seenAlike_map_toLower [c]).back before
    rw [List.map_cons, lowerBetween, lowerBetween, ih, lowerAt_toLower, lowerAt_congr rfl hahead,
      lowerBetween_congr hback rfl]

end DeclOutline.Text
