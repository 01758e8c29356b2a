import DeclOutline.Proofs.Composition
import Mathlib.Data.List.TakeWhile

/-!
# Answers read off a passage

What is asked about an extent is found by walking over it. Where the tokens of the extent are known,
the answer can be read off them: a run is a token of its role with nothing of that role before it,
and a value is the one token of its role. Nothing here depends on where the passage stands.

## Main definitions

* `Nesting.afterAll` — the depth after tokens
* `ParameterList.EndsRun` — tokens with which a run does not go on

## Main results

* `TaggedText.trim_standsAt` — blanks in front of a passage are trimmed
* `ParameterList.firstRun?_standsAt` — a run of one token
* `ParameterList.value?_standsAt` — a value at the end of a passage
* `ParameterList.assemble_indices` — a type with nothing left out
* `Outline.mainSection_ofText` — a declaration that is one section
-/

namespace DeclOutline

namespace TaggedText

variable {t : TaggedText} {i k : Nat} {ts : List Token}

namespace StandsAt

theorem exists_mem (h : t.StandsAt i ts) (hi : i ≤ k) (hk : k < i + ts.length) :
    ∃ token ∈ ts, t.token? k = some token := by
  obtain ⟨j, rfl⟩ := Nat.exists_eq_add_of_le hi
  have hj : j < ts.length := Nat.lt_of_add_lt_add_left hk
  exact ⟨ts[j], List.getElem_mem hj, by rw [h.token?_add hj, List.getElem?_eq_getElem hj]⟩

theorem hasRole_eq_false (h : t.StandsAt i ts) {r : Role} (hne : ∀ x ∈ ts, x.role ≠ some r)
    (hi : i ≤ k) (hk : k < i + ts.length) : t.hasRole k r = false := by
  obtain ⟨token, hmem, htoken⟩ := h.exists_mem hi hk
  rw [hasRole, role?_of_token? htoken]
  simpa using hne token hmem

end StandsAt

/-- Blanks in front of a passage are trimmed. -/
theorem trim_standsAt {blanks : List Token} {first last : Token}
    (h : t.StandsAt i (blanks ++ ts)) (hblanks : ∀ x ∈ blanks, x.isBlank = true)
    (hfirst : ts.head? = some first) (hsolid : first.isBlank = false)
    (hlast : ts.getLast? = some last) (hsolid' : last.isBlank = false) :
    t.trim ⟨i, i + (blanks ++ ts).length⟩ =
      ⟨i + blanks.length, i + blanks.length + ts.length⟩ := by
  obtain ⟨hbefore, hts⟩ := standsAt_append.mp h
  have hne : ts ≠ [] := by
    rintro rfl
    simp at hfirst
  have hpos : 0 < ts.length := List.length_pos_iff.mpr hne
  have hlen : i + (blanks ++ ts).length = i + blanks.length + ts.length := by
    rw [List.length_append, Nat.add_assoc]
  have htoken : t.token? (i + blanks.length) = some first := by
    have := hts.token?_add hpos
    rwa [Nat.add_zero, ← List.head?_eq_getElem?, hfirst] at this
  have htoken' : t.token? (i + blanks.length + ts.length - 1) = some last := by
    have := hts.token?_add (Nat.sub_lt hpos Nat.one_pos)
    rwa [← List.getLast?_eq_getElem?, hlast, ← Nat.add_sub_assoc hpos] at this
  refine Trimmed.eq_trim (h.stop_le_length (List.append_ne_nil_of_right_ne_nil _ hne)) ?_
  rw [hlen]
  refine ⟨Nat.le_add_right _ _, Nat.le_add_right _ _, Nat.le_refl _, fun j hj hj' => ?_,
    fun j hj hj' => absurd hj' (Nat.not_lt.mpr hj), fun _ => ?_, fun _ => ?_, fun heq => ?_⟩
  · obtain ⟨x, hx, hxtoken⟩ := hbefore.exists_mem hj hj'
    rw [isBlankAt_of_token? hxtoken]
    exact hblanks x hx
  · rw [isBlankAt_of_token? htoken]
    exact hsolid
  · rw [isBlankAt_of_token? htoken']
    exact hsolid'
  · simp only at heq
    omega

end TaggedText

/-! ### Walks over passages -/

namespace Nesting

variable {t : TaggedText} {i stop : Nat} {ts : List Token}

/-- The depth after tokens, from the depth before them. -/
def afterAll (n : Nesting) (depth : Nat) (ts : List Token) : Nat :=
  ts.foldl (fun d token => n.after d token.role) depth

theorem afterAll_append (n : Nesting) (depth : Nat) (ts us : List Token) :
    n.afterAll depth (ts ++ us) = n.afterAll (n.afterAll depth ts) us :=
  List.foldl_append

/-- Outside of all groups every token stands at level zero. -/
theorem level_zero (n : Nesting) (role : Option Role) : n.level 0 role = 0 := by
  rw [level]
  split <;> rfl

/-- A walk over a passage and what follows it. -/
theorem walkFrom_standsAt (n : Nesting) (depth : Nat) (h : t.StandsAt i ts)
    (hstop : i + ts.length ≤ stop) :
    n.walkFrom t depth (Extent.mk i stop).indices =
      n.walkFrom t depth (Extent.mk i (i + ts.length)).indices ++
        n.walkFrom t (n.afterAll depth ts) (Extent.mk (i + ts.length) stop).indices := by
  induction ts generalizing i depth with
  | nil =>
    rw [TaggedText.indices_nil]
    rfl
  | cons token ts ih =>
    obtain ⟨htoken, hts⟩ := TaggedText.standsAt_cons.mp h
    have hnext : i + (token :: ts).length = i + 1 + ts.length := by
      rw [List.length_cons]
      omega
    rw [TaggedText.indices_cons, hnext]
    rw [hnext] at hstop
    rw [Extent.indices_cons (show i < stop by omega), walkFrom, walkFrom, ih _ hts hstop,
      TaggedText.role?_of_token? htoken]
    rfl

theorem fst_mem_of_mem_walkFrom {n : Nesting} {depth : Nat} {e : Extent} {v : Nat × Nat}
    (h : v ∈ n.walkFrom t depth e.indices) : e.start ≤ v.1 ∧ v.1 < e.stop := by
  have hmem : v.1 ∈ (n.walkFrom t depth e.indices).map Prod.fst := List.mem_map_of_mem h
  rw [map_fst_walkFrom] at hmem
  exact Extent.mem_indices.mp hmem

end Nesting

namespace ParameterList

variable {t : TaggedText} {i : Nat} {token : Token} {ts before after : List Token} {r : Role}

/-! ### Runs -/

/-- Tokens with which a run of a role does not go on: none of them has the role, up to the first
one that is not blank. -/
def EndsRun (r : Role) : List Token → Prop
  | [] => True
  | token :: ts => token.role ≠ some r ∧ (token.isBlank = true → EndsRun r ts)

theorem filter_takeWhile_endsRun {n : Nesting} {depth : Nat} (h : t.StandsAt i ts)
    (hends : EndsRun r ts) :
    ((n.walkFrom t depth (Extent.mk i (i + ts.length)).indices).takeWhile fun v =>
      inRun t r v || t.isBlankAt v.1).filter (inRun t r) = [] := by
  induction ts generalizing i depth with
  | nil =>
    rw [TaggedText.indices_nil]
    rfl
  | cons token ts ih =>
    obtain ⟨htoken, hts⟩ := TaggedText.standsAt_cons.mp h
    obtain ⟨hrole, hrest⟩ := hends
    have hrun : ∀ level, inRun t r (i, level) = false := by
      intro level
      simp [inRun, TaggedText.hasRole, TaggedText.role?_of_token? htoken, hrole]
    rw [TaggedText.indices_cons, Nesting.walkFrom, List.takeWhile_cons]
    simp only [hrun, Bool.false_or, TaggedText.isBlankAt_of_token? htoken]
    cases hblank : token.isBlank with
    | false => rfl
    | true =>
      rw [if_pos rfl, List.filter_cons_of_neg (by simp [hrun])]
      exact ih hts (hrest hblank)

/-- A run of one token, with nothing of its role before it. -/
theorem firstRun?_standsAt {n : Nesting} (h : t.StandsAt i (before ++ token :: after))
    (hbefore : ∀ x ∈ before, x.role ≠ some r) (hdepth : n.afterAll 0 before = 0)
    (htoken : token.role = some r) (hafter : EndsRun r after) :
    firstRun? t n r ⟨i, i + (before ++ token :: after).length⟩ =
      some ⟨i + before.length, i + before.length + 1⟩ := by
  obtain ⟨hstands, hrest⟩ := TaggedText.standsAt_append.mp h
  obtain ⟨htoken?, hrest⟩ := TaggedText.standsAt_cons.mp hrest
  have hlen : i + (before ++ token :: after).length = i + before.length + 1 + after.length := by
    rw [List.length_append, List.length_cons]
    omega
  have hskip : ∀ v ∈ n.walkFrom t 0 (Extent.mk i (i + before.length)).indices,
      (!inRun t r v) = true := by
    intro v hv
    obtain ⟨hv, hv'⟩ := Nesting.fst_mem_of_mem_walkFrom hv
    simp [inRun, hstands.hasRole_eq_false hbefore hv hv']
  have hrun : inRun t r (i + before.length, 0) = true := by
    simp [inRun, TaggedText.hasRole, TaggedText.role?_of_token? htoken?, htoken]
  have hwalk : n.walk t ⟨i, i + before.length + 1 + after.length⟩ =
      n.walkFrom t 0 (Extent.mk i (i + before.length)).indices ++
        (i + before.length, 0) :: n.walkFrom t (n.after 0 token.role)
          (Extent.mk (i + before.length + 1) (i + before.length + 1 + after.length)).indices := by
    have hlt : i + before.length < i + before.length + 1 + after.length := by omega
    rw [Nesting.walk, n.walkFrom_standsAt 0 hstands (Nat.le_of_lt hlt), hdepth,
      Extent.indices_cons hlt, Nesting.walkFrom, Nesting.level_zero,
      TaggedText.role?_of_token? htoken?]
  rw [hlen, firstRun?, hwalk, List.dropWhile_append_of_pos hskip,
    List.dropWhile_cons_of_neg (by simp [hrun])]
  simp only [filter_takeWhile_endsRun hrest hafter, List.getLast?_nil, Option.getD_none]

/-- There is no run without a token of its role. -/
theorem firstRun?_eq_none {n : Nesting} (h : t.StandsAt i ts) (hnone : ∀ x ∈ ts, x.role ≠ some r) :
    firstRun? t n r ⟨i, i + ts.length⟩ = none := by
  have hdrop : ((n.walk t ⟨i, i + ts.length⟩).dropWhile fun v => !inRun t r v) = [] := by
    refine List.dropWhile_eq_nil_iff.mpr fun v hv => ?_
    obtain ⟨hv, hv'⟩ := fst_mem_of_mem_walk hv
    simp [inRun, h.hasRole_eq_false hnone hv hv']
  rw [firstRun?, hdrop]

/-! ### Values -/

/-- There is no value without a token of its role. -/
theorem value?_eq_none {mark value : Role} (h : t.StandsAt i ts)
    (hnone : ∀ x ∈ ts, x.role ≠ some value) : value? t mark value ⟨i, i + ts.length⟩ = none := by
  refine hull?_eq_none_iff.mpr (List.filter_eq_nil_iff.mpr fun k hk => ?_)
  obtain ⟨hk, hk'⟩ := Extent.mem_indices.mp hk
  have hstart := start_le_valueStart t mark ⟨i, i + ts.length⟩
  simp [h.hasRole_eq_false hnone (Nat.le_trans hstart hk) hk']

/-- A value that is the last token of a passage, the only one of its role. -/
theorem value?_standsAt {mark value : Role} (h : t.StandsAt i (before ++ [token]))
    (hbefore : ∀ x ∈ before, x.role ≠ some value) (htoken : token.role = some value)
    (hne : mark ≠ value) :
    value? t mark value ⟨i, i + (before ++ [token]).length⟩ =
      some ⟨i + before.length, i + before.length + 1⟩ := by
  obtain ⟨hstands, hlast⟩ := TaggedText.standsAt_append.mp h
  have hrole := TaggedText.role?_of_token? (TaggedText.standsAt_singleton.mp hlast)
  have hlen : i + (before ++ [token]).length = i + before.length + 1 := by
    rw [List.length_append]
    rfl
  rw [hlen]
  -- a mark is not the value, so the value is looked for from no later than where it stands
  have hstart : valueStart t mark ⟨i, i + before.length + 1⟩ ≤ i + before.length := by
    rw [valueStart]
    split
    · next k level hfind =>
      have hmem := (fst_mem_of_mem_walk (List.mem_of_find?_eq_some hfind)).2
      have hrun : inRun t mark (k, level) = true := List.find?_some hfind
      have hmark : t.hasRole k mark = true := (Bool.and_eq_true_iff.mp hrun).2
      have hne' : k ≠ i + before.length := by
        rintro rfl
        rw [TaggedText.hasRole, hrole, htoken] at hmark
        exact hne (by simpa using (beq_iff_eq.mp hmark).symm)
      simp only at hmem
      omega
    · exact Nat.le_add_right _ _
  have hstart' := start_le_valueStart t mark ⟨i, i + before.length + 1⟩
  have hnil : (Extent.mk (valueStart t mark ⟨i, i + before.length + 1⟩)
      (i + before.length)).indices.filter (fun k => t.hasRole k value) = [] := by
    refine List.filter_eq_nil_iff.mpr fun k hk => ?_
    obtain ⟨hk, hk'⟩ := Extent.mem_indices.mp hk
    simp [hstands.hasRole_eq_false hbefore (Nat.le_trans hstart' hk) hk']
  have hone : (Extent.mk (i + before.length) (i + before.length + 1)).indices =
      [i + before.length] := by
    rw [Extent.indices_cons (Nat.lt_succ_self _), Extent.indices_eq_nil (Nat.le_refl _)]
  rw [value?, ← Extent.indices_append hstart (Nat.le_succ _), List.filter_append, hnil, hone,
    List.filter_cons_of_pos (by simp [TaggedText.hasRole, hrole, htoken])]
  rfl

/-! ### Types -/

/-- Indices with nothing left out are one run. -/
theorem runs_indices {a b : Nat} (h : a < b) : runs t (Extent.mk a b).indices = [⟨a, b⟩] := by
  have hchain : ∀ start,
      (Extent.mk start b).indices.IsChain fun j k => onlyBlanksBetween t j k = true := by
    intro start
    induction start using Extent.indices_induction b with
    | nil start hle => exact List.isChain_nil
    | cons start hlt ih =>
      by_cases hnext : start + 1 < b
      · rw [Extent.indices_cons hnext] at ih ⊢
        refine List.isChain_cons_cons.mpr ⟨?_, ih⟩
        rw [onlyBlanksBetween, Extent.indices_eq_nil (Nat.le_refl _)]
        rfl
      · rw [Extent.indices_eq_nil (Nat.le_of_not_lt hnext)]
        exact List.isChain_singleton start
  have hne : (Extent.mk a b).indices ≠ [] := by
    rw [Extent.indices_cons h]
    exact List.cons_ne_nil _ _
  have hfirst : (Extent.mk a b).indices.head? = some a := by
    rw [Extent.indices_cons h]
    rfl
  have hlast : (Extent.mk a b).indices.getLast? = some (b - 1) := by
    rw [← Extent.indices_append (show a ≤ b - 1 by omega) (Nat.sub_le b 1),
      Extent.indices_cons (show b - 1 < b by omega),
      Extent.indices_eq_nil (show b ≤ b - 1 + 1 by omega), List.getLast?_append]
    rfl
  have hhull : hull? (Extent.mk a b).indices = some ⟨a, b⟩ := by
    rw [hull?, hfirst, hlast]
    exact congrArg some (congrArg (Extent.mk a) (Nat.sub_add_cancel (Nat.one_le_of_lt h)))
  rw [runs, List.splitBy_of_isChain hne (hchain a), List.filterMap_cons_some hhull]
  rfl

/-- A type with nothing left out is an extent of the text. -/
theorem assemble_indices {a b : Nat} (h : a < b) (hrole : t.hasRole a .typeName = true) :
    assemble t (Extent.mk a b).indices = some (.within t ⟨a, b⟩) := by
  have hany : ((Extent.mk a b).indices.any fun k => t.hasRole k .typeName) = true :=
    List.any_eq_true.mpr ⟨a, Extent.mem_indices.mpr ⟨Nat.le_refl a, h⟩, hrole⟩
  rw [assemble, if_pos hany, runs_indices h]

/-- A type takes nothing of tokens that are no part of one. -/
theorem typeIndicesFrom_eq_nil {own : Bool} {depth : Nat} (h : t.StandsAt i ts)
    (haside : ∀ x ∈ ts, ∀ level, Groups.takes {} own level x.role = false ∧
      Groups.after {} own level x.role = {}) :
    typeIndicesFrom t own {}
      (Nesting.all.walkFrom t depth (Extent.mk i (i + ts.length)).indices) = [] := by
  induction ts generalizing i depth with
  | nil =>
    rw [TaggedText.indices_nil]
    rfl
  | cons token ts ih =>
    obtain ⟨htoken, hts⟩ := TaggedText.standsAt_cons.mp h
    obtain ⟨hhead, hrest⟩ := List.forall_mem_cons.mp haside
    rw [TaggedText.indices_cons, Nesting.walkFrom, typeIndicesFrom,
      TaggedText.role?_of_token? htoken]
    simp only [(hhead _).1, (hhead _).2, Bool.false_eq_true, if_false]
    exact ih hts hrest

end ParameterList

/-! ### One section -/

/-- A declaration that is one section, with nothing to trim, has the list of its whole text. -/
theorem Outline.mainSection_ofText {t : TaggedText} (impliesTypes : Bool)
    (hplain : ∀ x ∈ t.tokens.toList, x.role ≠ some .sectionStart ∧ x.role ≠ some .sectionEnd)
    (htrim : t.trim t.full = t.full) {token : Token} (htoken : token ∈ t.tokens.toList)
    (hopens : token.role = some .listOpen) (hsolid : token.isBlank = false) :
    ∃ hasName, (Outline.ofText t impliesTypes).mainSection =
      .parameterized (.analyze t t.full hasName impliesTypes) := by
  have hne : t.tokens.toList ≠ [] := List.ne_nil_of_mem htoken
  have hchain : t.tokens.toList.IsChain fun x y => Piece.holdsTogether x y = true := by
    refine List.Pairwise.isChain (List.pairwise_iff_forall_sublist.mpr fun {x y} hxy => ?_)
    have hx := hplain x (hxy.mem List.mem_cons_self)
    have hy := hplain y (hxy.mem (List.mem_cons_of_mem x List.mem_cons_self))
    simp [Piece.holdsTogether, Token.hasRole, hx.2, hy.1]
  have hkept : Piece.kept t = [⟨0, t.tokens.toList⟩] := by
    rw [Piece.kept, Piece.all, List.splitBy_of_isChain hne hchain]
    refine List.filter_eq_self.mpr fun p hp => ?_
    have hblank : t.tokens.toList.all Token.isBlank = false :=
      List.all_eq_false.mpr ⟨token, htoken, by simp [hsolid]⟩
    rw [List.mem_singleton.mp hp, Piece.isBlank, hblank]
    rfl
  have hopens' : (Piece.mk 0 t.tokens.toList).hasRole .listOpen = true :=
    List.any_eq_true.mpr ⟨token, htoken, by simp [Token.hasRole, hopens]⟩
  have hextent : t.trim (Piece.mk 0 t.tokens.toList).extent = t.full := by
    rw [← htrim]
    refine congrArg t.trim ?_
    simp [Piece.extent, TaggedText.full, TaggedText.length]
  refine ⟨(Piece.mk 0 t.tokens.toList).hasRole .name, ?_⟩
  have hmem : (ofText t impliesTypes).mainSection ∈ (ofText t impliesTypes).sections :=
    List.get_mem _ _
  rw [sections_ofText (by simp [hkept]), hkept, List.map_singleton] at hmem
  refine (List.mem_singleton.mp hmem).trans ?_
  rw [Piece.toSection]
  simp only [hopens', if_true, hextent]

end DeclOutline
