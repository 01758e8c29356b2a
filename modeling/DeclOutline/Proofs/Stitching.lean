import DeclOutline.Proofs.Relexing

/-!
# How a full type is stitched together

A full type is put together from the tokens it collects. What stands between two of them that
follow each other depends on these two and on the text between them alone: blanks are kept, and
anything else is dropped, with a space in its place where two words would run into one. If nothing
is dropped, the full type is an extent of the text.

## Main definitions

* `TaggedText.BlanksBetween` — there is nothing to drop between two indices
* `ParameterList.stitchedText` — the texts of tokens with what stands between them
* `Excerpt.StitchedFrom` — an excerpt is put together from the tokens at some indices

## Main results

* `ParameterList.joinRuns_runs` — runs set side by side are the tokens stitched together
* `ParameterList.runs_eq_singleton_iff` — when there is one run only
* `ParameterList.stitchedFrom_assemble` — a type is stitched together from its tokens
* `ParameterList.fullType?_stitchedFrom` — and so is a full type, from what it collects
-/

namespace DeclOutline

namespace TaggedText

/-- All tokens strictly between two indices are blank. -/
def BlanksBetween (t : TaggedText) (i j : Nat) : Prop :=
  ∀ k, i < k → k < j → t.isBlankAt k = true

theorem onlyBlanksBetween_iff {t : TaggedText} {i j : Nat} :
    ParameterList.onlyBlanksBetween t i j = true ↔ t.BlanksBetween i j := by
  rw [ParameterList.onlyBlanksBetween, List.all_eq_true]
  constructor
  · intro h k hi hj
    exact h k (Extent.mem_indices.mpr ⟨hi, hj⟩)
  · intro h k hk
    obtain ⟨hi, hj⟩ := Extent.mem_indices.mp hk
    exact h k hi hj

instance (t : TaggedText) (i j : Nat) : Decidable (t.BlanksBetween i j) :=
  decidable_of_iff _ onlyBlanksBetween_iff

end TaggedText

namespace ParameterList

variable {t : TaggedText} {is js : List Nat} {i j : Nat} {e run : Extent} {rest : List Extent}

/-! ### Stitched tokens -/

/-- The text that stands between two tokens of a type: the text between them if it is blank, and
otherwise a space between two words and nothing between other tokens. -/
def textBetween (t : TaggedText) (i j : Nat) : String :=
  if t.BlanksBetween i j then t.extentText ⟨i + 1, j⟩
  else if t.kind? i = some .text ∧ t.kind? j = some .text then " " else ""

/-- The texts of the tokens at some indices, with what stands between each two. -/
def stitchedText (t : TaggedText) : List Nat → String
  | [] => ""
  | [i] => t.tokenText i
  | i :: j :: is => t.tokenText i ++ textBetween t i j ++ stitchedText t (j :: is)

/-- The tokens that stand between two tokens of a type. -/
def tokensBetween (t : TaggedText) (i j : Nat) : List Token :=
  if t.BlanksBetween i j then t.slice ⟨i + 1, j⟩
  else if t.kind? i = some .text ∧ t.kind? j = some .text then [space] else []

/-- The tokens at some indices, with what stands between each two. -/
def stitch (t : TaggedText) : List Nat → List Token
  | [] => []
  | [i] => (t.token? i).toList
  | i :: j :: is => (t.token? i).toList ++ tokensBetween t i j ++ stitch t (j :: is)

theorem stitch_append (hi : is.getLast? = some i) (hj : js.head? = some j) :
    stitch t (is ++ js) = stitch t is ++ tokensBetween t i j ++ stitch t js := by
  obtain ⟨js, rfl⟩ := List.head?_eq_some_iff.mp hj
  induction is with
  | nil => simp at hi
  | cons a is ih =>
    cases is with
    | nil =>
      obtain rfl := Option.some.inj hi
      rfl
    | cons b is =>
      rw [List.getLast?_cons_cons] at hi
      rw [List.cons_append, List.cons_append, stitch, ← List.cons_append, ih hi, stitch]
      simp only [List.append_assoc]

theorem filterMap_token?_cons (t : TaggedText) (i : Nat) (is : List Nat) :
    (i :: is).filterMap t.token? = (t.token? i).toList ++ is.filterMap t.token? := by
  cases htoken : t.token? i with
  | none => exact List.filterMap_cons_none htoken
  | some token => exact List.filterMap_cons_some htoken

/-- The tokens that are stitched together are all there. -/
theorem sublist_stitch (t : TaggedText) (is : List Nat) :
    (is.filterMap t.token?).Sublist (stitch t is) := by
  induction is with
  | nil => exact List.Sublist.slnil
  | cons i is ih =>
    rw [filterMap_token?_cons]
    cases is with
    | nil => simp [stitch]
    | cons j is =>
      rw [stitch, List.append_assoc]
      exact (List.Sublist.refl _).append (ih.trans (List.sublist_append_right _ _))

/-- What stands between stitched tokens is blank. -/
theorem filter_tokensBetween (t : TaggedText) (i j : Nat) :
    ((tokensBetween t i j).filter fun token => !token.isBlank) = [] := by
  rw [tokensBetween]
  split
  · next hblanks =>
    rw [TaggedText.slice_eq_filterMap]
    refine TaggedText.solidsAt_eq_nil fun k hk => ?_
    exact hblanks k (Extent.mem_indices.mp hk).1 (Extent.mem_indices.mp hk).2
  · split
    · decide
    · rfl

theorem filter_stitch (t : TaggedText) (is : List Nat) :
    ((stitch t is).filter fun token => !token.isBlank) = t.solidsAt is := by
  induction is with
  | nil => rfl
  | cons i is ih =>
    rw [TaggedText.solidsAt, filterMap_token?_cons, List.filter_append]
    cases is with
    | nil => simp [stitch]
    | cons j is =>
      rw [stitch, List.filter_append, List.filter_append, filter_tokensBetween, List.append_nil, ih]
      rfl

theorem flatMap_tokensBetween (hj : j ≤ t.length) :
    ((tokensBetween t i j).flatMap fun token => token.text.toList) =
      (textBetween t i j).toList := by
  rw [tokensBetween, textBetween]
  split
  · rw [TaggedText.extentText_eq_join hj, TaggedText.toList_join_tokenText,
      TaggedText.slice_eq_filterMap]
  · split <;> rfl

theorem flatMap_stitch (hlen : ∀ i ∈ is, i < t.length) :
    ((stitch t is).flatMap fun token => token.text.toList) = (stitchedText t is).toList := by
  have hone : ∀ i, ((t.token? i).toList.flatMap fun token => token.text.toList) =
      (t.tokenText i).toList := by
    intro i
    rw [TaggedText.tokenText]
    cases t.token? i <;> simp
  induction is with
  | nil => rfl
  | cons i is ih =>
    obtain ⟨-, hlen⟩ := List.forall_mem_cons.mp hlen
    cases is with
    | nil => exact hone i
    | cons j is =>
      have hj : j ≤ t.length := Nat.le_of_lt (hlen j List.mem_cons_self)
      rw [stitch, stitchedText, List.flatMap_append, List.flatMap_append, hone,
        flatMap_tokensBetween hj, ih hlen, String.toList_append, String.toList_append]

/-! ### Runs are stitched -/

/-- A run is an extent of the text. -/
theorem stitch_eq_slice (hsorted : is.Pairwise (· < ·)) (hchain : is.IsChain t.BlanksBetween)
    (h : hull? is = some e) : stitch t is = t.slice e := by
  obtain ⟨first, last, hfirst, hlast, rfl⟩ := hull?_eq_some h
  induction is generalizing first with
  | nil => simp at hfirst
  | cons i is ih =>
    obtain rfl := Option.some.inj hfirst
    cases is with
    | nil =>
      obtain rfl : i = last := by simpa using hlast
      rw [TaggedText.slice_eq_filterMap, Extent.indices_cons (Nat.lt_succ_self i),
        Extent.indices_eq_nil (Nat.le_refl _), filterMap_token?_cons, stitch]
      exact (List.append_nil _).symm
    | cons j is =>
      obtain ⟨hlt, hsorted⟩ := List.pairwise_cons.mp hsorted
      obtain ⟨hblanks, hchain⟩ := List.isChain_cons_cons.mp hchain
      rw [List.getLast?_cons_cons] at hlast
      have hij : i < j := hlt j List.mem_cons_self
      have hjlast : j ≤ last := head_le_getLast? hsorted hlast
      have hrest := ih hsorted hchain j rfl hlast (by simp [hull?, hlast])
      have hindices : (Extent.mk i (last + 1)).indices =
          i :: ((Extent.mk (i + 1) j).indices ++ (Extent.mk j (last + 1)).indices) := by
        rw [Extent.indices_cons (by omega), Extent.indices_append hij (by omega)]
      rw [stitch, tokensBetween, if_pos hblanks, hrest]
      simp only [TaggedText.slice_eq_filterMap]
      rw [hindices, filterMap_token?_cons, List.filterMap_append, List.append_assoc]

/-- What is put between two runs is what stands between their tokens. -/
theorem glue_eq_tokensBetween (h : ¬ t.BlanksBetween i j) (a b : Nat) :
    glue t ⟨a, i + 1⟩ ⟨j, b⟩ = tokensBetween t i j := by
  rw [tokensBetween, if_neg h, glue]
  simp

/-- **Runs set side by side are stitched together.** Between two runs lies more than blanks. -/
theorem joinRuns_eq_stitch {gs : List (List Nat)} (hne : ∀ g ∈ gs, g ≠ [])
    (hsorted : ∀ g ∈ gs, g.Pairwise (· < ·)) (hchain : ∀ g ∈ gs, g.IsChain t.BlanksBetween)
    (hbreak : gs.IsChain fun g g' => ∀ i ∈ g.getLast?, ∀ j ∈ g'.head?, ¬ t.BlanksBetween i j)
    (hruns : gs.filterMap hull? = run :: rest) :
    joinRuns t run rest = stitch t gs.flatten := by
  induction gs generalizing run rest with
  | nil => simp at hruns
  | cons g gs ih =>
    obtain ⟨hg, hne⟩ := List.forall_mem_cons.mp hne
    obtain ⟨hgsorted, hsorted⟩ := List.forall_mem_cons.mp hsorted
    obtain ⟨hgchain, hchain⟩ := List.forall_mem_cons.mp hchain
    obtain ⟨e, he⟩ := Option.ne_none_iff_exists'.mp (mt hull?_eq_none_iff.mp hg)
    rw [List.filterMap_cons_some he] at hruns
    obtain ⟨rfl, rfl⟩ := List.cons.inj hruns
    have hslice := stitch_eq_slice hgsorted hgchain he
    cases gs with
    | nil => simp [joinRuns, hslice]
    | cons g' gs =>
      obtain ⟨hgbreak, hbreak⟩ := List.isChain_cons_cons.mp hbreak
      obtain ⟨e', he'⟩ := Option.ne_none_iff_exists'.mp
        (mt hull?_eq_none_iff.mp (hne g' List.mem_cons_self))
      have hruns' := List.filterMap_cons_some (l := gs) he'
      have ih := ih hne hsorted hchain hbreak hruns'
      obtain ⟨first, last, -, hlast, rfl⟩ := hull?_eq_some he
      obtain ⟨first', last', hfirst', -, rfl⟩ := hull?_eq_some he'
      have hhead : (g' :: gs).flatten.head? = some first' := by
        rw [List.flatten_cons, List.head?_append, hfirst']
        rfl
      rw [List.flatten_cons, stitch_append hlast hhead, ← ih, hruns', joinRuns, hslice,
        glue_eq_tokensBetween (hgbreak last hlast first' hfirst')]

/-- **Runs are stitched together.** Side by side they are the tokens at the indices with what
stands between them. -/
theorem joinRuns_runs (hsorted : is.Pairwise (· < ·)) (h : runs t is = run :: rest) :
    joinRuns t run rest = stitch t is := by
  have hflatten := List.flatten_splitBy (onlyBlanksBetween t) is
  rw [joinRuns_eq_stitch (fun g hg => List.ne_nil_of_mem_splitBy hg) ?_ ?_ ?_ h, hflatten]
  · intro g hg
    refine hsorted.sublist ?_
    rw [← hflatten]
    exact List.sublist_flatten_of_mem hg
  · intro g hg
    exact (List.isChain_of_mem_splitBy hg).imp fun _ _ => TaggedText.onlyBlanksBetween_iff.mp
  · refine (List.isChain_getLast_head_splitBy (onlyBlanksBetween t) is).imp ?_
    rintro g g' ⟨hg, hg', hfalse⟩ i hi j hj hblanks
    rw [List.getLast?_eq_some_getLast hg] at hi
    rw [List.head?_eq_some_head hg'] at hj
    obtain rfl := Option.some.inj hi
    obtain rfl := Option.some.inj hj
    rw [TaggedText.onlyBlanksBetween_iff.mpr hblanks] at hfalse
    exact Bool.noConfusion hfalse

/-- There is one run if blanks alone lie between the indices. -/
theorem runs_eq_singleton_iff :
    runs t is = [run] ↔ is.IsChain t.BlanksBetween ∧ hull? is = some run := by
  constructor
  · intro h
    obtain ⟨before, g, after, hsplit, hbefore, hg, hafter⟩ := List.filterMap_eq_cons_iff.mp h
    -- every group has an extent, so there is no other group
    have hhull : ∀ g' ∈ is.splitBy (onlyBlanksBetween t), hull? g' ≠ none := fun g' hg' =>
      mt hull?_eq_none_iff.mp (List.ne_nil_of_mem_splitBy hg')
    have hnil : before = [] := List.eq_nil_iff_forall_not_mem.mpr fun g' hg' =>
      hhull g' (by simp [hsplit, hg']) (hbefore g' hg')
    have hnil' : after = [] := List.eq_nil_iff_forall_not_mem.mpr fun g' hg' =>
      hhull g' (by simp [hsplit, hg']) (List.filterMap_eq_nil_iff.mp hafter g' hg')
    subst hnil hnil'
    have hflatten := List.flatten_splitBy (onlyBlanksBetween t) is
    obtain rfl : g = is := by simpa [hsplit] using hflatten
    have hmem : g ∈ g.splitBy (onlyBlanksBetween t) := hsplit ▸ List.mem_singleton_self g
    have hchain := List.isChain_of_mem_splitBy hmem
    exact ⟨hchain.imp fun _ _ => TaggedText.onlyBlanksBetween_iff.mp, hg⟩
  · rintro ⟨hchain, hhull⟩
    have hne : is ≠ [] := mt hull?_eq_none_iff.mpr (by simp [hhull])
    rw [runs, List.splitBy_of_isChain hne
      (hchain.imp fun _ _ => TaggedText.onlyBlanksBetween_iff.mpr),
      List.filterMap_cons_some hhull, List.filterMap_nil]

end ParameterList

namespace Excerpt

/-- The excerpt is put together from the tokens at some indices of a text. -/
structure StitchedFrom (x : Excerpt) (t : TaggedText) (is : List Nat) : Prop where
  /-- If blanks alone lie between the indices, it is the extent from the first to the last. -/
  within : is.IsChain t.BlanksBetween → ∃ first last, is.head? = some first ∧
    is.getLast? = some last ∧ x = .within t ⟨first, last + 1⟩
  /-- Otherwise it is a text of its own. -/
  whole : ¬ is.IsChain t.BlanksBetween → x.isWhole = true
  /-- Either way its text is that of the tokens, with what stands between them. -/
  text : x.text = ParameterList.stitchedText t is
  /-- The tokens are there as they were. -/
  tokens : (is.filterMap t.token?).Sublist x.tokens

end Excerpt

namespace ParameterList

variable {t : TaggedText} {is : List Nat}

/-! ### Full types are stitched -/

theorem text_eq_stitchedText {x : Excerpt} (hlen : ∀ i ∈ is, i < t.length)
    (hstop : x.extent.stop ≤ x.source.length) (htokens : x.tokens = stitch t is) :
    x.text = stitchedText t is := by
  rw [← String.toList_inj, Excerpt.toList_text hstop, htokens, flatMap_stitch hlen]

/-- The tokens of the type made of the tokens at some indices are these, stitched together. -/
theorem tokens_assemble {x : Excerpt} (hsorted : is.Pairwise (· < ·))
    (hx : assemble t is = some x) : x.tokens = stitch t is := by
  rw [assemble] at hx
  split at hx
  · rcases hruns : runs t is with _ | ⟨run, _ | ⟨next, rest⟩⟩ <;> rw [hruns] at hx
    · simp at hx
    · obtain ⟨hchain, hhull⟩ := runs_eq_singleton_iff.mp hruns
      obtain rfl := Option.some.inj hx
      rw [Excerpt.tokens_eq_filterMap, stitch_eq_slice hsorted hchain hhull,
        TaggedText.slice_eq_filterMap]
      rfl
    · obtain rfl := Option.some.inj hx
      rw [Excerpt.tokens_whole, ← joinRuns_runs hsorted hruns]
  · simp at hx

/-- Blanks aside, a full type is made of the tokens it collects, whether they lie in the text or
not. -/
theorem solids_of_assemble {x : Excerpt} (hsorted : is.Pairwise (· < ·))
    (hx : assemble t is = some x) : x.solids = t.solidsAt is := by
  rw [Excerpt.solids, tokens_assemble hsorted hx, filter_stitch]

theorem exists_assemble (hany : (is.any fun i => t.hasRole i .typeName) = true) :
    ∃ x, assemble t is = some x := by
  obtain ⟨i, hi, -⟩ := List.any_eq_true.mp hany
  rw [assemble, if_pos hany]
  rcases hruns : runs t is with _ | ⟨run, _ | ⟨next, rest⟩⟩
  · exact absurd hruns (runs_ne_nil (List.ne_nil_of_mem hi))
  · exact ⟨_, rfl⟩
  · exact ⟨_, rfl⟩

/-- The type made of the tokens at some indices is stitched together from them. -/
theorem stitchedFrom_assemble (hsorted : is.Pairwise (· < ·)) (hlen : ∀ i ∈ is, i < t.length)
    (hany : (is.any fun i => t.hasRole i .typeName) = true) :
    ∃ x, assemble t is = some x ∧ x.StitchedFrom t is := by
  obtain ⟨i, hi, -⟩ := List.any_eq_true.mp hany
  have hne : is ≠ [] := List.ne_nil_of_mem hi
  rcases hruns : runs t is with _ | ⟨run, _ | ⟨next, rest⟩⟩
  · exact absurd hruns (runs_ne_nil hne)
  · -- one run, and all that lies between is blank
    obtain ⟨hchain, hhull⟩ := runs_eq_singleton_iff.mp hruns
    obtain ⟨first, last, hfirst, hlast, rfl⟩ := hull?_eq_some hhull
    have hx : assemble t is = some (.within t ⟨first, last + 1⟩) := by
      rw [assemble, if_pos hany, hruns]
    have htokens := tokens_assemble hsorted hx
    have hstop : last + 1 ≤ t.length := hlen last (List.mem_of_getLast? hlast)
    exact ⟨_, hx, {
      within := fun _ => ⟨first, last, hfirst, hlast, rfl⟩
      whole := fun hnot => absurd hchain hnot
      text := text_eq_stitchedText hlen hstop htokens
      tokens := htokens ▸ sublist_stitch t is }⟩
  · -- more than one, and something is dropped
    have hx : assemble t is = some (.whole ⟨(joinRuns t run (next :: rest)).toArray⟩) := by
      rw [assemble, if_pos hany, hruns]
    have htokens := tokens_assemble hsorted hx
    have hchain : ¬ is.IsChain t.BlanksBetween := by
      intro hchain
      obtain ⟨e, he⟩ := Option.ne_none_iff_exists'.mp (mt hull?_eq_none_iff.mp hne)
      have hone := runs_eq_singleton_iff.mpr ⟨hchain, he⟩
      rw [hruns] at hone
      simp at hone
    exact ⟨_, hx, {
      within := fun h => absurd h hchain
      whole := fun _ => rfl
      text := text_eq_stitchedText hlen (Nat.le_refl _) htokens
      tokens := htokens ▸ sublist_stitch t is }⟩

/-- A full type is stitched together from what it collects, if its parameter lies in the text. -/
theorem stitchedFrom_fullType? {l : ParameterList} {index donor : Nat} {implied : Bool} {p : Extent}
    (hdonor : l.typeDonor? t index implied = some donor) (hp : l.parameter? donor = some p)
    (hstop : p.stop ≤ t.length) :
    ∃ x, l.fullType? t index implied = some x ∧
      x.StitchedFrom t (typeIndices t (donor == index) p) := by
  obtain ⟨hassemble, hany⟩ := fullType?_eq_assemble hdonor hp
  have hsub := typeIndices_sublist t (donor == index) p
  rw [hassemble]
  refine stitchedFrom_assemble (p.pairwise_indices.sublist hsub) (fun i hi => ?_) hany
  exact Nat.lt_of_lt_of_le (Extent.mem_indices.mp (hsub.subset hi)).2 hstop

/-- **Full types are stitched together.** The full type of a parameter is put together from what
it collects of the parameter that the type comes from. This holds of the parameter list of any
extent, however the text is tagged, and of any other list if that parameter lies in the text. -/
theorem fullType?_stitchedFrom (t : TaggedText) :
    (∀ (e : Extent) (hasName impliesTypes : Bool) (index donor : Nat) (implied : Bool) (p : Extent),
      (analyze t e hasName impliesTypes).typeDonor? t index implied = some donor →
      (analyze t e hasName impliesTypes).parameter? donor = some p →
      ∃ x, (analyze t e hasName impliesTypes).fullType? t index implied = some x ∧
        x.StitchedFrom t (typeIndices t (donor == index) p)) ∧
    ∀ (l : ParameterList) (index donor : Nat) (implied : Bool) (p : Extent),
      l.typeDonor? t index implied = some donor → l.parameter? donor = some p →
      p.stop ≤ t.length →
      ∃ x, l.fullType? t index implied = some x ∧
        x.StitchedFrom t (typeIndices t (donor == index) p) := by
  constructor
  · intro e hasName impliesTypes index donor implied p hdonor hp
    exact stitchedFrom_fullType? hdonor hp (stop_le_of_parameter? hp)
  · intro l index donor implied p hdonor hp hstop
    exact stitchedFrom_fullType? hdonor hp hstop

end ParameterList

namespace Sample

/-- `f(int A const  *b[], int  *c)`. The first parameter's type is scattered: one word stands
between two of its words, and the name before its brackets. -/
def scatteredType : TaggedText :=
  TaggedText.mk #[]
    |>.raw "f" |>.openList
    |>.typeName "int" |>.space |>.raw "A" |>.space |>.tagged "const" .typeModifier
    |>.space |>.space |>.tagged "*" .typeModifier |>.name "b"
    |>.tagged "[" .typeGroupOpen |>.tagged "]" .typeGroupClose
    |>.separator |>.space
    |>.typeName "int" |>.space |>.space |>.tagged "*" .typeModifier |>.name "c"
    |>.closeList

/-- The parameters of `scatteredType`. -/
def scatteredList : ParameterList :=
  ParameterList.analyze scatteredType scatteredType.full false true

/-- The scattered type is a text of its own, in which a space takes the place of the word. The
other one is an extent. -/
theorem fullType?_stitchedFrom_scatteredType :
    (∃ x, scatteredList.fullType? scatteredType 0 true = some x ∧ x.isWhole = true ∧
      x.text = "int const  *[]") ∧
    ∃ y, scatteredList.fullType? scatteredType 1 false = some y ∧
      y = .within scatteredType ⟨15, 19⟩ ∧ y.text = "int  *" := by
  constructor
  · obtain ⟨x, hx, hstitched⟩ := (ParameterList.fullType?_stitchedFrom scatteredType).1
      scatteredType.full false true 0 0 true ⟨2, 13⟩ (by decide) (by decide)
    refine ⟨x, hx, hstitched.whole (by decide), ?_⟩
    rw [hstitched.text]
    decide
  · obtain ⟨y, hy, hstitched⟩ := (ParameterList.fullType?_stitchedFrom scatteredType).1
      scatteredType.full false true 1 1 false ⟨15, 20⟩ (by decide) (by decide)
    obtain ⟨first, last, hfirst, hlast, rfl⟩ := hstitched.within (by decide)
    obtain rfl : 15 = first := Option.some.inj hfirst
    obtain rfl : 18 = last := Option.some.inj hlast
    refine ⟨_, hy, rfl, ?_⟩
    rw [hstitched.text]
    decide

end Sample

end DeclOutline
