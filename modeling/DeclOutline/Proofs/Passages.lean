import DeclOutline.Proofs.Cutting

/-!
# Passages

A passage is a list of tokens that stand in a text, one after another, from an index on. Texts are
built by appending, so where a passage stands is known from what was appended before it, and what is
asked about its extent can be answered from its tokens alone.

## Main definitions

* `TaggedText.StandsAt` — a passage stands at an index

## Main results

* `TaggedText.standsAt_cons`, `TaggedText.standsAt_append` — passages, taken apart
* `TaggedText.StandsAt.extentText` — the text of a passage
-/

namespace DeclOutline

namespace TaggedText

variable {t : TaggedText} {i a b : Nat} {token : Token} {ts us : List Token}

/-- Tokens stand in a text, one after another, from an index on. -/
def StandsAt (t : TaggedText) (i : Nat) (ts : List Token) : Prop :=
  ts <+: t.tokens.toList.drop i

theorem standsAt_append :
    t.StandsAt i (ts ++ us) ↔ t.StandsAt i ts ∧ t.StandsAt (i + ts.length) us := by
  constructor
  · rintro ⟨rest, hrest⟩
    refine ⟨⟨us ++ rest, by rw [← hrest, List.append_assoc]⟩, rest, ?_⟩
    rw [← List.drop_drop, ← hrest, List.append_assoc, List.drop_left]
  · rintro ⟨⟨rest, hrest⟩, hus⟩
    rw [StandsAt, ← List.drop_drop, ← hrest, List.drop_left] at hus
    rw [StandsAt, ← hrest]
    exact (List.prefix_append_right_inj ts).mpr hus

theorem standsAt_singleton : t.StandsAt i [token] ↔ t.token? i = some token := by
  rw [StandsAt, token?_eq_getElem?, ← List.head?_drop]
  cases t.tokens.toList.drop i with
  | nil => simp
  | cons x xs => simp [List.cons_prefix_cons, eq_comm]

theorem standsAt_cons :
    t.StandsAt i (token :: ts) ↔ t.token? i = some token ∧ t.StandsAt (i + 1) ts := by
  rw [← List.singleton_append, standsAt_append, standsAt_singleton]
  rfl

/-- Where a text is put together from three parts, the middle one is a passage. -/
theorem standsAt_of_tokens {as bs : List Token} (h : t.tokens.toList = as ++ ts ++ bs) :
    t.StandsAt as.length ts := by
  rw [StandsAt, h, List.append_assoc, List.drop_left]
  exact List.prefix_append ts bs

theorem role?_of_token? (h : t.token? i = some token) : t.role? i = token.role := by
  rw [role?, h]
  rfl

/-! ### Indices along a passage -/

theorem indices_nil (i : Nat) : (Extent.mk i (i + ([] : List Token).length)).indices = [] :=
  Extent.indices_eq_nil (Nat.le_refl i)

theorem indices_cons (i : Nat) (token : Token) (ts : List Token) :
    (Extent.mk i (i + (token :: ts).length)).indices =
      i :: (Extent.mk (i + 1) (i + 1 + ts.length)).indices := by
  have hstop : i + (token :: ts).length = i + 1 + ts.length := by
    rw [List.length_cons]
    omega
  rw [hstop, Extent.indices_cons (by omega)]

namespace StandsAt

theorem token?_add (h : t.StandsAt i ts) {k : Nat} (hk : k < ts.length) :
    t.token? (i + k) = ts[k]? := by
  obtain ⟨rest, hrest⟩ := h
  rw [token?_eq_getElem?, ← List.getElem?_drop, ← hrest, List.getElem?_append_left hk]

theorem stop_le_length (h : t.StandsAt i ts) (hne : ts ≠ []) : i + ts.length ≤ t.length := by
  have hlen := h.length_le
  have hpos := List.length_pos_iff.mpr hne
  rw [List.length_drop] at hlen
  show i + ts.length ≤ t.tokens.toList.length
  omega

theorem map_tokenText (h : t.StandsAt i ts) :
    (Extent.mk i (i + ts.length)).indices.map t.tokenText = ts.map Token.text := by
  induction ts generalizing i with
  | nil => rw [indices_nil, List.map_nil, List.map_nil]
  | cons token ts ih =>
    obtain ⟨htoken, hrest⟩ := standsAt_cons.mp h
    rw [indices_cons, List.map_cons, List.map_cons, ih hrest, tokenText, htoken]

/-- The text of a passage is what its tokens read. -/
theorem extentText (h : t.StandsAt i ts) :
    t.extentText ⟨i, i + ts.length⟩ = String.join (ts.map Token.text) := by
  cases ts with
  | nil => simp [TaggedText.extentText, Extent.isEmpty]
  | cons token ts =>
    rw [extentText_eq_join (h.stop_le_length (List.cons_ne_nil _ _)), h.map_tokenText]

end StandsAt

end TaggedText

end DeclOutline
