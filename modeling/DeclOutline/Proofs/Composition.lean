import DeclOutline.Proofs.Moving
import Mathlib.Algebra.GroupWithZero.Nat

/-!
# Parameters do not depend on their neighbours

A parameter list is cut by one depth that runs through all of it, while a question about a
parameter counts from the parameter's own start. Where every parameter closes the groups it opens,
the depth is back at zero at each separator. The list is then cut at the separators that were
written, and nothing that is asked about a parameter depends on the others or on where it stands: it
can be asked of the parameter as the only one of its list.

## Main definitions

* `ParameterList.IsClosedFrom` — tokens that close the groups they open
* `ParameterList.Entry` — the tokens written for one parameter
* `ParameterList.Written` — a parameter list as it is written, with what stands around it
* `ParameterList.Written.alone` — an entry as the only one of a list
* `ParameterList.Echoes` — a parameter of one list says what a parameter of another does

## Main results

* `ParameterList.splitFrom_closed` — the scan passes over closed tokens
* `ParameterList.splitFrom_body` — and stops at the separators and the closing token
* `ParameterList.Written.reads_alone` — a list is read entry by entry
-/

namespace DeclOutline

namespace ParameterList

/-! ### Closed tokens -/

/-- Tokens that close the groups they open, from a depth on. Outside of all groups no token
separates parameters or ends a list. Brackets of all three kinds count alike, and one that closes
nothing does not count. -/
def IsClosedFrom : Nat → List Token → Prop
  | depth, [] => depth = 0
  | depth, token :: ts =>
    (depth = 0 → token.role ≠ some .separator ∧ token.role ≠ some .listClose) ∧
      IsClosedFrom (Role.nest depth token.role) ts

instance IsClosedFrom.decidable :
    ∀ (depth : Nat) (ts : List Token), Decidable (IsClosedFrom depth ts)
  | depth, [] => inferInstanceAs (Decidable (depth = 0))
  | depth, token :: ts =>
    have := IsClosedFrom.decidable (Role.nest depth token.role) ts
    inferInstanceAs (Decidable (_ ∧ _))

-- a group is closed by a bracket of another kind, and the last bracket closes nothing
example : IsClosedFrom 0
    [{ kind := .symbol, text := "<", role := some .typeGroupOpen },
     { kind := .symbol, text := ",", role := some .separator },
     { kind := .symbol, text := ")", role := some .listClose },
     { kind := .symbol, text := ">", role := some .typeGroupClose }] := by decide

/-- The tokens written for a parameter. -/
structure Entry where
  tokens : List Token
  closed : IsClosedFrom 0 tokens

/-- A token with a role. -/
abbrev Marked (r : Role) : Type :=
  {token : Token // token.role = some r}

/-- The tokens between the opening and the closing token of a list. -/
def bodyOf (first : Entry) (rest : List (Marked .separator × Entry)) : List Token :=
  first.tokens ++ rest.flatMap fun (separator, entry) => separator.1 :: entry.tokens

/-- The entries of a list stand from an index on, with one token between them. -/
def extentsFrom (start : Nat) : List Entry → List Extent
  | [] => []
  | entry :: entries =>
    ⟨start, start + entry.tokens.length⟩ :: extentsFrom (start + entry.tokens.length + 1) entries

variable {t : TaggedText} {i stop : Nat} {first : Entry} {rest : List (Marked .separator × Entry)}

theorem bodyOf_cons (first : Entry) (separator : Marked .separator) (entry : Entry)
    (rest : List (Marked .separator × Entry)) :
    bodyOf first ((separator, entry) :: rest) =
      first.tokens ++ separator.1 :: bodyOf entry rest := rfl

/-! ### The scan -/

/-- The scan passes over closed tokens. -/
theorem splitFrom_closed {depth : Nat} {ts : List Token} (hclosed : IsClosedFrom depth ts)
    (hstands : t.StandsAt i ts) (hstop : i + ts.length ≤ stop) :
    (splitFrom t depth (Extent.mk i stop).indices).closing =
        (splitFrom t 0 (Extent.mk (i + ts.length) stop).indices).closing ∧
      (splitFrom t depth (Extent.mk i stop).indices).separators =
        (splitFrom t 0 (Extent.mk (i + ts.length) stop).indices).separators := by
  induction ts generalizing depth i with
  | nil =>
    obtain rfl : depth = 0 := hclosed
    exact ⟨rfl, rfl⟩
  | cons token ts ih =>
    obtain ⟨hrole, hclosed⟩ := hclosed
    obtain ⟨htoken, hstands⟩ := TaggedText.standsAt_cons.mp hstands
    have hrole? : t.role? i = token.role := TaggedText.role?_of_token? htoken
    have hend : endsAt t depth i i = false := by
      by_cases hdepth : depth = 0
      · simp [endsAt, TaggedText.hasRole, hrole?, (hrole hdepth).2]
      · simp [endsAt, TaggedText.depthFrom_self, hdepth]
    have hseparates : separatesAt t depth i i = false := by
      by_cases hdepth : depth = 0
      · simp [separatesAt, TaggedText.hasRole, hrole?, (hrole hdepth).1]
      · simp [separatesAt, TaggedText.depthFrom_self, hdepth]
    have hnext : i + (token :: ts).length = i + 1 + ts.length := by
      rw [List.length_cons]
      omega
    rw [hnext] at hstop ⊢
    obtain ⟨hclosing, hseparators⟩ :=
      splitFrom_cons_of_not_endsAt (Extent.mk (i + 1) stop).indices hend
    obtain ⟨ih₁, ih₂⟩ := ih hclosed hstands hstop
    rw [Extent.indices_cons (by omega), hclosing, hseparators, hrole?, ih₁, ih₂,
      List.filter_cons_of_neg (by simp [hseparates])]
    exact ⟨rfl, rfl⟩

/-- The scan cuts a list at the separators that were written and ends it where it was closed. -/
theorem splitFrom_body {closing : Marked .listClose}
    (hstands : t.StandsAt i (bodyOf first rest ++ [closing.1]))
    (hstop : i + (bodyOf first rest).length < stop) :
    (splitFrom t 0 (Extent.mk i stop).indices).closing = some (i + (bodyOf first rest).length) ∧
      between i (i + (bodyOf first rest).length)
          (splitFrom t 0 (Extent.mk i stop).indices).separators =
        extentsFrom i (first :: rest.map Prod.snd) := by
  induction rest generalizing first i with
  | nil =>
    have hbody : bodyOf first [] = first.tokens := List.append_nil _
    rw [hbody] at hstands hstop ⊢
    obtain ⟨hfirst, hclosing⟩ := TaggedText.standsAt_append.mp hstands
    obtain ⟨h₁, h₂⟩ := splitFrom_closed first.closed hfirst (Nat.le_of_lt hstop)
    have hend : endsAt t 0 (i + first.tokens.length) (i + first.tokens.length) = true := by
      have htoken := TaggedText.standsAt_singleton.mp hclosing
      simp [endsAt, TaggedText.hasRole_of_token? htoken, Token.hasRole, closing.2,
        TaggedText.depthFrom_self]
    rw [h₁, h₂, Extent.indices_cons hstop, splitFrom_cons_of_endsAt hend]
    exact ⟨rfl, rfl⟩
  | cons next rest ih =>
    obtain ⟨separator, entry⟩ := next
    rw [bodyOf_cons, List.append_assoc] at hstands
    obtain ⟨hfirst, hrest⟩ := TaggedText.standsAt_append.mp hstands
    obtain ⟨hseparator, hrest⟩ := TaggedText.standsAt_cons.mp hrest
    have hlen : i + (bodyOf first ((separator, entry) :: rest)).length =
        i + first.tokens.length + 1 + (bodyOf entry rest).length := by
      rw [bodyOf_cons, List.length_append, List.length_cons]
      omega
    rw [hlen] at hstop ⊢
    obtain ⟨h₁, h₂⟩ := splitFrom_closed first.closed hfirst
      (show i + first.tokens.length ≤ stop by omega)
    have hrole : t.role? (i + first.tokens.length) = some .separator :=
      (TaggedText.role?_of_token? hseparator).trans separator.2
    have hend : endsAt t 0 (i + first.tokens.length) (i + first.tokens.length) = false := by
      simp [endsAt, TaggedText.hasRole, hrole]
    have hseparates :
        separatesAt t 0 (i + first.tokens.length) (i + first.tokens.length) = true := by
      simp [separatesAt, TaggedText.hasRole, hrole, TaggedText.depthFrom_self]
    obtain ⟨h₃, h₄⟩ := splitFrom_cons_of_not_endsAt
      (Extent.mk (i + first.tokens.length + 1) stop).indices hend
    have hnest : Role.nest 0 (some .separator) = 0 := rfl
    obtain ⟨ih₁, ih₂⟩ := ih hrest hstop
    rw [h₁, h₂, Extent.indices_cons (by omega), h₃, h₄, hrole, hnest, ih₁,
      List.filter_cons_of_pos hseparates]
    exact ⟨rfl, congrArg _ ih₂⟩

/-! ### Entries in their places -/

/-- The number of tokens of entries, each with the token behind it. -/
def widthOf (entries : List Entry) : Nat :=
  (entries.map fun entry => entry.tokens.length + 1).sum

theorem length_extentsFrom (start : Nat) (entries : List Entry) :
    (extentsFrom start entries).length = entries.length := by
  induction entries generalizing start with
  | nil => rfl
  | cons entry entries ih => simp [extentsFrom, ih]

theorem getElem?_extentsFrom {start j : Nat} {entries : List Entry} {entry : Entry}
    (h : entries[j]? = some entry) :
    (extentsFrom start entries)[j]? =
      some ⟨start + widthOf (entries.take j),
        start + widthOf (entries.take j) + entry.tokens.length⟩ := by
  induction entries generalizing start j with
  | nil => simp at h
  | cons head entries ih =>
    cases j with
    | zero =>
      obtain rfl : head = entry := by simpa using h
      rfl
    | succ j =>
      have hwidth : start + widthOf ((head :: entries).take (j + 1)) =
          start + head.tokens.length + 1 + widthOf (entries.take j) := by
        simp only [widthOf, List.take_succ_cons, List.map_cons, List.sum_cons]
        omega
      rw [hwidth, extentsFrom, List.getElem?_cons_succ, ih (by simpa using h)]

/-- An entry stands behind those before it, and a token follows. -/
theorem standsAt_entry {j : Nat} {entry : Entry} {last : Token}
    (hstands : t.StandsAt i (bodyOf first rest ++ [last]))
    (h : (first :: rest.map Prod.snd)[j]? = some entry) :
    ∃ next, t.StandsAt (i + widthOf ((first :: rest.map Prod.snd).take j))
      (entry.tokens ++ [next]) := by
  induction rest generalizing first i j with
  | nil =>
    cases j with
    | zero =>
      obtain rfl : first = entry := by simpa using h
      rw [bodyOf, List.flatMap_nil, List.append_nil] at hstands
      exact ⟨last, hstands⟩
    | succ j => simp at h
  | cons next rest ih =>
    obtain ⟨separator, second⟩ := next
    rw [bodyOf_cons, List.append_assoc, List.cons_append] at hstands
    obtain ⟨hfirst, hrest⟩ := TaggedText.standsAt_append.mp hstands
    obtain ⟨hseparator, hrest⟩ := TaggedText.standsAt_cons.mp hrest
    cases j with
    | zero =>
      obtain rfl : first = entry := by simpa using h
      exact ⟨separator.1, TaggedText.standsAt_append.mpr
        ⟨hfirst, TaggedText.standsAt_singleton.mpr hseparator⟩⟩
    | succ j =>
      have hwidth :
          i + widthOf ((first :: ((separator, second) :: rest).map Prod.snd).take (j + 1)) =
            i + first.tokens.length + 1 + widthOf ((second :: rest.map Prod.snd).take j) := by
        simp only [widthOf, List.take_succ_cons, List.map_cons, List.sum_cons]
        omega
      rw [hwidth]
      exact ih hrest (by simpa using h)

/-! ### Written lists -/

/-- A parameter list as it is written, with what stands around it. -/
structure Written where
  /-- What stands before the list, without a token that would open one. -/
  before : List Token
  opening : Marked .listOpen
  first : Entry
  /-- The other entries, each behind its separator. -/
  rest : List (Marked .separator × Entry)
  closing : Marked .listClose
  /-- What stands behind the list. -/
  after : List Token
  unopened : ∀ token ∈ before, token.role ≠ some .listOpen

namespace Written

variable (w : Written)

/-- All entries. -/
def entries : List Entry :=
  w.first :: w.rest.map Prod.snd

/-- The tokens between the opening and the closing one. -/
def body : List Token :=
  bodyOf w.first w.rest

/-- The text that is written. -/
def text : TaggedText :=
  ⟨(w.before ++ w.opening.1 :: (w.body ++ w.closing.1 :: w.after)).toArray⟩

/-- Where the list is closed. -/
def closingIndex : Nat :=
  w.before.length + 1 + w.body.length

/-- How many tokens further on an entry stands than alone. -/
def shift (j : Nat) : Nat :=
  w.before.length + widthOf (w.entries.take j)

/-- An entry as the only one of its list, with nothing around it. -/
def alone (entry : Entry) : Written where
  before := []
  opening := w.opening
  first := entry
  rest := []
  closing := w.closing
  after := []
  unopened := fun _ h => absurd h List.not_mem_nil

theorem length_text : w.text.length = w.closingIndex + 1 + w.after.length := by
  simp only [text, TaggedText.length, List.size_toArray, List.length_append, List.length_cons,
    closingIndex]
  omega

theorem standsAt_before : w.text.StandsAt 0 w.before := by
  have htokens : w.text.tokens.toList =
      [] ++ w.before ++ w.opening.1 :: (w.body ++ w.closing.1 :: w.after) := by
    simp [text]
  exact TaggedText.standsAt_of_tokens htokens

theorem token?_opening : w.text.token? w.before.length = some w.opening.1 := by
  have htokens : w.text.tokens.toList =
      w.before ++ [w.opening.1] ++ (w.body ++ w.closing.1 :: w.after) := by
    simp [text]
  exact TaggedText.standsAt_singleton.mp (TaggedText.standsAt_of_tokens htokens)

theorem standsAt_body : w.text.StandsAt (w.before.length + 1) (w.body ++ [w.closing.1]) := by
  have htokens : w.text.tokens.toList =
      (w.before ++ [w.opening.1]) ++ (w.body ++ [w.closing.1]) ++ w.after := by
    simp [text]
  simpa using TaggedText.standsAt_of_tokens htokens

/-! ### The cut -/

theorem openingOf_text : openingOf w.text w.text.full = w.before.length := by
  have hlen := w.length_text
  have hfind : (w.text.full.indices.find? fun i => w.text.hasRole i .listOpen) =
      some w.before.length := by
    refine Extent.find?_indices_eq_some.mpr ⟨⟨Nat.zero_le _, ?_⟩, ?_, fun j _ hj => ?_⟩
    · show w.before.length < w.text.length
      rw [hlen, closingIndex]
      omega
    · rw [TaggedText.hasRole_of_token? w.token?_opening]
      simp [Token.hasRole, w.opening.2]
    · have htoken := w.standsAt_before.token?_add hj
      rw [Nat.zero_add, List.getElem?_eq_getElem hj] at htoken
      rw [TaggedText.hasRole_of_token? htoken]
      simpa [Token.hasRole] using w.unopened _ (List.getElem_mem hj)
  rw [openingOf, hfind]
  rfl

theorem split_text :
    (split w.text w.text.full).closing = some w.closingIndex ∧
      between (w.before.length + 1) w.closingIndex (split w.text w.text.full).separators =
        extentsFrom (w.before.length + 1) w.entries := by
  have hlen := w.length_text
  rw [split, w.openingOf_text]
  refine splitFrom_body w.standsAt_body ?_
  show w.closingIndex < w.text.length
  omega

/-- The parameters of a written list are its entries, trimmed. -/
theorem parameters_text (hasName impliesTypes : Bool) :
    (analyze w.text w.text.full hasName impliesTypes).parameters =
      (extentsFrom (w.before.length + 1) w.entries).map w.text.trim := by
  have hlt : w.text.full.start < w.text.full.stop := by
    show 0 < w.text.length
    rw [w.length_text]
    omega
  obtain ⟨hclosing, hbetween⟩ := w.split_text
  rw [parameters_analyze w.text hlt, stopOf, hclosing, w.openingOf_text, Option.getD_some, hbetween]

/-- Where an entry stands. -/
def extent (j : Fin w.entries.length) : Extent :=
  ⟨1 + w.shift j, 1 + w.shift j + (w.entries.get j).tokens.length⟩

theorem start_add_widthOf (j : Nat) :
    w.before.length + 1 + widthOf (w.entries.take j) = 1 + w.shift j := by
  rw [shift]
  omega

theorem parameter?_text (hasName impliesTypes : Bool) (j : Fin w.entries.length) :
    (analyze w.text w.text.full hasName impliesTypes).parameter? j =
      some (w.text.trim (w.extent j)) := by
  have hentry : w.entries[j.1]? = some (w.entries.get j) := List.getElem?_eq_getElem j.2
  rw [parameter?, w.parameters_text, List.getElem?_map, getElem?_extentsFrom hentry,
    w.start_add_widthOf]
  rfl

theorem standsAt_extent (j : Fin w.entries.length) :
    w.text.StandsAt (1 + w.shift j) (w.entries.get j).tokens ∧
      (w.extent j).stop ≤ w.text.length := by
  have hentry : w.entries[j.1]? = some (w.entries.get j) := List.getElem?_eq_getElem j.2
  obtain ⟨next, hstands⟩ := standsAt_entry w.standsAt_body hentry
  rw [show w.before.length + 1 + widthOf ((w.first :: w.rest.map Prod.snd).take j) = _ from
    w.start_add_widthOf j] at hstands
  have hstop := hstands.stop_le_length (List.append_ne_nil_of_right_ne_nil _ (List.cons_ne_nil _ _))
  rw [List.length_append, ← Nat.add_assoc] at hstop
  exact ⟨(TaggedText.standsAt_append.mp hstands).1, Nat.le_of_succ_le hstop⟩

end Written

/-! ### Answers about one parameter -/

variable {l : ParameterList} {j : Nat} {e : Extent}

theorem typeDonor?_own (hparameter : l.parameter? j = some e) :
    l.typeDonor? t j false = if (ownType? t e).isSome then some j else none := by
  have hlt : j < l.count := (List.getElem?_eq_some_iff.mp hparameter).1
  simp [typeDonor?, hlt, hasOwnType, hparameter]

/-- A type that comes from nowhere is not there. -/
theorem no_type_of_typeDonor? {implied : Bool} (h : l.typeDonor? t j implied = none) :
    l.baseType? t j implied = none ∧ l.fullType? t j implied = none ∧
      l.typeIsImplied t j implied = false := by
  rw [baseType?, fullType?, typeIsImplied, h]
  exact ⟨rfl, rfl, rfl⟩

/-- Where types are not implied, each parameter answers for itself. -/
theorem typeDonor?_of_not_implied {implied : Bool} (h : (implied && l.impliesTypes) = false) :
    l.typeDonor? t j implied = l.typeDonor? t j false := by
  simp [typeDonor?, h]

theorem baseType?_of_not_implied {implied : Bool} (h : (implied && l.impliesTypes) = false) :
    l.baseType? t j implied = l.baseType? t j false := by
  rw [baseType?, baseType?, typeDonor?_of_not_implied h]

theorem fullType?_of_not_implied {implied : Bool} (h : (implied && l.impliesTypes) = false) :
    l.fullType? t j implied = l.fullType? t j false := by
  rw [fullType?, fullType?, typeDonor?_of_not_implied h]

theorem baseType?_own (hparameter : l.parameter? j = some e) :
    l.baseType? t j false = ownType? t e := by
  rw [baseType?, typeDonor?_own hparameter]
  cases hown : ownType? t e with
  | none => rfl
  | some x => simp [hparameter, hown]

theorem fullType?_own (hparameter : l.parameter? j = some e) :
    l.fullType? t j false =
      if (ownType? t e).isSome then assemble t (typeIndices t true e) else none := by
  rw [fullType?, typeDonor?_own hparameter]
  split
  · simp [hparameter]
  · rfl

/-- What a list says about a parameter is what another list says about one of its own, `k` tokens
further on. -/
structure Echoes (t : TaggedText) (l : ParameterList) (j : Nat) (t' : TaggedText)
    (l' : ParameterList) (j' k : Nat) : Prop where
  parameter : l.parameter? j = (l'.parameter? j').map (Extent.image (· + k))
  name : l.name? t j = (l'.name? t' j').map (Extent.image (· + k))
  default : l.default? t j = (l'.default? t' j').map (Extent.image (· + k))
  property : l.property? t j = (l'.property? t' j').map (Extent.image (· + k))
  baseType : l.baseType? t j false = (l'.baseType? t' j' false).map (Extent.image (· + k))
  fullType : l.fullType? t j false = (l'.fullType? t' j' false).map (Excerpt.move t k)
  tokens : (l.fullType? t j false).map Excerpt.tokens =
    (l'.fullType? t' j' false).map Excerpt.tokens

/-- A parameter that is moved says the same. -/
theorem echoes_of_carries {t' : TaggedText} {l' : ParameterList} {j' k : Nat}
    (h : Carries (· + k) t' t e) (hle : e.start ≤ e.stop)
    (hparameter : l.parameter? j = some (e.image (· + k)))
    (hparameter' : l'.parameter? j' = some e) : Echoes t l j t' l' j' k := by
  have hmem : ∀ i ∈ typeIndices t' true e, e.start ≤ i ∧ i < e.stop := fun i hi =>
    Extent.mem_indices.mp ((typeIndices_sublist t' true e).mem hi)
  have hown : ownType? t (e.image (· + k)) = (ownType? t' e).map (Extent.image (· + k)) :=
    h.firstRun? hle _ _
  have hfull : l.fullType? t j false = (l'.fullType? t' j' false).map (Excerpt.move t k) := by
    rw [fullType?_own hparameter, fullType?_own hparameter', hown, Option.isSome_map,
      h.typeIndices_add hle, h.assemble_add hmem]
    split <;> rfl
  refine ⟨?_, ?_, ?_, ?_, ?_, hfull, ?_⟩
  · rw [hparameter, hparameter', Option.map_some]
  · rw [name?, name?, hparameter, hparameter']
    exact h.firstRun? hle _ _
  · rw [default?, default?, hparameter, hparameter']
    exact h.value? hle _ _
  · rw [property?, property?, hparameter, hparameter']
    exact h.value? hle _ _
  · rw [baseType?_own hparameter, baseType?_own hparameter', hown]
  · rw [hfull, fullType?_own hparameter']
    split
    · exact h.tokens_move hmem
    · rfl

/-! ### Lists, entry by entry -/

namespace Written

variable (w : Written)

/-- What is said about an entry is what is said about the entry alone. -/
theorem echoes_alone (hasName impliesTypes : Bool) (j : Fin w.entries.length) :
    Echoes w.text (analyze w.text w.text.full hasName impliesTypes) j
      (w.alone (w.entries.get j)).text
      (analyze (w.alone (w.entries.get j)).text (w.alone (w.entries.get j)).text.full hasName
        impliesTypes) 0 (w.shift j) := by
  set entry := w.entries.get j
  set e : Extent := ⟨1, 1 + entry.tokens.length⟩
  obtain ⟨hstands, hstop⟩ := w.standsAt_extent j
  obtain ⟨hstands', hstop'⟩ := (w.alone entry).standsAt_extent ⟨0, Nat.zero_lt_one⟩
  have hcarries : Carries (· + w.shift j) (w.alone entry).text w.text e :=
    Carries.of_standsAt hstands' hstands
  have halone : (analyze (w.alone entry).text (w.alone entry).text.full hasName
      impliesTypes).parameter? 0 = some ((w.alone entry).text.trim e) :=
    (w.alone entry).parameter?_text hasName impliesTypes ⟨0, Nat.zero_lt_one⟩
  have himage : w.extent j = e.image (· + w.shift j) :=
    congrArg (Extent.mk _) (Nat.add_right_comm 1 (w.shift j) entry.tokens.length)
  -- trimming leaves the same of an entry wherever it stands
  have hle : e.start ≤ e.stop := Nat.le_add_right _ _
  rw [himage] at hstop
  have htrim := hcarries.trim hle hstop' hstop
  have htrimmed := TaggedText.trimmed_trim hle hstop'
  refine echoes_of_carries (hcarries.mono htrimmed.start_le htrimmed.stop_le) htrimmed.le ?_ halone
  rw [w.parameter?_text, himage, htrim]

/-- **A list is read entry by entry.** It is opened and closed where it was written to be, and it
has as many parameters as entries. A parameter is its entry, trimmed, and what the list says about
it is what is said about the entry alone. -/
theorem reads_alone (hasName impliesTypes : Bool) :
    (analyze w.text w.text.full hasName impliesTypes).opening = w.before.length ∧
    (analyze w.text w.text.full hasName impliesTypes).closing = some w.closingIndex ∧
    (analyze w.text w.text.full hasName impliesTypes).count = w.entries.length ∧
    ∀ j : Fin w.entries.length,
      w.text.StandsAt (w.extent j).start (w.entries.get j).tokens ∧
      (analyze w.text w.text.full hasName impliesTypes).parameter? j =
        some (w.text.trim (w.extent j)) ∧
      Echoes w.text (analyze w.text w.text.full hasName impliesTypes) j
        (w.alone (w.entries.get j)).text
        (analyze (w.alone (w.entries.get j)).text (w.alone (w.entries.get j)).text.full hasName
          impliesTypes) 0 (w.shift j) := by
  refine ⟨w.openingOf_text, w.split_text.1, ?_, fun j => ⟨(w.standsAt_extent j).1, ?_, ?_⟩⟩
  · rw [count, w.parameters_text, List.length_map, length_extentsFrom]
  · exact w.parameter?_text hasName impliesTypes j
  · exact w.echoes_alone hasName impliesTypes j

end Written

end ParameterList

end DeclOutline
