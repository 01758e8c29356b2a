import DeclOutline.Proofs.Signatures

/-!
# Signatures are read back

The summary of a signature has one entry for each parameter, with the texts the parameter was made
of. Types may be nested to any depth. A parameter without a type has that of the nearest one before
it that has one.

Each answer is first read off the tokens of a parameter, wherever they stand. A list *presents*
parameters if their tokens stand where its extents say, and everything else is said of such lists.

## Main definitions

* `ParameterExpr.summary` — what is to be said about a parameter, given those before it
* `ParameterList.Presents` — a list whose extents hold the tokens of parameters

## Main results

* `ParameterList.Presents.bind_typeDonor?` — where the type of a parameter comes from
* `presents_signature` — the list of a signature presents its parameters
* `parameters_summary_signature` — signatures are read back
-/

namespace DeclOutline

open ParameterList (space EndsRun)

/-! ### Answers about one parameter -/

theorem TaggedText.extentText_token {t : TaggedText} {i : Nat} {token : Token}
    (h : t.token? i = some token) : t.extentText ⟨i, i + 1⟩ = token.text := by
  have hstands : t.StandsAt i [token] := standsAt_singleton.mpr h
  rw [show i + 1 = i + [token].length from rfl, hstands.extentText]
  simp

/-- A type begins with its outermost word, and a run of types goes no further. -/
theorem TypeExpr.exists_tokens_eq (type : TypeExpr) :
    ∃ tail, type.tokens = type.head.token .typeName :: tail ∧
      ∀ us, EndsRun .typeName us → EndsRun .typeName (tail ++ us) := by
  cases type with
  | word w => exact ⟨[], rfl, fun us hus => hus⟩
  | applied w args =>
    refine ⟨_, rfl, fun us _ => ⟨by decide, fun hblank => ?_⟩⟩
    exact absurd hblank (by decide)

namespace ParameterExpr

variable (p : ParameterExpr) {t : TaggedText} {i : Nat}

theorem exists_head? : ∃ token, p.tokens.head? = some token ∧ token.isBlank = false := by
  rw [tokens, typeTokens]
  cases p.type with
  | none => exact ⟨_, rfl, rfl⟩
  | some type =>
    obtain ⟨tail, htokens, -⟩ := type.exists_tokens_eq
    exact ⟨type.head.token .typeName, by simp [htokens], rfl⟩

theorem exists_getLast? : ∃ token, p.tokens.getLast? = some token ∧ token.isBlank = false := by
  rw [tokens, defaultTokens, List.getLast?_append]
  cases p.default with
  | none => exact ⟨_, rfl, rfl⟩
  | some value => exact ⟨_, rfl, rfl⟩

/-- A role that types do not have is not found before the name. -/
theorem role_ne_typeTokens {r : Role} (hr : some r ∉ TypeStep.roles) :
    ∀ x ∈ p.typeTokens, x.role ≠ some r := by
  rintro x hx hrole
  exact hr (hrole ▸ p.role_mem_typeTokens x hx)

/-- The roles of tokens of parameters. -/
def roles : List (Option Role) :=
  TypeStep.roles ++ [some .name, some .defaultMark, some .defaultValue]

theorem role_mem_tokens : ∀ x ∈ p.tokens, x.role ∈ roles := by
  have hdefault : ∀ x ∈ p.defaultTokens, x.role ∈ roles := by
    rw [defaultTokens]
    cases p.default <;> simp [roles, TypeStep.roles, symbol, space, Word.token]
  refine List.forall_mem_append.mpr
    ⟨fun x hx => ?_, List.forall_mem_cons.mpr ⟨?_, hdefault⟩⟩
  · exact List.mem_append_left _ (p.role_mem_typeTokens x hx)
  · simp [roles, Word.token]

theorem role_ne_tokens {r : Role} (hr : some r ∉ roles) : ∀ x ∈ p.tokens, x.role ≠ some r := by
  rintro x hx hrole
  exact hr (hrole ▸ p.role_mem_tokens x hx)

theorem endsRun_defaultTokens : EndsRun .name p.defaultTokens := by
  rw [defaultTokens]
  cases p.default <;> simp [EndsRun, symbol, space, Token.isBlank, TokenKind.isBlank]

/-- The name is found. -/
theorem name_standsAt (h : t.StandsAt i p.tokens) :
    (ParameterList.firstRun? t .exceptParamGroups .name ⟨i, i + p.tokens.length⟩).map t.extentText =
      some p.name.text := by
  have htoken : t.token? (i + p.typeTokens.length) = some (p.name.token .name) :=
    (TaggedText.standsAt_cons.mp (TaggedText.standsAt_append.mp h).2).1
  rw [tokens] at h ⊢
  rw [ParameterList.firstRun?_standsAt h (p.role_ne_typeTokens (by decide))
    (p.afterAll_typeTokens _) rfl p.endsRun_defaultTokens, Option.map_some,
    TaggedText.extentText_token htoken]
  rfl

/-- The outermost word of the type is found. -/
theorem ownType_standsAt (h : t.StandsAt i p.tokens) :
    (ParameterList.ownType? t ⟨i, i + p.tokens.length⟩).map t.extentText =
      p.type.map fun type => type.head.text := by
  cases htype : p.type with
  | none =>
    have hnone : ∀ x ∈ p.tokens, x.role ≠ some .typeName := by
      rw [tokens, typeTokens, htype, defaultTokens]
      cases p.default <;> simp [symbol, space, Word.token]
    rw [ParameterList.ownType?, ParameterList.firstRun?_eq_none h hnone]
    rfl
  | some type =>
    obtain ⟨tail, htokens, hends⟩ := type.exists_tokens_eq
    have hsplit : p.tokens = [] ++ type.head.token .typeName ::
        (tail ++ space :: p.name.token .name :: p.defaultTokens) := by
      simp [tokens, typeTokens, htype, htokens]
    have hafter : EndsRun .typeName
        (tail ++ space :: p.name.token .name :: p.defaultTokens) := by
      refine hends _ ⟨by decide, fun _ => ⟨by simp [Word.token], fun hblank => ?_⟩⟩
      exact absurd hblank (by simp [Token.isBlank, Word.token, TokenKind.isBlank])
    rw [hsplit] at h ⊢
    have htoken : t.token? i = some (type.head.token .typeName) :=
      (TaggedText.standsAt_cons.mp h).1
    rw [ParameterList.ownType?, ParameterList.firstRun?_standsAt h (by simp) rfl rfl hafter,
      Option.map_some, Option.map_some]
    exact congrArg some (TaggedText.extentText_token htoken)

/-- The tokens behind a type are no part of it. -/
theorem takes_defaultTokens (own : Bool) :
    ∀ x ∈ space :: p.name.token .name :: p.defaultTokens, ∀ level,
      ParameterList.Groups.takes {} own level x.role = false ∧
        ParameterList.Groups.after {} own level x.role = {} := by
  have hrole : ∀ x ∈ space :: p.name.token .name :: p.defaultTokens,
      x.role = none ∨ x.role = some .name ∨ x.role = some .defaultMark ∨
        x.role = some .defaultValue := by
    rw [defaultTokens]
    cases p.default <;> simp [symbol, space, Word.token]
  intro x hx level
  rcases hrole x hx with hrole | hrole | hrole | hrole <;> rw [hrole] <;>
    simp [ParameterList.Groups.takes, ParameterList.Groups.after, ParameterList.Groups.inside,
      Role.isTypePart]

/-- A type takes its own tokens. -/
theorem typeIndices_standsAt (h : t.StandsAt i p.tokens) (own : Bool) :
    ParameterList.typeIndices t own ⟨i, i + p.tokens.length⟩ =
      match p.type with
      | some type => (Extent.mk i (i + type.tokens.length)).indices
      | none => [] := by
  rw [ParameterList.typeIndices, Nesting.walk]
  cases htype : p.type with
  | none =>
    refine ParameterList.typeIndicesFrom_eq_nil h ?_
    rw [tokens, typeTokens, htype]
    exact fun x hx => p.takes_defaultTokens own x (List.mem_cons_of_mem space hx)
  | some type =>
    have hsplit : p.tokens =
        type.tokens ++ (space :: p.name.token .name :: p.defaultTokens) := by
      simp [tokens, typeTokens, htype]
    rw [hsplit] at h ⊢
    obtain ⟨hstands, hrest⟩ := TaggedText.standsAt_append.mp h
    rw [List.length_append, ← Nat.add_assoc,
      Nesting.walkFrom_standsAt .all 0 hstands (Nat.le_add_right _ _),
      (type.nests 0).afterAll, (type.nests 0).typeIndicesFrom hstands,
      ParameterList.typeIndicesFrom_eq_nil hrest (p.takes_defaultTokens own), List.append_nil]

/-- The whole type is found. -/
theorem fullType_standsAt (h : t.StandsAt i p.tokens) (own : Bool) :
    (ParameterList.assemble t
        (ParameterList.typeIndices t own ⟨i, i + p.tokens.length⟩)).map Excerpt.text =
      p.type.map TypeExpr.print := by
  rw [p.typeIndices_standsAt h]
  cases htype : p.type with
  | none => rfl
  | some type =>
    obtain ⟨tail, htokens, -⟩ := type.exists_tokens_eq
    have hstands : t.StandsAt i type.tokens := by
      rw [tokens, typeTokens, htype, List.append_assoc] at h
      exact (TaggedText.standsAt_append.mp h).1
    have hrole : t.hasRole i .typeName = true := by
      rw [htokens] at hstands
      rw [TaggedText.hasRole_of_token? (TaggedText.standsAt_cons.mp hstands).1]
      rfl
    have hlt : i < i + type.tokens.length := by
      rw [htokens, List.length_cons]
      omega
    rw [ParameterList.assemble_indices hlt hrole, Option.map_some, Option.map_some]
    refine congrArg some ?_
    rw [Excerpt.text, ← type.join_tokens]
    exact hstands.extentText

/-- The default value is found. -/
theorem default_standsAt (h : t.StandsAt i p.tokens) :
    (ParameterList.value? t .defaultMark .defaultValue ⟨i, i + p.tokens.length⟩).map t.extentText =
      p.default.map Word.text := by
  cases hdefault : p.default with
  | none =>
    have hnone : ∀ x ∈ p.tokens, x.role ≠ some .defaultValue := by
      rw [tokens, defaultTokens, hdefault]
      refine List.forall_mem_append.mpr ⟨p.role_ne_typeTokens (by decide), ?_⟩
      simp [Word.token]
    rw [ParameterList.value?_eq_none h hnone]
    rfl
  | some value =>
    have hsplit : p.tokens = (p.typeTokens ++ [p.name.token .name, space,
        symbol "=" .defaultMark, space]) ++ [value.token .defaultValue] := by
      simp [tokens, defaultTokens, hdefault]
    rw [hsplit] at h ⊢
    have htoken := TaggedText.standsAt_singleton.mp (TaggedText.standsAt_append.mp h).2
    rw [ParameterList.value?_standsAt h ?_ rfl (by decide), Option.map_some, Option.map_some]
    · exact congrArg some (TaggedText.extentText_token htoken)
    · refine List.forall_mem_append.mpr ⟨p.role_ne_typeTokens (by decide), ?_⟩
      simp [symbol, space, Word.token]

/-- There is no property. -/
theorem property_standsAt (h : t.StandsAt i p.tokens) :
    ParameterList.value? t .propertyMark .propertyValue ⟨i, i + p.tokens.length⟩ = none :=
  ParameterList.value?_eq_none h (p.role_ne_tokens (by decide))

/-- What is to be said about a parameter, given those before it. -/
def summary (earlier : List ParameterExpr) : ParameterSummary :=
  let inherited := (earlier.filterMap type).getLast?
  let effective := p.type.or inherited
  { text := p.print
    name := some p.name.text
    baseType := effective.map fun type => type.head.text
    fullType := effective.map TypeExpr.print
    typeIsImplied := p.type.isNone && inherited.isSome
    default := p.default.map Word.text
    property := none }

end ParameterExpr

/-! ### Lists of parameters -/

namespace ParameterList

variable {t : TaggedText} {l : ParameterList} {ps : List ParameterExpr} {p : ParameterExpr}
  {j : Nat}

/-- The extents of a list hold the tokens of parameters, in order. -/
structure Presents (t : TaggedText) (l : ParameterList) (ps : List ParameterExpr) : Prop where
  impliesTypes : l.impliesTypes = true
  count : l.count = ps.length
  placed : ∀ j p, ps[j]? = some p →
    ∃ i, t.StandsAt i p.tokens ∧ l.parameter? j = some ⟨i, i + p.tokens.length⟩

/-- The type that is written for the parameter at an index. -/
def typeAt (ps : List ParameterExpr) (j : Nat) : Option TypeExpr :=
  ps[j]?.bind ParameterExpr.type

/-- The nearest index before `j` with a type leads to the last type that was written. -/
theorem bind_find?_typeAt (ps : List ParameterExpr) (j : Nat) :
    ((List.range j).reverse.find? fun k => (typeAt ps k).isSome).bind (typeAt ps) =
      ((ps.take j).filterMap ParameterExpr.type).getLast? := by
  induction j with
  | zero => rfl
  | succ j ih =>
    have htake : (ps.take (j + 1)).filterMap ParameterExpr.type =
        (ps.take j).filterMap ParameterExpr.type ++ (typeAt ps j).toList := by
      rw [List.take_add_one, List.filterMap_append, typeAt]
      cases ps[j]? with
      | none => rfl
      | some p => cases htype : p.type <;> simp [htype]
    rw [List.range_succ, List.reverse_append, List.reverse_singleton, List.singleton_append, htake]
    cases htype : typeAt ps j with
    | none =>
      rw [List.find?_cons_of_neg (by simp [htype]), ih, Option.toList_none, List.append_nil]
    | some type =>
      rw [List.find?_cons_of_pos (by simp [htype]), Option.bind_some, htype, Option.toList_some,
        List.getLast?_concat]

namespace Presents

/-- A question about a parameter is answered from its tokens. -/
theorem map_bind_parameter? {α β : Type} (h : Presents t l ps) (j : Nat) {q : Extent → Option α}
    {f : α → β} {answer : ParameterExpr → Option β}
    (hq : ∀ i p, t.StandsAt i p.tokens → (q ⟨i, i + p.tokens.length⟩).map f = answer p) :
    ((l.parameter? j).bind q).map f = ps[j]?.bind answer := by
  cases hp : ps[j]? with
  | none =>
    have hnone : l.parameter? j = none := by
      refine List.getElem?_eq_none ?_
      rw [show l.parameters.length = ps.length from h.count]
      exact List.getElem?_eq_none_iff.mp hp
    rw [hnone]
    rfl
  | some p =>
    obtain ⟨i, hstands, hparameter⟩ := h.placed j p hp
    rw [hparameter]
    exact hq i p hstands

theorem map_ownType? (h : Presents t l ps) (j : Nat) :
    ((l.parameter? j).bind (ownType? t)).map t.extentText =
      (typeAt ps j).map fun type => type.head.text := by
  rw [h.map_bind_parameter? j fun i p hstands => p.ownType_standsAt hstands, typeAt,
    Option.map_bind]
  rfl

theorem map_assemble (h : Presents t l ps) (j : Nat) (own : Bool) :
    ((l.parameter? j).bind fun e => assemble t (typeIndices t own e)).map Excerpt.text =
      (typeAt ps j).map TypeExpr.print := by
  rw [h.map_bind_parameter? j fun i p hstands => p.fullType_standsAt hstands own, typeAt,
    Option.map_bind]
  rfl

theorem hasOwnType_eq (h : Presents t l ps) (j : Nat) :
    l.hasOwnType t j = (typeAt ps j).isSome := by
  have hown := congrArg Option.isSome (h.map_ownType? j)
  rw [Option.isSome_map, Option.isSome_map] at hown
  rw [← hown, hasOwnType]
  cases l.parameter? j <;> rfl

theorem typeDonor?_eq (h : Presents t l ps) (hp : ps[j]? = some p) :
    l.typeDonor? t j true =
      if p.type.isSome then some j
      else (List.range j).reverse.find? fun k => (typeAt ps k).isSome := by
  have hlt : j < l.count := by
    rw [h.count]
    exact (List.getElem?_eq_some_iff.mp hp).1
  have htype : l.hasOwnType t j = p.type.isSome := by
    rw [h.hasOwnType_eq, typeAt, hp]
    rfl
  have hown : l.hasOwnType t = fun k => (typeAt ps k).isSome := funext h.hasOwnType_eq
  rw [typeDonor?, if_pos hlt, htype, h.impliesTypes, hown]
  rfl

/-- A type is the parameter's own, or that of the nearest one before it. -/
theorem bind_typeDonor? (h : Presents t l ps) (hp : ps[j]? = some p) :
    (l.typeDonor? t j true).bind (typeAt ps) =
      p.type.or ((ps.take j).filterMap ParameterExpr.type).getLast? := by
  rw [h.typeDonor?_eq hp]
  cases htype : p.type with
  | none => exact bind_find?_typeAt ps j
  | some type => simp [typeAt, hp, htype]

theorem map_baseType? (h : Presents t l ps) (hp : ps[j]? = some p) :
    (l.baseType? t j true).map t.extentText = (p.summary (ps.take j)).baseType := by
  show _ = (p.type.or _).map _
  rw [← h.bind_typeDonor? hp, baseType?]
  cases l.typeDonor? t j true with
  | none => rfl
  | some donor => exact h.map_ownType? donor

theorem map_fullType? (h : Presents t l ps) (hp : ps[j]? = some p) :
    (l.fullType? t j true).map Excerpt.text = (p.summary (ps.take j)).fullType := by
  show _ = (p.type.or _).map _
  rw [← h.bind_typeDonor? hp, fullType?]
  cases l.typeDonor? t j true with
  | none => rfl
  | some donor => exact h.map_assemble donor _

/-- A type is implied if the parameter has none and another one is found. -/
theorem typeIsImplied_eq (h : Presents t l ps) (hp : ps[j]? = some p) :
    l.typeIsImplied t j true = (p.summary (ps.take j)).typeIsImplied := by
  show _ = (p.type.isNone && (((ps.take j).filterMap ParameterExpr.type).getLast?).isSome)
  have hbind := h.bind_typeDonor? hp
  rw [typeIsImplied]
  rw [h.typeDonor?_eq hp] at hbind ⊢
  cases htype : p.type with
  | some type => simp
  | none =>
    rw [htype] at hbind
    simp only [Option.isSome_none, Bool.false_eq_true, if_false, Option.none_or] at hbind ⊢
    rw [← hbind]
    cases hfind : (List.range j).reverse.find? fun k => (typeAt ps k).isSome with
    | none => rfl
    | some donor =>
      have hlt : donor < j := by
        simpa using List.mem_of_find?_eq_some hfind
      have hsome := List.find?_some hfind
      simp [hsome, Nat.ne_of_lt hlt]

/-- What is said about a parameter is what is to be said. -/
theorem ofDeclaration?_eq {d : Declaration} (h : Presents d.text l ps) (hl : d.mainList? = some l)
    (hcontained : d.Contained) (hp : ps[j]? = some p) :
    ParameterSummary.ofDeclaration? d j = some (p.summary (ps.take j)) := by
  obtain ⟨i, hstands, hparameter⟩ := h.placed j p hp
  have hown : d.parameter? j = some ⟨i, i + p.tokens.length⟩ := by
    rw [Declaration.parameter?, hl]
    exact hparameter
  rw [Summary.ofDeclaration?_of_contained hcontained hown]
  refine congrArg some ((ParameterSummary.mk.injEq ..).mpr ⟨?_, ?_, ?_, ?_, ?_, ?_, ?_⟩)
  · rw [hstands.extentText, p.join_tokens]
  · rw [Declaration.name?, hl, Option.bind_some, name?, hparameter]
    exact p.name_standsAt hstands
  · rw [Declaration.baseType?, hl]
    exact h.map_baseType? hp
  · rw [Declaration.fullType?, hl]
    exact h.map_fullType? hp
  · rw [Declaration.typeIsImplied, hl]
    exact h.typeIsImplied_eq hp
  · rw [Declaration.default?, hl, Option.bind_some, default?, hparameter]
    exact p.default_standsAt hstands
  · rw [Declaration.property?, hl, Option.bind_some, property?, hparameter, Option.bind_some,
      p.property_standsAt hstands, Option.map_none]

/-- A summary says what is to be said about each parameter. -/
theorem parameters_ofDeclaration {d : Declaration} (h : Presents d.text l ps)
    (hl : d.mainList? = some l) (hcontained : d.Contained) :
    (Summary.ofDeclaration d).parameters = ps.mapIdx fun j p => p.summary (ps.take j) := by
  have hcount : d.parameterCount = ps.length := by
    rw [Declaration.parameterCount, hl]
    exact h.count
  have hentry : ∀ j, j < ps.length → ∃ p, ps[j]? = some p ∧
      ParameterSummary.ofDeclaration? d j = some (p.summary (ps.take j)) := fun j hj =>
    ⟨ps[j], List.getElem?_eq_getElem hj,
      h.ofDeclaration?_eq hl hcontained (List.getElem?_eq_getElem hj)⟩
  obtain ⟨hlen, hget⟩ := filterMap_range_of_isSome (f := ParameterSummary.ofDeclaration? d)
    (n := ps.length) fun j hj => by
      obtain ⟨p, -, hsummary⟩ := hentry j hj
      rw [hsummary]
      rfl
  have hparameters : (Summary.ofDeclaration d).parameters =
      (List.range ps.length).filterMap (ParameterSummary.ofDeclaration? d) := by
    rw [← hcount]
    rfl
  refine List.ext_getElem? fun j => ?_
  rw [hparameters, List.getElem?_mapIdx]
  rcases Nat.lt_or_ge j ps.length with hj | hj
  · obtain ⟨p, hp, hsummary⟩ := hentry j hj
    rw [hget j hj, hsummary, hp]
    rfl
  · rw [List.getElem?_eq_none (Nat.le_trans (Nat.le_of_eq hlen) hj), List.getElem?_eq_none hj]
    rfl

end Presents

end ParameterList

/-! ### Signatures -/

section Signature

variable (first : ParameterExpr) (rest : List ParameterExpr)

theorem length_entries_signatureList :
    (signatureList first rest).entries.length = (first :: rest).length := by
  simp [ParameterList.Written.entries, signatureList]

/-- The entry of a parameter is the parameter, with a blank in front unless it is the first. -/
theorem exists_entry_eq {j : Nat} {p : ParameterExpr} (hp : (first :: rest)[j]? = some p)
    (hj : j < (signatureList first rest).entries.length) :
    ∃ blanks, (∀ x ∈ blanks, x.isBlank = true) ∧
      ((signatureList first rest).entries.get ⟨j, hj⟩).tokens = blanks ++ p.tokens := by
  cases j with
  | zero =>
    obtain rfl : first = p := Option.some.inj hp
    exact ⟨[], by simp, rfl⟩
  | succ j =>
    obtain ⟨hj', hget⟩ := List.getElem?_eq_some_iff.mp (List.getElem?_cons_succ ▸ hp)
    refine ⟨[space], by decide, ?_⟩
    simp [ParameterList.Written.entries, signatureList, hget]

/-- The list of a signature presents its parameters. -/
theorem presents_signature (hasName : Bool) :
    ParameterList.Presents (signature first rest)
      (.analyze (signature first rest) (signature first rest).full hasName true)
      (first :: rest) := by
  rw [signature_eq_text]
  have hlen := length_entries_signatureList first rest
  refine ⟨rfl, ?_, fun j p hp => ?_⟩
  · rw [ParameterList.count, ParameterList.Written.parameters_text, List.length_map,
      ParameterList.length_extentsFrom, hlen]
  · have hj : j < (signatureList first rest).entries.length := by
      rw [hlen]
      exact (List.getElem?_eq_some_iff.mp hp).1
    obtain ⟨blanks, hblanks, htokens⟩ := exists_entry_eq first rest hp hj
    obtain ⟨hstands, -⟩ := (signatureList first rest).standsAt_extent ⟨j, hj⟩
    have hparameter := (signatureList first rest).parameter?_text hasName true ⟨j, hj⟩
    obtain ⟨token, htoken, hsolid⟩ := p.exists_head?
    obtain ⟨token', htoken', hsolid'⟩ := p.exists_getLast?
    rw [ParameterList.Written.extent, htokens] at hparameter
    rw [htokens] at hstands
    refine ⟨_, (TaggedText.standsAt_append.mp hstands).2, hparameter.trans ?_⟩
    rw [TaggedText.trim_standsAt hstands hblanks htoken hsolid htoken' hsolid']

/-- A role that neither parameters nor parentheses have is not found in a signature. -/
theorem role_ne_signature {r : Role} (hr : some r ∉ ParameterExpr.roles)
    (hopen : r ≠ .listOpen) (hclose : r ≠ .listClose) :
    ∀ x ∈ (signature first rest).tokens.toList, x.role ≠ some r := by
  have hheading : ∀ x ∈ heading, x.role ∈ ParameterExpr.roles := by decide
  have hbetween : ∀ p : ParameterExpr, ∀ x ∈ symbol "," .separator :: space :: p.tokens,
      x.role ∈ ParameterExpr.roles := fun p =>
    List.forall_mem_cons.mpr ⟨by decide, List.forall_mem_cons.mpr ⟨by decide, p.role_mem_tokens⟩⟩
  rw [tokens_signature]
  refine List.forall_mem_append.mpr ⟨fun x hx hrole => hr (hrole ▸ hheading x hx),
    List.forall_mem_cons.mpr ⟨?_, List.forall_mem_append.mpr ⟨List.forall_mem_append.mpr
      ⟨first.role_ne_tokens hr, fun x hx hrole => ?_⟩, ?_⟩⟩⟩
  · simpa [symbol] using hopen.symm
  · obtain ⟨p, -, hx⟩ := List.mem_flatMap.mp hx
    exact hr (hrole ▸ hbetween p x hx)
  · simpa [symbol] using hclose.symm

/-- A signature has nothing to trim. -/
theorem trim_signature : (signature first rest).trim (signature first rest).full =
    (signature first rest).full := by
  have hstands : (signature first rest).StandsAt 0 ([] ++ (signature first rest).tokens.toList) :=
    List.prefix_refl _
  have hfirst : (signature first rest).tokens.toList.head? =
      some { kind := .text, text := "void", role := some .typeName } := by
    rw [tokens_signature]
    rfl
  have hlast : (signature first rest).tokens.toList.getLast? = some (symbol ")" .listClose) := by
    rw [tokens_signature]
    simp [List.getLast?_append, List.getLast?_cons]
  have htrim := TaggedText.trim_standsAt hstands (by simp) hfirst rfl hlast rfl
  simpa [TaggedText.full, TaggedText.length] using htrim

/-- A signature is one section, with a list that presents its parameters. -/
theorem exists_mainList?_signature :
    ∃ l, (Declaration.ofText (signature first rest)).mainList? = some l ∧
      ParameterList.Presents (signature first rest) l (first :: rest) := by
  have hopening : symbol "(" .listOpen ∈ (signature first rest).tokens.toList := by
    rw [tokens_signature]
    exact List.mem_append_right _ List.mem_cons_self
  obtain ⟨hasName, hmain⟩ := Outline.mainSection_ofText true
    (fun x hx => ⟨role_ne_signature first rest (by decide) (by decide) (by decide) x hx,
      role_ne_signature first rest (by decide) (by decide) (by decide) x hx⟩)
    (trim_signature first rest) hopening rfl rfl
  refine ⟨_, ?_, presents_signature first rest hasName⟩
  exact congrArg Section.list? hmain

/-- **Signatures are read back.** A signature reads as it is printed, and its summary has one entry
for each parameter, in order, with the texts the parameter was made of. -/
theorem parameters_summary_signature :
    (signature first rest).text =
      "void Run(" ++ first.print ++ String.join (rest.map fun p => ", " ++ p.print) ++ ")" ∧
    (Summary.ofDeclaration (.ofText (signature first rest))).parameters =
      (first :: rest).mapIdx fun j p => p.summary ((first :: rest).take j) := by
  refine ⟨text_signature first rest, ?_⟩
  obtain ⟨l, hl, hpresents⟩ := exists_mainList?_signature first rest
  exact hpresents.parameters_ofDeclaration hl
    (Declaration.wellPlaced_ofText (signature first rest) true .standard).contained

/-- `void Run(Map<é, L> a, b = 0)`, where `b` has the type of `a`. -/
example :
    let word (text : String) (h : text ≠ "" ∧ ∀ c ∈ text.toList, IsWordChar c) : Word :=
      ⟨text, h.1, h.2⟩
    let args : TypeArgs := .cons (.word (word "é" (by simp [IsWordChar])))
      (.last (.word (word "L" (by simp [IsWordChar]))))
    let map : TypeExpr := .applied (word "Map" (by simp [IsWordChar])) args
    let a : ParameterExpr := ⟨some map, word "a" (by simp [IsWordChar]), none⟩
    let b : ParameterExpr :=
      ⟨none, word "b" (by simp [IsWordChar]), some (word "0" (by simp [IsWordChar]))⟩
    (Summary.ofDeclaration (.ofText (signature a [b]))).parameters =
      [{ text := "Map<é, L> a", name := some "a", baseType := some "Map",
         fullType := some "Map<é, L>" },
       { text := "b = 0", name := some "b", baseType := some "Map", fullType := some "Map<é, L>",
         typeIsImplied := true, default := some "0" }] := by
  decide

end Signature

end DeclOutline
