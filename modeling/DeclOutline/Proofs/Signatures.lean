import DeclOutline.Proofs.Lexing
import DeclOutline.Proofs.Readings
import DeclOutline.TaggedText.Builder

/-!
# Signatures of generic parameters

A grammar of declarations `void Run(p1, p2, …)`, whose parameters have types such as
`Map<string, List<int>>`, nested to any depth. A signature is printed as a text, and it is written
as a tagged text with the functions that texts are usually built with. Here the tokens are found
that it is written with. They close the groups they open, so the parameters of a signature are
the entries of a written list.

Tokens of types are followed one at a time by the depth of groups they lead to: `Nests` has one
case for each kind of token. What holds of all types is then proved by going along their tokens.

## Main definitions

* `Word`, `TypeExpr`, `ParameterExpr` — words, types and parameters
* `ParameterExpr.print`, `ParameterExpr.write` — a parameter in plain text, and appended to a text
* `signature` — a declaration with parameters
* `Nests` — tokens of types, which lead from one depth of groups to another

## Main results

* `TypeExpr.nests` — a type leads back to the depth it begins at
* `text_signature` — a signature reads as it is printed
* `signature_eq_text` — its parameters are entries of a written list
-/

namespace DeclOutline

open ParameterList (space)

/-! ### Words and symbols -/

/-- A word: characters that make up one token. -/
structure Word where
  text : String
  ne_empty : text ≠ ""
  isWordChar : ∀ c ∈ text.toList, IsWordChar c

/-- A symbol with a role. -/
def symbol (text : String) (role : Role) : Token :=
  { kind := .symbol, text, role := some role }

namespace Word

/-- A word as a token with a role. -/
def token (w : Word) (role : Role) : Token :=
  { kind := .text, text := w.text, role := some role }

theorem tokensOf_text (w : Word) :
    TaggedText.tokensOf w.text = [{ kind := .text, text := w.text }] := by
  have hcutting : Cutting w.text.toList [⟨.text, w.text.toList⟩] := by
    refine ⟨fun l hl => ?_, List.isChain_singleton _, by simp⟩
    rw [List.mem_singleton.mp hl]
    exact ⟨fun hnil => w.ne_empty (String.toList_eq_nil_iff.mp hnil), w.isWordChar⟩
  rw [TaggedText.tokensOf, ← hcutting.eq_lexemes]
  simp [Token.ofLexeme]

theorem tokens_tagged (w : Word) (t : TaggedText) (role : Role) :
    (t.tagged w.text role).tokens.toList = t.tokens.toList ++ [w.token role] := by
  rw [TaggedText.tagged, TaggedText.push, w.tokensOf_text, Array.toList_append]
  rfl

end Word

theorem tokens_tagged_symbol (t : TaggedText) {text : String} (role : Role)
    (h : TaggedText.tokensOf text = [{ kind := .symbol, text }]) :
    (t.tagged text role).tokens.toList = t.tokens.toList ++ [symbol text role] := by
  rw [TaggedText.tagged, TaggedText.push, h, Array.toList_append]
  rfl

theorem tokens_space (t : TaggedText) : t.space.tokens.toList = t.tokens.toList ++ [space] :=
  Array.toList_append

theorem comma_space (text : String) : "," ++ (" " ++ text) = ", " ++ text := by
  rw [← String.append_assoc]
  rfl

/-! ### Types -/

mutual

/-- A type: a word, alone or with arguments. -/
inductive TypeExpr where
  | word (w : Word)
  | applied (w : Word) (args : TypeArgs)

/-- The arguments of a type, at least one. -/
inductive TypeArgs where
  | last (type : TypeExpr)
  | cons (type : TypeExpr) (args : TypeArgs)

end

/-- The outermost word of a type. -/
def TypeExpr.head : TypeExpr → Word
  | word w => w
  | applied w _ => w

mutual

/-- A type in plain text, as `Map<string, int>`. -/
def TypeExpr.print : TypeExpr → String
  | .word w => w.text
  | .applied w args => w.text ++ "<" ++ args.print ++ ">"

/-- Arguments in plain text. -/
def TypeArgs.print : TypeArgs → String
  | .last type => type.print
  | .cons type args => type.print ++ ", " ++ args.print

end

mutual

/-- Appends a type. -/
def TypeExpr.write (t : TaggedText) : TypeExpr → TaggedText
  | .word w => t.typeName w.text
  | .applied w args =>
    (args.write ((t.typeName w.text).tagged "<" .typeGroupOpen)).tagged ">" .typeGroupClose

/-- Appends arguments. -/
def TypeArgs.write (t : TaggedText) : TypeArgs → TaggedText
  | .last type => type.write t
  | .cons type args => args.write (type.write t).separator.space

end

mutual

/-- The tokens of a type. -/
def TypeExpr.tokens : TypeExpr → List Token
  | .word w => [w.token .typeName]
  | .applied w args =>
    w.token .typeName :: symbol "<" .typeGroupOpen :: (args.tokens ++ [symbol ">" .typeGroupClose])

/-- The tokens of arguments. -/
def TypeArgs.tokens : TypeArgs → List Token
  | .last type => type.tokens
  | .cons type args => type.tokens ++ symbol "," .separator :: space :: args.tokens

end

mutual

theorem TypeExpr.tokens_write : ∀ (type : TypeExpr) (t : TaggedText),
    (type.write t).tokens.toList = t.tokens.toList ++ type.tokens
  | .word w, t => w.tokens_tagged t .typeName
  | .applied w args, t => by
    rw [TypeExpr.write, tokens_tagged_symbol _ _ rfl, args.tokens_write,
      tokens_tagged_symbol _ _ rfl, TaggedText.typeName, w.tokens_tagged, TypeExpr.tokens]
    simp

theorem TypeArgs.tokens_write : ∀ (args : TypeArgs) (t : TaggedText),
    (args.write t).tokens.toList = t.tokens.toList ++ args.tokens
  | .last type, t => type.tokens_write t
  | .cons type args, t => by
    rw [TypeArgs.write, args.tokens_write, tokens_space, TaggedText.separator,
      tokens_tagged_symbol _ _ rfl, type.tokens_write, TypeArgs.tokens]
    simp

end

mutual

theorem TypeExpr.join_tokens : ∀ type : TypeExpr,
    String.join (type.tokens.map Token.text) = type.print
  | .word w => by simp [TypeExpr.tokens, TypeExpr.print, Word.token]
  | .applied w args => by
    simp [TypeExpr.tokens, TypeExpr.print, Word.token, symbol, args.join_tokens,
      String.join_append, String.append_assoc]

theorem TypeArgs.join_tokens : ∀ args : TypeArgs,
    String.join (args.tokens.map Token.text) = args.print
  | .last type => type.join_tokens
  | .cons type args => by
    simp only [TypeArgs.tokens, TypeArgs.print, symbol, space, List.map_append, List.map_cons,
      String.join_append, String.join_cons, type.join_tokens, args.join_tokens]
    rw [String.append_assoc, comma_space]

end

/-! ### Depth along a type -/

/-- One token of a type, by its role, and the depth of groups before and after it. -/
inductive TypeStep : Nat → Option Role → Nat → Prop
  | word (d : Nat) : TypeStep d (some .typeName) d
  | opens (d : Nat) : TypeStep d (some .typeGroupOpen) (d + 1)
  | closes (d : Nat) : TypeStep (d + 1) (some .typeGroupClose) d
  /-- Separators and blanks stand inside a group. -/
  | separates (d : Nat) : TypeStep (d + 1) (some .separator) (d + 1)
  | blank (d : Nat) : TypeStep (d + 1) none (d + 1)

namespace TypeStep

variable {d d' : Nat} {role : Option Role}

/-- The roles of tokens of types. -/
def roles : List (Option Role) :=
  [some .typeName, some .typeGroupOpen, some .typeGroupClose, some .separator, none]

theorem mem_roles (h : TypeStep d role d') : role ∈ roles := by
  cases h <;> decide

/-- Groups of types count in every nesting. -/
theorem after (h : TypeStep d role d') (n : Nesting) : n.after d role = d' := by
  cases h <;> cases n <;> rfl

theorem nest (h : TypeStep d role d') : Role.nest d role = d' := by
  rw [← Nesting.after_all, h.after]

theorem not_separator (h : TypeStep d role d') (hd : d = 0) :
    role ≠ some .separator ∧ role ≠ some .listClose := by
  cases h <;> simp at hd ⊢

/-- A type takes the token, and its group. -/
theorem takes (h : TypeStep d role d') (own : Bool) :
    ParameterList.Groups.takes ⟨d, 0⟩ own (Nesting.all.level d role) role = true ∧
      ParameterList.Groups.after ⟨d, 0⟩ own (Nesting.all.level d role) role = ⟨d', 0⟩ := by
  cases h with
  | word => cases d <;> exact ⟨rfl, rfl⟩
  | opens => cases d <;> exact ⟨rfl, rfl⟩
  | closes => exact ⟨rfl, rfl⟩
  | separates => exact ⟨rfl, rfl⟩
  | blank => exact ⟨rfl, rfl⟩

end TypeStep

/-- Tokens of types, which lead from one depth of groups to another. -/
inductive Nests : Nat → List Token → Nat → Prop
  | nil (d : Nat) : Nests d [] d
  | cons {d d₁ d' : Nat} {token : Token} {ts : List Token} : TypeStep d token.role d₁ →
      Nests d₁ ts d' → Nests d (token :: ts) d'

theorem Nests.append {d d₁ d' : Nat} {ts us : List Token} (h : Nests d ts d₁)
    (hus : Nests d₁ us d') : Nests d (ts ++ us) d' := by
  induction h with
  | nil => exact hus
  | cons hstep _ ih => exact .cons hstep (ih hus)

mutual

/-- A type leads back to the depth it begins at. -/
theorem TypeExpr.nests : ∀ (type : TypeExpr) (d : Nat), Nests d type.tokens d
  | .word _, d => .cons (.word d) (.nil d)
  | .applied _ args, d =>
    .cons (.word d) (.cons (.opens d) ((args.nests d).append (.cons (.closes d) (.nil d))))

/-- So do arguments, which stand inside a group. -/
theorem TypeArgs.nests : ∀ (args : TypeArgs) (d : Nat), Nests (d + 1) args.tokens (d + 1)
  | .last type, d => type.nests (d + 1)
  | .cons type args, d =>
    (type.nests (d + 1)).append (.cons (.separates d) (.cons (.blank d) (args.nests d)))

end

namespace Nests

variable {d d' i : Nat} {t : TaggedText} {ts : List Token}

theorem role_mem (h : Nests d ts d') : ∀ x ∈ ts, x.role ∈ TypeStep.roles := by
  induction h with
  | nil => simp
  | cons hstep _ ih => exact List.forall_mem_cons.mpr ⟨hstep.mem_roles, ih⟩

theorem afterAll (h : Nests d ts d') (n : Nesting) : n.afterAll d ts = d' := by
  induction h with
  | nil => rfl
  | cons hstep _ ih =>
    rw [Nesting.afterAll, List.foldl_cons, hstep.after n]
    exact ih

theorem isClosedFrom (h : Nests d ts d') {rest : List Token}
    (hrest : ParameterList.IsClosedFrom d' rest) :
    ParameterList.IsClosedFrom d (ts ++ rest) := by
  induction h with
  | nil => exact hrest
  | cons hstep _ ih =>
    refine ⟨hstep.not_separator, ?_⟩
    rw [hstep.nest]
    exact ih hrest

/-- A type takes all of its tokens. -/
theorem typeIndicesFrom (h : Nests d ts d') (hstands : t.StandsAt i ts) (own : Bool)
    (more : List (Nat × Nat)) :
    ParameterList.typeIndicesFrom t own ⟨d, 0⟩
        (Nesting.all.walkFrom t d (Extent.mk i (i + ts.length)).indices ++ more) =
      (Extent.mk i (i + ts.length)).indices ++
        ParameterList.typeIndicesFrom t own ⟨d', 0⟩ more := by
  induction h generalizing i with
  | nil =>
    rw [TaggedText.indices_nil]
    rfl
  | @cons d d₁ d' token ts hstep _ ih =>
    obtain ⟨htoken, hstands⟩ := TaggedText.standsAt_cons.mp hstands
    obtain ⟨htakes, hafter⟩ := hstep.takes own
    rw [TaggedText.indices_cons, Nesting.walkFrom, List.cons_append,
      ParameterList.typeIndicesFrom, TaggedText.role?_of_token? htoken, hstep.after]
    simp only [htakes, hafter, if_true]
    rw [ih hstands, List.cons_append]

end Nests

/-! ### Parameters -/

/-- A parameter: a type or none, a name, and a default value or none. -/
structure ParameterExpr where
  type : Option TypeExpr
  name : Word
  default : Option Word

namespace ParameterExpr

variable (p : ParameterExpr)

/-- What stands before the name, in plain text. -/
def typeText : String :=
  match p.type with
  | some type => type.print ++ " "
  | none => ""

/-- What stands behind the name, in plain text. -/
def defaultText : String :=
  match p.default with
  | some value => " = " ++ value.text
  | none => ""

/-- A parameter in plain text, as `List<int> xs = null`. -/
def print : String :=
  p.typeText ++ p.name.text ++ p.defaultText

/-- Appends what stands before the name. -/
def writeType (t : TaggedText) : TaggedText :=
  match p.type with
  | some type => (type.write t).space
  | none => t

/-- Appends what stands behind the name. -/
def writeDefault (t : TaggedText) : TaggedText :=
  match p.default with
  | some value => (t.space.tagged "=" .defaultMark).space.tagged value.text .defaultValue
  | none => t

/-- Appends a parameter. -/
def write (t : TaggedText) : TaggedText :=
  p.writeDefault ((p.writeType t).name p.name.text)

/-- The tokens up to the name. -/
def typeTokens : List Token :=
  match p.type with
  | some type => type.tokens ++ [space]
  | none => []

/-- The tokens behind the name. -/
def defaultTokens : List Token :=
  match p.default with
  | some value => [space, symbol "=" .defaultMark, space, value.token .defaultValue]
  | none => []

/-- The tokens of a parameter. -/
def tokens : List Token :=
  p.typeTokens ++ p.name.token .name :: p.defaultTokens

theorem tokens_write (t : TaggedText) :
    (p.write t).tokens.toList = t.tokens.toList ++ p.tokens := by
  have hnamed : ((p.writeType t).name p.name.text).tokens.toList =
      t.tokens.toList ++ (p.typeTokens ++ [p.name.token .name]) := by
    rw [TaggedText.name, p.name.tokens_tagged, writeType, typeTokens]
    cases p.type with
    | none => rfl
    | some type => simp [tokens_space, type.tokens_write]
  rw [write, writeDefault, tokens, defaultTokens]
  cases p.default with
  | none => simpa using hnamed
  | some value =>
    simp only
    rw [value.tokens_tagged, tokens_space, tokens_tagged_symbol _ _ rfl, tokens_space, hnamed]
    simp

theorem join_tokens : String.join (p.tokens.map Token.text) = p.print := by
  have htype : String.join (p.typeTokens.map Token.text) = p.typeText := by
    rw [typeTokens, typeText]
    cases p.type with
    | none => rfl
    | some type => simp [type.join_tokens, String.join_append, space]
  have hdefault : String.join (p.defaultTokens.map Token.text) = p.defaultText := by
    rw [defaultTokens, defaultText]
    cases p.default with
    | none => rfl
    | some value =>
      show String.join [" ", "=", " ", value.text] = " = " ++ value.text
      simp only [String.join_cons, String.join_nil, String.append_empty]
      rw [← String.append_assoc, ← String.append_assoc]
      rfl
  rw [tokens, List.map_append, List.map_cons, String.join_append, String.join_cons, htype, hdefault,
    print, String.append_assoc]
  rfl

/-! ### The tokens of a parameter -/

theorem afterAll_typeTokens (n : Nesting) : n.afterAll 0 p.typeTokens = 0 := by
  rw [typeTokens]
  cases p.type with
  | none => rfl
  | some type =>
    simp only
    rw [Nesting.afterAll_append, (type.nests 0).afterAll n]
    rfl

theorem role_mem_typeTokens : ∀ x ∈ p.typeTokens, x.role ∈ TypeStep.roles := by
  rw [typeTokens]
  cases p.type with
  | none => simp
  | some type =>
    refine List.forall_mem_append.mpr ⟨(type.nests 0).role_mem, ?_⟩
    decide

theorem isClosedFrom_tokens : ParameterList.IsClosedFrom 0 p.tokens := by
  have hdefault : ParameterList.IsClosedFrom 0 (p.name.token .name :: p.defaultTokens) := by
    rw [defaultTokens]
    cases p.default <;>
      simp [ParameterList.IsClosedFrom, Role.nest, Word.token, symbol, space]
  rw [tokens, typeTokens]
  cases p.type with
  | none => exact hdefault
  | some type =>
    rw [List.append_assoc]
    exact (type.nests 0).isClosedFrom ⟨by decide, hdefault⟩

end ParameterExpr

/-! ### Signatures -/

/-- A declaration `void Run(p1, p2, …)`. -/
def signature (first : ParameterExpr) (rest : List ParameterExpr) : TaggedText :=
  let opened := (((TaggedText.mk #[]).typeName "void").space.name "Run").openList
  (rest.foldl (fun t p => p.write t.separator.space) (first.write opened)).closeList

/-- The tokens before the list. -/
def heading : List Token :=
  [{ kind := .text, text := "void", role := some .typeName }, space,
   { kind := .text, text := "Run", role := some .name }]

/-- The list of a signature. -/
def signatureList (first : ParameterExpr) (rest : List ParameterExpr) : ParameterList.Written where
  before := heading
  opening := ⟨symbol "(" .listOpen, rfl⟩
  first := ⟨first.tokens, first.isClosedFrom_tokens⟩
  rest := rest.map fun p =>
    (⟨symbol "," .separator, rfl⟩, ⟨space :: p.tokens, by decide, p.isClosedFrom_tokens⟩)
  closing := ⟨symbol ")" .listClose, rfl⟩
  after := []
  unopened := by decide

variable (first : ParameterExpr) (rest : List ParameterExpr)

theorem tokens_foldl_write (t : TaggedText) :
    (rest.foldl (fun t p => p.write t.separator.space) t).tokens.toList =
      t.tokens.toList ++ rest.flatMap fun p => symbol "," .separator :: space :: p.tokens := by
  induction rest generalizing t with
  | nil => simp
  | cons p rest ih =>
    rw [List.foldl_cons, ih, p.tokens_write, tokens_space, TaggedText.separator,
      tokens_tagged_symbol _ _ rfl, List.flatMap_cons]
    simp

theorem tokens_signature :
    (signature first rest).tokens.toList =
      heading ++ symbol "(" .listOpen ::
        (first.tokens ++ (rest.flatMap fun p => symbol "," .separator :: space :: p.tokens) ++
          [symbol ")" .listClose]) := by
  have hopened :
      (((TaggedText.mk #[]).typeName "void").space.name "Run").openList.tokens.toList =
        heading ++ [symbol "(" .listOpen] := rfl
  rw [signature, TaggedText.closeList, tokens_tagged_symbol _ _ rfl, tokens_foldl_write,
    first.tokens_write, hopened]
  simp

/-- The parameters of a signature are entries of a written list. -/
theorem signature_eq_text : signature first rest = (signatureList first rest).text := by
  have htokens : (signature first rest).tokens = (signatureList first rest).text.tokens := by
    refine Array.toList_inj.mp ?_
    rw [tokens_signature]
    simp [ParameterList.Written.text, ParameterList.Written.body, ParameterList.bodyOf,
      signatureList, List.flatMap_map]
  exact congrArg TaggedText.mk htokens

/-- A signature reads as it is printed. -/
theorem text_signature :
    (signature first rest).text =
      "void Run(" ++ first.print ++ String.join (rest.map fun p => ", " ++ p.print) ++ ")" := by
  have hrest : String.join
      ((rest.flatMap fun p => symbol "," .separator :: space :: p.tokens).map Token.text) =
        String.join (rest.map fun p => ", " ++ p.print) := by
    induction rest with
    | nil => rfl
    | cons p rest ih =>
      have hp : String.join
          ((symbol "," .separator :: space :: p.tokens).map Token.text) = ", " ++ p.print := by
        rw [List.map_cons, List.map_cons, String.join_cons, String.join_cons, p.join_tokens]
        exact comma_space p.print
      rw [List.flatMap_cons, List.map_append, String.join_append, hp, ih, List.map_cons,
        String.join_cons]
  have hheading : ∀ text : String,
      String.join (heading.map Token.text) ++ ((symbol "(" .listOpen).text ++ text) =
        "void Run(" ++ text := by
    intro text
    rw [← String.append_assoc]
    rfl
  have hclosing : String.join ([symbol ")" .listClose].map Token.text) = ")" := rfl
  rw [TaggedText.text, tokens_signature, List.map_append, List.map_cons, List.map_append,
    List.map_append, String.join_append, String.join_cons, String.join_append, String.join_append,
    first.join_tokens, hrest, hheading, hclosing, String.append_assoc, String.append_assoc,
    String.append_assoc]

end DeclOutline
