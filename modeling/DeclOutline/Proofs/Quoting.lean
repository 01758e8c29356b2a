import DeclOutline.Toml.Writer
import Mathlib.Data.List.TakeWhile

/-!
# TOML strings and keys are read back

A text is written in one of four forms, chosen by the characters it has. Whatever the choice,
reading gives the text back and stops where it ended. For the forms with escapes this holds of every
text; for the forms without, of the texts that they are chosen for.

Strings on several lines are the delicate ones, because quotes in the text are written as they stand
and the same quotes close the string. A reader that meets a quote looks at the quotes that follow
before it decides. So the statement that carries the induction does not say what is read after the
quotes that were written last, but what is read from these quotes on.

## Main definitions

* `ReadsChars`, `ReadsQuotes` — what the readers of one form have in common with those of another
* `StringForm.Holds` — what a form asks of a text

## Main results

* `basic_writeBasic`, `multiBasic_writeMultiBasic`, `literal_append`, `multiLiteral_append` — the
  four forms
* `StringForm.holds_ofText`, `StringForm.holds_ofKey` — the forms are chosen well
* `readString_writeIn` — strings are read back
* `readKeyPart_writeKey` — keys are read back
-/

namespace DeclOutline.Toml

variable {c d : Char} {cs r : List Char}

/-! ### Strings with escapes -/

/-- How a reader of strings with escapes reads a character, plain or escaped, outside of a hidden
line break. -/
structure ReadsChars (read : List Char → Option (List Char × List Char)) : Prop where
  plain : ∀ {c : Char} (r : List Char), isBasicChar c = true →
    read (c :: r) = (read r).map (consText c)
  short : ∀ {c d : Char} (r : List Char), shortEscape? c = some d →
    read ('\\' :: c :: r) = (read r).map (consText d)
  code : ∀ {a b c d x : Char} (r : List Char), codePoint? [a, b, c, d] = some x →
    read ('\\' :: 'u' :: a :: b :: c :: d :: r) = (read r).map (consText x)

theorem isBasicChar_iff :
    isBasicChar c = true ↔ (c = '\t' ∨ (0x20 ≤ c.toNat ∧ c.toNat ≠ 0x7F)) ∧ c ≠ '"' ∧ c ≠ '\\' := by
  simp [isBasicChar, isCommentChar, and_assoc]

theorem shortEscape?_eq_some (h : shortEscape? c = some d) :
    c = 'b' ∨ c = 't' ∨ c = 'n' ∨ c = 'f' ∨ c = 'r' ∨ c = '"' ∨ c = '\\' := by
  rw [shortEscape?] at h
  split_ifs at h <;> simp_all

theorem readsChars_basic : ReadsChars basic where
  plain := by
    intro c r h
    obtain ⟨-, hquote, hslash⟩ := isBasicChar_iff.mp h
    rw [basic.eq_def]
    split <;> simp_all
  short := by
    intro c d r h
    rcases shortEscape?_eq_some h with rfl | rfl | rfl | rfl | rfl | rfl | rfl <;> simp [basic, h]
  code := by
    intro a b c d x r h
    simp [basic, h]

theorem hidesNewline_of_shortEscape? (h : shortEscape? c = some d) (r : List Char) :
    hidesNewline (c :: r) = false := by
  rcases shortEscape?_eq_some h with rfl | rfl | rfl | rfl | rfl | rfl | rfl <;> rfl

theorem readsChars_multiBasic : ReadsChars (multiBasic false) where
  plain := by
    intro c r h
    obtain ⟨hcode, hquote, hslash⟩ := isBasicChar_iff.mp h
    have hcr : c ≠ '\r' := by
      rintro rfl
      simp at hcode
    have hlf : c ≠ '\n' := by
      rintro rfl
      simp at hcode
    rw [multiBasic.eq_def]
    split <;> simp_all
  short := by
    intro c d r h
    have hhides := hidesNewline_of_shortEscape? h r
    rcases shortEscape?_eq_some h with rfl | rfl | rfl | rfl | rfl | rfl | rfl <;>
      simp [multiBasic, h, hhides]
  code := by
    intro a b c d x r h
    simp [multiBasic, h]

theorem hexValue?_upperDigit {n : Nat} (h : n < 16) : Text.hexValue? (upperDigit n) = some n := by
  have hall : ∀ n < 16, Text.hexValue? (upperDigit n) = some n := by decide
  exact hall n h

theorem codePoint?_upperDigit (h : c.toNat < 0x80) :
    codePoint? ['0', '0', upperDigit (c.toNat / 16), upperDigit (c.toNat % 16)] = some c := by
  have hzero : Text.hexValue? '0' = some 0 := by decide
  have hhigh := hexValue?_upperDigit (n := c.toNat / 16) (by omega)
  have hlow := hexValue?_upperDigit (n := c.toNat % 16) (by omega)
  have hvalid : c.toNat.isValidChar := c.valid
  simp [codePoint?, hexNumber?, hzero, hhigh, hlow, Nat.div_add_mod, hvalid, Char.ofNat_toNat]

/-- Whichever way a character is written, it is read back. -/
theorem ReadsChars.escapeChar {read : List Char → Option (List Char × List Char)}
    (hread : ReadsChars read) (hquote : c ≠ '"') (hnewline : c ≠ '\n') (r : List Char) :
    read (escapeChar c ++ r) = (read r).map (consText c) := by
  rw [Toml.escapeChar]
  split_ifs with h₁ h₂ h₃ h₄ hslash hcode
  · rw [h₁]; exact hread.short r rfl
  · rw [h₂]; exact hread.short r rfl
  · rw [h₃]; exact hread.short r rfl
  · rw [h₄]; exact hread.short r rfl
  · rw [hslash]; exact hread.short r rfl
  · refine hread.code r (codePoint?_upperDigit ?_)
    simp [needsEscape] at hcode
    omega
  · refine hread.plain r (isBasicChar_iff.mpr ⟨.inr ?_, hquote, hslash⟩)
    simp [needsEscape] at hcode
    grind

theorem basic_writeBasic (cs r : List Char) : basic (writeBasic cs ++ '"' :: r) = some (cs, r) := by
  induction cs with
  | nil => rfl
  | cons c cs ih =>
    rw [writeBasic, List.flatMap_cons, List.append_assoc, ← writeBasic]
    split_ifs with hquote hnewline
    · have hread := readsChars_basic.short (writeBasic cs ++ '"' :: r) (c := '"') rfl
      rw [ih] at hread
      rw [hquote]
      exact hread
    · have hread := readsChars_basic.short (writeBasic cs ++ '"' :: r) (c := 'n') rfl
      rw [ih] at hread
      rw [hnewline]
      exact hread
    · rw [readsChars_basic.escapeChar hquote hnewline, ih]
      rfl

/-! ### Quotes in strings of several lines -/

/-- Puts text in front of the text that has been read. -/
def prependText (ds : List Char) (read : List Char × List Char) : List Char × List Char :=
  (ds ++ read.1, read.2)

/-- How a reader of strings on several lines reads the quotes that delimit them: up to two are text,
before anything else and before the closing delimiter. -/
structure ReadsQuotes (q : Char) (read : List Char → Option (List Char × List Char)) : Prop where
  text : ∀ {n : Nat} {r : List Char}, n ≤ 2 → r.head? ≠ some q →
    read (List.replicate n q ++ r) = (read r).map (prependText (List.replicate n q))
  close : ∀ {n : Nat} {r : List Char}, n ≤ 2 → r.head? ≠ some q →
    read (List.replicate n q ++ q :: q :: q :: r) = some (List.replicate n q, r)

theorem readsQuotes_multiBasic : ReadsQuotes '"' (multiBasic false) where
  text := by
    intro n r hn h
    have hone : multiBasic false ('"' :: r) = (multiBasic false r).map (consText '"') := by
      cases r <;> simp_all [multiBasic]
    match n, hn with
    | 0, _ => exact Option.map_id_apply.symm
    | 1, _ => exact hone
    | 2, _ =>
      have htwo : multiBasic false ('"' :: '"' :: r) =
          (multiBasic false ('"' :: r)).map (consText '"') := by
        cases r <;> simp_all [multiBasic]
      rw [hone, Option.map_map] at htwo
      exact htwo
  close := by
    intro n r hn h
    match n, hn with
    | 0, _ => cases r <;> simp_all [multiBasic]
    | 1, _ => cases r <;> simp_all [multiBasic]
    | 2, _ => rfl

theorem readsQuotes_multiLiteral : ReadsQuotes '\'' multiLiteral where
  text := by
    intro n r hn h
    have hone : multiLiteral ('\'' :: r) = (multiLiteral r).map (consText '\'') := by
      cases r <;> simp_all [multiLiteral]
    match n, hn with
    | 0, _ => exact Option.map_id_apply.symm
    | 1, _ => exact hone
    | 2, _ =>
      have htwo : multiLiteral ('\'' :: '\'' :: r) =
          (multiLiteral ('\'' :: r)).map (consText '\'') := by
        cases r <;> simp_all [multiLiteral]
      rw [hone, Option.map_map] at htwo
      exact htwo
  close := by
    intro n r hn h
    match n, hn with
    | 0, _ => cases r <;> simp_all [multiLiteral]
    | 1, _ => cases r <;> simp_all [multiLiteral]
    | 2, _ => rfl

theorem multiBasic_newline (r : List Char) :
    multiBasic false ('\n' :: r) = (multiBasic false r).map (consText '\n') := by
  simp [multiBasic]

/-- Whichever way a character other than a quote is written on several lines, it is read back. -/
theorem multiBasic_escapeChar (hquote : c ≠ '"') (r : List Char) :
    multiBasic false (escapeChar c ++ r) = (multiBasic false r).map (consText c) := by
  by_cases hnewline : c = '\n'
  · rw [hnewline]
    exact multiBasic_newline r
  · exact readsChars_multiBasic.escapeChar hquote hnewline r

theorem head?_escapeChar_ne (hc : c ≠ '"') (r : List Char) :
    (escapeChar c ++ r).head? ≠ some '"' := by
  rw [escapeChar]
  split_ifs <;> simp_all

/-- A text with escapes on several lines is read back. The quotes that were written last are still
to be read, for what follows them decides whether they are text. -/
theorem multiBasic_writeMultiBasic {n : Nat} (hn : n ≤ 2) (h : r.head? ≠ some '"')
    (cs : List Char) :
    multiBasic false (List.replicate n '"' ++ (writeMultiBasic n cs ++ '"' :: '"' :: '"' :: r)) =
      some (List.replicate n '"' ++ cs, r) := by
  induction cs generalizing n with
  | nil =>
    rw [List.append_nil]
    exact readsQuotes_multiBasic.close hn h
  | cons c cs ih =>
    have hrest : multiBasic false (writeMultiBasic 0 cs ++ '"' :: '"' :: '"' :: r) = some (cs, r) :=
      ih (Nat.zero_le 2)
    rw [writeMultiBasic]
    split_ifs with hquote hthird
    · -- a third quote is escaped, and nothing is pending after it
      have hread := readsChars_multiBasic.short (c := '"')
        (writeMultiBasic 0 cs ++ '"' :: '"' :: '"' :: r) rfl
      rw [List.cons_append, List.cons_append, readsQuotes_multiBasic.text hn (by simp), hread,
        hrest, hquote]
      rfl
    · have hpending := ih (n := n + 1) (by omega)
      rw [List.replicate_succ', List.append_assoc, List.append_assoc] at hpending
      rw [hquote]
      exact hpending
    · rw [List.append_assoc, readsQuotes_multiBasic.text hn (head?_escapeChar_ne hquote _),
        multiBasic_escapeChar hquote, hrest]
      rfl

/-! ### Strings without escapes -/

theorem literal_append (h : ∀ c ∈ cs, isLiteralChar c = true) (r : List Char) :
    literal (cs ++ '\'' :: r) = some (cs, r) := by
  have hquote : isLiteralChar '\'' = false := by decide
  have htake : (cs ++ '\'' :: r).takeWhile isLiteralChar = cs := by
    rw [List.takeWhile_append_of_pos h, List.takeWhile_cons_of_neg (by simp [hquote]),
      List.append_nil]
  have hdrop : (cs ++ '\'' :: r).dropWhile isLiteralChar = '\'' :: r := by
    rw [List.dropWhile_append_of_pos h, List.dropWhile_cons_of_neg (by simp [hquote])]
  rw [literal, htake, hdrop]
  rfl

theorem isLiteralChar_iff :
    isLiteralChar c = true ↔ needsEscape c = false ∧ c ≠ '\n' ∧ c ≠ '\'' := by
  by_cases htab : c = '\t'
  · subst htab
    decide
  · by_cases hnewline : c = '\n'
    · subst hnewline
      decide
    · simp [isLiteralChar, isCommentChar, needsEscape, htab, hnewline]

theorem multiLiteral_char (hc : needsEscape c = false) (hquote : c ≠ '\'') (r : List Char) :
    multiLiteral (c :: r) = (multiLiteral r).map (consText c) := by
  by_cases hnewline : c = '\n'
  · simp [multiLiteral, hnewline]
  · have hchar : isLiteralChar c = true := isLiteralChar_iff.mpr ⟨hc, hnewline, hquote⟩
    have hcr : c ≠ '\r' := by
      rintro rfl
      simp [needsEscape] at hc
    simp [multiLiteral, hchar, hcr, hquote]

/-- A text without escapes on several lines is read back, if its runs of quotes are short. -/
theorem multiLiteral_append {n : Nat} (h : r.head? ≠ some '\'')
    (hchars : ∀ c ∈ cs, needsEscape c = false) (hrun : longestRunFrom '\'' n cs ≤ 2) :
    multiLiteral (List.replicate n '\'' ++ (cs ++ '\'' :: '\'' :: '\'' :: r)) =
      some (List.replicate n '\'' ++ cs, r) := by
  induction cs generalizing n with
  | nil =>
    rw [List.append_nil]
    exact readsQuotes_multiLiteral.close hrun h
  | cons c cs ih =>
    obtain ⟨hc, hcs⟩ := List.forall_mem_cons.mp hchars
    rw [longestRunFrom] at hrun
    split_ifs at hrun with hquote
    · have hpending := ih hcs hrun
      rw [List.replicate_succ', List.append_assoc, List.append_assoc] at hpending
      rw [hquote]
      exact hpending
    · obtain ⟨hn, hrest⟩ := Nat.max_le.mp hrun
      have hread : multiLiteral (cs ++ '\'' :: '\'' :: '\'' :: r) = some (cs, r) := ih hcs hrest
      rw [List.cons_append, readsQuotes_multiLiteral.text hn (by simpa using hquote),
        multiLiteral_char hc hquote, hread]
      rfl

/-! ### Values -/

/-- The line feed that may follow an opening delimiter is no part of the text, and no other is lost
in its place. -/
theorem skipNewline_leadingNewline {body : List Char}
    (h : '\n' ∉ cs → ∀ c ∈ body.head?, c ≠ '\n' ∧ c ≠ '\r') :
    skipNewline (leadingNewline cs ++ body) = body := by
  by_cases hnewline : '\n' ∈ cs
  · have hleading : leadingNewline cs = ['\n'] := by simp [leadingNewline, hnewline]
    rw [hleading]
    rfl
  · have hleading : leadingNewline cs = [] := by simp [leadingNewline, hnewline]
    have hbody := h hnewline
    rw [hleading, List.nil_append]
    cases body <;> simp_all [skipNewline, afterNewline?]

theorem head?_escapeChar (hnewline : c ≠ '\n') (r : List Char) :
    ∀ d ∈ (escapeChar c ++ r).head?, d ≠ '\n' ∧ d ≠ '\r' := by
  rw [escapeChar]
  split_ifs <;> simp_all

theorem head?_writeMultiBasic (hnewline : '\n' ∉ cs) (r : List Char) :
    ∀ c ∈ (writeMultiBasic 0 cs ++ '"' :: r).head?, c ≠ '\n' ∧ c ≠ '\r' := by
  cases cs with
  | nil => simp [writeMultiBasic]
  | cons c cs =>
    rw [writeMultiBasic]
    split_ifs with hquote hthird
    · simp
    · simp
    · rw [List.append_assoc]
      exact head?_escapeChar (fun hc => hnewline (hc ▸ List.mem_cons_self)) _

theorem head?_writeBasic_ne (c : Char) (cs r : List Char) :
    (writeBasic (c :: cs) ++ r).head? ≠ some '"' := by
  rw [writeBasic, List.flatMap_cons, List.append_assoc]
  split_ifs with hquote hnewline
  · simp
  · simp
  · exact head?_escapeChar_ne hquote _

namespace StringForm

/-- What a form asks of a text. With escapes it asks nothing. -/
def Holds : StringForm → List Char → Prop
  | basic, _ | multiBasic, _ => True
  | literal, cs => ∀ c ∈ cs, isLiteralChar c = true
  | multiLiteral, cs => (∀ c ∈ cs, needsEscape c = false) ∧ longestRun '\'' cs ≤ 2

theorem le_longestRunFrom (q : Char) (n : Nat) (cs : List Char) : n ≤ longestRunFrom q n cs := by
  induction cs generalizing n with
  | nil => exact Nat.le_refl n
  | cons c cs ih =>
    rw [longestRunFrom]
    split_ifs
    · exact Nat.le_of_succ_le (ih (n + 1))
    · exact Nat.le_max_left n _

theorem notMem_of_longestRun {q : Char} (h : longestRun q cs = 0) : q ∉ cs := by
  induction cs with
  | nil => exact List.not_mem_nil
  | cons c cs ih =>
    rw [longestRun, longestRunFrom] at h
    split_ifs at h with hc
    · have hpos := le_longestRunFrom q (0 + 1) cs
      omega
    · rw [Nat.zero_max] at h
      rw [List.mem_cons, not_or]
      exact ⟨Ne.symm hc, ih h⟩

/-- A text is written in a form that can hold it. -/
theorem holds_ofText (cs : List Char) : (ofText cs).Holds cs := by
  rw [ofText]
  split_ifs with hbasic hliteral hmulti hmultiLiteral hnewline
  · trivial
  · simp only [Bool.and_eq_true, Bool.not_eq_true', List.any_eq_false, beq_iff_eq,
      List.contains_eq_mem, decide_eq_false_iff_not, Bool.not_eq_true] at hliteral
    obtain ⟨⟨hcodes, hquotes⟩, hnewline⟩ := hliteral
    intro c hc
    refine isLiteralChar_iff.mpr ⟨hcodes c hc, ?_, ?_⟩
    · rintro rfl
      exact hnewline hc
    · rintro rfl
      exact notMem_of_longestRun hquotes hc
  · trivial
  · simp only [Bool.and_eq_true, Bool.not_eq_true', List.any_eq_false, decide_eq_true_eq,
      Bool.not_eq_true] at hmultiLiteral
    exact hmultiLiteral
  · trivial
  · trivial

/-- So is a key, and on one line. -/
theorem holds_ofKey (cs : List Char) :
    (ofKey cs).Holds cs ∧ (ofKey cs = basic ∨ ofKey cs = literal) := by
  rw [ofKey]
  split_ifs with hbasic hliteral
  · exact ⟨trivial, .inl rfl⟩
  · simp only [Bool.and_eq_true, Bool.not_eq_true', List.any_eq_false,
      List.contains_eq_mem, decide_eq_false_iff_not, Bool.not_eq_true] at hliteral
    obtain ⟨⟨hcodes, hnewline⟩, hquote⟩ := hliteral
    refine ⟨fun c hc => isLiteralChar_iff.mpr ⟨hcodes c hc, ?_, ?_⟩, .inr rfl⟩
    · rintro rfl
      exact hnewline hc
    · rintro rfl
      exact hquote hc
  · exact ⟨trivial, .inl rfl⟩

end StringForm

/-- **Strings are read back**, in whichever form they are written. -/
theorem readString_writeIn {form : StringForm} (hform : form.Holds cs)
    (hdouble : r.head? ≠ some '"') (hsingle : r.head? ≠ some '\'') :
    readString (writeIn form cs ++ r) = some (String.ofList cs, r) := by
  cases form with
  | basic =>
    have hread := basic_writeBasic cs r
    have hshape : writeIn .basic cs ++ r = '"' :: (writeBasic cs ++ '"' :: r) := by simp [writeIn]
    rw [hshape]
    cases cs with
    | nil => cases r <;> simp_all [readString, writeBasic, readString.ofChars]
    | cons c cs =>
      have hhead := head?_writeBasic_ne c cs ('"' :: r)
      generalize writeBasic (c :: cs) ++ '"' :: r = body at hread hhead
      cases body <;> simp_all [readString, readString.ofChars]
  | literal =>
    have hread := literal_append hform r
    have hshape : writeIn .literal cs ++ r = '\'' :: (cs ++ '\'' :: r) := by simp [writeIn]
    rw [hshape]
    cases cs with
    | nil => cases r <;> simp_all [readString, readString.ofChars]
    | cons c cs =>
      have hhead : c ≠ '\'' := (isLiteralChar_iff.mp (hform c List.mem_cons_self)).2.2
      simp_all [readString, readString.ofChars]
  | multiBasic =>
    have hread := multiBasic_writeMultiBasic (Nat.zero_le 2) hdouble cs
    have hshape : writeIn .multiBasic cs ++ r = '"' :: '"' :: '"' ::
        (leadingNewline cs ++ (writeMultiBasic 0 cs ++ '"' :: '"' :: '"' :: r)) := by simp [writeIn]
    rw [hshape, readString,
      skipNewline_leadingNewline fun hnewline => head?_writeMultiBasic hnewline _]
    simp only [List.replicate_zero, List.nil_append] at hread
    rw [hread]
    rfl
  | multiLiteral =>
    have hread := multiLiteral_append (n := 0) hsingle hform.1 hform.2
    have hshape : writeIn .multiLiteral cs ++ r = '\'' :: '\'' :: '\'' ::
        (leadingNewline cs ++ (cs ++ '\'' :: '\'' :: '\'' :: r)) := by simp [writeIn]
    rw [hshape, readString, skipNewline_leadingNewline]
    · simp only [List.replicate_zero, List.nil_append] at hread
      rw [hread]
      rfl
    · intro hnewline c hc
      cases cs with
      | nil =>
        obtain rfl := Option.some.inj hc
        decide
      | cons d cs =>
        obtain rfl := Option.some.inj hc
        refine ⟨fun hc => hnewline (hc ▸ List.mem_cons_self), ?_⟩
        rintro rfl
        exact absurd (hform.1 '\r' List.mem_cons_self) (by decide)

/-! ### Keys -/

theorem readKeyPart_bare (hc : isBareChar c = true) (r : List Char) :
    readKeyPart (c :: r) =
      some (String.ofList ((c :: r).takeWhile isBareChar), (c :: r).dropWhile isBareChar) := by
  have hdouble : c ≠ '"' := by
    rintro rfl
    exact absurd hc (by decide)
  have hsingle : c ≠ '\'' := by
    rintro rfl
    exact absurd hc (by decide)
  simp [readKeyPart, hdouble, hsingle, hc]

/-- **Keys are read back**, with quotes or without. -/
theorem readKeyPart_writeKey (s : String) (hr : ∀ c ∈ r.head?, isBareChar c = false) :
    readKeyPart (writeKey s ++ r) = some (s, r) := by
  rw [writeKey]
  split_ifs with hbare
  · simp only [Bool.and_eq_true, Bool.not_eq_true', List.all_eq_true] at hbare
    obtain ⟨hne, hall⟩ := hbare
    have htake : (s.toList ++ r).takeWhile isBareChar = s.toList := by
      rw [List.takeWhile_append_of_pos hall]
      cases r <;> simp_all
    have hdrop : (s.toList ++ r).dropWhile isBareChar = r := by
      rw [List.dropWhile_append_of_pos hall]
      cases r <;> simp_all
    obtain ⟨c, cs, hcs⟩ : ∃ c cs, s.toList = c :: cs :=
      List.exists_cons_of_ne_nil (by simpa using hne)
    have hc : isBareChar c = true := hall c (hcs ▸ List.mem_cons_self)
    rw [hcs, List.cons_append, readKeyPart_bare hc, ← List.cons_append, ← hcs, htake, hdrop,
      String.ofList_toList]
  · obtain ⟨hholds, hform⟩ := StringForm.holds_ofKey s.toList
    rcases hform with hform | hform
    · rw [hform]
      have hshape : writeIn .basic s.toList ++ r = '"' :: (writeBasic s.toList ++ '"' :: r) := by
        simp [writeIn]
      rw [hshape, readKeyPart, basic_writeBasic]
      simp
    · rw [hform] at hholds ⊢
      have hshape : writeIn .literal s.toList ++ r = '\'' :: (s.toList ++ '\'' :: r) := by
        simp [writeIn]
      rw [hshape, readKeyPart, literal_append hholds]
      simp

end DeclOutline.Toml
