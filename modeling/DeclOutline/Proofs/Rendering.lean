import DeclOutline.Summary.Json
import Mathlib.Data.List.Basic

/-!
# Rendered summaries lose nothing

The JSON text of a summary determines the summary. Strings are escaped so that the quote that ends
one is the first that stands bare; a number ends where its digits do; and the character after an
item or a member tells whether the array or the object goes on. So a written value can be told
apart from what stands after it, whatever that is, except that a number must not run into another
digit. No value is ever followed by one: what comes next is a comma, a new line or the end.

Nothing here depends on what a summary holds. Values are told apart as JSON, and summaries by the
members that their values have.

## Main results

* `Json.flatMap_escapeChar_inj` — where a string ends
* `Json.write_append_inj` — where a value ends, one case for each kind of value
* `Json.render_injective` — texts of values
* `Summary.render_eq_iff` — texts of summaries
-/

namespace DeclOutline

namespace Text

/-- Digits of either numeral are read as they are written. -/
theorem hexValue?_digitChar {n : Nat} (h : n < 16) : hexValue? (Nat.digitChar n) = some n := by
  have hall : ∀ n < 16, hexValue? (Nat.digitChar n) = some n := by decide
  exact hall n h

end Text

namespace Json

variable {depth : Nat} {c d : Char} {cs ds r s : List Char}

/-! ### Strings -/

/-- The character that a short escape stands for. -/
def shortEscape? (c : Char) : Option Char :=
  if c = '"' then some '"'
  else if c = '\\' then some '\\'
  else if c = 'b' then some '\x08'
  else if c = 'f' then some '\x0c'
  else if c = 'n' then some '\n'
  else if c = 'r' then some '\r'
  else if c = 't' then some '\t'
  else none

/-- Reads one character of a string, with what follows it. -/
def readChar : List Char → Option (Char × List Char)
  | '\\' :: 'u' :: '0' :: '0' :: a :: b :: rest => do
    let high ← Text.hexValue? a
    let low ← Text.hexValue? b
    some (Char.ofNat (16 * high + low), rest)
  | '\\' :: c :: rest => (shortEscape? c).map fun c => (c, rest)
  | c :: rest => some (c, rest)
  | [] => none

theorem readChar_of_ne (h : c ≠ '\\') (r : List Char) : readChar (c :: r) = some (c, r) := by
  rw [readChar.eq_def]
  split <;> simp_all

/-- An escaped character is read back. -/
theorem readChar_escapeChar (c : Char) (r : List Char) :
    readChar (escapeChar c ++ r) = some (c, r) := by
  rw [escapeChar]
  split_ifs with h₁ h₂ h₃ h₄ h₅ h₆ h₇ hcontrol
  · rw [h₁]; rfl
  · rw [h₂]; rfl
  · rw [h₃]; rfl
  · rw [h₄]; rfl
  · rw [h₅]; rfl
  · rw [h₆]; rfl
  · rw [h₇]; rfl
  · have hhigh := Text.hexValue?_digitChar (n := c.toNat / 16) (by omega)
    have hlow := Text.hexValue?_digitChar (n := c.toNat % 16) (by omega)
    have hchar : Char.ofNat (16 * (c.toNat / 16) + c.toNat % 16) = c := by
      rw [Nat.div_add_mod, Char.ofNat_toNat]
    show readChar ('\\' :: 'u' :: '0' :: '0' :: _ :: _ :: r) = _
    simp only [readChar, hhigh, hlow, Option.bind_eq_bind, Option.bind_some, hchar]
  · exact readChar_of_ne h₂ r

theorem head?_escapeChar_ne (c : Char) (r : List Char) : (escapeChar c ++ r).head? ≠ some '"' := by
  rw [escapeChar]
  split_ifs <;> simp_all

/-- Characters in front of a closing quote are told apart from what follows it. -/
theorem flatMap_escapeChar_inj
    (h : cs.flatMap escapeChar ++ '"' :: r = ds.flatMap escapeChar ++ '"' :: s) :
    cs = ds ∧ r = s := by
  induction cs generalizing ds with
  | nil =>
    cases ds with
    | nil => exact ⟨rfl, (List.cons.inj h).2⟩
    | cons d ds =>
      refine absurd (congrArg List.head? h).symm ?_
      rw [List.flatMap_cons, List.append_assoc]
      exact head?_escapeChar_ne d _
  | cons c cs ih =>
    cases ds with
    | nil =>
      refine absurd (congrArg List.head? h) ?_
      rw [List.flatMap_cons, List.append_assoc]
      exact head?_escapeChar_ne c _
    | cons d ds =>
      have hread := congrArg readChar h
      rw [List.flatMap_cons, List.flatMap_cons, List.append_assoc, List.append_assoc,
        readChar_escapeChar, readChar_escapeChar] at hread
      obtain ⟨rfl, hrest⟩ := Prod.mk.inj (Option.some.inj hread)
      obtain ⟨rfl, rfl⟩ := ih hrest
      exact ⟨rfl, rfl⟩

theorem writeString_append_inj {x y : String} (h : writeString x ++ r = writeString y ++ s) :
    x = y ∧ r = s := by
  simp only [writeString, List.cons_append, List.append_assoc, List.nil_append] at h
  obtain ⟨hchars, hrest⟩ := flatMap_escapeChar_inj (List.cons.inj h).2
  exact ⟨String.toList_inj.mp hchars, hrest⟩

/-! ### Numbers -/

/-- What follows a number must not begin with a digit. -/
def EndsNumber (r : List Char) : Prop :=
  ∀ c ∈ r.head?, c.isDigit = false

theorem endsNumber_nil : EndsNumber [] := by
  simp [EndsNumber]

theorem endsNumber_cons (h : c.isDigit = false) : EndsNumber (c :: r) := by
  simpa [EndsNumber] using h

theorem takeWhile_toDigits (n : Nat) (h : EndsNumber r) :
    (Nat.toDigits 10 n ++ r).takeWhile Char.isDigit = Nat.toDigits 10 n := by
  have hdigits : ∀ c ∈ Nat.toDigits 10 n, c.isDigit = true :=
    fun c hc => Nat.isDigit_of_mem_toDigits (by decide) (by decide) hc
  have hnil : r.takeWhile Char.isDigit = [] := by
    cases r with
    | nil => rfl
    | cons c r => exact List.takeWhile_cons_of_neg (by simpa using h c rfl)
  rw [List.takeWhile_append_of_pos hdigits, hnil, List.append_nil]

theorem toDigits_append_inj {m n : Nat} (hr : EndsNumber r) (hs : EndsNumber s)
    (h : Nat.toDigits 10 m ++ r = Nat.toDigits 10 n ++ s) : m = n ∧ r = s := by
  have hdigits : Nat.toDigits 10 m = Nat.toDigits 10 n := by
    rw [← takeWhile_toDigits m hr, h, takeWhile_toDigits n hs]
  rw [hdigits] at h
  refine ⟨?_, List.append_cancel_left h⟩
  rw [← Nat.ofDigitChars_toDigits (b := 10) (n := m) (by decide) (by decide), hdigits,
    Nat.ofDigitChars_toDigits (by decide) (by decide)]

/-! ### Values -/

/-- The character by which a kind of value is known. -/
def sign : Json → Char
  | null => 'n'
  | bool _ => 'f'
  | number _ => '0'
  | string _ => '"'
  | array _ => '['
  | object _ => '{'

/-- The character by which the kind of a value is known that a text begins with: all digits count
as one, and so do the first letters of the booleans. -/
def signOf? (cs : List Char) : Option Char :=
  cs.head?.map fun c => if c.isDigit then '0' else if c = 't' then 'f' else c

/-- A value begins as its kind does. -/
theorem signOf?_write (depth : Nat) (j : Json) (r : List Char) :
    signOf? (write depth j ++ r) = some j.sign := by
  match j with
  | null | bool true | bool false | string _ | array [] | array (_ :: _) | object [] => rfl
  | object ((_, _) :: _) => rfl
  | number n =>
    have hne : Nat.toDigits 10 n ≠ [] := Nat.toDigits_ne_nil
    obtain ⟨c, cs, hcs⟩ := List.exists_cons_of_ne_nil hne
    have hdigit : c.isDigit = true :=
      Nat.isDigit_of_mem_toDigits (by decide) (by decide) (hcs ▸ List.mem_cons_self)
    simp [write, hcs, signOf?, hdigit, sign]

theorem sign_eq_of_append_eq {j k : Json} (h : write depth j ++ r = write depth k ++ s) :
    j.sign = k.sign := by
  have hsign := congrArg signOf? h
  rw [signOf?_write, signOf?_write] at hsign
  exact Option.some.inj hsign

theorem endsNumber_writeItems (items : List Json) :
    EndsNumber (writeItems depth items ++ '\n' :: r) := by
  cases items with
  | nil => exact endsNumber_cons rfl
  | cons item items => exact endsNumber_cons rfl

theorem endsNumber_writeMembers (members : List (String × Json)) :
    EndsNumber (writeMembers depth members ++ '\n' :: r) := by
  cases members with
  | nil => exact endsNumber_cons rfl
  | cons member members => exact endsNumber_cons rfl

mutual

/-- A written value is told apart from what follows it. -/
theorem write_append_inj (depth : Nat) : ∀ (j k : Json) (r s : List Char),
    EndsNumber r → EndsNumber s → write depth j ++ r = write depth k ++ s → j = k ∧ r = s
  | null, k, r, s, _, _, h => by
    have hsign := sign_eq_of_append_eq h
    cases k with
    | null => exact ⟨rfl, List.append_cancel_left h⟩
    | bool _ | number _ | string _ | array _ | object _ => simp [sign] at hsign
  | bool b, k, r, s, _, _, h => by
    have hsign := sign_eq_of_append_eq h
    cases k with
    | bool b' =>
      match b, b' with
      | true, true | false, false => exact ⟨rfl, List.append_cancel_left h⟩
      | true, false | false, true => simp [write] at h
    | null | number _ | string _ | array _ | object _ => simp [sign] at hsign
  | number m, k, r, s, hr, hs, h => by
    have hsign := sign_eq_of_append_eq h
    cases k with
    | number n =>
      simp only [write] at h
      obtain ⟨rfl, rfl⟩ := toDigits_append_inj hr hs h
      exact ⟨rfl, rfl⟩
    | null | bool _ | string _ | array _ | object _ => simp [sign] at hsign
  | string x, k, r, s, _, _, h => by
    have hsign := sign_eq_of_append_eq h
    cases k with
    | string y =>
      simp only [write] at h
      obtain ⟨rfl, rfl⟩ := writeString_append_inj h
      exact ⟨rfl, rfl⟩
    | null | bool _ | number _ | array _ | object _ => simp [sign] at hsign
  | array xs, k, r, s, _, _, h => by
    have hsign := sign_eq_of_append_eq h
    cases k with
    | array ys =>
      match xs, ys with
      | [], [] => exact ⟨rfl, List.append_cancel_left h⟩
      | [], y :: ys => simp [write, newLine] at h
      | x :: xs, [] => simp [write, newLine] at h
      | x :: xs, y :: ys =>
        simp only [write, newLine, List.cons_append, List.append_assoc, List.cons.injEq, true_and,
          List.append_cancel_left_eq] at h
        obtain ⟨rfl, hitems⟩ := write_append_inj (depth + 1) x y _ _ (endsNumber_writeItems xs)
          (endsNumber_writeItems ys) h
        obtain ⟨rfl, hrest⟩ := writeItems_append_inj (depth + 1) xs ys _ _ hitems
        exact ⟨rfl, by simpa using hrest⟩
    | null | bool _ | number _ | string _ | object _ => simp [sign] at hsign
  | object ms, k, r, s, _, _, h => by
    have hsign := sign_eq_of_append_eq h
    cases k with
    | object ns =>
      match ms, ns with
      | [], [] => exact ⟨rfl, List.append_cancel_left h⟩
      | [], (_, _) :: _ => simp [write, newLine] at h
      | (_, _) :: _, [] => simp [write, newLine] at h
      | (key, v) :: ms, (key', w) :: ns =>
        simp only [write, newLine, List.cons_append, List.append_assoc, List.cons.injEq, true_and,
          List.append_cancel_left_eq] at h
        obtain ⟨rfl, hvalue⟩ := writeString_append_inj h
        simp only [List.cons.injEq, true_and, List.nil_append] at hvalue
        obtain ⟨rfl, hmembers⟩ := write_append_inj (depth + 1) v w _ _ (endsNumber_writeMembers ms)
          (endsNumber_writeMembers ns) hvalue
        obtain ⟨rfl, hrest⟩ := writeMembers_append_inj (depth + 1) ms ns _ _ hmembers
        exact ⟨rfl, by simpa using hrest⟩
    | null | bool _ | number _ | string _ | array _ => simp [sign] at hsign

/-- So are the items after the first one. -/
theorem writeItems_append_inj (depth : Nat) : ∀ (xs ys : List Json) (r s : List Char),
    writeItems depth xs ++ '\n' :: r = writeItems depth ys ++ '\n' :: s → xs = ys ∧ r = s
  | [], [], r, s, h => ⟨rfl, (List.cons.inj h).2⟩
  | [], y :: ys, r, s, h => by simp [writeItems] at h
  | x :: xs, [], r, s, h => by simp [writeItems] at h
  | x :: xs, y :: ys, r, s, h => by
    simp only [writeItems, List.cons_append, List.append_assoc, List.cons.injEq, true_and,
      List.append_cancel_left_eq] at h
    obtain ⟨rfl, hitems⟩ := write_append_inj depth x y _ _ (endsNumber_writeItems xs)
      (endsNumber_writeItems ys) h
    obtain ⟨rfl, hrest⟩ := writeItems_append_inj depth xs ys _ _ hitems
    exact ⟨rfl, hrest⟩

/-- So are the members after the first one. -/
theorem writeMembers_append_inj (depth : Nat) : ∀ (ms ns : List (String × Json)) (r s : List Char),
    writeMembers depth ms ++ '\n' :: r = writeMembers depth ns ++ '\n' :: s → ms = ns ∧ r = s
  | [], [], r, s, h => ⟨rfl, (List.cons.inj h).2⟩
  | [], (_, _) :: _, r, s, h => by simp [writeMembers] at h
  | (_, _) :: _, [], r, s, h => by simp [writeMembers] at h
  | (key, v) :: ms, (key', w) :: ns, r, s, h => by
    simp only [writeMembers, List.cons_append, List.append_assoc, List.cons.injEq, true_and,
      List.append_cancel_left_eq] at h
    obtain ⟨rfl, hvalue⟩ := writeString_append_inj h
    simp only [List.cons.injEq, true_and, List.nil_append] at hvalue
    obtain ⟨rfl, hmembers⟩ := write_append_inj depth v w _ _ (endsNumber_writeMembers ms)
      (endsNumber_writeMembers ns) hvalue
    obtain ⟨rfl, hrest⟩ := writeMembers_append_inj depth ms ns _ _ hmembers
    exact ⟨rfl, hrest⟩

end

theorem render_injective : Function.Injective render := by
  intro j k h
  have hchars : write 0 j ++ [] = write 0 k ++ [] := by
    rw [List.append_nil, List.append_nil]
    exact String.ofList_injective h
  exact (write_append_inj 0 j k [] [] endsNumber_nil endsNumber_nil hchars).1

theorem ofText?_injective : Function.Injective ofText? := by
  intro x y h
  cases x <;> cases y <;> simp_all [ofText?]

end Json

/-! ### Summaries -/

theorem ParameterStyle.label_injective : Function.Injective label := by
  intro x y h
  cases x <;> cases y <;> simp_all [label]

theorem AccessLevel.label_injective : Function.Injective label := by
  intro x y h
  have hlevel := congrArg ofLabel? h
  rw [ofLabel?_label, ofLabel?_label] at hlevel
  exact Option.some.inj hlevel

theorem Extent.toJson_injective : Function.Injective toJson := by
  intro x y h
  simp only [toJson, Json.object.injEq, List.cons.injEq, Prod.mk.injEq, Json.number.injEq,
    true_and, and_true] at h
  cases x
  cases y
  simpa using h

theorem SectionSummary.toJson_injective : Function.Injective toJson := by
  intro x y h
  simp only [toJson, Json.object.injEq, List.cons.injEq, Prod.mk.injEq, Json.string.injEq,
    Json.bool.injEq, Extent.toJson_injective.eq_iff, true_and, and_true] at h
  cases x
  cases y
  simpa using h

theorem ParameterSummary.toJson_injective : Function.Injective toJson := by
  intro x y h
  simp only [toJson, Json.object.injEq, List.cons.injEq, Prod.mk.injEq, Json.string.injEq,
    Json.bool.injEq, Json.ofText?_injective.eq_iff, true_and, and_true] at h
  cases x
  cases y
  simpa using h

namespace Summary

theorem toJson_injective : Function.Injective toJson := by
  intro x y h
  simp only [toJson, Json.object.injEq, List.cons.injEq, Prod.mk.injEq, Json.string.injEq,
    Json.number.injEq, Json.array.injEq, Json.ofText?_injective.eq_iff,
    SectionSummary.toJson_injective.list_map.eq_iff,
    ParameterSummary.toJson_injective.list_map.eq_iff, ParameterStyle.label_injective.eq_iff,
    AccessLevel.label_injective.eq_iff, true_and, and_true] at h
  cases x
  cases y
  simpa using h

/-- **Rendering loses nothing.** Two summaries have the same JSON text only if they are the same,
whatever texts they hold and however many sections and parameters they have. -/
theorem render_eq_iff (s t : Summary) : s.render = t.render ↔ s = t := by
  constructor
  · intro h
    exact toJson_injective (Json.render_injective h)
  · rintro rfl
    rfl

end Summary

end DeclOutline
