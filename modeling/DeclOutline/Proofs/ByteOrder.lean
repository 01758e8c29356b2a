import DeclOutline.WordMap
import Mathlib.Tactic.SplitIfs

/-!
# The order of texts is the order of their bytes

Texts are ordered by their code points, and written in bytes of which a character takes up to four.
The two orders agree because of how a character is written: its number is cut into digits to base
64, the highest first, and the first byte also tells how many there are, with more of them told by
a larger byte. So of two characters the smaller has the smaller bytes, and the place where they
differ comes before the end of both, so that it does not matter what follows.

## Main definitions

* `Text.bytes` — the bytes of a text
* `Text.WritesInOrder` — a way to write numbers that keeps their order, whatever follows

## Main results

* `Text.WritesInOrder.digit`, `Text.WritesInOrder.piecewise` — one more digit, and one more length
* `Text.utf8EncodeChar_append_lt` — the bytes of two characters
* `Text.bytes_lt_iff` — the bytes of two texts
* `WordMap.pairwise_bytes_words`, `WordMap.mem_before_iff` — the words of a map
-/

namespace DeclOutline

namespace Text

/-- The bytes of a text. -/
def bytes (s : String) : List UInt8 :=
  s.toByteArray.data.toList

/-! ### Numbers in bytes -/

/-- A way to write the numbers up to a bound that keeps their order, whatever follows. The first
bytes lie between two marks. -/
structure WritesInOrder (low high bound : Nat) (write : Nat → List UInt8) : Prop where
  lt : ∀ ⦃m n⦄, m < n → n ≤ bound → ∀ bs cs, write m ++ bs < write n ++ cs
  first : ∀ n ≤ bound, ∃ b rest, write n = b :: rest ∧ low ≤ b.toNat ∧ b.toNat < high

namespace WritesInOrder

variable {low high low' high' bound bound' : Nat} {write write' : Nat → List UInt8}

/-- One byte that grows with the number. -/
theorem byte {value : Nat → Nat} (hlt : ∀ m n, m < n → n ≤ bound → value m < value n)
    (hvalue : ∀ n ≤ bound, low ≤ value n ∧ value n < high) (hhigh : high ≤ 256) :
    WritesInOrder low high bound fun n => [UInt8.ofNat (value n)] := by
  have htoNat : ∀ n ≤ bound, (UInt8.ofNat (value n)).toNat = value n := by
    intro n hn
    have := hvalue n hn
    exact UInt8.toNat_ofNat_of_lt (show value n < 256 by omega)
  constructor
  · intro m n hmn hn bs cs
    refine List.cons_lt_cons_iff.mpr (.inl ?_)
    rw [UInt8.lt_iff_toNat_lt, htoNat m (by omega), htoNat n hn]
    exact hlt m n hmn hn
  · intro n hn
    refine ⟨_, [], rfl, ?_⟩
    rw [htoNat n hn]
    exact hvalue n hn

/-- **One more digit**, in a byte of its own after those of the higher digits. -/
theorem digit (h : WritesInOrder low high bound write) :
    WritesInOrder low high (bound * 64 + 63) fun n =>
      write (n / 64) ++ [UInt8.ofNat (n % 64 + 0x80)] := by
  have hdigit : WritesInOrder 0x80 0xc0 63 fun n => [UInt8.ofNat (n + 0x80)] :=
    byte (by omega) (by omega) (by omega)
  constructor
  · intro m n hmn hn bs cs
    rw [List.append_assoc, List.append_assoc]
    rcases Nat.lt_or_ge (m / 64) (n / 64) with hdiv | hdiv
    · exact h.lt hdiv (by omega) _ _
    · -- the higher digits are the same, and written in the same bytes
      rw [show m / 64 = n / 64 by omega]
      exact List.append_left_lt (hdigit.lt (by omega) (by omega) bs cs)
  · intro n hn
    obtain ⟨b, rest, heq, hb⟩ := h.first (n / 64) (by omega)
    exact ⟨b, rest ++ [UInt8.ofNat (n % 64 + 0x80)], by rw [heq, List.cons_append], hb⟩

/-- **One more length.** One way up to its bound, and after it another with larger first bytes. -/
theorem piecewise (h : WritesInOrder low high bound write)
    (h' : WritesInOrder low' high' bound' write') (hmark : high ≤ low') :
    WritesInOrder low high' bound' fun n => if n ≤ bound then write n else write' n := by
  obtain ⟨_, _, -, hlow, hhigh⟩ := h.first 0 (Nat.zero_le _)
  obtain ⟨_, _, -, hlow', hhigh'⟩ := h'.first bound' (Nat.le_refl _)
  constructor
  · intro m n hmn hn bs cs
    split_ifs with hm hle hle
    · exact h.lt hmn hle bs cs
    · -- the first bytes tell the two ways apart
      obtain ⟨b, rest, heq, -, hb⟩ := h.first m hm
      obtain ⟨b', rest', heq', hb', -⟩ := h'.first n hn
      rw [heq, heq']
      exact List.cons_lt_cons_iff.mpr (.inl (UInt8.lt_iff_toNat_lt.mpr (by omega)))
    · omega
    · exact h'.lt hmn hn bs cs
  · intro n hn
    split_ifs with hle
    · obtain ⟨b, rest, heq, hb⟩ := h.first n hle
      exact ⟨b, rest, heq, by omega⟩
    · obtain ⟨b, rest, heq, hb⟩ := h'.first n hn
      exact ⟨b, rest, heq, by omega⟩

end WritesInOrder

/-! ### Characters and texts -/

/-- Characters are written in the order of their numbers, in one to four bytes. -/
theorem exists_writesInOrder : ∃ write, WritesInOrder 0 0xf8 0x1fffff write ∧
    ∀ c : Char, String.utf8EncodeChar c = write c.val.toNat := by
  have hone : WritesInOrder 0 0x80 0x7f fun n => [UInt8.ofNat n] :=
    .byte (by omega) (by omega) (by omega)
  have htwo : WritesInOrder 0xc0 0xe0 0x1f fun n => [UInt8.ofNat (n % 0x20 + 0xc0)] :=
    .byte (by omega) (by omega) (by omega)
  have hthree : WritesInOrder 0xe0 0xf0 0xf fun n => [UInt8.ofNat (n % 0x10 + 0xe0)] :=
    .byte (by omega) (by omega) (by omega)
  have hfour : WritesInOrder 0xf0 0xf8 0x7 fun n => [UInt8.ofNat (n % 0x8 + 0xf0)] :=
    .byte (by omega) (by omega) (by omega)
  have hlonger := hthree.digit.digit.piecewise hfour.digit.digit.digit (by omega)
  refine ⟨_, hone.piecewise (htwo.digit.piecewise hlonger (by omega)) (by omega), fun c => ?_⟩
  simp only [String.utf8EncodeChar, Nat.div_div_eq_div_mul]
  rfl

/-- The bytes of two characters are in their order, whatever follows. -/
theorem utf8EncodeChar_append_lt {c d : Char} (h : c < d) (bs cs : List UInt8) :
    String.utf8EncodeChar c ++ bs < String.utf8EncodeChar d ++ cs := by
  obtain ⟨write, hwrite, heq⟩ := exists_writesInOrder
  have hvalid : d.val.toNat ≤ 0x1fffff := by
    have := d.valid
    grind
  rw [heq, heq]
  exact hwrite.lt h hvalid bs cs

theorem bytes_eq_flatMap (s : String) : bytes s = s.toList.flatMap String.utf8EncodeChar := by
  rw [bytes, ← String.utf8Encode_toList, List.utf8Encode, List.toList_data_toByteArray]

theorem bytes_lt_of_lt {s t : String} (h : s < t) : bytes s < bytes t := by
  rw [String.lt_iff] at h
  rw [bytes_eq_flatMap, bytes_eq_flatMap]
  generalize s.toList = cs at h ⊢
  generalize t.toList = ds at h ⊢
  -- the characters are the same up to where one text ends or they differ
  induction h with
  | @nil d ds =>
    obtain ⟨b, rest, heq⟩ := List.exists_cons_of_ne_nil (String.utf8EncodeChar_ne_nil (c := d))
    rw [List.flatMap_cons, heq]
    exact .nil
  | rel hlt => exact utf8EncodeChar_append_lt hlt _ _
  | cons _ ih => exact List.append_left_lt ih

/-- **The order of texts is the order of their bytes.** -/
theorem bytes_lt_iff {s t : String} : bytes s < bytes t ↔ s < t := by
  refine ⟨fun h => Decidable.byContradiction fun hnot => ?_, bytes_lt_of_lt⟩
  rcases Decidable.em (t < s) with hgt | hge
  · exact List.lt_asymm h (bytes_lt_of_lt hgt)
  · obtain rfl := String.le_antisymm (String.not_lt.mp hge) (String.not_lt.mp hnot)
    exact List.lt_irrefl _ h

end Text

namespace WordMap

variable {α : Type}

/-- The words of a map are in the order of their bytes. -/
theorem pairwise_bytes_words (m : WordMap α) :
    m.words.Pairwise fun v w => Text.bytes v < Text.bytes w :=
  List.pairwise_map.mpr (m.sorted.imp Text.bytes_lt_iff.mpr)

/-- The words of a map before one of them are those with smaller bytes. -/
theorem mem_before_iff {m : WordMap α} {before after : List String} {word other : String}
    (h : m.words = before ++ word :: after) :
    other ∈ before ↔ other ∈ m.words ∧ Text.bytes other < Text.bytes word := by
  have hsorted := m.pairwise_bytes_words
  rw [h] at hsorted ⊢
  obtain ⟨-, hafter, hbefore⟩ := List.pairwise_append.mp hsorted
  constructor
  · intro hother
    exact ⟨List.mem_append_left _ hother, hbefore other hother word List.mem_cons_self⟩
  · rintro ⟨hother, hlt⟩
    rcases List.mem_append.mp hother with hother | hother
    · exact hother
    · rcases List.mem_cons.mp hother with rfl | hother
      · exact absurd hlt (List.lt_irrefl _)
      · exact absurd hlt (List.lt_asymm ((List.pairwise_cons.mp hafter).1 other hother))

end WordMap

end DeclOutline
