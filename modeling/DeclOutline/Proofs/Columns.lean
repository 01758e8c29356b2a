import DeclOutline.Proofs.Lines

/-!
# Which locations run backwards

Columns count characters, and an offset inside a character has no column. The bytes before it on its
line are counted in its place, and these two counts do not agree: bytes are at least as many as
characters. An offset inside a character may therefore lie further right than one behind it, and
further right than the line is long.

This module says exactly when. Lines never run backwards. Neither do columns between offsets of
which the first is not inside a character, or the second is. What is left is an offset inside a
character and a later one on the same line that is not. In a text, such a pair runs backwards as
soon as a line has two more bytes than characters, so that locations are in order exactly in the
texts whose lines hold at most one character outside ASCII, and that one of two bytes.

## Main definitions

* `Location.Place` — a place in the lines of a text, some bytes into one of them
* `Location.NotAfter` — the order of locations
* `Location.CutsCharacter` — an offset is inside a character
* `Location.RunsForward` — the locations of a text are in order and fit their lines

## Main results

* `Location.columnAt_le_columnAt` — columns of one line that are in order
* `Location.exists_place`, `Location.Place.before_lt_or_eq` — the place of an offset, and two places
  compared
* `Location.runsForward_iff` — the texts whose locations run forward
* `Location.ofOffset_ordered` — what holds of every text
-/

namespace DeclOutline

namespace Location

variable {cs ds line rest : List Char} {c : Char} {n n' : Nat}

/-! ### Columns of one line -/

theorem length_le_byteSize (cs : List Char) : cs.length ≤ byteSize cs := by
  induction cs with
  | nil => exact Nat.le_refl 0
  | cons c cs ih =>
    have := c.utf8Size_pos
    rw [List.length_cons, byteSize_cons]
    omega

/-- Of two first parts of a line, the one with fewer bytes is a first part of the other. -/
theorem first_of_byteSize_le (hcs : cs <+: line) (hds : ds <+: line)
    (h : byteSize cs ≤ byteSize ds) : cs <+: ds := by
  rcases List.prefix_or_prefix_of_prefix hcs hds with hfirst | ⟨more, rfl⟩
  · exact hfirst
  · have hmore : more = [] := by
      by_contra hne
      have := byteSize_pos hne
      rw [byteSize_append] at h
      omega
    exact ⟨[], by rw [hmore, List.append_nil, List.append_nil]⟩

/-- Some bytes hold whole characters exactly if they are those of the first characters. -/
theorem charCount?_eq_some_iff {k : Nat} :
    charCount? line n = some k ↔ ∃ ds, ds <+: line ∧ byteSize ds = n ∧ ds.length = k := by
  constructor
  · intro h
    fun_induction charCount? line n generalizing k with
    | case1 line => exact ⟨[], List.nil_prefix, rfl, by simpa using h⟩
    | case2 n => simp at h
    | case3 c cs n hle ih =>
      obtain ⟨j, hj, rfl⟩ := Option.map_eq_some_iff.mp h
      obtain ⟨ds, hds, hsize, rfl⟩ := ih hj
      refine ⟨c :: ds, List.cons_prefix_cons.mpr ⟨rfl, hds⟩, ?_, rfl⟩
      rw [byteSize_cons, hsize]
      omega
    | case4 c cs n hgt => simp at h
  · rintro ⟨ds, ⟨more, rfl⟩, rfl, rfl⟩
    exact charCount?_append ds more

theorem charCount?_isSome_iff :
    (charCount? line n).isSome = true ↔ ∃ ds, ds <+: line ∧ byteSize ds = n := by
  rw [Option.isSome_iff_exists]
  simp only [charCount?_eq_some_iff]
  constructor
  · rintro ⟨_, ds, hds, hsize, -⟩
    exact ⟨ds, hds, hsize⟩
  · rintro ⟨ds, hds, hsize⟩
    exact ⟨_, ds, hds, hsize, rfl⟩

theorem append_singleton_first (ds rest : List Char) (c : Char) : ds ++ [c] <+: ds ++ c :: rest :=
  (List.prefix_append_right_inj ds).mpr ⟨rest, rfl⟩

theorem byteSize_append_singleton (ds : List Char) (c : Char) :
    byteSize (ds ++ [c]) = byteSize ds + c.utf8Size := by
  rw [byteSize_append, byteSize_cons, byteSize_nil, Nat.add_zero]

/-- Between the bytes of a character no whole characters end. -/
theorem charCount?_eq_none (hlow : byteSize ds < n) (hhigh : n < byteSize ds + c.utf8Size) :
    charCount? (ds ++ c :: rest) n = none := by
  rw [← Option.not_isSome_iff_eq_none, charCount?_isSome_iff]
  rintro ⟨es, hes, rfl⟩
  have hsize := byteSize_append_singleton ds c
  have hnext := append_singleton_first ds rest c
  -- a shorter first part than `ds` with one character more is no longer than `ds`
  rcases List.prefix_concat_iff.mp (first_of_byteSize_le hes hnext (by omega)) with rfl | hshort
  · omega
  · obtain ⟨more, rfl⟩ := hshort
    rw [byteSize_append] at hlow
    omega

theorem columnAt_byteSize (h : ds <+: line) : columnAt line (byteSize ds) = ds.length + 1 := by
  obtain ⟨more, rfl⟩ := h
  exact columnAt_append ds more

theorem columnAt_of_cut (h : charCount? line n = none) : columnAt line n = n + 1 := by
  rw [columnAt, h]
  rfl

/-- There are at least as many bytes as characters. -/
theorem columnAt_le_succ (line : List Char) (n : Nat) : columnAt line n ≤ n + 1 := by
  cases h : charCount? line n with
  | none => exact Nat.le_of_eq (columnAt_of_cut h)
  | some k =>
    obtain ⟨ds, hds, rfl, -⟩ := charCount?_eq_some_iff.mp h
    rw [columnAt_byteSize hds]
    exact Nat.succ_le_succ (length_le_byteSize ds)

/-- Columns of a line are in order, unless the first place is inside a character and the second one
is not. -/
theorem columnAt_le_columnAt (hle : n ≤ n')
    (h : (charCount? line n).isSome = true ∨ charCount? line n' = none) :
    columnAt line n ≤ columnAt line n' := by
  cases hcount' : charCount? line n' with
  | none =>
    rw [columnAt_of_cut hcount']
    exact Nat.le_trans (columnAt_le_succ line n) (Nat.succ_le_succ hle)
  | some k =>
    have hsome : (charCount? line n).isSome = true := by simpa [hcount'] using h
    obtain ⟨ds, hds, rfl⟩ := charCount?_isSome_iff.mp hsome
    obtain ⟨es, hes, rfl, -⟩ := charCount?_eq_some_iff.mp hcount'
    rw [columnAt_byteSize hds, columnAt_byteSize hes]
    exact Nat.succ_le_succ (first_of_byteSize_le hds hes hle).length_le

theorem columnAt_le_length (h : (charCount? line n).isSome = true) :
    columnAt line n ≤ 1 + line.length := by
  obtain ⟨ds, hds, rfl⟩ := charCount?_isSome_iff.mp h
  have := hds.length_le
  rw [columnAt_byteSize hds]
  omega

/-! ### Narrow lines -/

/-- A line has at most one byte more than it has characters. -/
def IsNarrow (line : List Char) : Prop :=
  byteSize line ≤ line.length + 1

/-- Every first part of a narrow line is narrow. -/
theorem IsNarrow.first (h : IsNarrow line) (hds : ds <+: line) : IsNarrow ds := by
  obtain ⟨more, rfl⟩ := hds
  have hmore := length_le_byteSize more
  rw [IsNarrow, byteSize_append, List.length_append] at h
  rw [IsNarrow]
  omega

theorem IsNarrow.columnAt_le_columnAt (h : IsNarrow line) (hle : n ≤ n') :
    columnAt line n ≤ columnAt line n' := by
  by_cases horder : (charCount? line n).isSome = true ∨ charCount? line n' = none
  · exact Location.columnAt_le_columnAt hle horder
  · obtain ⟨hcut, hwhole⟩ := not_or.mp horder
    have hcut' : charCount? line n = none := by simpa using hcut
    obtain ⟨ds, hds, hsize⟩ := charCount?_isSome_iff.mp (Option.isSome_iff_ne_none.mpr hwhole)
    -- the places differ, and there is one byte at most between bytes and characters
    have hne : n ≠ n' := by
      rintro rfl
      exact hwhole hcut'
    have hnarrow : byteSize ds ≤ ds.length + 1 := h.first hds
    rw [columnAt_of_cut hcut', ← hsize, columnAt_byteSize hds]
    omega

theorem IsNarrow.columnAt_le_length (h : IsNarrow line) (hn : n ≤ byteSize line) :
    columnAt line n ≤ 1 + line.length := by
  have hend : columnAt line (byteSize line) = line.length + 1 := columnAt_byteSize List.prefix_rfl
  have hle := h.columnAt_le_columnAt hn
  omega

/-- A line that is not narrow has a character of several bytes with two bytes too many before its
end. -/
theorem exists_of_not_isNarrow (h : ¬ IsNarrow line) :
    ∃ ds c rest, line = ds ++ c :: rest ∧ 1 < c.utf8Size ∧
      ds.length + 3 ≤ byteSize ds + c.utf8Size := by
  induction line using List.reverseRecOn with
  | nil => exact absurd (Nat.zero_le 1) h
  | append_singleton ds c ih =>
    have hpos := c.utf8Size_pos
    have hwide : ds.length + 3 ≤ byteSize ds + c.utf8Size := by
      simp only [IsNarrow, byteSize_append, byteSize_cons, byteSize_nil, List.length_append,
        List.length_singleton] at h
      omega
    by_cases hone : c.utf8Size = 1
    · have hds : ¬ IsNarrow ds := by
        rw [IsNarrow]
        omega
      obtain ⟨es, d, more, hes, hd⟩ := ih hds
      exact ⟨es, d, more ++ [c], by rw [hes, List.append_assoc]; rfl, hd⟩
    · exact ⟨ds, c, [], rfl, by omega, hwide⟩

/-- Such a character ends further left than its last byte lies. -/
theorem columnAt_lt_of_wide (hsize : 1 < c.utf8Size)
    (hwide : ds.length + 3 ≤ byteSize ds + c.utf8Size) :
    columnAt (ds ++ c :: rest) (byteSize ds + c.utf8Size) <
      columnAt (ds ++ c :: rest) (byteSize ds + c.utf8Size - 1) := by
  have hcut : charCount? (ds ++ c :: rest) (byteSize ds + c.utf8Size - 1) = none :=
    charCount?_eq_none (by omega) (by omega)
  rw [columnAt_of_cut hcut, ← byteSize_append_singleton,
    columnAt_byteSize (append_singleton_first ds rest c), byteSize_append_singleton,
    List.length_append, List.length_singleton]
  omega

/-! ### Places -/

variable {ls : List (List Char)}

/-- A place in lines: some bytes into one of them. The place behind a line that another one follows
is the start of that one. -/
structure Place (ls : List (List Char)) where
  before : List (List Char)
  line : List Char
  after : List (List Char)
  bytes : Nat
  lines_eq : ls = before ++ line :: after
  bytes_le : bytes ≤ byteSize line
  bytes_lt : after ≠ [] → bytes < byteSize line

namespace Place

/-- The offset of a place. -/
def offset (p : Place ls) : Nat :=
  byteSize p.before.flatten + p.bytes

/-- The location of a place in lines that are counted from a number on. -/
def location (p : Place ls) (number : Nat) : Location :=
  ⟨number + p.before.length, columnAt p.line p.bytes⟩

theorem flatten_eq (p : Place ls) :
    ls.flatten = p.before.flatten ++ (p.line ++ p.after.flatten) := by
  conv_lhs => rw [p.lines_eq]
  rw [List.flatten_append, List.flatten_cons]

theorem getElem?_before (p : Place ls) : ls[p.before.length]? = some p.line := by
  obtain ⟨before, line, after, bytes, rfl, -, -⟩ := p
  rw [List.getElem?_append_right (Nat.le_refl _), Nat.sub_self]
  rfl

theorem offset_le (p : Place ls) : p.offset ≤ byteSize ls.flatten := by
  have := p.bytes_le
  rw [p.flatten_eq, byteSize_append, byteSize_append, offset]
  omega

/-- A place with more lines before it has a greater offset. -/
theorem offset_lt_offset (p q : Place ls) (h : p.before.length < q.before.length) :
    p.offset < q.offset := by
  -- the line of the first place is among those before the second
  obtain ⟨more, hmore⟩ : p.before ++ [p.line] <+: q.before := by
    have hp : p.before ++ [p.line] <+: ls :=
      ⟨p.after, by rw [List.append_assoc, List.singleton_append, ← p.lines_eq]⟩
    have hq : q.before <+: ls := ⟨q.line :: q.after, q.lines_eq.symm⟩
    refine List.prefix_of_prefix_length_le hp hq ?_
    rw [List.length_append, List.length_singleton]
    exact h
  have hafter : p.after ≠ [] := by
    intro hnil
    have hlen := congrArg List.length (p.lines_eq.symm.trans q.lines_eq)
    simp only [List.length_append, List.length_cons, hnil, List.length_nil] at hlen
    omega
  have hlt := p.bytes_lt hafter
  rw [offset, offset, ← hmore, List.flatten_append, List.flatten_append, List.flatten_singleton,
    byteSize_append, byteSize_append]
  omega

/-- Of two places, the one with the smaller offset is on an earlier line, or not further on in the
same line. -/
theorem before_lt_or_eq (p q : Place ls) (h : p.offset ≤ q.offset) :
    p.before.length < q.before.length ∨
      p.before = q.before ∧ p.line = q.line ∧ p.bytes ≤ q.bytes := by
  rcases Nat.lt_trichotomy p.before.length q.before.length with hlt | heq | hgt
  · exact .inl hlt
  · obtain ⟨hbefore, hline⟩ := List.append_inj (p.lines_eq.symm.trans q.lines_eq) heq
    rw [offset, offset, hbefore] at h
    exact .inr ⟨hbefore, (List.cons.inj hline).1, by omega⟩
  · exact absurd (q.offset_lt_offset p hgt) (Nat.not_lt.mpr h)

theorem location_eq_of_offset_eq (p q : Place ls) (h : p.offset = q.offset) (number : Nat) :
    p.location number = q.location number := by
  rcases p.before_lt_or_eq q (Nat.le_of_eq h) with hlt | ⟨hbefore, hline, hle⟩
  · exact absurd (p.offset_lt_offset q hlt) (Nat.not_lt.mpr (Nat.le_of_eq h.symm))
  · have hbytes : p.bytes = q.bytes := by
      rw [offset, offset, hbefore] at h
      omega
    rw [location, location, hbefore, hline, hbytes]

/-- A place is between two characters of its line exactly if its offset is between two characters of
all lines together. -/
theorem isSome_charCount?_iff (p : Place ls) :
    (charCount? p.line p.bytes).isSome = true ↔
      ∃ ds, ds <+: ls.flatten ∧ byteSize ds = p.offset := by
  rw [charCount?_isSome_iff, p.flatten_eq]
  constructor
  · rintro ⟨ds, hds, hsize⟩
    refine ⟨p.before.flatten ++ ds, ?_, by rw [byteSize_append, hsize, offset]⟩
    exact (List.prefix_append_right_inj _).mpr (hds.trans (List.prefix_append _ _))
  · rintro ⟨ds, hds, hsize⟩
    rw [offset] at hsize
    obtain ⟨es, rfl⟩ := first_of_byteSize_le (List.prefix_append _ _) hds (by omega)
    rw [List.prefix_append_right_inj] at hds
    rw [byteSize_append] at hsize
    have := p.bytes_le
    exact ⟨es, first_of_byteSize_le hds (List.prefix_append _ _) (by omega), by omega⟩

end Place

/-- **The place of an offset.** It is where the offset is found, and an offset past the end is at
the end. -/
theorem exists_place (h : ls ≠ []) (offset number : Nat) :
    ∃ p : Place ls, p.offset = min offset (byteSize ls.flatten) ∧
      inLines number offset ls = p.location number := by
  fun_induction inLines number offset ls with
  | case1 => exact absurd rfl h
  | case2 number offset line =>
    refine ⟨⟨[], line, [], min offset (byteSize line), rfl, Nat.min_le_right _ _,
      fun hne => absurd rfl hne⟩, ?_, rfl⟩
    simp [Place.offset]
  | case3 number offset line next rest hle ih =>
    obtain ⟨p, hoffset, hplace⟩ := ih (List.cons_ne_nil _ _)
    refine ⟨⟨line :: p.before, p.line, p.after, p.bytes, ?_, p.bytes_le, p.bytes_lt⟩, ?_, ?_⟩
    · rw [List.cons_append, ← p.lines_eq]
    · rw [Place.offset] at hoffset
      rw [Place.offset, List.flatten_cons, List.flatten_cons, byteSize_append, byteSize_append,
        Nat.add_assoc, hoffset]
      omega
    · rw [hplace, Place.location, Place.location, List.length_cons]
      congr 1
      omega
  | case4 number offset line next rest hgt =>
    have hlt : offset < byteSize line := Nat.lt_of_not_le hgt
    refine ⟨⟨[], line, next :: rest, offset, rfl, Nat.le_of_lt hlt, fun _ => hlt⟩, ?_, rfl⟩
    show 0 + offset = _
    rw [List.flatten_cons, byteSize_append]
    omega

/-- A place is found by its offset. -/
theorem Place.inLines_offset (p : Place ls) (number : Nat) :
    inLines number p.offset ls = p.location number := by
  have hne : ls ≠ [] := by
    rw [p.lines_eq]
    simp
  obtain ⟨q, hoffset, hplace⟩ := exists_place hne p.offset number
  rw [Nat.min_eq_left p.offset_le] at hoffset
  rw [hplace, q.location_eq_of_offset_eq p hoffset]

/-- A line that another one follows ends with a line break. -/
theorem exists_break_of_lines {before after : List (List Char)}
    (h : lines cs = before ++ line :: after) (hafter : after ≠ []) :
    ∃ ds b, line = ds ++ [b] ∧ IsBreakChar b := by
  induction cs generalizing before line with
  | nil =>
    have hlen := congrArg List.length h
    have hpos := List.length_pos_iff.mpr hafter
    simp only [lines, List.length_append, List.length_cons, List.length_nil] at hlen
    omega
  | cons c cs ih =>
    by_cases hends : endsLine c cs = true
    · rw [lines_cons_of_endsLine hends] at h
      cases before with
      | nil =>
        obtain ⟨rfl, -⟩ := List.cons.inj h
        have hbreak : c = '\n' ∨ c = '\r' ∧ cs.head? ≠ some '\n' := by
          simpa [endsLine] using hends
        exact ⟨[], c, rfl, hbreak.elim .inr fun hcr => .inl hcr.1⟩
      | cons first before => exact ih (List.cons.inj h).2
    · obtain ⟨first, others, hlines⟩ := List.exists_cons_of_ne_nil (lines_ne_nil cs)
      rw [lines_cons_of_not_endsLine (by simpa using hends) hlines] at h
      cases before with
      | nil =>
        obtain ⟨rfl, rfl⟩ := List.cons.inj h
        obtain ⟨ds, b, rfl, hb⟩ := ih (show lines cs = [] ++ first :: others from hlines)
        exact ⟨c :: ds, b, rfl, hb⟩
      | cons second before =>
        obtain ⟨-, rfl⟩ := List.cons.inj h
        exact ih (show lines cs = (first :: before) ++ line :: after from hlines)

/-! ### Offsets in a text -/

/-- One location is not after another: it is on an earlier line, or on the same line and not further
right. -/
def NotAfter (l m : Location) : Prop :=
  l.line < m.line ∨ l.line = m.line ∧ l.column ≤ m.column

instance (l m : Location) : Decidable (l.NotAfter m) :=
  inferInstanceAs (Decidable (_ ∨ _))

/-- A location is on a line of a text, and at most one column behind its last character. The line
break that ends a line counts as a part of it. -/
def FitsLine (text : String) (l : Location) : Prop :=
  ∃ line, (lines text.toList)[l.line - 1]? = some line ∧ l.column ≤ 1 + line.length

/-- An offset is inside a character: it is not past the end, and there is no way to cut the text in
two there. -/
def CutsCharacter (text : String) (offset : Nat) : Prop :=
  offset < text.utf8ByteSize ∧
    ∀ before after, text = before ++ after → before.utf8ByteSize ≠ offset

/-- Locations of greater offsets are not before those of smaller ones, and all are on their
lines. -/
structure RunsForward (text : String) : Prop where
  ordered : ∀ o o' : UInt32, o ≤ o' →
    (ofOffset text o.toNat).NotAfter (ofOffset text o'.toNat)
  fits : ∀ o : UInt32, FitsLine text (ofOffset text o.toNat)

variable {text : String} {offset offset' : Nat}

/-- A text can be cut in two where some of its first characters end. -/
theorem exists_append_iff :
    (∃ before after, text = before ++ after ∧ before.utf8ByteSize = offset) ↔
      ∃ ds, ds <+: text.toList ∧ byteSize ds = offset := by
  constructor
  · rintro ⟨before, after, rfl, rfl⟩
    refine ⟨before.toList, ⟨after.toList, (String.toList_append ..).symm⟩, ?_⟩
    exact byteSize_toList before
  · rintro ⟨ds, ⟨more, hmore⟩, rfl⟩
    refine ⟨String.ofList ds, String.ofList more, ?_, ?_⟩
    · rw [← String.ofList_append, hmore, String.ofList_toList]
    · rw [← byteSize_toList, String.toList_ofList]

/-- The place of an offset in a text. An offset that is inside a character is so in its line. -/
theorem exists_place_ofOffset (text : String) (offset : Nat) :
    ∃ p : Place (lines text.toList), p.offset = min offset text.utf8ByteSize ∧
      ofOffset text offset = p.location 1 ∧
      (CutsCharacter text offset ↔ charCount? p.line p.bytes = none) := by
  obtain ⟨p, hoffset, hplace⟩ := exists_place (lines_ne_nil text.toList) offset 1
  have hcount := p.isSome_charCount?_iff
  rw [flatten_lines, byteSize_toList] at hoffset
  rw [flatten_lines, ← exists_append_iff] at hcount
  refine ⟨p, hoffset, hplace, ?_⟩
  rw [← Option.not_isSome_iff_eq_none, hcount]
  constructor
  · rintro ⟨hlt, hcut⟩ ⟨before, after, htext, hsize⟩
    refine hcut before after htext ?_
    rw [hsize, hoffset, Nat.min_eq_left (Nat.le_of_lt hlt)]
  · intro hnone
    rcases Nat.lt_or_ge offset text.utf8ByteSize with hlt | hge
    · rw [hoffset, Nat.min_eq_left (Nat.le_of_lt hlt)] at hnone
      exact ⟨hlt, fun before after htext hsize => hnone ⟨before, after, htext, hsize⟩⟩
    · -- an offset past the end is at the end, where the last character ends
      rw [hoffset, Nat.min_eq_right hge] at hnone
      exact absurd ⟨text, "", (String.append_empty ..).symm, rfl⟩ hnone

theorem Place.fitsLine {p : Place (lines text.toList)}
    (h : columnAt p.line p.bytes ≤ 1 + p.line.length) : FitsLine text (p.location 1) := by
  refine ⟨p.line, ?_, h⟩
  show (lines text.toList)[1 + p.before.length - 1]? = _
  rw [Nat.add_sub_cancel_left]
  exact p.getElem?_before

/-- Two places on one line are in order if their columns are. -/
theorem Place.notAfter {p q : Place ls} (h : p.offset ≤ q.offset)
    (hcolumn : p.line = q.line → p.bytes ≤ q.bytes →
      columnAt p.line p.bytes ≤ columnAt q.line q.bytes) :
    (p.location 1).NotAfter (q.location 1) := by
  rcases p.before_lt_or_eq q h with hlt | ⟨hbefore, hline, hbytes⟩
  · exact .inl (Nat.add_lt_add_left hlt 1)
  · refine .inr ⟨?_, hcolumn hline hbytes⟩
    show 1 + p.before.length = 1 + q.before.length
    rw [hbefore]

/-- **What holds of every text.** Lines never run backwards. Neither do locations, if the first
offset is not inside a character or the second one is. -/
theorem notAfter_ofOffset (hle : offset ≤ offset')
    (h : ¬ CutsCharacter text offset ∨ CutsCharacter text offset') :
    (ofOffset text offset).NotAfter (ofOffset text offset') := by
  obtain ⟨p, hp, hplace, hcut⟩ := exists_place_ofOffset text offset
  obtain ⟨q, hq, hplace', hcut'⟩ := exists_place_ofOffset text offset'
  rw [hcut, hcut', ← ne_eq, ← Option.isSome_iff_ne_none] at h
  rw [hplace, hplace']
  refine Place.notAfter (by omega) fun hline hbytes => ?_
  rw [← hline] at h ⊢
  exact columnAt_le_columnAt hbytes h

theorem line_ofOffset_le (hle : offset ≤ offset') :
    (ofOffset text offset).line ≤ (ofOffset text offset').line := by
  obtain ⟨p, hp, hplace, -⟩ := exists_place_ofOffset text offset
  obtain ⟨q, hq, hplace', -⟩ := exists_place_ofOffset text offset'
  rw [hplace, hplace']
  rcases p.before_lt_or_eq q (by omega) with hlt | ⟨hbefore, -, -⟩
  · exact Nat.add_le_add_left (Nat.le_of_lt hlt) 1
  · exact Nat.le_of_eq (congrArg (fun before => 1 + before.length) hbefore)

theorem fitsLine_ofOffset (h : ¬ CutsCharacter text offset) :
    FitsLine text (ofOffset text offset) := by
  obtain ⟨p, -, hplace, hcut⟩ := exists_place_ofOffset text offset
  rw [hcut, ← ne_eq, ← Option.isSome_iff_ne_none] at h
  rw [hplace]
  exact Place.fitsLine (columnAt_le_length h)

theorem length_lines_le (cs : List Char) : (lines cs).length ≤ cs.length + 1 := by
  induction cs with
  | nil => exact Nat.le_refl 1
  | cons c cs ih =>
    by_cases hend : endsLine c cs = true
    · rw [lines_cons_of_endsLine hend]
      exact Nat.succ_le_succ ih
    · obtain ⟨line, rest, hlines⟩ := List.exists_cons_of_ne_nil (lines_ne_nil cs)
      rw [hlines] at ih
      rw [lines_cons_of_not_endsLine (Bool.eq_false_iff.mpr hend) hlines]
      exact Nat.le_succ_of_le ih

/-- Lines and columns go at most one past the number of bytes. -/
theorem ofOffset_le_succ (text : String) (offset : Nat) :
    (ofOffset text offset).line ≤ text.utf8ByteSize + 1 ∧
      (ofOffset text offset).column ≤ text.utf8ByteSize + 1 := by
  obtain ⟨p, hp, hplace, -⟩ := exists_place_ofOffset text offset
  rw [hplace]
  constructor
  · have hlines := length_lines_le text.toList
    have hbytes := length_le_byteSize text.toList
    have hbefore := congrArg List.length p.lines_eq
    rw [List.length_append, List.length_cons] at hbefore
    rw [byteSize_toList] at hbytes
    show 1 + p.before.length ≤ _
    omega
  · have hcolumn := columnAt_le_succ p.line p.bytes
    have hbytes : p.bytes ≤ p.offset := Nat.le_add_left _ _
    show columnAt p.line p.bytes ≤ _
    omega

/-! ### Texts whose locations run forward -/

theorem runsForward_of_isNarrow (h : ∀ line ∈ lines text.toList, IsNarrow line) :
    RunsForward text := by
  have hnarrow : ∀ p : Place (lines text.toList), IsNarrow p.line := by
    intro p
    exact h p.line (List.mem_of_getElem? p.getElem?_before)
  constructor
  · intro o o' hle
    obtain ⟨p, hp, hplace, -⟩ := exists_place_ofOffset text o.toNat
    obtain ⟨q, hq, hplace', -⟩ := exists_place_ofOffset text o'.toNat
    have hle' := UInt32.le_iff_toNat_le.mp hle
    rw [hplace, hplace']
    refine Place.notAfter (by omega) fun hline hbytes => ?_
    rw [← hline]
    exact (hnarrow p).columnAt_le_columnAt hbytes
  · intro o
    obtain ⟨p, -, hplace, -⟩ := exists_place_ofOffset text o.toNat
    rw [hplace]
    exact Place.fitsLine ((hnarrow p).columnAt_le_length p.bytes_le)

/-- Two bytes too many on a line bring a pair of offsets that runs backwards: the last byte of a
character and what follows it. -/
theorem exists_not_notAfter (hline : line ∈ lines text.toList) (h : ¬ IsNarrow line) :
    ∃ n, n + 1 ≤ text.utf8ByteSize ∧ ¬ (ofOffset text n).NotAfter (ofOffset text (n + 1)) := by
  obtain ⟨ds, c, more, rfl, hsize, hwide⟩ := exists_of_not_isNarrow h
  obtain ⟨before, after, hlines⟩ := List.append_of_mem hline
  have hbytes : byteSize (ds ++ c :: more) = byteSize ds + c.utf8Size + byteSize more := by
    rw [byteSize_append, byteSize_cons, Nat.add_assoc]
  -- a character of several bytes is no line break, so the line goes on behind it
  have hmore : after ≠ [] → 0 < byteSize more := by
    intro hafter
    refine byteSize_pos fun hnil => ?_
    obtain ⟨es, b, hes, hb⟩ := exists_break_of_lines hlines hafter
    rw [hnil] at hes
    obtain rfl : c = b := by simpa using (List.append_inj' hes rfl).2
    rcases hb with rfl | rfl <;> exact absurd hsize (by decide)
  let p : Place (lines text.toList) :=
    ⟨before, ds ++ c :: more, after, byteSize ds + c.utf8Size - 1, hlines, by omega, by omega⟩
  let q : Place (lines text.toList) :=
    ⟨before, ds ++ c :: more, after, byteSize ds + c.utf8Size, hlines, by omega,
      fun hafter => by have := hmore hafter; omega⟩
  have hnext : q.offset = p.offset + 1 := by
    show byteSize before.flatten + (byteSize ds + c.utf8Size) =
      byteSize before.flatten + (byteSize ds + c.utf8Size - 1) + 1
    omega
  have hcolumn : (q.location 1).column < (p.location 1).column := columnAt_lt_of_wide hsize hwide
  have hend := q.offset_le
  rw [hnext, flatten_lines, byteSize_toList] at hend
  refine ⟨p.offset, hend, ?_⟩
  rw [← hnext, ofOffset, ofOffset, p.inLines_offset, q.inLines_offset]
  rintro (hlt | ⟨-, hle⟩)
  · exact absurd hlt (Nat.lt_irrefl _)
  · exact absurd hcolumn (Nat.not_lt.mpr hle)

/-- The locations of a text run forward exactly if no line has two more bytes than characters. -/
theorem runsForward_iff (hsize : text.utf8ByteSize < UInt32.size) :
    RunsForward text ↔ ∀ line ∈ lines text.toList, IsNarrow line := by
  refine ⟨fun h line hline => ?_, runsForward_of_isNarrow⟩
  by_contra hwide
  obtain ⟨n, hn, hback⟩ := exists_not_notAfter hline hwide
  have ho : (UInt32.ofNat n).toNat = n := UInt32.toNat_ofNat_of_lt' (by omega)
  have ho' : (UInt32.ofNat (n + 1)).toNat = n + 1 := UInt32.toNat_ofNat_of_lt' (by omega)
  have hle : UInt32.ofNat n ≤ UInt32.ofNat (n + 1) := by
    rw [UInt32.le_iff_toNat_le, ho, ho']
    exact Nat.le_succ n
  have hforward := h.ordered _ _ hle
  rw [ho, ho'] at hforward
  exact hback hforward

/-- **Which locations run backwards.** The locations of a text are in order and on their lines
exactly if each line has at most one byte more than characters. In every text lines are in order;
so are locations, unless the first offset is inside a character and the second one is not; and the
location of an offset that is not inside a character is on its line. The bound on the text is what
lets lines and columns, which count from one, fit into 32 bits as well. -/
theorem ofOffset_ordered (text : String) (hsize : text.utf8ByteSize + 1 < UInt32.size) :
    (RunsForward text ↔ ∀ line ∈ lines text.toList, byteSize line ≤ line.length + 1) ∧
    (∀ o o' : UInt32, o ≤ o' →
      (ofOffset text o.toNat).line ≤ (ofOffset text o'.toNat).line ∧
      (¬ CutsCharacter text o.toNat ∨ CutsCharacter text o'.toNat →
        (ofOffset text o.toNat).NotAfter (ofOffset text o'.toNat))) ∧
    (∀ o : UInt32, ¬ CutsCharacter text o.toNat → FitsLine text (ofOffset text o.toNat)) ∧
    ∀ o : UInt32, (ofOffset text o.toNat).line < UInt32.size ∧
      (ofOffset text o.toNat).column < UInt32.size := by
  refine ⟨runsForward_iff (Nat.lt_of_succ_lt hsize), fun o o' hle => ?_,
    fun o => fitsLine_ofOffset, fun o => ?_⟩
  · have hle' := UInt32.le_iff_toNat_le.mp hle
    exact ⟨line_ofOffset_le hle', notAfter_ofOffset hle'⟩
  · obtain ⟨hline, hcolumn⟩ := ofOffset_le_succ text o.toNat
    exact ⟨Nat.lt_of_le_of_lt hline hsize, Nat.lt_of_le_of_lt hcolumn hsize⟩

end Location

namespace Sample

/-- Two characters of two bytes. The third byte is inside the second character and is reported
behind it. -/
theorem not_runsForward_twoWide :
    Location.ofOffset "éé" 3 = ⟨1, 4⟩ ∧ Location.ofOffset "éé" 4 = ⟨1, 3⟩ ∧
      ¬ Location.RunsForward "éé" := by
  have hinside : Location.ofOffset "éé" 3 = ⟨1, 4⟩ := by decide
  have hbehind : Location.ofOffset "éé" 4 = ⟨1, 3⟩ := by decide
  refine ⟨hinside, hbehind, fun h => ?_⟩
  have hordered := h.ordered 3 4 (by decide)
  rw [show UInt32.toNat 3 = 3 from rfl, show UInt32.toNat 4 = 4 from rfl, hinside, hbehind]
    at hordered
  exact absurd hordered (by decide)

/-- One character of two bytes on each line is not enough to run backwards. -/
theorem ofOffset_ordered_narrow :
    "né\r\nüber".utf8ByteSize + 1 < UInt32.size ∧ Location.RunsForward "né\r\nüber" := by
  have hsize : "né\r\nüber".utf8ByteSize + 1 < UInt32.size := by decide
  exact ⟨hsize, (Location.ofOffset_ordered _ hsize).1.mpr (by decide)⟩

end Sample

end DeclOutline
