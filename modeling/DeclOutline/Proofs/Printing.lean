import DeclOutline.Proofs.Quoting
import DeclOutline.Proofs.Tables

/-!
# What is printed is read back

Documents are written and read here too, each without regard to the other. Reading what was written
goes through three stages, and each gives back what the writer put in: values and keys, lines, and
the entries that lines make. So the two are faithful, for all documents and all texts in them.

The printer that runs is the writer with a count of quotes before it, and may fail there. If it does
not, what it prints is what is written.

## Main definitions

* `Line` — the lines that are written
* `Document.lines`, `Document.nodes` — the lines of a document, and the entries that they make

## Main results

* `readLines_write`, `readLines_flatMap_write` — one line, and many
* `Draft.add_assign_of_header`, `Draft.foldlM_add_of_header` — one entry of a table, and many
* `Draft.foldlM_add_tables` — many tables
* `read?_format`, `read?_of_print` — a document is read from its written form
* `faithful_format` — writing and reading are faithful
-/

namespace DeclOutline.Toml

variable {c : Char} {cs r : List Char} {n : Nat}

/-! ### Lines -/

/-- A value as it is read. -/
def Scalar.node : Scalar → Node
  | text value => .string value
  | boolean value => .boolean value

/-- The lines that are written. -/
inductive Line where
  | assignment (key : String) (value : Scalar)
  | header (key : String)
  | empty

/-- A line as it is written. -/
def Line.write : Line → List Char
  | assignment key value => writeAssignment key value.write
  | header key => writeHeader key
  | empty => ['\n']

/-- What a line says. -/
def Line.statements : Line → List Statement
  | assignment key value => [.assign [key] value.node]
  | header key => [.table [key]]
  | empty => []

theorem skipBlanks_cons (h : isBlankChar c = false) (r : List Char) :
    skipBlanks (c :: r) = c :: r :=
  List.dropWhile_cons_of_neg (by simp [h])

/-- A written key begins with a quote or with a character of a key without quotes. -/
theorem exists_writeKey_eq (s : String) :
    ∃ c cs, writeKey s = c :: cs ∧ (c = '"' ∨ c = '\'' ∨ isBareChar c = true) := by
  rw [writeKey]
  split_ifs with hbare
  · simp only [Bool.and_eq_true, Bool.not_eq_true', List.all_eq_true] at hbare
    obtain ⟨c, cs, hcs⟩ : ∃ c cs, s.toList = c :: cs :=
      List.exists_cons_of_ne_nil (by simpa using hbare.1)
    exact ⟨c, cs, hcs, .inr (.inr (hbare.2 c (hcs ▸ List.mem_cons_self)))⟩
  · rcases (StringForm.holds_ofKey s.toList).2 with hform | hform
    · exact ⟨'"', _, by rw [hform, writeIn, List.cons_append], .inl rfl⟩
    · exact ⟨'\'', _, by rw [hform, writeIn, List.cons_append], .inr (.inl rfl)⟩

/-- What begins a key begins no blank, no empty line and no header. -/
theorem beginsKey (h : c = '"' ∨ c = '\'' ∨ isBareChar c = true) :
    isBlankChar c = false ∧ c ≠ '[' ∧ c ≠ '#' ∧ c ≠ '\n' ∧ c ≠ '\r' := by
  refine ⟨?_, ?_, ?_, ?_, ?_⟩
  · simp only [isBlankChar, Bool.or_eq_false_iff, beq_eq_false_iff_ne]
    constructor
    all_goals
      rintro rfl
      exact absurd h (by decide)
  all_goals
    rintro rfl
    exact absurd h (by decide)

theorem readKey_writeKey (s : String) (hbare : ∀ c ∈ r.head?, isBareChar c = false)
    (hdot : (skipBlanks r).head? ≠ some '.') :
    readKey (writeKey s ++ r) = some ([s], skipBlanks r) := by
  obtain ⟨c, cs, hcs, hc⟩ := exists_writeKey_eq s
  have hblanks : skipBlanks (writeKey s ++ r) = writeKey s ++ r := by
    rw [hcs]
    exact skipBlanks_cons (beginsKey hc).1 _
  show readKeyParts (78 + 1) _ = _
  rw [readKeyParts, hblanks, readKeyPart_writeKey s hbare, Option.bind_eq_bind, Option.bind_some]
  cases hrest : skipBlanks r <;> simp_all

theorem readValue_cons (depth : Nat) (harray : c ≠ '[') (htable : c ≠ '\x7b') :
    readValue depth (c :: r) = readScalar (c :: r) := by
  simp [readValue, harray, htable]

theorem readScalar_quote (h : c = '"' ∨ c = '\'') :
    readScalar (c :: r) = (readString (c :: r)).map fun (text, rest) => (.string text, rest) := by
  rcases h with rfl | rfl <;> rfl

theorem exists_writeIn_eq (form : StringForm) (cs : List Char) :
    ∃ c ds, writeIn form cs = c :: ds ∧ (c = '"' ∨ c = '\'') := by
  cases form with
  | basic | multiBasic => exact ⟨'"', _, rfl, .inl rfl⟩
  | literal | multiLiteral => exact ⟨'\'', _, rfl, .inr rfl⟩

/-- A value is read back at the end of its line. -/
theorem readValue_write (depth : Nat) (value : Scalar) (r : List Char) :
    readValue depth (value.write ++ '\n' :: r) = some (value.node, '\n' :: r) := by
  cases value with
  | text s =>
    have hread := readString_writeIn (StringForm.holds_ofText s.toList) (r := '\n' :: r) (by simp)
      (by simp)
    obtain ⟨c, ds, hcs, hquote⟩ := exists_writeIn_eq (.ofText s.toList) s.toList
    have harray : c ≠ '[' := by rcases hquote with rfl | rfl <;> decide
    have htable : c ≠ '\x7b' := by rcases hquote with rfl | rfl <;> decide
    rw [Scalar.write, writeText, hcs, List.cons_append, readValue_cons depth harray htable,
      readScalar_quote hquote, ← List.cons_append, ← hcs, hread, String.ofList_toList]
    rfl
  | boolean b => cases b <;> exact readValue_cons depth (by decide) (by decide)

theorem skipBlanks_write (value : Scalar) (r : List Char) :
    skipBlanks (value.write ++ r) = value.write ++ r := by
  cases value with
  | text s =>
    obtain ⟨c, ds, hcs, hquote⟩ := exists_writeIn_eq (.ofText s.toList) s.toList
    rw [Scalar.write, writeText, hcs]
    exact skipBlanks_cons (by rcases hquote with rfl | rfl <;> rfl) _
  | boolean b => cases b <;> rfl

theorem readStatement_assignment (key : String) (value : Scalar) (r : List Char) :
    readStatement (writeAssignment key value.write ++ r) = some (.assign [key] value.node, r) := by
  obtain ⟨c, cs, hcs, hc⟩ := exists_writeKey_eq key
  have hbracket := (beginsKey hc).2.1
  have hshape : writeAssignment key value.write ++ r =
      writeKey key ++ (' ' :: '=' :: ' ' :: (value.write ++ '\n' :: r)) := by
    simp [writeAssignment]
  have hkey : readKey (writeAssignment key value.write ++ r) =
      some ([key], '=' :: ' ' :: (value.write ++ '\n' :: r)) := by
    rw [hshape]
    exact readKey_writeKey key (by simp; decide) (by simp [skipBlanks, isBlankChar])
  have hvalue : readAssignment (readValue (nestingLimit - 1))
      (writeAssignment key value.write ++ r) = some (([key], value.node), '\n' :: r) := by
    have hblank : skipBlanks (' ' :: (value.write ++ '\n' :: r)) = value.write ++ '\n' :: r :=
      skipBlanks_write value _
    simp only [readAssignment, hkey, takeChar, hblank, readValue_write, if_true,
      Option.bind_eq_bind, Option.bind_some]
  have hstatement : readStatement (writeAssignment key value.write ++ r) =
      (readAssignment (readValue (nestingLimit - 1)) (writeAssignment key value.write ++ r)).bind
        fun pair => (endLine? pair.2).bind fun rest =>
          some (.assign pair.1.1 pair.1.2, rest) := by
    rw [hshape, hcs, List.cons_append, readStatement]
    · rfl
    all_goals simp_all
  rw [hstatement, hvalue]
  rfl

theorem readStatement_header (key : String) (r : List Char) :
    readStatement (writeHeader key ++ r) = some (.table [key], r) := by
  obtain ⟨c, cs, hcs, hc⟩ := exists_writeKey_eq key
  have hbracket := (beginsKey hc).2.1
  have hshape : writeHeader key ++ r = '[' :: (writeKey key ++ ']' :: '\n' :: r) := by
    simp [writeHeader]
  have hkey : readKey (writeKey key ++ ']' :: '\n' :: r) = some ([key], ']' :: '\n' :: r) :=
    readKey_writeKey key (by simp; decide) (by simp [skipBlanks, isBlankChar])
  have hstatement : readStatement ('[' :: (writeKey key ++ ']' :: '\n' :: r)) =
      (readKey (writeKey key ++ ']' :: '\n' :: r)).bind fun head =>
        (takeChar ']' head.2).bind fun rest => (endLine? rest).bind fun rest =>
          some (.table head.1, rest) := by
    rw [hcs, List.cons_append, readStatement]
    · rfl
    · simpa using hbracket
  rw [hshape, hstatement, hkey]
  rfl

/-- **Lines are read back** one by one. -/
theorem readLines_write (line : Line) (n : Nat) (r : List Char) :
    readLines (n + 1) (line.write ++ r) = (readLines n r).map (line.statements ++ ·) := by
  have hspoken : ∀ {c : Char} {cs : List Char} {s : Statement}, isBlankChar c = false → c ≠ '#' →
      c ≠ '\n' → c ≠ '\r' → readStatement (c :: cs) = some (s, r) →
      readLines (n + 1) (c :: cs) = (readLines n r).map ([s] ++ ·) := by
    intro c cs s hblank hcomment hlf hcr hread
    rw [readLines, skipBlanks_cons hblank]
    simp [startsEmptyLine, hcomment, hlf, hcr, hread]
  cases line with
  | assignment key value =>
    obtain ⟨c, cs, hcs, hc⟩ := exists_writeKey_eq key
    obtain ⟨hblank, -, hcomment, hlf, hcr⟩ := beginsKey hc
    have hread := readStatement_assignment key value r
    simp only [Line.write, writeAssignment, hcs, List.cons_append] at hread ⊢
    exact hspoken hblank hcomment hlf hcr hread
  | header key =>
    exact hspoken (by decide) (by decide) (by decide) (by decide) (readStatement_header key r)
  | empty =>
    rw [Line.write, List.singleton_append, readLines, skipBlanks_cons rfl]
    exact Option.map_id_apply.symm

/-- A document of some lines says what the lines say. -/
theorem readLines_flatMap_write (lines : List Line) (h : lines.length < n) :
    readLines n (lines.flatMap Line.write) = some (lines.flatMap Line.statements) := by
  induction lines generalizing n with
  | nil =>
    obtain ⟨m, rfl⟩ := Nat.exists_eq_succ_of_ne_zero (Nat.ne_of_gt h)
    rfl
  | cons line lines ih =>
    obtain ⟨m, rfl⟩ := Nat.exists_eq_succ_of_ne_zero (Nat.ne_of_gt (Nat.zero_lt_of_lt h))
    rw [List.flatMap_cons, readLines_write, ih (Nat.lt_of_succ_lt_succ h)]
    rfl

theorem length_le_flatMap_write (lines : List Line) :
    lines.length ≤ (lines.flatMap Line.write).length := by
  induction lines with
  | nil => exact Nat.le_refl 0
  | cons line lines ih =>
    have hline : 0 < line.write.length := by
      cases line with
      | assignment key value =>
        rw [Line.write, writeAssignment, List.length_append]
        exact Nat.succ_pos _
      | header key => exact Nat.succ_pos _
      | empty => exact Nat.succ_pos _
    rw [List.flatMap_cons, List.length_append, List.length_cons]
    omega

/-! ### Entries -/

namespace Entries

variable {es before : Entries} {key : String} {value : Node}

theorem lookup_eq_none (h : es.has key = false) : es.lookup key = none := by
  induction es with
  | nil => rfl
  | cons e es ih =>
    obtain ⟨hne, hes⟩ : (e.1 == key) = false ∧ has es key = false := by
      simpa [has] using h
    have hkey : (key == e.1) = false := by rw [beq_eq_false_iff_ne] at hne ⊢; exact Ne.symm hne
    rw [List.lookup_cons, hkey]
    exact ih hes

theorem lookup_append_singleton (h : before.has key = false) :
    (before ++ [(key, value)]).lookup key = some value := by
  rw [List.lookup_append, lookup_eq_none h]
  simp

theorem replace_append_singleton (h : before.has key = false) (value' : Node) :
    replace (before ++ [(key, value)]) key value' = before ++ [(key, value')] := by
  have hbefore : replace before key value' = before := by
    refine (List.map_congr_left fun e he => ?_).trans (List.map_id before)
    have hne : (e.1 == key) = false := List.any_eq_false.mp h e he |> Bool.eq_false_iff.mpr
    simp [hne]
  rw [replace, List.map_append, ← replace, hbefore]
  simp

theorem has_eq_false_of_nodup {e : String × Node} {later : Entries}
    (h : ((es ++ e :: later).map Prod.fst).Nodup) : es.has e.1 = false := by
  rw [List.map_append, List.nodup_append] at h
  refine List.any_eq_false.mpr fun d hd hsame => ?_
  exact h.2.2 d.1 (List.mem_map_of_mem hd) e.1 List.mem_cons_self (eq_of_beq hsame)

/-- The lines that give keys their values. -/
def statements (es : Entries) : List Statement :=
  es.map fun e => .assign [e.1] e.2

end Entries

namespace Draft

variable {root before sub : Entries} {key word : String} {value : Node}

/-- Before the first header a key goes to the end of the document. -/
theorem add_assign (h : root.has key = false) :
    add ⟨[], root⟩ (.assign [key] value) = some ⟨[], root ++ [(key, value)]⟩ := by
  simp [add, Entries.update, Entries.assign, h]

theorem foldlM_add_statements (root entries : Entries)
    (h : ((root ++ entries).map Prod.fst).Nodup) :
    entries.statements.foldlM add ⟨[], root⟩ = some ⟨[], root ++ entries⟩ := by
  induction entries generalizing root with
  | nil => rw [List.append_nil]; rfl
  | cons e entries ih =>
    have hkey := Entries.has_eq_false_of_nodup h
    rw [List.append_cons root e entries] at h ⊢
    rw [Entries.statements, List.map_cons, List.foldlM_cons, add_assign hkey]
    exact ih _ h

theorem add_table (h : root.has key = false) (path : List String) :
    add ⟨path, root⟩ (.table [key]) = some ⟨[key], root ++ [(key, .table .header [])]⟩ := by
  simp [add, Entries.update, Entries.openTable, Entries.lookup_eq_none h]

/-- After a header a key goes to the end of the table. -/
theorem add_assign_of_header (hkey : before.has key = false) (hword : sub.has word = false) :
    add ⟨[key], before ++ [(key, .table .header sub)]⟩ (.assign [word] value) =
      some ⟨[key], before ++ [(key, .table .header (sub ++ [(word, value)]))]⟩ := by
  simp [add, Entries.update, Entries.lookup_append_singleton hkey, Entries.assign, hword,
    Entries.replace_append_singleton hkey]

theorem foldlM_add_of_header (hkey : before.has key = false) (sub entries : Entries)
    (h : ((sub ++ entries).map Prod.fst).Nodup) :
    entries.statements.foldlM add ⟨[key], before ++ [(key, .table .header sub)]⟩ =
      some ⟨[key], before ++ [(key, .table .header (sub ++ entries))]⟩ := by
  induction entries generalizing sub with
  | nil => rw [List.append_nil]; rfl
  | cons e entries ih =>
    have hword := Entries.has_eq_false_of_nodup h
    rw [List.append_cons sub e entries] at h ⊢
    rw [Entries.statements, List.map_cons, List.foldlM_cons, add_assign_of_header hkey hword]
    exact ih _ h

/-- A table under a header of its own. -/
def headed (t : String × Entries) : String × Node :=
  (t.1, .table .header t.2)

/-- **Tables go to the end of the document** one by one, whatever the last header was. -/
theorem foldlM_add_tables (path : List String) (root : Entries) (tables : List (String × Entries))
    (h : ((root ++ tables.map headed).map Prod.fst).Nodup)
    (hin : ∀ t ∈ tables, (t.2.map Prod.fst).Nodup) :
    ((tables.flatMap fun t => .table [t.1] :: t.2.statements).foldlM add ⟨path, root⟩).map
      Draft.root = some (root ++ tables.map headed) := by
  induction tables generalizing path root with
  | nil => rw [List.map_nil, List.append_nil]; rfl
  | cons t tables ih =>
    obtain ⟨ht, hrest⟩ := List.forall_mem_cons.mp hin
    rw [List.map_cons] at h ⊢
    have hkey : root.has t.1 = false := Entries.has_eq_false_of_nodup h
    have hentries := foldlM_add_of_header hkey [] t.2 ht
    rw [List.nil_append] at hentries
    rw [List.append_cons] at h ⊢
    rw [List.flatMap_cons, List.cons_append, List.foldlM_cons, add_table hkey,
      Option.bind_eq_bind, Option.bind_some, List.foldlM_append, hentries]
    exact ih [t.1] (root ++ [headed t]) h hrest

end Draft

/-! ### Documents -/

/-- Keys with their values as they are read. -/
def nodesOf (entries : List (String × Scalar)) : Entries :=
  entries.map fun e => (e.1, e.2.node)

/-- The entries of a document as they are read. -/
def Document.nodes (d : Document) : Entries :=
  nodesOf d.settings ++ d.tables.map fun t => Draft.headed (t.1, nodesOf t.2)

/-- The line of a key and its value. -/
def lineOf (e : String × Scalar) : Line :=
  .assignment e.1 e.2

/-- The lines of a document. -/
def Document.lines (d : Document) : List Line :=
  d.settings.map lineOf ++ d.tables.flatMap fun t => .empty :: .header t.1 :: t.2.map lineOf

theorem fst_nodesOf (entries : List (String × Scalar)) :
    (nodesOf entries).map Prod.fst = entries.map Prod.fst := by
  rw [nodesOf, List.map_map]
  rfl

theorem flatMap_write_lineOf (entries : List (String × Scalar)) :
    (entries.map lineOf).flatMap Line.write = writeEntries entries := by
  rw [List.flatMap_map]
  rfl

theorem flatMap_statements_lineOf (entries : List (String × Scalar)) :
    (entries.map lineOf).flatMap Line.statements = (nodesOf entries).statements := by
  rw [List.flatMap_map, nodesOf, Entries.statements, List.map_map]
  exact List.map_eq_flatMap.symm

theorem format_eq (d : Document) : format d = String.ofList (d.lines.flatMap Line.write) := by
  have htable : ∀ t : String × List (String × Scalar),
      (Line.empty :: .header t.1 :: t.2.map lineOf).flatMap Line.write = writeTable t := by
    intro t
    rw [List.flatMap_cons, List.flatMap_cons, flatMap_write_lineOf]
    rfl
  rw [format, Document.lines, List.flatMap_append, flatMap_write_lineOf, List.flatMap_assoc]
  simp only [htable]

theorem flatMap_statements_lines (d : Document) :
    d.lines.flatMap Line.statements =
      (nodesOf d.settings).statements ++
        (d.tables.map fun t => (t.1, nodesOf t.2)).flatMap fun t =>
          .table [t.1] :: t.2.statements := by
  have htable : ∀ t : String × List (String × Scalar),
      (Line.empty :: .header t.1 :: t.2.map lineOf).flatMap Line.statements =
        .table [t.1] :: (nodesOf t.2).statements := by
    intro t
    rw [List.flatMap_cons, List.flatMap_cons, flatMap_statements_lineOf]
    rfl
  rw [Document.lines, List.flatMap_append, flatMap_statements_lineOf, List.flatMap_assoc,
    List.flatMap_map]
  simp only [htable]

/-- The lines of a document make its entries, since no key is given twice. -/
theorem ofStatements_lines (d : Document) :
    ofStatements (d.lines.flatMap Line.statements) = some d.nodes := by
  have hsettings : ((nodesOf d.settings).map Prod.fst).Nodup := by
    rw [fst_nodesOf]
    exact (List.nodup_append.mp d.distinct).1
  have hfirst : (nodesOf d.settings).statements.foldlM Draft.add {} =
      some ⟨[], nodesOf d.settings⟩ :=
    Draft.foldlM_add_statements [] (nodesOf d.settings) hsettings
  have hkeys : ((nodesOf d.settings ++
      (d.tables.map fun t => (t.1, nodesOf t.2)).map Draft.headed).map Prod.fst).Nodup := by
    rw [List.map_append, fst_nodesOf, List.map_map, List.map_map]
    exact d.distinct
  have hin : ∀ t ∈ d.tables.map fun t => (t.1, nodesOf t.2), (t.2.map Prod.fst).Nodup := by
    intro t ht
    obtain ⟨u, hu, rfl⟩ := List.mem_map.mp ht
    rw [fst_nodesOf]
    exact d.distinctInTables u hu
  rw [ofStatements, flatMap_statements_lines, List.foldlM_append, hfirst, Option.bind_eq_bind,
    Option.bind_some, Draft.foldlM_add_tables [] _ _ hkeys hin, List.map_map]
  rfl

theorem entryValues_eq_map (entries : Entries) :
    entryValues entries = entries.map fun e => (e.1, e.2.value) := by
  induction entries with
  | nil => rfl
  | cons e entries ih => rw [entryValues, ih, List.map_cons]

theorem entryValues_nodesOf (entries : List (String × Scalar)) :
    entryValues (nodesOf entries) = tableOf entries := by
  rw [entryValues_eq_map, nodesOf, tableOf, List.map_map]
  refine List.map_congr_left fun e _ => ?_
  show (e.1, e.2.node.value) = (e.1, e.2.value)
  cases e.2 <;> rfl

/-- What is read of a document is what it says. -/
theorem entryValues_nodes (d : Document) : entryValues d.nodes = d.table := by
  have htable : ∀ t : String × List (String × Scalar),
      Node.value (.table .header (nodesOf t.2)) = .table (tableOf t.2) := by
    intro t
    rw [Node.value, entryValues_nodesOf]
  rw [Document.nodes, entryValues_eq_map, List.map_append, ← entryValues_eq_map,
    entryValues_nodesOf, List.map_map, Document.table]
  simp only [Function.comp_def, Draft.headed, htable]

/-- No line begins with a mark of byte order. -/
theorem skipByteOrderMark_lines (lines : List Line) :
    skipByteOrderMark (lines.flatMap Line.write) = lines.flatMap Line.write := by
  have hkey : ∀ c, (c = '"' ∨ c = '\'' ∨ isBareChar c = true) → c.toNat ≠ 0xFEFF := by
    rintro c (rfl | rfl | hbare) hmark
    · exact absurd hmark (by decide)
    · exact absurd hmark (by decide)
    · obtain rfl : c = Char.ofNat 0xFEFF := by rw [← hmark, Char.ofNat_toNat]
      exact absurd hbare (by decide)
  cases lines with
  | nil => rfl
  | cons line lines =>
    rw [List.flatMap_cons]
    cases line with
    | assignment key value =>
      obtain ⟨c, cs, hcs, hc⟩ := exists_writeKey_eq key
      rw [Line.write, writeAssignment, hcs]
      exact if_neg (hkey c hc)
    | header key => rfl
    | empty => rfl

/-- **A document is read from its written form.** -/
theorem read?_format (d : Document) : read? (format d) = some d.table := by
  have hlength := length_le_flatMap_write d.lines
  rw [read?, readEntries?, format_eq, String.toList_ofList, skipByteOrderMark_lines,
    readLines_flatMap_write d.lines (Nat.lt_succ_of_le hlength), Option.bind_some,
    ofStatements_lines, Option.map_some, entryValues_nodes]

/-- **Writing and reading are faithful.** -/
theorem faithful_format : Faithful (fun d => .ok (format d)) read? where
  prints := fun d => ⟨format d, rfl⟩
  reads := by
    rintro d text ⟨⟩
    exact ⟨d.table, read?_format d, .refl d.table⟩

/-- What is printed is read back, if the quotes of the document could be counted. -/
theorem read?_of_print {d : Document} {text : String} (h : print d = .ok text) :
    read? text = some d.table := by
  rw [print] at h
  cases hcount : (d.settings ++ d.tables.flatMap Prod.snd).forM fun e => e.2.countQuotes with
  | error overflow =>
    rw [hcount] at h
    cases h
  | ok _ =>
    rw [hcount] at h
    obtain rfl : format d = text := Except.ok.inj h
    exact read?_format d

end DeclOutline.Toml
