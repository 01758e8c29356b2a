import DeclOutline.Toml.Value
import Mathlib.Data.List.Forall2
import Mathlib.Data.List.Nodup

/-!
# Tables up to the order of their keys

What a table says does not depend on the order of its keys, and nobody who prints or reads it has
to keep that order.

Printers and readers are given from outside. `Faithful` is all that is asked of them: that the
printer has a TOML text for every document of texts, booleans and tables of these, whatever the
texts and keys, and that the reader takes from it what the document says. Nothing is asked about
other values, or about the form of the text.

## Main definitions

* `Value.Same`, `Table.Same` — values and tables that differ in the order of keys alone
* `Faithful` — what is asked of a printer and a reader

## Main results

* `lookup_eq_some_iff_mem`, `lookup_perm` — what has a key, if no key is given twice
* `Table.Same.lookup` — what the keys of two tables have
-/

namespace DeclOutline.Toml

/-- Values that differ at most in the order of the keys of a table. -/
def Value.Same : Value → Value → Prop
  | .table entries, .table entries' => entries.Perm entries'
  | v, w => v = w

/-- Tables that differ at most in the order of their keys and of those of the tables in them. -/
def Table.Same (t t' : Table) : Prop :=
  ∃ u, t.Perm u ∧ List.Forall₂ (fun e f => e.1 = f.1 ∧ e.2.Same f.2) u t'

/-- A printer and a reader keep what plain documents say: there is a text for every document, and
the document is read from it, but for the order of keys. -/
structure Faithful (print : Printer) (read : Reader) : Prop where
  prints : ∀ d, ∃ text, print d = .ok text
  reads : ∀ d text, print d = .ok text → ∃ t, read text = some t ∧ d.table.Same t

/-- Values other than tables are the same only if they are equal. -/
theorem Value.Same.eq_or_tables {v w : Value} (h : v.Same w) :
    v = w ∨ ∃ es fs, v = .table es ∧ w = .table fs ∧ es.Perm fs := by
  cases v with
  | table es =>
    cases w with
    | table fs => exact .inr ⟨es, fs, rfl, rfl, h⟩
    | _ => cases h
  | _ => exact .inl h

theorem Value.Same.refl (v : Value) : v.Same v := by
  cases v with
  | table entries => exact List.Perm.refl entries
  | _ => rfl

theorem Table.Same.refl (t : Table) : t.Same t :=
  ⟨t, .refl t, List.forall₂_same.mpr fun e _ => ⟨rfl, .refl e.2⟩⟩

/-! ### Keys that are given once -/

section Lookup

variable {α : Type} {t u : List (String × α)} {key : String} {value : α}

theorem lookup_eq_some_iff_mem (h : (t.map Prod.fst).Nodup) :
    t.lookup key = some value ↔ (key, value) ∈ t := by
  induction t with
  | nil => simp
  | cons e t ih =>
    obtain ⟨hnew, hrest⟩ := List.nodup_cons.mp h
    rw [List.lookup_cons, List.mem_cons]
    by_cases hkey : key = e.1
    · have hnot : (key, value) ∉ t := fun hmem => hnew (hkey ▸ List.mem_map_of_mem hmem)
      rw [beq_iff_eq.mpr hkey, or_iff_left hnot, Option.some.injEq, Prod.ext_iff]
      exact ⟨fun h => ⟨hkey, h.symm⟩, fun h => h.2.symm⟩
    · have hne : (key, value) ≠ e := fun heq => hkey (congrArg Prod.fst heq)
      rw [beq_eq_false_iff_ne.mpr hkey, ih hrest, or_iff_right hne]

/-- The order of keys does not matter to what a key has. -/
theorem lookup_perm (hperm : t.Perm u) (h : (t.map Prod.fst).Nodup) (key : String) :
    t.lookup key = u.lookup key := by
  refine Option.ext fun value => ?_
  have h' : (u.map Prod.fst).Nodup := (hperm.map Prod.fst).nodup_iff.mp h
  rw [lookup_eq_some_iff_mem h, lookup_eq_some_iff_mem h', hperm.mem_iff]

end Lookup

namespace Table.Same

variable {t t' : Table}

/-- The keys are those of the other table in some order. -/
theorem perm_keys (h : t.Same t') : (t.map Prod.fst).Perm (t'.map Prod.fst) := by
  obtain ⟨u, hperm, hsame⟩ := h
  have hkeys : u.map Prod.fst = t'.map Prod.fst := by
    clear hperm
    induction hsame with
    | nil => rfl
    | cons hhead _ ih => rw [List.map_cons, List.map_cons, hhead.1, ih]
  exact hkeys ▸ hperm.map Prod.fst

/-- **A key has the same value in both tables**, or in neither. -/
theorem lookup (h : t.Same t') (hnodup : (t.map Prod.fst).Nodup) (key : String) :
    Option.Rel Value.Same (t.lookup key) (t'.lookup key) := by
  obtain ⟨u, hperm, hsame⟩ := h
  rw [lookup_perm hperm hnodup]
  clear hperm hnodup
  induction hsame with
  | nil => exact .none
  | @cons e f _ _ hhead _ ih =>
    rw [List.lookup_cons, List.lookup_cons, hhead.1]
    split
    · exact .some hhead.2
    · exact ih

end Table.Same

end DeclOutline.Toml
