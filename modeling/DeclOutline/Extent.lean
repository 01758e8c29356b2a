import DeclOutline.Text.Numeral

/-!
# Extents

An extent is a half-open range of token indices. Any two numbers make an extent: it may be empty,
inverted, or reach past the last token, and every operation on it is total. What holds of
well-placed extents only is a hypothesis of the theorem that says so.
-/

namespace DeclOutline

/-- The token indices from `start` up to, but not including, `stop`. -/
structure Extent where
  start : Nat
  stop : Nat
deriving DecidableEq

namespace Extent

/-- The largest index: indices have 64 bits. -/
def maxIndex : Nat :=
  UInt64.size - 1

/-- The empty extent at an index. -/
def collapsed (index : Nat) : Extent :=
  ⟨index, index⟩

/-- The number of indices; none if the bounds are in the wrong order. -/
def length (e : Extent) : Nat :=
  e.stop - e.start

/-- Whether there is no index in the extent. -/
def isEmpty (e : Extent) : Bool :=
  e.stop ≤ e.start

/-- Whether the extent has the index. -/
def contains (e : Extent) (index : Nat) : Bool :=
  e.start ≤ index && index < e.stop

/-- Whether another extent, with its bounds in order, lies inside this one. -/
def encloses (e other : Extent) : Bool :=
  e.start ≤ other.start && other.stop ≤ e.stop && other.start ≤ other.stop

/-- The indices of the extent in increasing order. -/
def indices (e : Extent) : List Nat :=
  List.range' e.start (e.stop - e.start)

/-- The written form `[start, stop)`. -/
def render (e : Extent) : String :=
  "[" ++ Text.decimal e.start ++ ", " ++ Text.decimal e.stop ++ ")"

@[simp] theorem length_collapsed (index : Nat) : (collapsed index).length = 0 := by
  simp [collapsed, length]

@[simp] theorem length_indices (e : Extent) : e.indices.length = e.length := by
  simp [indices, length]

theorem contains_iff {e : Extent} {index : Nat} :
    e.contains index = true ↔ e.start ≤ index ∧ index < e.stop := by
  simp [contains]

theorem encloses_iff {e other : Extent} :
    e.encloses other = true ↔
      e.start ≤ other.start ∧ other.stop ≤ e.stop ∧ other.start ≤ other.stop := by
  simp [encloses, and_assoc]

@[simp] theorem mem_indices {e : Extent} {index : Nat} :
    index ∈ e.indices ↔ e.start ≤ index ∧ index < e.stop := by
  simp only [indices, List.mem_range'_1]
  omega

end Extent

end DeclOutline
