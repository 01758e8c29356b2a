/-!
# Overflow

Offsets, indices and counters are numbers of a fixed width. Arithmetic that would leave its width
is refused rather than wrapped, and this is the cause that is given. The arithmetic itself is that
of the natural numbers; a check stands only where a caller's numbers can reach the width.
-/

namespace DeclOutline

/-- Arithmetic whose result does not fit. -/
inductive Overflow where
  /-- A difference below zero. -/
  | subtraction
  /-- A sum past the largest number. -/
  | addition
deriving DecidableEq

namespace Overflow

/-- The wording of an overflow. -/
def message : Overflow → String
  | subtraction => "attempt to subtract with overflow"
  | addition => "attempt to add with overflow"

end Overflow

end DeclOutline
