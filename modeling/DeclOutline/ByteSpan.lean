import DeclOutline.Overflow
import DeclOutline.Text.Numeral

/-!
# Byte spans

Where a token lies in its text, as two byte offsets of 32 bits. Texts of 4 GiB and more are out
of reach: an offset keeps its low 32 bits, and arithmetic that would leave 32 bits is refused
rather than wrapped.
-/

namespace DeclOutline

/-- A half-open range of bytes. The bounds may come in either order. -/
structure ByteSpan where
  start : UInt32
  stop : UInt32
deriving DecidableEq

namespace ByteSpan

/-- The span between two byte offsets, each reduced to its low 32 bits. -/
def ofBounds (start stop : Nat) : ByteSpan :=
  ⟨UInt32.ofNat start, UInt32.ofNat stop⟩

/-- Whether the bounds coincide. -/
def isEmpty (s : ByteSpan) : Bool :=
  s.start == s.stop

/-- The number of bytes in the span; bounds in the wrong order overflow. -/
def length (s : ByteSpan) : Except Overflow UInt32 :=
  if s.start ≤ s.stop then .ok (s.stop - s.start) else .error .subtraction

/-- The span moved towards the end of the text by `offset` bytes; past the last offset it
overflows. -/
def shift (s : ByteSpan) (offset : UInt32) : Except Overflow ByteSpan :=
  if s.start.toNat + offset.toNat < UInt32.size ∧ s.stop.toNat + offset.toNat < UInt32.size then
    .ok ⟨s.start + offset, s.stop + offset⟩
  else .error .addition

/-- The written form `start..stop`. -/
def render (s : ByteSpan) : String :=
  Text.decimal s.start.toNat ++ ".." ++ Text.decimal s.stop.toNat

theorem toNat_start_ofBounds {start stop : Nat} (h : start < UInt32.size) :
    (ofBounds start stop).start.toNat = start := by
  simpa [ofBounds] using Nat.mod_eq_of_lt h

theorem toNat_stop_ofBounds {start stop : Nat} (h : stop < UInt32.size) :
    (ofBounds start stop).stop.toNat = stop := by
  simpa [ofBounds] using Nat.mod_eq_of_lt h

end ByteSpan

end DeclOutline
