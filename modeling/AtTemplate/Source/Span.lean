/-!
# AtTemplate.Source.Span

A stretch of the source, as the byte offsets of its two ends.
-/

namespace AtTemplate

/-- The bytes from `start` up to but not including `stop`. -/
structure Span where
  start : Nat
  stop : Nat
  deriving DecidableEq, Repr

namespace Span

/-- The stretch of `n` bytes that begins at `start`. -/
def ofLength (start n : Nat) : Span :=
  ⟨start, start + n⟩

/-- The stretch moved `n` bytes to the right. -/
def shift (s : Span) (n : Nat) : Span :=
  ⟨s.start + n, s.stop + n⟩

end Span

end AtTemplate
