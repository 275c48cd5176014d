/-!
# Spans

A span is a half-open range of byte offsets of a text.
-/

namespace Signatures

/-- The byte offsets from `start` up to, but not including, `stop`. -/
structure Span where
  start : Nat
  stop : Nat
  deriving DecidableEq, Repr

namespace Span

def point (offset : Nat) : Span := ⟨offset, offset⟩

/-- The number of bytes in a span; none where it ends before it starts. -/
def length (s : Span) : Nat := s.stop - s.start

def isEmpty (s : Span) : Bool := s.length == 0

def shift (s : Span) (distance : Nat) : Span := ⟨distance + s.start, distance + s.stop⟩

def render (s : Span) : String := s!"{s.start}..{s.stop}"

end Span

end Signatures
