/-!
# Line index

Where the lines of a text start, in bytes. Lines and columns count from one, and a column counts the
bytes of its line.
-/

namespace Signatures

/-- The byte offsets at which the lines of a text start, in order. -/
structure LineIndex where
  starts : List Nat
  deriving DecidableEq, Repr

/-- A line and a column of a text, both counted from one. -/
structure Position where
  line : Nat
  column : Nat
  deriving DecidableEq, Repr

namespace LineIndex

/-- The starts of the lines after the first, for a text that stands at `offset`. -/
def laterStarts (offset : Nat) : List Char → List Nat
  | [] => []
  | c :: cs =>
    let next := offset + c.utf8Size
    if c = '\n' then next :: laterStarts next cs else laterStarts next cs

def ofText (cs : List Char) : LineIndex := ⟨0 :: laterStarts 0 cs⟩

/-- The position of a byte offset: an offset beyond the text is on its last line. -/
def position (index : LineIndex) (offset : Nat) : Position :=
  let upTo := index.starts.takeWhile (· ≤ offset)
  ⟨upTo.length, offset - upTo.getLastD 0 + 1⟩

/-- The byte offsets at which a line starts and ends, its line feed left out. The last line has no
end of its own: it goes on to the end of the text. -/
def range? (index : LineIndex) (line : Nat) : Option (Nat × Option Nat) :=
  if line = 0 then none
  else (index.starts[line - 1]?).map fun start => (start, (index.starts[line]?).map (· - 1))

end LineIndex

end Signatures
