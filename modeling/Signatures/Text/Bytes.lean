/-!
# Byte positions in text

Offsets into a text count the bytes of its UTF-8 form. A text is held as its list of characters; an
offset is a position of the text only where it falls between two characters.
-/

namespace Signatures.Text

def byteSize : List Char → Nat
  | [] => 0
  | c :: cs => c.utf8Size + byteSize cs

@[simp]
theorem byteSize_nil : byteSize [] = 0 := rfl

@[simp]
theorem byteSize_cons (c : Char) (cs : List Char) :
    byteSize (c :: cs) = c.utf8Size + byteSize cs := rfl

@[simp]
theorem byteSize_append (cs ds : List Char) : byteSize (cs ++ ds) = byteSize cs + byteSize ds := by
  induction cs with
  | nil => simp
  | cons c cs ih => simp [ih, Nat.add_assoc]

/-- The texts before and after a byte offset, where that offset is a position of the text. -/
def cut? : Nat → List Char → Option (List Char × List Char)
  | 0, cs => some ([], cs)
  | _ + 1, [] => none
  | n + 1, c :: cs =>
    if c.utf8Size ≤ n + 1 then
      (cut? (n + 1 - c.utf8Size) cs).map fun (before, after) => (c :: before, after)
    else none

theorem cut?_byteSize_append (cs ds : List Char) : cut? (byteSize cs) (cs ++ ds) = some (cs, ds) := by
  induction cs with
  | nil => simp [cut?]
  | cons c cs ih =>
    have hc : 0 < c.utf8Size := c.utf8Size_pos
    obtain ⟨n, hn⟩ : ∃ n, c.utf8Size + byteSize cs = n + 1 := ⟨c.utf8Size + byteSize cs - 1, by omega⟩
    have hrest : n + 1 - c.utf8Size = byteSize cs := by omega
    have hle : c.utf8Size ≤ n + 1 := by omega
    simp [hn, cut?, hrest, hle, ih]

/-- The text from one byte offset to another, where both are positions of it in this order. -/
def slice? (cs : List Char) (start stop : Nat) : Option (List Char) :=
  if start ≤ stop then
    match cut? start cs with
    | none => none
    | some (_, after) => (cut? (stop - start) after).map Prod.fst
  else none

theorem slice?_middle (before middle after : List Char) :
    slice? (before ++ (middle ++ after)) (byteSize before) (byteSize before + byteSize middle) =
      some middle := by
  simp [slice?, cut?_byteSize_append]

/-- A text without the characters at its end that satisfy `p`. -/
def dropRight (p : Char → Bool) (cs : List Char) : List Char :=
  (cs.reverse.dropWhile p).reverse

theorem dropRight_append_takeWhile (p : Char → Bool) (cs : List Char) :
    dropRight p cs ++ (cs.reverse.takeWhile p).reverse = cs := by
  rw [dropRight, ← List.reverse_append, List.takeWhile_append_dropWhile, List.reverse_reverse]

def contains (part : List Char) : List Char → Bool
  | [] => part.isEmpty
  | c :: cs => part.isPrefixOf (c :: cs) || contains part cs

/-- The lines of a text, each with the line feed that ends it; the last may have none. -/
def lines : List Char → List (List Char)
  | [] => []
  | c :: cs =>
    if c = '\n' then [c] :: lines cs
    else
      match lines cs with
      | [] => [[c]]
      | line :: rest => (c :: line) :: rest

theorem flatten_lines (cs : List Char) : (lines cs).flatten = cs := by
  induction cs with
  | nil => rfl
  | cons c cs ih =>
    unfold lines
    split
    · simp [ih]
    · split
      · next h => simpa [h] using ih
      · next h => simpa [h] using ih

end Signatures.Text
