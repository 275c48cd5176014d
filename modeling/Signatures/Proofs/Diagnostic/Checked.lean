import Signatures.Diagnostic
import Signatures.Proofs.Text.LineRanges

/-!
# Formatting with checks

A diagnostic is formatted from entries of the line index, slices of the text and differences of columns.
With each of these checked, formatting fails where an entry is missing, where the ends of a slice are no
positions of the text in order, and where a difference is below zero. This never happens, whatever the span
is, and the checks change nothing.
-/

namespace Signatures

open Text

def difference? (m n : Nat) : Option Nat := if n ≤ m then some (m - n) else none

theorem difference?_of_le {m n : Nat} (h : n ≤ m) : difference? m n = some (m - n) := if_pos h

theorem mapM_eq_some_map {α β : Type} {f : α → Option β} {g : α → β} {l : List α}
    (h : ∀ a ∈ l, f a = some (g a)) : l.mapM f = some (l.map g) := by
  induction l with
  | nil => rfl
  | cons a l ih =>
    rw [List.mapM_cons, h a List.mem_cons_self, ih fun b hb => h b (List.mem_cons_of_mem a hb)]
    rfl

namespace LineIndex

def position? (index : LineIndex) (offset : Nat) : Option Position := do
  let upTo := index.starts.takeWhile (· ≤ offset)
  let distance ← difference? offset (← upTo.getLast?)
  return ⟨upTo.length, distance + 1⟩

/-- The line index of a text has a position for every offset. -/
theorem position?_ofText (source : List Char) (offset : Nat) :
    (ofText source).position? offset = some ((ofText source).position offset) := by
  rcases getLast?_takeWhile_starts source offset with ⟨start, hstart, hle⟩
  simp only [position?, position, hstart, List.getLastD_eq_getLast?, Option.getD_some, Option.bind_eq_bind,
    Option.bind_some, difference?_of_le hle, Option.pure_def]

end LineIndex

namespace Diagnostic

/-- The marks below a line, where there is room for one. -/
def marks? (first last : Nat) : Option String := do
  let waves ← difference? (max (last - first) 1) 1
  return repeated first ' ' ++ "^" ++ repeated waves '~'

/-- The rows for a line of a snippet, where it is a line of the text. -/
def lineRows? (source : List Char) (index : LineIndex) (first last : Position) (width line : Nat) :
    Option String := do
  let (start, stop?) ← index.range? line
  let stop := (stop?.map (min · (byteSize source))).getD (byteSize source)
  let text ← slice? source start stop
  let firstMark ← (if line = first.line then difference? first.column 1 else some 0)
  let lastMark ← (if line = last.line then difference? last.column 1 else some text.length)
  let marks ← marks? firstMark lastMark
  return row width (toString line) (" " ++ String.ofList text) ++ row width "" (" " ++ marks)

def snippet? (source : List Char) (span : Span) : Option String := do
  let index := LineIndex.ofText source
  let first ← index.position? span.start
  let last ← index.position? span.stop
  let width := (toString last.line).length
  let rows ← (List.range' first.line (last.line + 1 - first.line)).mapM
    (lineRows? source index first last width)
  return row width "" "" ++ String.join rows ++ row width "" ""

/-- A diagnostic with the lines of the text that it is about. -/
def format? (d : Diagnostic) (source : String) : Option String := do
  let position ← (LineIndex.ofText source.toList).position? d.span.start
  let rows ← snippet? source.toList d.span
  return s!"{d.severity.word}: {d.message}\n" ++
    s!"  --> {d.filename}:{position.line}:{position.column}\n" ++
    rows ++
    String.join (d.notes.map fun note => s!"note: {note}\n") ++
    match d.help with
    | some help => s!"help: {help}\n"
    | none => ""

theorem marks?_eq_some (first last : Nat) : marks? first last = some (marks first last) := by
  have hwaves : max (last - first) 1 - 1 = last - first - 1 := by omega
  rw [marks?, difference?_of_le (Nat.le_max_right _ 1), hwaves]
  rfl

theorem lineMarks?_of_isLine {source before body after : List Char} (h : IsLine source before body after)
    (first last : Position) :
    let line := before.count '\n' + 1
    lineMarks? source (LineIndex.ofText source) first last line =
      some (String.ofList body, if line = first.line then first.column - 1 else 0,
        if line = last.line then last.column - 1 else body.length) := by
  intro line
  have hrange := LineIndex.range?_of_isLine h
  have hslice := LineIndex.slice?_line before body after
  rw [← h.source_eq] at hslice
  cases hafter : after.head? <;>
    simp only [hafter, Option.map_some, Option.map_none, Option.getD_some, Option.getD_none]
      at hrange hslice <;>
    simp only [lineMarks?, line, hrange, hslice, Option.getD_some]

theorem lineRows?_eq_some {source : List Char} {first last : Position} {line : Nat} (width : Nat)
    (hfirst : 1 ≤ first.column) (hlast : 1 ≤ last.column) (hpos : 1 ≤ line)
    (hle : line ≤ source.count '\n' + 1) :
    lineRows? source (LineIndex.ofText source) first last width line =
      some (lineRows source (LineIndex.ofText source) first last width line) := by
  rcases LineIndex.exists_slice?_of_line hpos hle with ⟨start, stop?, body, hrange, hslice⟩
  have hfirstMark : (if line = first.line then difference? first.column 1 else some 0) =
      some (if line = first.line then first.column - 1 else 0) := by
    rw [difference?_of_le hfirst]
    split <;> rfl
  have hlastMark : (if line = last.line then difference? last.column 1 else some body.length) =
      some (if line = last.line then last.column - 1 else body.length) := by
    rw [difference?_of_le hlast]
    split <;> rfl
  cases stop? <;>
    simp only [Option.map_some, Option.map_none, Option.getD_some, Option.getD_none] at hslice <;>
    simp only [lineRows?, lineRows, lineMarks?, hrange, hslice, hfirstMark, hlastMark, marks?_eq_some,
      Option.map_some, Option.map_none, Option.getD_some, Option.getD_none, Option.bind_eq_bind,
      Option.bind_some, Option.pure_def]

theorem mapM_lineRows? (source : List Char) (start stop width : Nat) :
    let first := (LineIndex.ofText source).position start
    let last := (LineIndex.ofText source).position stop
    let lines := List.range' first.line (last.line + 1 - first.line)
    lines.mapM (lineRows? source (LineIndex.ofText source) first last width) =
      some (lines.map (lineRows source (LineIndex.ofText source) first last width)) := by
  intro first last lines
  apply mapM_eq_some_map
  intro line hline
  have hfirst : 1 ≤ first.line := (LineIndex.position_line_bounds source start).1
  have hlast : last.line ≤ source.count '\n' + 1 := (LineIndex.position_line_bounds source stop).2
  have hbounds := List.mem_range'_1.mp hline
  have hpos : 1 ≤ line := by omega
  have hle : line ≤ source.count '\n' + 1 := by omega
  exact lineRows?_eq_some width (Nat.succ_pos _) (Nat.succ_pos _) hpos hle

theorem snippet?_eq_some (source : List Char) (span : Span) :
    snippet? source span = some (snippet source span) := by
  simp only [snippet?, snippet, LineIndex.position?_ofText, mapM_lineRows?, Option.bind_eq_bind,
    Option.bind_some, Option.pure_def]

theorem format?_eq_some (d : Diagnostic) (source : String) : d.format? source = some (d.format source) := by
  rw [format?, LineIndex.position?_ofText, snippet?_eq_some]
  rfl

end Diagnostic

end Signatures
