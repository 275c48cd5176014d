import Signatures.Proofs.Diagnostic.InBounds
import Signatures.Proofs.Text.LineRanges

/-!
# The underline of a span in one line

A span whose ends are on one line is shown with that line and one row of marks below it. The row is
counted in bytes: it is indented by the bytes of the line before the span and has a mark for each byte in
the span. What it marks are the characters of the span as long as these, and those before them on the
line, take one byte each, and no longer.
-/

namespace Signatures

open Text

namespace Text

theorem length_le_byteSize (cs : List Char) : cs.length ≤ byteSize cs := by
  induction cs with
  | nil => exact Nat.le_refl 0
  | cons c cs ih =>
    have hc := c.utf8Size_pos
    rw [List.length_cons, byteSize_cons]
    omega

theorem byteSize_eq_length_iff {cs : List Char} : byteSize cs = cs.length ↔ ∀ c ∈ cs, c.utf8Size = 1 := by
  induction cs with
  | nil => simp
  | cons c cs ih =>
    have hc := c.utf8Size_pos
    have hcs := length_le_byteSize cs
    rw [List.forall_mem_cons, ← ih, List.length_cons, byteSize_cons]
    omega

end Text

/-- A text with a span in one of its lines: the lines before that one, the parts of it before, in and
behind the span, and what comes after it. -/
structure SpannedLine where
  before : List Char
  head : List Char
  marked : List Char
  tail : List Char
  after : List Char
  endsLine : EndsLine before
  no_feed : '\n' ∉ head ++ (marked ++ tail)
  feed_after : ∀ c ∈ after.head?, c = '\n'

namespace SpannedLine

variable (line : SpannedLine)

def text : List Char := line.head ++ (line.marked ++ line.tail)

def source : List Char := line.before ++ (line.text ++ line.after)

def span : Span :=
  ⟨byteSize line.before + byteSize line.head,
    byteSize line.before + (byteSize line.head + byteSize line.marked)⟩

def number : Nat := line.before.count '\n' + 1

/-- A span in bounds whose ends are on one line is in a line of the text. -/
theorem exists_of_inBounds {source : List Char} {span : Span} (hspan : span.InBounds source)
    (hline : ((LineIndex.ofText source).position span.start).line =
      ((LineIndex.ofText source).position span.stop).line) :
    ∃ line : SpannedLine, source = line.source ∧ span = line.span := by
  rcases hspan.liesIn with ⟨upTo, marked, rest, rfl, rfl⟩
  have hmarked : '\n' ∉ marked := by
    rw [Nat.zero_add, ← byteSize_append, LineIndex.line_position_byteSize, ← List.append_assoc,
      LineIndex.line_position_byteSize, List.count_append] at hline
    apply List.count_eq_zero.mp
    omega
  rcases exists_lastLine upTo with ⟨before, head, rfl, hends, hhead⟩
  rcases exists_firstLine rest with ⟨tail, after, rfl, htail, hafter⟩
  have hfeed : '\n' ∉ head ++ (marked ++ tail) := by
    simp only [List.mem_append, not_or]
    exact ⟨hhead, hmarked, htail⟩
  refine ⟨⟨before, head, marked, tail, after, hends, hfeed, hafter⟩, ?_, ?_⟩
  · simp [source, text]
  · simp [span, Nat.add_assoc]

theorem isLine : IsLine line.source line.before line.text line.after :=
  ⟨rfl, line.endsLine, line.no_feed, line.feed_after⟩

theorem position_add {offset : Nat} (h : offset ≤ byteSize line.text) :
    (LineIndex.ofText line.source).position (byteSize line.before + offset) =
      ⟨line.number, offset + 1⟩ := by
  have hstop := Nat.add_le_add_left h (byteSize line.before)
  have hposition := LineIndex.position_of_isLine line.isLine (Nat.le_add_right _ offset) hstop
  rwa [Nat.add_sub_cancel_left] at hposition

theorem position_start :
    (LineIndex.ofText line.source).position line.span.start = ⟨line.number, byteSize line.head + 1⟩ := by
  apply line.position_add
  rw [text, byteSize_append]
  omega

theorem position_stop :
    (LineIndex.ofText line.source).position line.span.stop =
      ⟨line.number, byteSize line.head + byteSize line.marked + 1⟩ := by
  apply line.position_add
  rw [text, byteSize_append, byteSize_append]
  omega

end SpannedLine

namespace Diagnostic

/-- A row of marks: as many columns as are left free, then a caret and waves, at least one mark. -/
def underline (free count : Nat) : String :=
  repeated free ' ' ++ "^" ++ repeated (max 1 count - 1) '~'

def framed (d : Diagnostic) (line column : Nat) (text : List Char) (marks : String) : String :=
  let width := (toString line).length
  s!"{d.severity.word}: {d.message}\n" ++
    s!"  --> {d.filename}:{line}:{column}\n" ++
    (row width "" "" ++
      (row width (toString line) (" " ++ String.ofList text) ++ row width "" (" " ++ marks)) ++
      row width "" "") ++
    String.join (d.notes.map fun note => s!"note: {note}\n") ++
    match d.help with
    | some help => s!"help: {help}\n"
    | none => ""

theorem underline_inj {free free' count count' : Nat} :
    underline free count = underline free' count' ↔ free = free' ∧ max 1 count = max 1 count' := by
  have htoList (free count : Nat) : (underline free count).toList =
      List.replicate free ' ' ++ '^' :: List.replicate (max 1 count - 1) '~' := by
    simp [underline, repeated]
  constructor
  · intro h
    have hlist := congrArg String.toList h
    rw [htoList, htoList] at hlist
    have hfree : free = free' := by
      simpa [List.count_replicate] using congrArg (List.count ' ') hlist
    have hwaves : max 1 count - 1 = max 1 count' - 1 := by
      simpa [List.count_replicate] using congrArg (List.count '~') hlist
    exact ⟨hfree, by omega⟩
  · rintro ⟨rfl, hcount⟩
    rw [underline, underline, hcount]

theorem framed_inj {d : Diagnostic} {line column : Nat} {text : List Char} {marks marks' : String} :
    d.framed line column text marks = d.framed line column text marks' ↔ marks = marks' := by
  simp [framed, row, String.append_right_inj, String.append_left_inj]

section

variable (line : SpannedLine)

theorem lineRows_spannedLine (width : Nat) :
    lineRows line.source (LineIndex.ofText line.source)
        ((LineIndex.ofText line.source).position line.span.start)
        ((LineIndex.ofText line.source).position line.span.stop) width line.number =
      row width (toString line.number) (" " ++ String.ofList line.text) ++
        row width "" (" " ++ underline (byteSize line.head) (byteSize line.marked)) := by
  have hmarks : marks (byteSize line.head) (byteSize line.head + byteSize line.marked) =
      underline (byteSize line.head) (byteSize line.marked) := by
    have hwaves : byteSize line.head + byteSize line.marked - byteSize line.head - 1 =
        max 1 (byteSize line.marked) - 1 := by omega
    rw [marks, hwaves]
    rfl
  rw [line.position_start, line.position_stop, lineRows, SpannedLine.number, lineMarks?_of_isLine line.isLine]
  simp only [if_true, Nat.add_sub_cancel, hmarks]

/-- The snippet for a span in a line is that line, with a mark below it for each byte of the span. -/
theorem snippet_spannedLine :
    let width := (toString line.number).length
    snippet line.source line.span =
      row width "" "" ++
        (row width (toString line.number) (" " ++ String.ofList line.text) ++
          row width "" (" " ++ underline (byteSize line.head) (byteSize line.marked))) ++
        row width "" "" := by
  intro width
  have hlines : List.range' line.number (line.number + 1 - line.number) = [line.number] := by
    rw [Nat.add_sub_cancel_left, List.range'_one]
  have hrows := lineRows_spannedLine line width
  rw [line.position_start, line.position_stop] at hrows
  simp only [snippet, line.position_start, line.position_stop, hlines, List.map_cons, List.map_nil,
    String.join_cons, String.join_nil, String.append_empty]
  rw [hrows]

variable {line} {d : Diagnostic} {source : String}

theorem format_spannedLine (hsource : source.toList = line.source) (hspan : d.span = line.span) :
    d.format source = d.framed line.number (byteSize line.head + 1) line.text
      (underline (byteSize line.head) (byteSize line.marked)) := by
  rw [format, hsource, hspan, snippet_spannedLine, line.position_start]
  rfl

/-- The row of marks for the characters of the span is the one that is shown where all characters of the
line up to the end of the span take one byte. -/
theorem format_eq_framed_iff (hsource : source.toList = line.source) (hspan : d.span = line.span) :
    d.format source = d.framed line.number (byteSize line.head + 1) line.text
        (underline line.head.length line.marked.length) ↔
      ∀ c ∈ line.head ++ line.marked, c.utf8Size = 1 := by
  have hhead := length_le_byteSize line.head
  have hmarked := length_le_byteSize line.marked
  -- A span without characters has no bytes, so its one mark is the same in both ways of counting.
  have hempty : line.marked.length = 0 → byteSize line.marked = 0 := by
    intro h
    rw [List.length_eq_zero_iff.mp h, byteSize_nil]
  rw [format_spannedLine hsource hspan, framed_inj, underline_inj, ← byteSize_eq_length_iff,
    byteSize_append, List.length_append]
  omega

end

/-- A span in bounds whose ends are on one line is underlined below that line, by its bytes: the row of
marks leaves a column free for each byte of the line before the span, and has a mark for each byte in it.
It is the row that leaves a column free for each character, and has a mark for each, exactly where all
characters of the line up to the end of the span take one byte. -/
theorem underline_counts_bytes (d : Diagnostic) (source : String) (hspan : d.span.InBounds source.toList)
    (hline : ((LineIndex.ofText source.toList).position d.span.start).line =
      ((LineIndex.ofText source.toList).position d.span.stop).line) :
    ∃ line : SpannedLine, source.toList = line.source ∧ d.span = line.span ∧
      d.format source = d.framed line.number (byteSize line.head + 1) line.text
        (underline (byteSize line.head) (byteSize line.marked)) ∧
      (d.format source = d.framed line.number (byteSize line.head + 1) line.text
          (underline line.head.length line.marked.length) ↔
        ∀ c ∈ line.head ++ line.marked, c.utf8Size = 1) := by
  rcases SpannedLine.exists_of_inBounds hspan hline with ⟨line, hsource, hd⟩
  exact ⟨line, hsource, hd, format_spannedLine hsource hd, format_eq_framed_iff hsource hd⟩

theorem underline_counts_bytes_of_accent :
    let d : Diagnostic := ⟨.lex, .error, "unrecognized character 'é'", ⟨8, 10⟩, "types", [], none⟩
    d.span.InBounds "é\nlist<é>".toList ∧
      ((LineIndex.ofText "é\nlist<é>".toList).position 8).line =
        ((LineIndex.ofText "é\nlist<é>".toList).position 10).line ∧
      ∃ line : SpannedLine, "é\nlist<é>".toList = line.source ∧ d.span = line.span ∧
        d.format "é\nlist<é>" = d.framed line.number (byteSize line.head + 1) line.text
          (underline (byteSize line.head) (byteSize line.marked)) ∧
        (d.format "é\nlist<é>" = d.framed line.number (byteSize line.head + 1) line.text
            (underline line.head.length line.marked.length) ↔
          ∀ c ∈ line.head ++ line.marked, c.utf8Size = 1) := by
  intro d
  have hspan : d.span.InBounds "é\nlist<é>".toList :=
    Span.LiesIn.inBounds ⟨"é\nlist<".toList, ['é'], ['>'], by decide +kernel, by decide +kernel⟩
  have hline : ((LineIndex.ofText "é\nlist<é>".toList).position 8).line =
      ((LineIndex.ofText "é\nlist<é>".toList).position 10).line := by decide +kernel
  exact ⟨hspan, hline, underline_counts_bytes d "é\nlist<é>" hspan hline⟩

/-- The fault of a signature with such a character is shown with two marks below it, not one. -/
theorem accent_underlined_twice :
    let d : Diagnostic := ⟨.lex, .error, "unrecognized character 'é'", ⟨5, 7⟩, "types", [], none⟩
    (Listing.check .builtin "list<é>" "types").map Diagnostic.span = [d.span] ∧
      d.format "list<é>" = d.framed 1 6 "list<é>".toList (underline 5 2) ∧
      d.format "list<é>" ≠ d.framed 1 6 "list<é>".toList (underline "list<".length "é".length) := by
  decide +kernel

end Diagnostic

end Signatures
