import Mathlib.Data.List.Basic
import Signatures.Proofs.Diagnostic.Checked
import Signatures.Proofs.Text.Coordinates
import Signatures.Text.Decimal

/-!
# Reading a snippet

What a diagnostic prints of its text can be read back. Cut into its rows, a snippet has the bar of every row
in the same column. The rows with a number before the bar number the lines that the span touches, one after
the other, and behind their bars stands the text of these lines.
-/

namespace Signatures

open Text

namespace Text

theorem length_toDigits_le_of_le {m n : Nat} (h : m ≤ n) :
    (Nat.toDigits 10 m).length ≤ (Nat.toDigits 10 n).length := by
  rw [Nat.length_toDigits_le_iff (by decide) Nat.length_toDigits_pos]
  exact Nat.lt_of_le_of_lt h ((Nat.length_toDigits_le_iff (by decide) Nat.length_toDigits_pos).mp (Nat.le_refl _))

/-- A text is cut at the lines from one number to another: there are the lines before them, their text up to
the line feed that ends the last of them, and what comes after it. -/
structure IsBlock (source : List Char) (first last : Nat) (before block after : List Char) : Prop where
  source_eq : source = before ++ (block ++ after)
  endsLine : EndsLine before
  feed_after : ∀ c ∈ after.head?, c = '\n'
  first_eq : first = before.count '\n' + 1
  last_eq : last = (before ++ block).count '\n' + 1

def IsNumbered (source : List Char) (line : Nat × List Char) : Prop :=
  ∃ before after, IsLine source before line.2 after ∧ line.1 = before.count '\n' + 1

/-- From one line on, as many lines as are asked for stand in a text one after the other, with a line feed
between each two. -/
theorem IsLine.exists_block {source before body after : List Char} (h : IsLine source before body after)
    {count : Nat} (hcount : count ≤ after.count '\n') :
    ∃ block rest, ∃ numbered : List (Nat × List Char), body ++ after = block ++ rest ∧
      (∀ c ∈ rest.head?, c = '\n') ∧ block.count '\n' = count ∧
      (∀ line ∈ numbered, IsNumbered source line) ∧
      numbered.map Prod.fst = List.range' (before.count '\n' + 1) (count + 1) ∧
      ['\n'].intercalate (numbered.map Prod.snd) = block := by
  induction h using IsLine.rec_next generalizing count with
  | last before body h =>
    rw [List.count_nil] at hcount
    cases Nat.le_zero.mp hcount
    refine ⟨body, [], [(before.count '\n' + 1, body)], rfl, nofun, List.count_eq_zero_of_not_mem h.no_feed, ?_, rfl,
      List.intercalate_singleton⟩
    intro line hline
    cases List.mem_singleton.mp hline
    exact ⟨before, [], h, rfl⟩
  | next before body body' after' h hnext ih =>
    have hfirst : IsNumbered source (before.count '\n' + 1, body) := ⟨before, _, h, rfl⟩
    cases count with
    | zero =>
      refine ⟨body, _, [(before.count '\n' + 1, body)], rfl, h.feed_after,
        List.count_eq_zero_of_not_mem h.no_feed, ?_, rfl, List.intercalate_singleton⟩
      intro line hline
      cases List.mem_singleton.mp hline
      exact hfirst
    | succ count =>
      rw [List.count_cons_self, List.count_append, List.count_eq_zero_of_not_mem hnext.no_feed,
        Nat.zero_add] at hcount
      rcases ih (Nat.le_of_succ_le_succ hcount) with
        ⟨block, rest, numbered, hsplit, hrest, hblock, hnumbered, hnumbers, htext⟩
      refine ⟨body ++ '\n' :: block, rest, (before.count '\n' + 1, body) :: numbered, ?_, hrest, ?_, ?_, ?_, ?_⟩
      · rw [hsplit, List.append_assoc, List.cons_append]
      · rw [List.count_append, List.count_eq_zero_of_not_mem h.no_feed, List.count_cons_self, hblock, Nat.zero_add]
      · exact List.forall_mem_cons.mpr ⟨hfirst, hnumbered⟩
      · rw [List.map_cons, hnumbers, h.count_before_next]
        rfl
      · -- There is a next line, so a line feed stands between this line and the others.
        cases numbered with
        | nil => cases hnumbers
        | cons line numbered =>
          rw [← htext]
          simp only [List.map_cons, List.intercalate_cons_cons, List.append_assoc, List.singleton_append]

end Text

namespace Diagnostic

/-- The number before the bar of a row, if there is one, and the text behind the bar. -/
def numbered? (row : List Char) : Option (Nat × List Char) :=
  (Decimal.natural? ((row.takeWhile (· ≠ '|')).filter (· ≠ ' '))).map fun number =>
    (number, ((row.dropWhile (· ≠ '|')).drop 2).dropLast)

/-- What stands before the bar of a row: a label to the right, and a blank. -/
def gutter (width : Nat) (label : String) : List Char :=
  List.replicate (width - label.length) ' ' ++ (label.toList ++ [' '])

section Row

variable {width : Nat} {label text : String}

theorem toList_row (width : Nat) (label text : String) :
    (row width label text).toList = gutter width label ++ '|' :: (text.toList ++ ['\n']) := by
  simp [row, repeated, gutter]

theorem filter_gutter (h : ∀ c ∈ label.toList, c.isDigit = true) :
    (gutter width label).filter (· ≠ ' ') = label.toList := by
  have hlabel : label.toList.filter (· ≠ ' ') = label.toList := by
    rw [List.filter_eq_self]
    rintro c hc
    apply decide_eq_true
    rintro rfl
    cases h _ hc
  rw [gutter, List.filter_append, List.filter_append, hlabel]
  simp

theorem mem_gutter {c : Char} (h : c ∈ gutter width label) : c = ' ' ∨ c ∈ label.toList := by
  simp only [gutter, List.mem_append, List.mem_replicate, List.mem_singleton] at h
  rcases h with ⟨-, rfl⟩ | h | rfl
  · exact .inl rfl
  · exact .inr h
  · exact .inl rfl

end Row

/-- A row of a snippet: its label is a number or empty and fits before the bar, and its text is on one
line. -/
inductive IsRow (width : Nat) : String → Prop where
  | row {label text : String} (hlabel : ∀ c ∈ label.toList, c.isDigit = true) (hwidth : label.length ≤ width)
      (htext : '\n' ∉ text.toList) : IsRow width (row width label text)

theorem bar_notMem_gutter {width : Nat} {label : String} (h : ∀ c ∈ label.toList, c.isDigit = true) :
    '|' ∉ gutter width label := by
  intro hmem
  rcases mem_gutter hmem with hblank | hmem
  · cases hblank
  · cases h _ hmem

section IsRow

variable {width : Nat} {r : String}

theorem IsRow.idxOf_bar (h : IsRow width r) : r.toList.idxOf '|' = width + 1 := by
  cases h with
  | @row label text hlabel hwidth htext =>
    have hgutter : (gutter width label).length = width + 1 := by
      simp only [gutter, List.length_append, List.length_replicate, List.length_singleton, String.length_toList]
      omega
    rw [toList_row, List.idxOf_append_of_notMem (bar_notMem_gutter hlabel), List.idxOf_cons_self, hgutter]

theorem IsRow.bar_mem (h : IsRow width r) : '|' ∈ r.toList := by
  cases h with
  | row hlabel hwidth htext =>
    rw [toList_row]
    exact List.mem_append_right _ List.mem_cons_self

theorem IsRow.exists_body (h : IsRow width r) : ∃ body, r.toList = body ++ ['\n'] ∧ '\n' ∉ body := by
  cases h with
  | @row label text hlabel hwidth htext =>
    refine ⟨gutter width label ++ '|' :: text.toList, by rw [toList_row, List.append_assoc, List.cons_append], ?_⟩
    intro hmem
    rcases List.mem_append.mp hmem with hmem | hmem
    · rcases mem_gutter hmem with hblank | hmem
      · cases hblank
      · cases hlabel _ hmem
    · rcases List.mem_cons.mp hmem with hbar | hmem
      · cases hbar
      · exact htext hmem

/-- Rows that are printed one after the other are cut again into these rows. -/
theorem lines_join {rows : List String} (h : ∀ r ∈ rows, IsRow width r) :
    lines (String.join rows).toList = rows.map String.toList := by
  induction rows with
  | nil => rfl
  | cons r rows ih =>
    rw [List.forall_mem_cons] at h
    rcases h.1.exists_body with ⟨body, hr, hbody⟩
    rw [String.join_cons, String.toList_append, hr, List.append_assoc, List.singleton_append,
      lines_of_ended hbody, ih h.2, List.map_cons, hr]

end IsRow

section Numbered

variable {width : Nat} {label text : String}

theorem isDigit_of_mem_toString {number : Nat} {c : Char} (h : c ∈ (toString number).toList) :
    c.isDigit = true := by
  have hlabel : (toString number).toList = Nat.toDigits 10 number := Nat.toList_repr
  rw [hlabel] at h
  exact Nat.isDigit_of_mem_toDigits (by decide) (by decide) h

theorem numbered?_row (hlabel : ∀ c ∈ label.toList, c.isDigit = true) :
    numbered? (row width label text).toList =
      (Decimal.natural? label.toList).map fun number => (number, text.toList.drop 1) := by
  have hgutter : ∀ c ∈ gutter width label, decide (c ≠ '|') = true := by
    intro c hc
    apply decide_eq_true
    rintro rfl
    exact bar_notMem_gutter hlabel hc
  have hbar : ∀ c ∈ ('|' :: (text.toList ++ ['\n'])).head?, decide (c ≠ '|') = false := by
    intro c hc
    cases hc
    rfl
  have htext : (('|' :: (text.toList ++ ['\n'])).drop 2).dropLast = text.toList.drop 1 := by
    rw [List.drop_succ_cons]
    cases text.toList with
    | nil => rfl
    | cons c cs => simp
  rw [numbered?, toList_row, takeWhile_append_of_head hgutter hbar, dropWhile_append_of_head hgutter hbar, htext,
    filter_gutter hlabel]

theorem numbered?_row_number (width number : Nat) (body : List Char) :
    numbered? (row width (toString number) (" " ++ String.ofList body)).toList = some (number, body) := by
  have hlabel : (toString number).toList = Nat.toDigits 10 number := Nat.toList_repr
  rw [numbered?_row fun c hc => isDigit_of_mem_toString hc, hlabel, Decimal.natural?_toDigits]
  simp

theorem numbered?_row_empty (width : Nat) (text : String) : numbered? (row width "" text).toList = none := by
  rw [numbered?_row (by simp)]
  rfl

end Numbered

/-- The rows for a line: its number and text, and the marks below it. -/
def rowsOf (first last : Position) (width : Nat) (line : Nat × List Char) : List String :=
  [row width (toString line.1) (" " ++ String.ofList line.2),
    row width "" (" " ++ marks (if line.1 = first.line then first.column - 1 else 0)
      (if line.1 = last.line then last.column - 1 else line.2.length))]

theorem lineRows_of_isLine {source before body after : List Char} (h : IsLine source before body after)
    (first last : Position) (width : Nat) :
    lineRows source (LineIndex.ofText source) first last width (before.count '\n' + 1) =
      String.join (rowsOf first last width (before.count '\n' + 1, body)) := by
  simp [lineRows, lineMarks?_of_isLine h, rowsOf]

theorem notMem_marks (first last : Nat) : '\n' ∉ (marks first last).toList := by
  simp [marks, repeated]

theorem isRow_of_mem_rowsOf {source : List Char} {line : Nat × List Char} {width : Nat} {first last : Position}
    (hline : IsNumbered source line) (hwidth : (toString line.1).length ≤ width) :
    ∀ r ∈ rowsOf first last width line, IsRow width r := by
  rcases hline with ⟨before, after, hline, -⟩
  intro r hr
  rw [rowsOf, List.mem_pair] at hr
  rcases hr with rfl | rfl
  · refine .row (fun c hc => isDigit_of_mem_toString hc) hwidth ?_
    simpa using hline.no_feed
  · refine .row (by simp) (Nat.zero_le width) ?_
    simpa using notMem_marks _ _

/-- The rows of a snippet: those of the lines, between two that are blank. -/
def snippetRows (first last : Position) (width : Nat) (numbered : List (Nat × List Char)) : List String :=
  row width "" "" :: (numbered.flatMap (rowsOf first last width) ++ [row width "" ""])

theorem numbered_snippetRows (first last : Position) (width : Nat) (numbered : List (Nat × List Char)) :
    ((snippetRows first last width numbered).map String.toList).filterMap numbered? = numbered := by
  have hrows : ((numbered.flatMap (rowsOf first last width)).map String.toList).filterMap numbered? = numbered := by
    induction numbered with
    | nil => rfl
    | cons line numbered ih =>
      rw [List.flatMap_cons, List.map_append, List.filterMap_append, ih]
      simp only [rowsOf, List.map_cons, List.map_nil, List.filterMap_cons, numbered?_row_number,
        numbered?_row_empty, List.filterMap_nil, List.singleton_append]
  rw [snippetRows, List.map_cons, List.filterMap_cons_none (numbered?_row_empty _ _), List.map_append,
    List.filterMap_append, hrows]
  simp [numbered?_row_empty]

theorem join_flatMap {α : Type} (rows : α → List String) (l : List α) :
    String.join (l.flatMap rows) = String.join (l.map fun a => String.join (rows a)) := by
  induction l with
  | nil => rfl
  | cons a l ih => rw [List.flatMap_cons, String.join_append, ih, List.map_cons, String.join_cons]

theorem snippet_eq_join {source : List Char} {span : Span} {numbered : List (Nat × List Char)}
    (hnumbered : ∀ line ∈ numbered, IsNumbered source line) :
    let first := (LineIndex.ofText source).position span.start
    let last := (LineIndex.ofText source).position span.stop
    numbered.map Prod.fst = List.range' first.line (last.line + 1 - first.line) →
      snippet source span = String.join (snippetRows first last (toString last.line).length numbered) := by
  intro first last hnumbers
  have hrows (line : Nat × List Char) (hline : line ∈ numbered) :
      lineRows source (LineIndex.ofText source) first last (toString last.line).length line.1 =
        String.join (rowsOf first last (toString last.line).length line) := by
    rcases hnumbered line hline with ⟨before, after, h, hnumber⟩
    have hrows := lineRows_of_isLine h first last (toString last.line).length
    rwa [← hnumber] at hrows
  have hlines : (List.range' first.line (last.line + 1 - first.line)).map
      (lineRows source (LineIndex.ofText source) first last (toString last.line).length) =
        numbered.map fun line => String.join (rowsOf first last (toString last.line).length line) := by
    rw [← hnumbers, List.map_map]
    exact List.map_congr_left hrows
  rw [snippet, hlines, snippetRows, String.join_cons, String.join_append, join_flatMap, String.join_cons,
    String.join_nil, String.append_empty, String.append_assoc]

theorem line_position_le (source : List Char) {start stop : Nat} (h : start ≤ stop) :
    ((LineIndex.ofText source).position start).line ≤ ((LineIndex.ofText source).position stop).line := by
  rcases Nat.lt_or_eq_of_le h with hlt | rfl
  · rcases LineIndex.position_before source hlt with hline | ⟨hline, -⟩
    · exact Nat.le_of_lt hline
    · exact Nat.le_of_eq hline
  · exact Nat.le_refl _

/-- The lines that a span inside a text touches stand in it one after the other. -/
theorem exists_block {source : List Char} {span : Span} (horder : span.start ≤ span.stop)
    (hsize : span.stop ≤ byteSize source) :
    let first := (LineIndex.ofText source).position span.start
    let last := (LineIndex.ofText source).position span.stop
    ∃ before block after, ∃ numbered : List (Nat × List Char),
      IsBlock source first.line last.line before block after ∧
      byteSize before + first.column - 1 = span.start ∧
      (∀ line ∈ numbered, IsNumbered source line) ∧
      numbered.map Prod.fst = List.range' first.line (last.line + 1 - first.line) ∧
      ['\n'].intercalate (numbered.map Prod.snd) = block := by
  intro first last
  rcases exists_isLine_of_offset (Nat.le_trans horder hsize) with ⟨before, body, after, hline, hstart, hstop⟩
  have hfirst : first = ⟨before.count '\n' + 1, span.start - byteSize before + 1⟩ :=
    LineIndex.position_of_isLine hline hstart hstop
  have hfirstLine : first.line = before.count '\n' + 1 := congrArg Position.line hfirst
  have hcolumn : first.column = span.start - byteSize before + 1 := congrArg Position.column hfirst
  have hle : first.line ≤ last.line := line_position_le source horder
  have hbound : last.line ≤ source.count '\n' + 1 := (LineIndex.position_line_bounds source span.stop).2
  have hcount : last.line - first.line ≤ after.count '\n' := by
    rw [hline.count_source] at hbound
    omega
  rcases hline.exists_block hcount with
    ⟨block, rest, numbered, hsplit, hrest, hblock, hnumbered, hnumbers, htext⟩
  have hsource : source = before ++ (block ++ rest) := by rw [hline.source_eq, hsplit]
  have hlast : last.line = (before ++ block).count '\n' + 1 := by
    rw [List.count_append, hblock]
    omega
  have hlength : last.line + 1 - first.line = last.line - first.line + 1 := Nat.sub_add_comm hle
  refine ⟨before, block, rest, numbered, ⟨hsource, hline.endsLine, hrest, hfirstLine, hlast⟩, by omega, hnumbered,
    ?_, htext⟩
  rw [hlength, hnumbers, ← hfirstLine]

theorem isRow_of_mem_snippetRows {source : List Char} (first : Position) {last : Position}
    {numbered : List (Nat × List Char)} (hnumbered : ∀ line ∈ numbered, IsNumbered source line)
    (hle : ∀ line ∈ numbered, line.1 ≤ last.line) :
    ∀ r ∈ snippetRows first last (toString last.line).length numbered,
      IsRow (toString last.line).length r := by
  have hblank : IsRow (toString last.line).length (row (toString last.line).length "" "") :=
    .row (by simp) (Nat.zero_le _) (by simp)
  have hwidth {n : Nat} (h : n ≤ last.line) : (toString n).length ≤ (toString last.line).length := by
    have hdigits (n : Nat) : (toString n).length = (Nat.toDigits 10 n).length := by
      rw [← String.length_toList]
      exact congrArg List.length Nat.toList_repr
    rw [hdigits, hdigits]
    exact length_toDigits_le_of_le h
  intro r hr
  rw [snippetRows, List.mem_cons, List.mem_append, List.mem_flatMap, List.mem_singleton] at hr
  rcases hr with rfl | ⟨line, hline, hr⟩ | rfl
  · exact hblank
  · exact isRow_of_mem_rowsOf (hnumbered line hline) (hwidth (hle line hline)) r hr
  · exact hblank

/-- A line and a column in a header, and the rows of a snippet, reproduce the text that a span is about. -/
structure Reproduces (source : List Char) (span : Span) (line column : Nat) (rows : List (List Char)) : Prop where
  /-- The line is that of the start of the span. -/
  line_eq : line = 1 + ((bytes source).take span.start).count feed
  /-- No other offset has the line and the column. -/
  unique : ∀ offset, (LineIndex.ofText source).position offset = ⟨line, column⟩ ↔ offset = span.start
  /-- The rows with a number show the lines up to that of the end of the span, one after the other. Their texts
  are these lines, and the span starts as far behind the start of the first of them as the column says. -/
  shows : ∃ last before block after, last = 1 + ((bytes source).take span.stop).count feed ∧
    IsBlock source line last before block after ∧ 1 ≤ column ∧ byteSize before + column - 1 = span.start ∧
    (rows.filterMap numbered?).map Prod.fst = List.range' line (last + 1 - line) ∧
    ['\n'].intercalate ((rows.filterMap numbered?).map Prod.snd) = block
  /-- All bars are in one column. -/
  bars : ∃ bar, ∀ r ∈ rows, '|' ∈ r ∧ r.idxOf '|' = bar

theorem reproduces_snippet {source : List Char} {span : Span} (horder : span.start ≤ span.stop)
    (hsize : span.stop ≤ byteSize source) :
    let first := (LineIndex.ofText source).position span.start
    Reproduces source span first.line first.column (lines (snippet source span).toList) := by
  intro first
  rcases exists_block horder hsize with
    ⟨before, block, after, numbered, hblock, hcolumn, hnumbered, hnumbers, htext⟩
  have hstart := LineIndex.position_eq (Nat.le_trans horder hsize)
  have hstop := LineIndex.position_eq hsize
  have hle : ∀ line ∈ numbered, line.1 ≤ ((LineIndex.ofText source).position span.stop).line := by
    intro line hline
    have hmem := List.mem_range'_1.mp (hnumbers ▸ List.mem_map_of_mem hline)
    omega
  have hrows := isRow_of_mem_snippetRows first hnumbered hle
  rw [snippet_eq_join hnumbered hnumbers, lines_join hrows]
  constructor
  · exact congrArg Position.line hstart
  · exact fun offset => ⟨fun h => LineIndex.eq_of_position_eq h, fun h => h ▸ rfl⟩
  · rw [numbered_snippetRows]
    exact ⟨_, before, block, after, congrArg Position.line hstop, hblock, Nat.succ_pos _, hcolumn, hnumbers, htext⟩
  · refine ⟨(toString ((LineIndex.ofText source).position span.stop).line).length + 1, ?_⟩
    intro r hr
    rcases List.mem_map.mp hr with ⟨row, hrow, rfl⟩
    exact ⟨(hrows row hrow).bar_mem, (hrows row hrow).idxOf_bar⟩

/-- For a span inside its text, a diagnostic reproduces the text: its header tells the place where the span starts
and no other, and the rows of its snippet show the lines from there to the end of the span, in order and whole. -/
theorem format_reproduces_source (d : Diagnostic) (source : String) (horder : d.span.start ≤ d.span.stop)
    (hsize : d.span.stop ≤ byteSize source.toList) :
    ∃ line column shown,
      d.format source = s!"{d.severity.word}: {d.message}\n" ++ s!"  --> {d.filename}:{line}:{column}\n" ++
        shown ++ String.join (d.notes.map fun note => s!"note: {note}\n") ++
        (match d.help with
          | some help => s!"help: {help}\n"
          | none => "") ∧
      Reproduces source.toList d.span line column (lines shown.toList) :=
  ⟨_, _, snippet source.toList d.span, rfl, reproduces_snippet horder hsize⟩

/-- A span from a line with a number of one digit, behind a character of two bytes, to one with two digits. -/
theorem format_reproduces_nine_ten :
    let d : Diagnostic := ⟨.grammar, .error, "expected '>'", ⟨19, 23⟩, "types", [], some "add it"⟩
    let source := "1\n2\n3\n4\n5\n6\n7\n8\né<a,\nb"
    d.span.start ≤ d.span.stop ∧ d.span.stop ≤ byteSize source.toList ∧ ∃ line column shown,
      d.format source = s!"{d.severity.word}: {d.message}\n" ++ s!"  --> {d.filename}:{line}:{column}\n" ++
        shown ++ String.join (d.notes.map fun note => s!"note: {note}\n") ++
        (match d.help with
          | some help => s!"help: {help}\n"
          | none => "") ∧
      Reproduces source.toList d.span line column (lines shown.toList) := by
  intro d source
  have horder : d.span.start ≤ d.span.stop := by decide
  have hsize : d.span.stop ≤ byteSize source.toList := by decide
  exact ⟨horder, hsize, format_reproduces_source d source horder hsize⟩

/-- The rows of such a snippet, and what is read from them. -/
example :
    let rows := lines (snippet "1\n2\n3\n4\n5\n6\n7\n8\né<a,\nb".toList ⟨19, 23⟩).toList
    rows = ["   |\n", " 9 | é<a,\n", "   |    ^\n", "10 | b\n", "   | ^\n", "   |\n"].map String.toList ∧
      rows.filterMap numbered? = [(9, "é<a,".toList), (10, "b".toList)] := by
  decide +kernel

end Diagnostic

end Signatures
