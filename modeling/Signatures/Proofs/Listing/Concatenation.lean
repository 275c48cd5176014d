import Signatures.Proofs.Diagnostic.InBounds

/-!
# Listings put together

A text whose last line ends can stand before a listing without changing what is told of either. Its lines
come first and give what they give alone. The lines of the listing move, by as many lines and bytes as the
text has, and so do their errors. A line that an earlier one of the listing repeats is still reported; only
lines whose signature the text lists are reported in addition.
-/

namespace Signatures.Listing

open Text

variable {catalog : Catalog} {filename : String} {p : List Char} {line : Line} {s : Signature}

section Lines

/-- A line of a listing that a text stands before. -/
def Line.behind (line : Line) (p : List Char) : Line :=
  ⟨p.count '\n' + line.number, byteSize p + line.offset, line.text⟩

theorem linesAfter_behind (hp : EndsLine p) (before rest : List (List Char)) :
    linesAfter (lines p ++ before) rest = (linesAfter before rest).map (·.behind p) := by
  induction rest generalizing before with
  | nil => rfl
  | cons piece rest ih =>
    have hline : lineAfter (lines p ++ before) piece = (lineAfter before piece).behind p := by
      simp [lineAfter, Line.behind, length_lines hp, flatten_lines, Nat.add_assoc]
    rw [linesAfter, linesAfter, List.map_cons, hline, List.append_assoc, ih]

theorem linesAfter_lines (hp : EndsLine p) (source : String) :
    linesAfter (lines p) (lines source.toList) = (linesOf source).map (·.behind p) := by
  have hrest := linesAfter_behind hp [] (lines source.toList)
  rwa [List.append_nil] at hrest

theorem linesOf_append {text : String} (hends : EndsLine text.toList) (source : String) :
    linesOf (text ++ source) = linesOf text ++ (linesOf source).map (·.behind text.toList) := by
  rw [← linesAfter_lines hends, linesOf, String.toList_append, lines_append hends, linesAfter_append,
    List.nil_append]
  rfl

theorem linesOf_feed : linesOf "\n" = [⟨1, 0, []⟩] := rfl

/-- A last line that does not end is the same with a line feed behind it. -/
theorem linesOf_concat {text : String} (h : ¬ EndsLine text.toList) :
    linesOf (text ++ "\n") = linesOf text := by
  rcases exists_lastLine text.toList with ⟨before, body, htext, hends, hbody⟩
  have hne : body ≠ [] := by
    rintro rfl
    rw [htext, List.append_nil] at h
    exact h hends
  have hlines : lines text.toList = lines before ++ [body] := by
    rw [htext, lines_append hends, lines_of_last hbody hne]
  have hended : lines (text ++ "\n").toList = lines before ++ [body ++ ['\n']] := by
    have htail : "\n".toList = '\n' :: [] := rfl
    rw [String.toList_append, htext, htail, List.append_assoc, lines_append hends,
      lines_of_ended hbody, lines]
  rw [linesOf, linesOf, hlines, hended, linesAfter_append, linesAfter_append, linesAfter, linesAfter,
    linesAfter, linesAfter, lineAfter, lineAfter, content_concat]

/-- Ending the last line of a text adds no line that lists a signature. -/
theorem mem_linesOf_of_lists {text : String} (hlists : line.Lists catalog s)
    (h : line ∈ linesOf (text ++ "\n")) : line ∈ linesOf text := by
  by_cases hends : EndsLine text.toList
  · rw [linesOf_append hends, linesOf_feed] at h
    rcases List.mem_append.mp h with h | h
    · exact h
    · cases List.mem_singleton.mp h
      rcases hlists.1 with ⟨blanks, c, rest, htext, -⟩
      simp [Line.behind] at htext
  · rwa [linesOf_concat hends] at h

end Lines

section Checking

theorem check_append {text : String} (hends : EndsLine text.toList) (catalog : Catalog)
    (source filename : String) :
    check catalog (text ++ source) filename = check catalog text filename ++
      (linesOf source).filterMap fun line =>
        (line.behind text.toList).diagnostic? catalog filename (linesOf (text ++ source)) := by
  rcases checkLines_append filename (Progress.after_start catalog) (lines text.toList) with
    ⟨next, hnext, heq⟩
  have hlines : lines (text ++ source).toList = lines text.toList ++ lines source.toList := by
    rw [String.toList_append, lines_append hends]
  rw [List.nil_append] at hnext
  rw [check, hlines, heq, checkLines_eq hnext, linesAfter_lines hends, ← hlines, List.filterMap_map]
  rfl

theorem check_concat (catalog : Catalog) (text filename : String) :
    check catalog (text ++ "\n") filename = check catalog text filename := by
  by_cases hends : EndsLine text.toList
  · have hskipped : (Line.behind ⟨1, 0, []⟩ text.toList).result? catalog = none := rfl
    rw [check_append hends, linesOf_feed, List.filterMap_cons,
      Line.diagnostic?_of_skipped hskipped, List.filterMap_nil, List.append_nil]
  · rw [check_eq, check_eq, linesOf_concat hends]

end Checking

section Behind

/-- The error of a line that a text stands before is that of the line, moved by the bytes of the text. -/
theorem Line.errorDiagnostic_behind (line : Line) (error : Error) (filename : String) (p : List Char) :
    (line.behind p).errorDiagnostic filename error =
      (line.errorDiagnostic filename error).shift (byteSize p) := by
  simp [errorDiagnostic, behind, Diagnostic.shift, Span.shift, Nat.add_assoc]

theorem Line.filter_error_behind (line : Line) (p : List Char) (all other : List Line) :
    ((line.behind p).diagnostic? catalog filename all).filter (fun d => d.severity == .error) =
      ((line.diagnostic? catalog filename other).filter fun d => d.severity == .error).map
        (·.shift (byteSize p)) := by
  have herror : (line.behind p).error? catalog = line.error? catalog := rfl
  rw [filter_error_diagnostic?, filter_error_diagnostic?, herror, Option.map_map]
  exact congrArg (Option.map · (line.error? catalog))
    (funext fun error => line.errorDiagnostic_behind error filename p)

theorem filter_error_behind (source : String) (p : List Char) (all : List Line) :
    ((linesOf source).filterMap fun line => (line.behind p).diagnostic? catalog filename all).filter
        (fun d => d.severity == .error) =
      ((check catalog source filename).filter fun d => d.severity == .error).map
        (·.shift (byteSize p)) := by
  rw [check_eq, List.filter_filterMap, List.filter_filterMap, List.map_filterMap]
  exact congrArg (List.filterMap · (linesOf source))
    (funext fun line => line.filter_error_behind p all (linesOf source))

theorem Line.first?_append_behind (first all : List Line) (p : List Char) (canonical : String) :
    first? catalog (first ++ all.map (·.behind p)) canonical =
      (first? catalog first canonical).or ((first? catalog all canonical).map (·.behind p)) := by
  rw [first?, List.find?_append, List.find?_map]
  rfl

theorem number_le_of_mem_linesOf {text : String} (hends : EndsLine text.toList) (h : line ∈ linesOf text) :
    line.number ≤ text.toList.count '\n' := by
  rcases mem_linesAfter_iff.mp h with ⟨earlier, piece, later, hlines, rfl⟩
  rw [← length_lines hends, hlines, List.nil_append, lineAfter, List.length_append, List.length_cons]
  dsimp only
  omega

/-- A line that is warned about is warned about behind a text too, with a line of the text where that has
the canonical text. -/
theorem Line.warning?_behind {text source : String} (hends : EndsLine text.toList) {warning : Diagnostic}
    (h : line.warning? catalog filename (linesOf source) = some warning) :
    ∃ own first : Nat, warning.notes = [s!"first listed on line {own}"] ∧
      (line.behind text.toList).warning? catalog filename (linesOf (text ++ source)) =
        some { warning.shift (byteSize text.toList) with
          notes := [s!"first listed on line {first}"] } := by
  rcases warning?_eq_some_iff_first?.mp h with ⟨canonical, own, hcanonical, hown, hlt, rfl⟩
  have hwhole : ∃ first : Line, first? catalog (linesOf (text ++ source)) canonical = some first ∧
      first.number < (line.behind text.toList).number := by
    rw [linesOf_append hends, first?_append_behind, hown]
    cases htext : first? catalog (linesOf text) canonical with
    | some first =>
      have hle := number_le_of_mem_linesOf hends (List.mem_of_find?_eq_some htext)
      exact ⟨first, rfl, Nat.lt_of_le_of_lt hle (Nat.lt_add_of_pos_right (Nat.zero_lt_of_lt hlt))⟩
    | none => exact ⟨_, rfl, Nat.add_lt_add_left hlt _⟩
  rcases hwhole with ⟨first, hfirst, hfirstlt⟩
  refine ⟨own.number, first.number, rfl, ?_⟩
  refine warning?_eq_some_iff_first?.mpr ⟨canonical, first, hcanonical, hfirst, hfirstlt, ?_⟩
  simp [duplicate, behind, Diagnostic.shift, Span.shift, trimmedSpan, Nat.add_assoc]

theorem Line.lists_of_warning?_behind {text source : String} (hends : EndsLine text.toList)
    {warning : Diagnostic}
    (h : (line.behind text.toList).warning? catalog filename (linesOf (text ++ source)) = some warning)
    (hnone : line.warning? catalog filename (linesOf source) = none) :
    ∃ s, line.Lists catalog s ∧ ∃ earlier ∈ linesOf text, earlier.Lists catalog s := by
  rcases warning?_eq_some_iff_first?.mp h with ⟨canonical, first, hcanonical, hfirst, hlt, -⟩
  rw [linesOf_append hends, first?_append_behind] at hfirst
  cases htext : first? catalog (linesOf text) canonical with
  | some earlier =>
    have hearlier : earlier.canonical? catalog = some canonical := by
      simpa using List.find?_some htext
    rcases canonical?_eq_some_iff.mp hcanonical with ⟨s, hlists, rfl⟩
    rcases canonical?_eq_some_iff.mp hearlier with ⟨t, hearlier, hrender⟩
    -- Both lines have the canonical text of what they list, which is then the same.
    cases Catalog.eq_of_render_eq hearlier.2.parse hlists.2.parse hrender
    exact ⟨s, hlists, earlier, List.mem_of_find?_eq_some htext, hearlier⟩
  | none =>
    -- The first line with the canonical text is one of the listing, which has a warning without the text.
    rw [htext, Option.none_or] at hfirst
    rcases Option.map_eq_some_iff.mp hfirst with ⟨own, hown, rfl⟩
    have hwarning := (@warning?_eq_some_iff_first? catalog filename line (linesOf source) _).mpr
      ⟨canonical, own, hcanonical, hown, Nat.lt_of_add_lt_add_left hlt, rfl⟩
    rw [hnone] at hwarning
    cases hwarning

end Behind

/-- Checking puts listings together line by line. What a text gives comes first and unchanged, whatever
comes behind its last line. What the lines of a listing behind it give is about these lines only. Their
errors are those of the listing alone, moved by the bytes of the text. A duplicate of the listing alone is
one behind the text, moved and with the same message, and any other is a line whose signature a line of the
text lists. -/
theorem check_concatenation (catalog : Catalog) (filename text source : String) :
    let ended := text ++ "\n"
    let moved (line : Line) := line.behind ended.toList
    let whole := linesOf (ended ++ source)
    ∃ more, check catalog (ended ++ source) filename = check catalog text filename ++ more ∧
      more = (linesOf source).filterMap (fun line => (moved line).diagnostic? catalog filename whole) ∧
      (∀ d ∈ more, ∃ line ∈ linesOf source, d.span.LiesIn (moved line).offset line.text) ∧
      more.filter (fun d => d.severity == .error) =
        ((check catalog source filename).filter fun d => d.severity == .error).map
          (·.shift (byteSize ended.toList)) ∧
      more.filter (fun d => d.kind == .duplicate) =
        (linesOf source).filterMap (fun line => (moved line).warning? catalog filename whole) ∧
      (check catalog source filename).filter (fun d => d.kind == .duplicate) =
        (linesOf source).filterMap (fun line => line.warning? catalog filename (linesOf source)) ∧
      ∀ line ∈ linesOf source,
        (∀ warning, line.warning? catalog filename (linesOf source) = some warning →
          ∃ own first : Nat, warning.notes = [s!"first listed on line {own}"] ∧
            (moved line).warning? catalog filename whole =
              some { warning.shift (byteSize ended.toList) with
                notes := [s!"first listed on line {first}"] }) ∧
        ∀ warning, (moved line).warning? catalog filename whole = some warning →
          line.warning? catalog filename (linesOf source) = none →
          ∃ s, line.Lists catalog s ∧ ∃ earlier ∈ linesOf text, earlier.Lists catalog s := by
  intro ended moved whole
  have hends : EndsLine ended.toList := by
    intro c hc
    rw [String.toList_append] at hc
    simpa [eq_comm] using hc
  refine ⟨_, ?_, rfl, ?_, filter_error_behind source ended.toList whole, ?_,
    filter_duplicate_check catalog source filename, ?_⟩
  · rw [check_append hends, check_concat]
  · intro d hd
    rcases List.mem_filterMap.mp hd with ⟨line, hline, hd⟩
    exact ⟨line, hline, Line.liesIn_diagnostic? hd⟩
  · rw [List.filter_filterMap]
    simp only [Line.filter_duplicate_diagnostic?]
  · intro line hline
    refine ⟨fun warning hwarning => Line.warning?_behind hends hwarning, ?_⟩
    intro warning hwarning hnone
    rcases Line.lists_of_warning?_behind hends hwarning hnone with ⟨s, hlists, earlier, hmem, hearlier⟩
    exact ⟨s, hlists, earlier, mem_linesOf_of_lists hearlier hmem, hearlier⟩

/-- Of two repeated types, one is in the text and one in the listing behind it. -/
example : (check .builtin ("i8\r" ++ "\n" ++ "i16\ni8\ni16") "types").map (fun d => (d.span, d.notes)) =
    [(⟨8, 10⟩, ["first listed on line 1"]), (⟨11, 14⟩, ["first listed on line 2"])] := by
  decide +kernel

end Signatures.Listing
