import Mathlib.Data.List.Basic
import Signatures.Proofs.Diagnostic.InBounds

/-!
# The ends of the lines of a listing

A line may end with a line feed alone or with carriage returns before it, and checking a listing does not
tell them apart. With one more carriage return before each line feed, the lines of a listing keep their
numbers and texts, and each of them starts later by a byte for every line feed before it. So the same
diagnostics are given, each at the place that its line has moved to.
-/

namespace Signatures

namespace Text

/-- A text with a carriage return put before each of its line feeds. -/
def withReturns (cs : List Char) : List Char :=
  cs.flatMap fun c => if c = '\n' then ['\r', '\n'] else [c]

/-- The number of line feeds that start before a byte offset. -/
def feedsBefore (offset : Nat) : List Char → Nat
  | [] => 0
  | c :: cs =>
    if offset = 0 then 0 else (if c = '\n' then 1 else 0) + feedsBefore (offset - c.utf8Size) cs

section Returns

variable {cs middle : List Char}

theorem withReturns_feed (cs : List Char) : withReturns ('\n' :: cs) = '\r' :: '\n' :: withReturns cs := rfl

theorem withReturns_cons {c : Char} (h : c ≠ '\n') (cs : List Char) :
    withReturns (c :: cs) = c :: withReturns cs := by
  simp [withReturns, h]

theorem withReturns_append (cs ds : List Char) :
    withReturns (cs ++ ds) = withReturns cs ++ withReturns ds := by
  simp [withReturns]

theorem withReturns_of_not_mem (h : '\n' ∉ cs) : withReturns cs = cs := by
  induction cs with
  | nil => rfl
  | cons c cs ih =>
    rw [List.mem_cons, not_or] at h
    rw [withReturns_cons (Ne.symm h.1), ih h.2]

theorem withReturns_flatten (pieces : List (List Char)) :
    (pieces.map withReturns).flatten = withReturns pieces.flatten := by
  induction pieces with
  | nil => rfl
  | cons piece pieces ih => simp [ih, withReturns_append]

theorem byteSize_withReturns (cs : List Char) : byteSize (withReturns cs) = cs.count '\n' + byteSize cs := by
  induction cs with
  | nil => rfl
  | cons c cs ih =>
    have hreturn : '\r'.utf8Size = 1 := rfl
    by_cases h : c = '\n'
    · subst h
      simp only [withReturns_feed, byteSize_cons, ih, List.count_cons_self]
      omega
    · simp only [withReturns_cons h, byteSize_cons, ih, List.count_cons_of_ne h]
      omega

/-- The carriage returns are put into the lines, each before the end of its line. -/
theorem lines_withReturns (cs : List Char) : lines (withReturns cs) = (lines cs).map withReturns := by
  induction cs with
  | nil => rfl
  | cons c cs ih =>
    by_cases h : c = '\n'
    · subst h
      have hreturn : '\n' ∉ ['\r'] := by decide
      have hended := lines_of_ended hreturn (withReturns cs)
      rw [List.singleton_append, ih] at hended
      rw [withReturns_feed, hended, lines, if_pos rfl]
      rfl
    · rw [withReturns_cons h, lines, lines, if_neg h, if_neg h, ih]
      cases lines cs with
      | nil => simp [withReturns, h]
      | cons line rest => simp [withReturns_cons h]

theorem feedsBefore_append (offset : Nat) (cs ds : List Char) :
    feedsBefore (byteSize cs + offset) (cs ++ ds) = cs.count '\n' + feedsBefore offset ds := by
  induction cs with
  | nil => simp
  | cons c cs ih =>
    have hc : 0 < c.utf8Size := c.utf8Size_pos
    have hne : byteSize (c :: cs) + offset ≠ 0 := by
      rw [byteSize_cons]
      omega
    have hrest : byteSize (c :: cs) + offset - c.utf8Size = byteSize cs + offset := by
      rw [byteSize_cons]
      omega
    rw [List.cons_append, feedsBefore, if_neg hne, hrest, ih, List.count_cons]
    by_cases h : c = '\n'
    · simp [h]
      omega
    · simp [h]

theorem feedsBefore_of_not_mem {offset : Nat} (hmiddle : '\n' ∉ middle) (hoffset : offset ≤ byteSize middle)
    (after : List Char) : feedsBefore offset (middle ++ after) = 0 := by
  induction middle generalizing offset with
  | nil =>
    have hzero : offset = 0 := by simpa using hoffset
    cases after <;> simp [feedsBefore, hzero]
  | cons c middle ih =>
    rw [List.mem_cons, not_or] at hmiddle
    rw [byteSize_cons] at hoffset
    have hrest := ih hmiddle.2 (Nat.sub_le_iff_le_add'.mpr hoffset)
    simp [feedsBefore, hrest, Ne.symm hmiddle.1]

end Returns

end Text

namespace Listing

open Text

variable {catalog : Catalog} {filename : String} {line : Line}

/-- The line where each line before it, and the line itself, has one more carriage return: it has the same
number and text, but starts later by a byte for each line before it. -/
def Line.withReturns (line : Line) : Line :=
  { line with offset := line.number - 1 + line.offset }

section Lines

theorem content_withReturns {piece : List Char} {rest : List (List Char)} (h : AreLines (piece :: rest)) :
    content (Text.withReturns piece) = content piece := by
  cases h with
  | last hbody hne => rw [withReturns_of_not_mem hbody]
  | @cons body _ hbody hrest =>
    have hreturn : content (body ++ ['\r']) = content body := dropRight_concat_of_pos (by decide) body
    have hends : Text.withReturns (body ++ ['\n']) = body ++ ['\r'] ++ ['\n'] := by
      rw [withReturns_append, withReturns_of_not_mem hbody, List.append_assoc]
      rfl
    rw [hends, content_concat, content_concat, hreturn]

theorem lineAfter_withReturns {before rest : List (List Char)} {piece : List Char}
    (h : AreLines (before ++ piece :: rest)) :
    lineAfter (before.map Text.withReturns) (Text.withReturns piece) =
      (lineAfter before piece).withReturns := by
  simp [lineAfter, Line.withReturns, withReturns_flatten, byteSize_withReturns,
    h.count_flatten_and_endsLine.1, content_withReturns h.of_append]

theorem linesAfter_withReturns {before rest : List (List Char)} (h : AreLines (before ++ rest)) :
    linesAfter (before.map Text.withReturns) (rest.map Text.withReturns) =
      (linesAfter before rest).map Line.withReturns := by
  induction rest generalizing before with
  | nil => rfl
  | cons piece rest ih =>
    have hrest : AreLines (before ++ [piece] ++ rest) := by
      rwa [List.append_assoc, List.singleton_append]
    have hlines := ih hrest
    rw [List.map_append] at hlines
    rw [List.map_cons, linesAfter, linesAfter, List.map_cons, lineAfter_withReturns h, ← hlines]
    rfl

theorem linesOf_withReturns (source : String) :
    linesOf (String.ofList (Text.withReturns source.toList)) =
      (linesOf source).map Line.withReturns := by
  have hlines := @linesAfter_withReturns [] _ (areLines_lines source.toList)
  rw [linesOf, String.toList_ofList, lines_withReturns]
  exact hlines

/-- The line feeds before an offset in the text of a line, its end included, are as many as the lines
before it. -/
theorem Line.StandsIn.feedsBefore_eq {source : List Char} {offset : Nat} (h : line.StandsIn source)
    (hstart : line.offset ≤ offset) (hstop : offset ≤ line.offset + byteSize line.text) :
    feedsBefore offset source = line.number - 1 := by
  rcases h.exists_split with ⟨before, after, rfl, hoffset, hnumber, htext⟩
  rw [hoffset] at hstart hstop
  have hinside : offset = byteSize before + (offset - byteSize before) := by omega
  have hle : offset - byteSize before ≤ byteSize line.text := by omega
  rw [hinside, feedsBefore_append, feedsBefore_of_not_mem htext hle, hnumber]
  rfl

end Lines

section Diagnostics

theorem Line.errorDiagnostic_withReturns (line : Line) (error : Error) (filename : String) :
    line.withReturns.errorDiagnostic filename error =
      (line.errorDiagnostic filename error).shift (line.number - 1) := by
  simp [errorDiagnostic, Line.withReturns, Diagnostic.shift, Span.shift, Nat.add_assoc]

theorem Line.first?_withReturns (all : List Line) (canonical : String) :
    first? catalog (all.map Line.withReturns) canonical =
      (first? catalog all canonical).map Line.withReturns := by
  rw [first?, List.find?_map]
  rfl

/-- A line gives the same diagnostic where all lines have one more carriage return, at its new place. -/
theorem Line.diagnostic?_withReturns (line : Line) (all : List Line) :
    line.withReturns.diagnostic? catalog filename (all.map Line.withReturns) =
      (line.diagnostic? catalog filename all).map (·.shift (line.number - 1)) := by
  have hresult : line.withReturns.result? catalog = line.result? catalog := rfl
  cases h : line.result? catalog with
  | none => rw [diagnostic?_of_skipped h, diagnostic?_of_skipped (hresult.trans h), Option.map_none]
  | some result =>
    cases result with
    | error error =>
      rw [diagnostic?_of_error h, diagnostic?_of_error (hresult.trans h), errorDiagnostic_withReturns,
        Option.map_some]
    | ok canonical =>
      rw [diagnostic?_of_ok h, diagnostic?_of_ok (hresult.trans h), first?_withReturns]
      cases first? catalog all canonical with
      | none => rfl
      | some first =>
        by_cases hlt : first.number < line.number
        · simp [Option.filter, Line.withReturns, hlt, duplicate, Diagnostic.shift, Span.shift, trimmedSpan,
            Nat.add_assoc]
        · simp [Option.filter, Line.withReturns, hlt]

/-- The style of the line ends does not matter: with a carriage return before each line feed, a listing
gives the same diagnostics in the same order, each with its span moved by the number of line feeds before
it. -/
theorem check_withReturns (catalog : Catalog) (source filename : String) :
    check catalog (String.ofList (Text.withReturns source.toList)) filename =
      (check catalog source filename).map fun d =>
        d.shift (feedsBefore d.span.start source.toList) := by
  rw [check_eq, check_eq, linesOf_withReturns, List.filterMap_map, List.map_filterMap]
  apply List.filterMap_congr
  intro line hline
  rw [Function.comp_apply, Line.diagnostic?_withReturns]
  cases hd : line.diagnostic? catalog filename (linesOf source) with
  | none => rfl
  | some d =>
    rcases (Line.liesIn_diagnostic? hd).bounds with ⟨hstart, hle, hstop⟩
    have hfeeds := (standsIn_of_mem_linesOf hline).feedsBefore_eq hstart (Nat.le_trans hle hstop)
    rw [Option.map_some, Option.map_some, hfeeds]

/-- A list that is not closed has its error at the end of its line, before the line feed there, so the error
moves by the one line feed before the line. -/
example : (check .builtin "i8\nlist<i8\n i8" "types").map Diagnostic.span = [⟨10, 10⟩, ⟨12, 14⟩] ∧
    (check .builtin "i8\r\nlist<i8\r\n i8" "types").map Diagnostic.span = [⟨11, 11⟩, ⟨14, 16⟩] := by
  decide +kernel

end Diagnostics

end Listing

end Signatures
