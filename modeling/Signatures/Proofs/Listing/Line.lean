import Signatures.Listing
import Signatures.Proofs.Text.Lines
import Signatures.Proofs.Text.Parts

/-!
# The lines of a listing

A line has a number, the offset of its first byte and a text without its end. The lines of a listing are
all that stand in its text: each starts where the text does or behind a line feed, and its number counts
the line feeds before it. So the line index finds the same lines.
-/

namespace Signatures.Listing

open Text

/-- A line of a listing: its number, the offset of its first byte, and its text without its end. -/
structure Line where
  number : Nat
  offset : Nat
  text : List Char
  deriving DecidableEq, Repr

def lineAfter (before : List (List Char)) (piece : List Char) : Line :=
  ⟨before.length + 1, byteSize before.flatten, content piece⟩

def linesAfter (before : List (List Char)) : List (List Char) → List Line
  | [] => []
  | piece :: rest => lineAfter before piece :: linesAfter (before ++ [piece]) rest

def linesOf (source : String) : List Line := linesAfter [] (lines source.toList)

section Lines

variable {before first second : List (List Char)} {line : Line}

theorem linesAfter_append :
    linesAfter before (first ++ second) =
      linesAfter before first ++ linesAfter (before ++ first) second := by
  induction first generalizing before with
  | nil => simp [linesAfter]
  | cons piece first ih => simp [linesAfter, ih]

/-- What comes before a line decides its number and its offset, and nothing else does. -/
theorem mem_linesAfter_iff :
    line ∈ linesAfter before first ↔
      ∃ earlier piece later, first = earlier ++ piece :: later ∧
        line = lineAfter (before ++ earlier) piece := by
  constructor
  · intro h
    induction first generalizing before with
    | nil => cases h
    | cons piece first ih =>
      rcases List.mem_cons.mp h with rfl | h
      · exact ⟨[], piece, first, rfl, by simp⟩
      · rcases ih h with ⟨earlier, piece', later, rfl, rfl⟩
        exact ⟨piece :: earlier, piece', later, rfl, by simp⟩
  · rintro ⟨earlier, piece, later, rfl, rfl⟩
    rw [linesAfter_append]
    exact List.mem_append_right _ List.mem_cons_self

theorem lt_number_of_mem_linesAfter (h : line ∈ linesAfter before first) :
    before.length < line.number := by
  rcases mem_linesAfter_iff.mp h with ⟨earlier, piece, later, rfl, rfl⟩
  simp only [lineAfter, List.length_append]
  omega

theorem pairwise_linesAfter :
    (linesAfter before first).Pairwise fun line other => line.number < other.number := by
  induction first generalizing before with
  | nil => exact .nil
  | cons piece first ih =>
    refine List.pairwise_cons.mpr ⟨?_, ih⟩
    intro line hline
    have hnumber := lt_number_of_mem_linesAfter hline
    rwa [List.length_append, List.length_singleton] at hnumber

/-- The text of a line holds no line feed, and does not end with a carriage return. -/
def IsLineText (text : List Char) : Prop := '\n' ∉ text ∧ text.getLast? ≠ some '\r'

/-- The line is one of a text: it starts where the text does or behind a line feed, and goes on to the next
line feed or to the end of the text. Its own text has no carriage returns at its end. -/
inductive Line.StandsIn (source : List Char) : Line → Prop where
  | ended {before text returns after : List Char}
      (hsource : source = before ++ (text ++ (returns ++ '\n' :: after))) (hbefore : EndsLine before)
      (htext : IsLineText text) (hreturns : ∀ c ∈ returns, c = '\r') :
      StandsIn source ⟨before.count '\n' + 1, byteSize before, text⟩
  | last {before text returns : List Char} (hsource : source = before ++ (text ++ returns))
      (hne : text ++ returns ≠ []) (hbefore : EndsLine before) (htext : IsLineText text)
      (hreturns : ∀ c ∈ returns, c = '\r') :
      StandsIn source ⟨before.count '\n' + 1, byteSize before, text⟩

theorem exists_content {body : List Char} (h : '\n' ∉ body) :
    ∃ returns, body = content body ++ returns ∧ IsLineText (content body) ∧ ∀ c ∈ returns, c = '\r' := by
  refine ⟨_, (dropRight_append_takeWhile _ body).symm, ⟨?_, ?_⟩, ?_⟩
  · exact fun hmem => h (mem_of_mem_dropRight hmem)
  · intro hlast
    have hstays := getLast?_dropRight _ hlast
    cases hstays
  · intro c hc
    have hmem := List.mem_reverse.mp hc
    have hend := List.all_eq_true.mp List.all_takeWhile c hmem
    have hbody : c ∈ body := List.mem_reverse.mp ((List.takeWhile_prefix _).subset hmem)
    simp only [Bool.or_eq_true, beq_iff_eq] at hend
    rcases hend with rfl | hreturn
    · exact absurd hbody h
    · exact hreturn

theorem content_append {text returns : List Char} (h : IsLineText text)
    (hreturns : ∀ c ∈ returns, c = '\r') : content (text ++ returns) = text := by
  apply dropRight_append_of_getLast
  · intro c hc
    rw [hreturns c hc]
    rfl
  · intro c hc
    have hfeed : c ≠ '\n' := fun heq => h.1 (heq ▸ List.mem_of_getLast? hc)
    have hreturn : c ≠ '\r' := fun heq => h.2 (heq ▸ hc)
    simp [hfeed, hreturn]

theorem content_concat (piece : List Char) : content (piece ++ ['\n']) = content piece :=
  dropRight_concat_of_pos (by decide) piece

theorem IsLineText.not_mem_append {text returns : List Char} (h : IsLineText text)
    (hreturns : ∀ c ∈ returns, c = '\r') : '\n' ∉ text ++ returns := by
  rw [List.mem_append, not_or]
  exact ⟨h.1, fun hmem => absurd (hreturns _ hmem) (by decide)⟩

theorem lineAfter_eq {before : List Char} (h : EndsLine before) (piece : List Char) :
    lineAfter (lines before) piece = ⟨before.count '\n' + 1, byteSize before, content piece⟩ := by
  rw [lineAfter, flatten_lines, length_lines h]

/-- The lines of a listing stand in its text. -/
theorem standsIn_of_mem_linesOf {source : String} (h : line ∈ linesOf source) :
    line.StandsIn source.toList := by
  rcases mem_linesAfter_iff.mp h with ⟨earlier, piece, later, hlines, rfl⟩
  have hare := areLines_lines source.toList
  have hsource := flatten_lines source.toList
  rw [hlines] at hare hsource
  rw [List.flatten_append, List.flatten_cons] at hsource
  rcases hare.count_flatten_and_endsLine with ⟨hcount, hends⟩
  rw [List.nil_append, lineAfter, ← hcount]
  cases hare.of_append with
  | last hbody hne =>
    rcases exists_content hbody with ⟨returns, hsplit, htext, hreturns⟩
    have hstands : source.toList = earlier.flatten ++ (content piece ++ returns) := by
      rw [← hsource, ← hsplit]
      simp
    exact .last hstands (hsplit ▸ hne) hends htext hreturns
  | @cons body _ hbody hrest =>
    rcases exists_content hbody with ⟨returns, hsplit, htext, hreturns⟩
    have hstands : source.toList =
        earlier.flatten ++ (content body ++ (returns ++ '\n' :: later.flatten)) := by
      rw [← hsource, ← List.append_assoc (content body), ← hsplit]
      simp
    rw [content_concat]
    exact .ended hstands hends htext hreturns

/-- What stands as a line in the text of a listing is a line of it. -/
theorem Line.StandsIn.mem_linesOf {source : String} (h : line.StandsIn source.toList) :
    line ∈ linesOf source := by
  rw [linesOf, mem_linesAfter_iff]
  cases h with
  | @ended before text returns after hsource hbefore htext hreturns =>
    have hbody := htext.not_mem_append hreturns
    have hlines : lines source.toList = lines before ++ (text ++ returns ++ ['\n']) :: lines after := by
      rw [hsource, lines_append hbefore, ← List.append_assoc text, lines_of_ended hbody]
    refine ⟨lines before, _, lines after, hlines, ?_⟩
    rw [List.nil_append, lineAfter_eq hbefore, content_concat, content_append htext hreturns]
  | @last before text returns hsource hne hbefore htext hreturns =>
    have hbody := htext.not_mem_append hreturns
    have hlines : lines source.toList = lines before ++ [text ++ returns] := by
      rw [hsource, lines_append hbefore, lines_of_last hbody hne]
    refine ⟨lines before, _, [], hlines, ?_⟩
    rw [List.nil_append, lineAfter_eq hbefore, content_append htext hreturns]

structure IsListing (source : List Char) (all : List Line) : Prop where
  mem_iff : ∀ line, line ∈ all ↔ line.StandsIn source
  ordered : all.Pairwise fun line other => line.number < other.number

theorem isListing_linesOf (source : String) : IsListing source.toList (linesOf source) :=
  ⟨fun _ => ⟨standsIn_of_mem_linesOf, Line.StandsIn.mem_linesOf⟩, pairwise_linesAfter⟩

/-- The text of a line stands in the text of the listing, behind as many line feeds as there are lines
before it. -/
theorem Line.StandsIn.exists_split {source : List Char} (h : line.StandsIn source) :
    ∃ before after, source = before ++ (line.text ++ after) ∧ line.offset = byteSize before ∧
      line.number = before.count '\n' + 1 ∧ '\n' ∉ line.text := by
  cases h with
  | ended hsource hbefore htext hreturns => exact ⟨_, _, hsource, rfl, rfl, htext.1⟩
  | last hsource hne hbefore htext hreturns => exact ⟨_, _, hsource, rfl, rfl, htext.1⟩

theorem Line.StandsIn.position_line {source : List Char} {offset : Nat} (h : line.StandsIn source)
    (hstart : line.offset ≤ offset) (hstop : offset ≤ line.offset + byteSize line.text) :
    ((LineIndex.ofText source).position offset).line = line.number := by
  rcases h.exists_split with ⟨before, after, rfl, hoffset, hnumber, htext⟩
  rw [hoffset] at hstart hstop
  rw [hnumber]
  exact LineIndex.position_line htext hstart hstop

end Lines

end Signatures.Listing
