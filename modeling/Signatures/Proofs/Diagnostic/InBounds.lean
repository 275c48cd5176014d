import Signatures.Proofs.Diagnostic.Checked
import Signatures.Proofs.Listing.Duplicates
import Signatures.Proofs.Listing.Errors

/-!
# Diagnostics in bounds

What a diagnostic is about is a part of the text that it is formatted with. For the text of a signature,
this is where its error is. In a listing, it is a part of the text of a line, and so one of the whole.
-/

namespace Signatures

open Text

/-- The offset falls between two characters of a text, or at one of its ends. -/
def Text.IsBoundary (cs : List Char) (offset : Nat) : Prop :=
  ∃ before after, cs = before ++ after ∧ byteSize before = offset

/-- The span is in order and inside the text, and cuts no character. -/
structure Span.InBounds (span : Span) (cs : List Char) : Prop where
  start_le_stop : span.start ≤ span.stop
  stop_le_size : span.stop ≤ byteSize cs
  start_isBoundary : IsBoundary cs span.start
  stop_isBoundary : IsBoundary cs span.stop

theorem Span.LiesIn.inBounds {span : Span} {cs : List Char} (h : span.LiesIn 0 cs) : span.InBounds cs := by
  rcases h with ⟨before, part, after, rfl, rfl⟩
  constructor
  · simp
  · simp
  · exact ⟨before, part ++ after, rfl, by simp⟩
  · exact ⟨before ++ part, after, by simp, by simp⟩

theorem Span.InBounds.liesIn {span : Span} {cs : List Char} (h : span.InBounds cs) : span.LiesIn 0 cs := by
  rcases h.start_isBoundary with ⟨before, rest, hstart, hbefore⟩
  rcases h.stop_isBoundary with ⟨upTo, after, hstop, hupTo⟩
  have hle : byteSize before ≤ byteSize upTo := by
    rw [hbefore, hupTo]
    exact h.start_le_stop
  rcases List.append_eq_append_iff.mp (hstart.symm.trans hstop) with
    ⟨part, rfl, rfl⟩ | ⟨more, rfl, -⟩
  · refine ⟨before, part, after, hstart, ?_⟩
    rw [byteSize_append] at hupTo
    rw [Nat.zero_add, hupTo, hbefore]
  -- What is left of the text before the span, behind its end, has no bytes.
  · have hnil : more = [] := by
      cases more with
      | nil => rfl
      | cons c more =>
        have hc := c.utf8Size_pos
        simp only [byteSize_append, byteSize_cons] at hle
        omega
    rw [hnil, List.append_nil] at hbefore
    have hspan : span = ⟨span.start, span.stop⟩ := rfl
    refine ⟨upTo, [], after, hstop, ?_⟩
    rw [hspan, ← hbefore, ← hupTo, byteSize_nil, Nat.add_zero, Nat.zero_add]

namespace Catalog

variable {catalog : Catalog} {source : String}

/-- What is told of a text: it does not parse, or it is that of a type which does not resolve or has no
short name, in the catalog it is parsed with or in another one. -/
inductive Tells (catalog : Catalog) (source : String) : Error → Prop where
  | parse {error : Error} (hparse : catalog.parse source = .error error) : Tells catalog source error
  | resolve {other : Catalog} {expr : TypeExpr} {fault : ResolveFault}
      (hparse : catalog.parse source = .ok (.type expr)) (hresolve : other.resolve expr = .error fault) :
      Tells catalog source (.ofResolve fault)
  | shortName {other : Catalog} {expr : TypeExpr} {fault : ResolveFault}
      (hparse : catalog.parse source = .ok (.type expr))
      (hname : other.shortName expr.name = .error fault) : Tells catalog source (.ofResolve fault)

theorem Tells.liesIn {error : Error} (h : catalog.Tells source error) (filename : String) :
    (error.diagnostic filename source).span.LiesIn 0 source.toList := by
  apply Error.liesIn_diagnostic
  cases h with
  | parse hparse => exact liesIn_of_parse hparse
  | resolve | shortName =>
    rw [Error.span?_ofResolve]
    exact nofun

end Catalog

namespace Listing

variable {catalog : Catalog} {filename : String} {source : List Char} {line : Line}

theorem Line.StandsIn.liesIn {span : Span} (h : line.StandsIn source)
    (hspan : span.LiesIn line.offset line.text) : span.LiesIn 0 source := by
  rcases h.exists_split with ⟨before, after, rfl, hoffset, -, -⟩
  rw [hoffset, ← Nat.zero_add (byteSize before)] at hspan
  exact (hspan.append_right after).append_left before

/-- The diagnostic of a line is about a part of the text of the line. -/
theorem Line.liesIn_diagnostic? {all : List Line} {d : Diagnostic}
    (hd : line.diagnostic? catalog filename all = some d) : d.span.LiesIn line.offset line.text := by
  unfold diagnostic? at hd
  split at hd
  · next error herror =>
    cases hd
    exact (error?_eq_some_iff.mp herror).liesIn filename
  · rcases Option.bind_eq_some_iff.mp hd with ⟨canonical, hcanonical, hfirst⟩
    rcases Option.map_eq_some_iff.mp hfirst with ⟨first, -, rfl⟩
    rcases canonical?_eq_some_iff.mp hcanonical with ⟨s, hlists, -⟩
    rcases exists_trimmedSpan hlists.1 line.offset with ⟨blanks, trailing, hsplit, -, -, hspan⟩
    exact ⟨blanks, _, trailing, hsplit, hspan⟩

theorem liesIn_of_mem_check {source : String} {d : Diagnostic} (h : d ∈ check catalog source filename) :
    d.span.LiesIn 0 source.toList := by
  rw [check_eq] at h
  rcases List.mem_filterMap.mp h with ⟨line, hline, hd⟩
  exact (standsIn_of_mem_linesOf hline).liesIn (Line.liesIn_diagnostic? hd)

end Listing

/-- What is told of a text, and of the lines of a listing, is in bounds. Formatting a diagnostic never
reads outside a text or inside a character of it, and never subtracts below zero, whatever its span is. -/
theorem Catalog.diagnostics_in_bounds (catalog : Catalog) (filename source : String) :
    (∀ error, catalog.Tells source error →
        (error.diagnostic filename source).span.InBounds source.toList) ∧
      (∀ (d : Diagnostic) (text : String), d.format? text = some (d.format text)) ∧
      ∀ d ∈ Listing.check catalog source filename, d.span.InBounds source.toList := by
  refine ⟨?_, Diagnostic.format?_eq_some, ?_⟩
  · intro error herror
    exact (herror.liesIn filename).inBounds
  · intro d hd
    exact (Listing.liesIn_of_mem_check hd).inBounds

/-- A character of two bytes that no lexeme starts with, behind a line with one. -/
example : (Listing.check .builtin "é\nlist<é>" "types").map Diagnostic.span = [⟨0, 2⟩, ⟨8, 10⟩] := by
  decide +kernel

end Signatures
