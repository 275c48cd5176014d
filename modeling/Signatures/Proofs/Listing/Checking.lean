import Signatures.Proofs.Listing.Verdict

/-!
# Checking a listing line by line

After some lines, what is known is how many they are, how many bytes they have, and which of them is the
first with each canonical text. So a line is reported as it is on its own, and a listing as its lines.
-/

namespace Signatures.Listing

open Text

variable {catalog : Catalog} {filename : String} {progress : Progress} {before rest : List (List Char)}
  {piece : List Char} {line : Line}

/-- What is known after the lines `before`. -/
structure Progress.After (catalog : Catalog) (before : List (List Char)) (progress : Progress) : Prop where
  lines : progress.lines = before.length
  offset : progress.offset = byteSize before.flatten
  seen : ∀ text, progress.seen.lookup text =
    (Line.first? catalog (linesAfter [] before) text).map Line.number

theorem Progress.after_start (catalog : Catalog) : Progress.start.After catalog [] :=
  ⟨rfl, rfl, fun _ => rfl⟩

/-- What a line of the given size leaves: nothing where it is skipped, its error, a warning where its
canonical text is known, and a new canonical text otherwise. -/
inductive Checked (catalog : Catalog) (filename : String) (progress : Progress) (line : Line) (size : Nat) :
    List Diagnostic → Progress → Prop where
  | skipped (h : line.result? catalog = none) :
      Checked catalog filename progress line size [] ⟨line.number, line.offset + size, progress.seen⟩
  | failed {error : Error} (h : line.result? catalog = some (.error error)) :
      Checked catalog filename progress line size [line.errorDiagnostic filename error]
        ⟨line.number, line.offset + size, progress.seen⟩
  | repeated {canonical : String} {first : Nat} (h : line.result? catalog = some (.ok canonical))
      (hseen : progress.seen.lookup canonical = some first) :
      Checked catalog filename progress line size
        [duplicate filename canonical first (trimmedSpan line.offset line.text)]
        ⟨line.number, line.offset + size, progress.seen⟩
  | listed {canonical : String} (h : line.result? catalog = some (.ok canonical))
      (hseen : progress.seen.lookup canonical = none) :
      Checked catalog filename progress line size []
        ⟨line.number, line.offset + size, (canonical, line.number) :: progress.seen⟩

theorem checked_checkLine (catalog : Catalog) (filename : String) (progress : Progress)
    (piece : List Char) :
    Checked catalog filename progress ⟨progress.lines + 1, progress.offset, content piece⟩
      (byteSize piece) (checkLine catalog filename progress piece).1
      (checkLine catalog filename progress piece).2 := by
  unfold checkLine
  by_cases hskip : isSkipped (content piece) = true
  · simp only [hskip, if_true]
    exact .skipped (by simp [Line.result?, hskip])
  · simp only [hskip]
    cases hcanonical : catalog.canonical (String.ofList (content piece)) with
    | error error => exact .failed (by simp [Line.result?, hskip, hcanonical])
    | ok canonical =>
      have hresult : (⟨progress.lines + 1, progress.offset, content piece⟩ : Line).result? catalog =
          some (.ok canonical) := by simp [Line.result?, hskip, hcanonical]
      cases hseen : progress.seen.lookup canonical with
      | some first => simpa [hseen] using .repeated hresult hseen
      | none => simpa [hseen] using .listed hresult hseen

theorem Progress.After.checked (h : progress.After catalog before) (filename : String)
    (piece : List Char) :
    Checked catalog filename progress (lineAfter before piece) (byteSize piece)
      (checkLine catalog filename progress piece).1 (checkLine catalog filename progress piece).2 := by
  have hchecked := checked_checkLine catalog filename progress piece
  rwa [h.lines, h.offset] at hchecked

theorem Line.filter_first? {earlier later : List Line} {canonical : String}
    (h : (earlier ++ line :: later).Pairwise fun line other => line.number < other.number) :
    ((Line.first? catalog (earlier ++ line :: later) canonical).filter
      fun first => first.number < line.number) = Line.first? catalog earlier canonical := by
  rcases List.pairwise_append.mp h with ⟨-, hlater, hbetween⟩
  rw [Line.first?, List.find?_append, ← Line.first?]
  cases hfirst : Line.first? catalog earlier canonical with
  | some first =>
    have hmem := List.mem_of_find?_eq_some hfirst
    have hnumber := hbetween first hmem line List.mem_cons_self
    simp [Option.filter, hnumber]
  | none =>
    rw [Option.none_or, Option.filter_eq_none_iff]
    intro first hfind
    rcases List.mem_cons.mp (List.mem_of_find?_eq_some hfind) with rfl | hmem
    · simp
    · have hnumber := List.rel_of_pairwise_cons hlater hmem
      simp only [decide_eq_true_eq]
      omega

/-- A line after others leaves what it gives on its own. -/
theorem Checked.diagnostics_eq {size : Nat} {diagnostics : List Diagnostic} {next : Progress}
    (hchecked : Checked catalog filename progress (lineAfter before piece) size diagnostics next)
    (h : progress.After catalog before) (rest : List (List Char)) :
    diagnostics = ((lineAfter before piece).diagnostic? catalog filename
      (linesAfter [] (before ++ piece :: rest))).toList := by
  have hall : linesAfter [] (before ++ piece :: rest) =
      linesAfter [] before ++ lineAfter before piece :: linesAfter (before ++ [piece]) rest := by
    rw [linesAfter_append, List.nil_append, linesAfter]
  have hpairwise := @pairwise_linesAfter [] (before ++ piece :: rest)
  rw [hall] at hpairwise ⊢
  cases hchecked with
  | skipped hresult => rw [Line.diagnostic?_of_skipped hresult, Option.toList_none]
  | failed hresult => rw [Line.diagnostic?_of_error hresult, Option.toList_some]
  | repeated hresult hseen =>
    rw [h.seen] at hseen
    rcases Option.map_eq_some_iff.mp hseen with ⟨first, hfirst, rfl⟩
    rw [Line.diagnostic?_of_ok hresult, Line.filter_first? hpairwise, hfirst, Option.map_some,
      Option.toList_some]
  | listed hresult hseen =>
    rw [h.seen, Option.map_eq_none_iff] at hseen
    rw [Line.diagnostic?_of_ok hresult, Line.filter_first? hpairwise, hseen, Option.map_none,
      Option.toList_none]

theorem Checked.lookup_seen {size : Nat} {diagnostics : List Diagnostic} {next : Progress}
    (h : Checked catalog filename progress line size diagnostics next) (text : String) :
    next.seen.lookup text = (progress.seen.lookup text).or
      (if line.canonical? catalog = some text then some line.number else none) := by
  cases h with
  | skipped hresult => simp [Line.canonical?, hresult]
  | failed hresult => simp [Line.canonical?, hresult]
  | @repeated canonical first hresult hseen =>
    by_cases htext : canonical = text
    · subst htext
      simp [hseen]
    · simp [Line.canonical?, hresult, htext]
  | @listed canonical hresult hseen =>
    by_cases htext : canonical = text
    · subst htext
      simp [Line.canonical?, hresult, hseen]
    · have hne : (text == canonical) = false := beq_false_of_ne (Ne.symm htext)
      simp [Line.canonical?, hresult, htext, List.lookup_cons, hne]

theorem Checked.counts {size : Nat} {diagnostics : List Diagnostic} {next : Progress}
    (h : Checked catalog filename progress line size diagnostics next) :
    next.lines = line.number ∧ next.offset = line.offset + size := by
  cases h <;> exact ⟨rfl, rfl⟩

/-- What is known after one more line. -/
theorem Checked.after {diagnostics : List Diagnostic} {next : Progress}
    (hchecked : Checked catalog filename progress (lineAfter before piece) (byteSize piece) diagnostics
      next)
    (h : progress.After catalog before) : next.After catalog (before ++ [piece]) := by
  rcases hchecked.counts with ⟨hlines, hoffset⟩
  refine ⟨by simp [hlines, lineAfter], by simp [hoffset, lineAfter], ?_⟩
  intro text
  have hall : linesAfter [] (before ++ [piece]) = linesAfter [] before ++ [lineAfter before piece] := by
    rw [linesAfter_append, List.nil_append, linesAfter, linesAfter]
  have hlast : [lineAfter before piece].find? (fun other => other.canonical? catalog == some text) =
      if (lineAfter before piece).canonical? catalog = some text then some (lineAfter before piece)
      else none := by
    rw [List.find?_singleton]
    simp
  rw [hchecked.lookup_seen, h.seen, hall, Line.first?, Line.first?, List.find?_append, hlast,
    Option.map_or]
  split <;> rfl

theorem checkLines_cons (catalog : Catalog) (filename : String) (progress : Progress) (piece : List Char)
    (rest : List (List Char)) :
    checkLines catalog filename progress (piece :: rest) =
      (checkLine catalog filename progress piece).1 ++
        checkLines catalog filename (checkLine catalog filename progress piece).2 rest := rfl

/-- Lines after others give what each of them gives on its own. -/
theorem checkLines_eq (h : progress.After catalog before) (rest : List (List Char)) :
    checkLines catalog filename progress rest =
      (linesAfter before rest).filterMap fun line =>
        line.diagnostic? catalog filename (linesAfter [] (before ++ rest)) := by
  induction rest generalizing before progress with
  | nil => rfl
  | cons piece rest ih =>
    have hchecked := h.checked filename piece
    have hrest := ih (hchecked.after h)
    rw [List.append_assoc, List.singleton_append] at hrest
    rw [checkLines_cons, hchecked.diagnostics_eq h rest, hrest, linesAfter, List.filterMap_cons]
    cases (lineAfter before piece).diagnostic? catalog filename
      (linesAfter [] (before ++ piece :: rest)) <;> rfl

theorem checkLines_append (filename : String) (h : progress.After catalog before)
    (first : List (List Char)) :
    ∃ next : Progress, next.After catalog (before ++ first) ∧ ∀ rest,
      checkLines catalog filename progress (first ++ rest) =
        checkLines catalog filename progress first ++ checkLines catalog filename next rest := by
  induction first generalizing before progress with
  | nil => exact ⟨progress, by simpa using h, fun rest => rfl⟩
  | cons piece first ih =>
    rcases ih ((h.checked filename piece).after h) with ⟨next, hnext, heq⟩
    refine ⟨next, by simpa using hnext, ?_⟩
    intro rest
    rw [List.cons_append, checkLines_cons, checkLines_cons, heq, List.append_assoc]

/-- Checking a listing gives what each of its lines gives, in order. -/
theorem check_eq (catalog : Catalog) (source filename : String) :
    check catalog source filename =
      (linesOf source).filterMap fun line => line.diagnostic? catalog filename (linesOf source) :=
  checkLines_eq (Progress.after_start catalog) (lines source.toList)

end Signatures.Listing
