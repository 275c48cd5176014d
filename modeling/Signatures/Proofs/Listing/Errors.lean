import Signatures.CommandLine.Run
import Signatures.Proofs.Listing.Checking
import Signatures.Proofs.Signature.ErrorSpan

/-!
# The errors of a listing

The errors of a listing are those of its failing lines, one each and in order. Each is the error of the
text of its line alone, moved to the place of the line, so it lies in this text and the line index counts
its line as the listing does. The command that checks a listing fails if a line does, and only then.
-/

namespace Signatures

open Text

variable {catalog : Catalog}

theorem Catalog.Rejects.liesIn {text : String} {error : Error} (h : catalog.Rejects text error) :
    ∀ span ∈ error.span?, span.LiesIn 0 text.toList := by
  cases h with
  | parse hparse => exact Catalog.liesIn_of_parse hparse
  | @resolve expr fault hparse hresolve =>
    rw [Error.span?_ofResolve]
    exact nofun

namespace Listing

variable {filename : String} {line : Line} {error : Error}

/-- A line of the text holds what is no signature, or a type that does not resolve. -/
def SomeLineFails (catalog : Catalog) (source : List Char) : Prop :=
  ∃ line : Line, line.StandsIn source ∧ ∃ error, line.Fails catalog error

namespace Line

theorem Fails.liesIn (h : line.Fails catalog error) (filename : String) :
    (line.errorDiagnostic filename error).span.LiesIn line.offset line.text := by
  have hspan := (Error.liesIn_diagnostic h.2.liesIn filename).shift line.offset
  rwa [String.toList_ofList] at hspan

theorem filter_error_diagnostic? (all : List Line) :
    (line.diagnostic? catalog filename all).filter (fun d => d.severity == .error) =
      (line.error? catalog).map (line.errorDiagnostic filename) := by
  unfold diagnostic?
  cases line.error? catalog with
  | some error => rfl
  | none =>
    rw [Option.map_none, Option.filter_eq_none_iff]
    intro warning hwarning
    rcases exists_duplicate_of_warning? hwarning with ⟨canonical, first, rfl⟩
    simp [duplicate]

end Line

theorem filter_error_check (catalog : Catalog) (source filename : String) :
    (check catalog source filename).filter (fun d => d.severity == .error) =
      (linesOf source).filterMap fun line =>
        (line.error? catalog).map (line.errorDiagnostic filename) := by
  rw [check_eq, List.filter_filterMap]
  simp only [Line.filter_error_diagnostic?]

/-- A listing has no errors exactly if none of its lines fails. -/
theorem countP_error_check_eq_zero_iff {source : String} :
    (check catalog source filename).countP (fun d => d.severity == .error) = 0 ↔
      ¬ SomeLineFails catalog source.toList := by
  simp only [SomeLineFails, ← (isListing_linesOf source).mem_iff]
  rw [List.countP_eq_length_filter, filter_error_check, List.length_eq_zero_iff,
    List.filterMap_eq_nil_iff]
  simp only [Option.map_eq_none_iff, ← Line.error?_eq_some_iff, not_exists, not_and]
  simp only [Option.eq_none_iff_forall_ne_some, ne_eq]

end Listing

open Listing CommandLine

namespace CommandLine

theorem run_check {sources : Sources} {path : Option String} {file source : String}
    (hread : (sources.read file).1 = .ok source)
    (hload : loadCatalog (sources.read file).2 path = .ok catalog) :
    run sources ⟨path, .check file⟩ = runCheck catalog source file := by
  simp only [run, hread, withCatalog, hload]

theorem code_runCheck_eq_one_iff {source file : String} :
    (runCheck catalog source file).code = 1 ↔ SomeLineFails catalog source.toList := by
  have hiff := @countP_error_check_eq_zero_iff catalog file source
  by_cases h : SomeLineFails catalog source.toList
  · have hcount : (check catalog source file).countP (fun d => d.severity == .error) ≠ 0 :=
      fun hzero => hiff.mp hzero h
    simp only [runCheck, hcount, if_false, h]
  · have hcount := hiff.mpr h
    simp [runCheck, hcount, h]

/-- Checking a listing succeeds if none of its lines fails, whatever is repeated. -/
theorem runCheck_of_not_someLineFails {source file : String}
    (h : ¬ SomeLineFails catalog source.toList) :
    (runCheck catalog source file).code = 0 ∧ (runCheck catalog source file).stdout = "Check: OK\n" := by
  have hcount := (@countP_error_check_eq_zero_iff catalog file source).mpr h
  simp [runCheck, hcount]

end CommandLine

/-- The errors of a listing are, in the order of its lines, those of the lines that fail, one for each and
as the text of the line alone has it, moved by the offset of the line. They lie in the text of their line
and, by the line index, on the line with its number. The command that checks a listing fails exactly if
there is such a line, and succeeds otherwise. -/
theorem Listing.check_errors (catalog : Catalog) (source filename : String) :
    IsListing source.toList (linesOf source) ∧
      (check catalog source filename).filter (fun d => d.severity == .error) =
        (linesOf source).filterMap (fun line =>
          (line.error? catalog).map (line.errorDiagnostic filename)) ∧
      (∀ (line : Line) (error : Error), line.error? catalog = some error ↔ line.Fails catalog error) ∧
      (∀ (line : Line) (error : Error), line.StandsIn source.toList → line.Fails catalog error →
        let span := (line.errorDiagnostic filename error).span
        let index := LineIndex.ofText source.toList
        line.offset ≤ span.start ∧ span.start ≤ span.stop ∧
          span.stop ≤ line.offset + byteSize line.text ∧
          (index.position span.start).line = line.number ∧
          (index.position span.stop).line = line.number) ∧
      ∀ (sources : Sources) (path : Option String), (sources.read filename).1 = .ok source →
        loadCatalog (sources.read filename).2 path = .ok catalog →
        let outcome := run sources ⟨path, .check filename⟩
        (outcome.code = 1 ↔ SomeLineFails catalog source.toList) ∧
          (¬ SomeLineFails catalog source.toList →
            outcome.code = 0 ∧ outcome.stdout = "Check: OK\n") := by
  refine ⟨isListing_linesOf source, filter_error_check catalog source filename,
    fun line error => Line.error?_eq_some_iff, ?_, ?_⟩
  · intro line error hstands hfails
    rcases (hfails.liesIn filename).bounds with ⟨hstart, hle, hstop⟩
    refine ⟨hstart, hle, hstop, ?_, ?_⟩
    · exact hstands.position_line hstart (Nat.le_trans hle hstop)
    · exact hstands.position_line (Nat.le_trans hstart hle) hstop
  · intro sources path hread hload
    rw [run_check hread hload]
    exact ⟨code_runCheck_eq_one_iff, runCheck_of_not_someLineFails⟩

theorem check_errors_builtin :
    (run ⟨"i16\nlist<i32\n", fun _ => .error "no such file"⟩ ⟨none, .check "-"⟩).code = 1 ∧
      SomeLineFails .builtin "i16\nlist<i32\n".toList := by
  have hrun := (Listing.check_errors .builtin "i16\nlist<i32\n" "-").2.2.2.2
    ⟨"i16\nlist<i32\n", fun _ => .error "no such file"⟩ none rfl rfl
  have hcode : (run ⟨"i16\nlist<i32\n", fun _ => .error "no such file"⟩ ⟨none, .check "-"⟩).code = 1 := by
    decide +kernel
  exact ⟨hcode, hrun.1.mp hcode⟩

/-- A list that is not closed has its error at the end of its line, and an unknown type on all of its. -/
example : (check .builtin "i16\nlist<i32\nfloat128\n" "types").map (fun d => (d.kind, d.span)) =
    [(.grammar, ⟨12, 12⟩), (.resolve, ⟨13, 21⟩)] := by
  decide +kernel

end Signatures
