import Signatures.Proofs.Signature.Parsing
import Signatures.Proofs.Text.Parts

/-!
# Where errors are

The span of every error of a signature lies in its text: the faults of cutting it into lexemes are about
some of its characters, those of the grammar about lexemes or about the end of the text, and an error
without a place is about the whole text.
-/

namespace Signatures

open Text

namespace Lexeme

theorem liesIn_of_readLiteral {sign cs : List Char} {offset : Nat} {fault : LexFault} {d : Char}
    (hhead : cs.head? = some d) (hdigit : d.isDigit = true)
    (h : readLiteral sign offset cs = .error fault) : fault.span.LiesIn offset cs := by
  have hsplit := List.takeWhile_append_dropWhile (p := Char.isDigit) (l := cs)
  simp only [readLiteral] at h
  split at h
  · next c hc =>
    cases h
    rcases Option.filter_eq_some_iff.mp hc with ⟨hnext, -⟩
    rcases List.head?_eq_some_iff.mp hnext with ⟨rest, hrest⟩
    refine ⟨cs.takeWhile Char.isDigit, [c], rest, ?_, by simp [LexFault.span]⟩
    rw [List.singleton_append, ← hrest, hsplit]
  · split at h
    · cases h
    · split at h
      · next hdigits =>
        cases h
        refine ⟨[], cs.takeWhile Char.isDigit, cs.dropWhile Char.isDigit, ?_, by simp [LexFault.span]⟩
        rw [List.nil_append, hsplit]
      · cases h
        rcases List.head?_eq_some_iff.mp hhead with ⟨rest, rfl⟩
        refine ⟨[], [d], rest, rfl, ?_⟩
        have hsize : d.utf8Size = 1 := by
          have hbounds := toNat_of_isDigit hdigit
          rw [Char.utf8Size_eq_one_iff, UInt32.le_iff_toNat_le]
          exact Nat.le_trans hbounds.2 (by decide)
        simp [LexFault.span, hsize]

theorem liesIn_of_readToken {cs : List Char} {offset : Nat} {fault : LexFault} {c : Char}
    (h : readToken offset c cs = .error fault) : fault.span.LiesIn offset (c :: cs) := by
  rw [readToken] at h
  split at h
  · next hdigit => exact liesIn_of_readLiteral rfl hdigit h
  split at h
  · next hminus =>
    subst hminus
    split at h
    · next hany =>
      rcases (Option.any_eq_true_iff_get _ _).mp hany with ⟨hsome, hdigit⟩
      have hrest := liesIn_of_readLiteral (Option.some_get hsome).symm hdigit h
      exact hrest.append_left ['-']
    · cases h
      exact ⟨[], ['-'], cs, rfl, rfl⟩
  split at h
  · cases h
  repeat (split at h; · cases h)
  cases h
  exact ⟨[], [c], cs, rfl, by simp [LexFault.span]⟩

theorem liesIn_of_scanFrom {cs : List Char} {offset : Nat} {fault : LexFault}
    (h : scanFrom offset cs = .error fault) : fault.span.LiesIn offset cs := by
  rcases scanFrom_eq_error_iff.mp h with ⟨before, c, after, lexemes, rfl, -, -, hread⟩
  exact (liesIn_of_readToken hread).append_left before

section Spells

variable {offset : Nat} {cs rest : List Char} {lexemes : List Lexeme}

theorem Spells.liesIn (h : Spells offset cs lexemes rest) :
    ∀ lexeme ∈ lexemes, lexeme.span.LiesIn offset cs := by
  induction h with
  | nil offset rest => simp
  | @blank offset c cs rest lexemes hc h ih =>
    intro lexeme hmem
    exact Span.LiesIn.append_left [c] (by simpa using ih lexeme hmem)
  | @token offset token cs rest lexemes hwritten hends h ih =>
    intro lexeme hmem
    rcases List.mem_cons.mp hmem with rfl | hmem
    · exact (Span.liesIn_whole offset token.text.toList).append_right cs
    · exact (ih lexeme hmem).append_left _

theorem Spells.liesIn_pair {first second : Lexeme} (h : Spells offset cs (first :: second :: lexemes) rest) :
    (⟨first.span.start, second.span.stop⟩ : Span).LiesIn offset cs := by
  generalize hall : first :: second :: lexemes = all at h
  induction h with
  | nil offset rest => cases hall
  | @blank offset c cs rest all hc h ih =>
    exact Span.LiesIn.append_left [c] (by simpa using ih hall)
  | token hwritten hends h ih =>
    cases hall
    exact (h.liesIn second List.mem_cons_self).extend _

end Spells

end Lexeme

open Lexeme

/-- A fault of the grammar is about lexemes of the text or about its end. -/
theorem GrammarFault.liesIn_span {source : String} {lexemes : List Lexeme}
    (hscan : scan source = .ok lexemes) (fault : GrammarFault) :
    (fault.span lexemes (byteSize source.toList)).LiesIn 0 source.toList := by
  have hspells : Spells 0 source.toList lexemes [] := scanFrom_eq_ok_iff.mp hscan
  have hfinish := Span.liesIn_finish 0 source.toList
  rw [Nat.zero_add] at hfinish
  unfold GrammarFault.span
  split
  · split
    · exact hspells.liesIn_pair
    · exact hfinish
  · unfold spanAt
    split
    · next lexeme hlexeme => exact hspells.liesIn lexeme (List.mem_of_getElem? hlexeme)
    · exact hfinish

theorem Catalog.liesIn_of_parse {catalog : Catalog} {source : String} {error : Error}
    (h : catalog.parse source = .error error) : ∀ span ∈ error.span?, span.LiesIn 0 source.toList := by
  cases hscan : scan source with
  | error fault =>
    rw [parse_of_scan_eq_error hscan] at h
    cases h
    rintro span ⟨⟩
    exact liesIn_of_scanFrom hscan
  | ok lexemes =>
    rcases (parse_eq_error_iff hscan).mp h with ⟨fault, -, rfl⟩
    rintro span ⟨⟩
    exact fault.liesIn_span hscan

theorem Error.span?_ofResolve (fault : ResolveFault) : (Error.ofResolve fault).span? = none := by
  cases fault <;> rfl

theorem Error.liesIn_diagnostic {error : Error} {source : String}
    (h : ∀ span ∈ error.span?, span.LiesIn 0 source.toList) (filename : String) :
    (error.diagnostic filename source).span.LiesIn 0 source.toList := by
  change (error.span?.getD ⟨0, byteSize source.toList⟩).LiesIn 0 source.toList
  cases hspan : error.span? with
  | none => simpa using Span.liesIn_whole 0 source.toList
  | some span => exact h span hspan

end Signatures
