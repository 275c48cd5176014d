import Signatures.Proofs.Lexeme.Spelling
import Signatures.Proofs.Signature.Classifying

/-!
# What parsing accepts

A text has a shape if it is cut into the tokens of one that stands alone, and the signature of a text is
the one of its shape. A text that is cut into lexemes but has no shape has a fault of the grammar.
-/

namespace Signatures

open Lexeme

theorem eq_ok_of_toOption {ε α : Type} {result : Except ε α} {value : α}
    (h : result.toOption = some value) : result = .ok value := by
  cases result with
  | error fault => cases h
  | ok found => exact congrArg Except.ok (Option.some.inj h)

theorem Shape.parse_eq_ok_iff {source : String} {shape : Shape} :
    Shape.parse source = .ok shape ↔
      ∃ lexemes, scan source = .ok lexemes ∧ shape.standsAlone = true ∧
        shape.tokens = lexemes.map Lexeme.token := by
  rw [Shape.parse]
  constructor
  · intro h
    split at h
    · cases h
    · next lexemes hscan =>
      split at h
      · cases h
      · next hshape =>
        cases h
        exact ⟨lexemes, hscan, Shape.ofTokens_eq_ok_iff.mp hshape⟩
  · rintro ⟨lexemes, hscan, hshape⟩
    simp only [hscan, Shape.ofTokens_eq_ok_iff.mpr hshape]

theorem Shape.parse_of_spellsTokens {source : String} {shape : Shape}
    (halone : shape.standsAlone = true) (h : SpellsTokens source.toList shape.tokens []) :
    Shape.parse source = .ok shape := by
  rcases h.exists_scan with ⟨lexemes, hscan, htokens⟩
  exact Shape.parse_eq_ok_iff.mpr ⟨lexemes, hscan, halone, htokens.symm⟩

namespace Catalog

variable {catalog : Catalog} {source : String}

theorem parse_eq_ok_iff {s : Signature} :
    catalog.parse source = .ok s ↔
      ∃ shape, Shape.parse source = .ok shape ∧ shape.signature catalog.knows = s := by
  rw [parse_eq]
  cases Shape.parse source <;> simp [Except.map]

theorem parse_of_scan_eq_error {fault : LexFault} (hscan : scan source = .error fault) :
    catalog.parse source = .error (.ofLex fault) := by
  rw [Catalog.parse, hscan]

/-- A text that is cut into lexemes but has no signature has the fault of its tokens. -/
theorem parse_eq_error_iff {lexemes : List Lexeme} (hscan : scan source = .ok lexemes) {error : Error} :
    catalog.parse source = .error error ↔
      ∃ fault, Shape.ofTokens (lexemes.map Lexeme.token) = .error fault ∧
        Error.ofGrammar lexemes (Text.byteSize source.toList) fault = error := by
  simp only [parse_eq, Shape.parse, hscan]
  cases Shape.ofTokens (lexemes.map Lexeme.token) <;> simp [Except.map]

end Catalog

end Signatures
