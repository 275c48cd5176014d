import Signatures.Proofs.Signature.Canonical
import Signatures.Proofs.Signature.Parsing
import Signatures.Proofs.Signature.Rendering

/-!
# What parsing accepts and keeps

Parsing accepts exactly the texts whose tokens are in the grammar. The text of the signature that it
returns has the same tokens in canonical form, and the integers that stand bare as arguments are its
fixed parameters; a number keeps its text. No integer that is cut from a text is out of range.
-/

namespace Signatures

open Lexeme Grammar

namespace Shape

theorem exists_parse_eq_ok_iff {source : String} :
    (∃ shape, Shape.parse source = .ok shape) ↔
      ∃ lexemes, scan source = .ok lexemes ∧ IsSignature (lexemes.map Lexeme.token) := by
  constructor
  · rintro ⟨shape, hshape⟩
    rcases parse_eq_ok_iff.mp hshape with ⟨lexemes, hscan, halone, htokens⟩
    exact ⟨lexemes, hscan, isSignature_iff_exists_shape.mpr ⟨shape, halone, htokens⟩⟩
  · rintro ⟨lexemes, hscan, hsignature⟩
    rcases isSignature_iff_exists_shape.mp hsignature with ⟨shape, halone, htokens⟩
    exact ⟨shape, parse_eq_ok_iff.mpr ⟨lexemes, hscan, halone, htokens⟩⟩

section Meaning

variable {known : String → Bool} {shape : Shape}

theorem exists_scan_render (halone : shape.standsAlone = true)
    (hwritten : ∀ token ∈ shape.tokens, token.Written) :
    ∃ rendered, scan (shape.signature known).render = .ok rendered ∧
      rendered.map Lexeme.token = canonicalTokens false shape.tokens := by
  rw [@canonicalTokens_eq_tokens_shape known shape hwritten]
  exact (Signature.spells_render (wellFormed_signature halone hwritten)).exists_scan

theorem map_fixedParams :
    (shape.signature known).fixedParams.map (fun value => some value.toInt) =
      (bareIntegers false shape.tokens).map (fun l => Text.Decimal.integer? l.text.toList) := by
  rw [← bareIntegers_eq_fixedParams, List.map_map]
  apply List.map_congr_left
  intro l _
  exact (Text.Decimal.int32?_eq_some_iff.mp l.denotes).symm

theorem signature_eq_number_iff {text : String} :
    shape.signature known = .number text ↔ ∃ l : Literal, shape.tokens = [.int l] ∧ l.text = text := by
  constructor
  · intro h
    unfold signature at h
    split at h
    · next l =>
      cases h
      exact ⟨l, by simp [tokens, listTokens, markTokens, Atom.token], rfl⟩
    · cases h
  · rintro ⟨l, htokens, rfl⟩
    have hbare : shape = ⟨.literal l, false, []⟩ := by
      apply tokens_injective
      rw [htokens, tokens, listTokens]
      rfl
    rw [hbare, signature]

end Meaning

end Shape

/-- No wording of a fault speaks of an integer parameter out of range. -/
theorem GrammarFault.message_ne_invalid_integer (fault : GrammarFault) (text : String) :
    fault.message ≠ "invalid integer parameter '" ++ text ++ "'" := by
  intro h
  have hhead := congrArg (fun message => message.toList.head?) h
  cases fault with
  | markedNumber => simp [message, String.toList_append] at hhead
  | unexpected expected found index => simp [message, String.toList_append] at hhead

namespace Catalog

variable {catalog : Catalog} {source : String}

theorem exists_parse_eq_ok_iff :
    (∃ s, catalog.parse source = .ok s) ↔
      ∃ lexemes, scan source = .ok lexemes ∧ IsSignature (lexemes.map Lexeme.token) := by
  rw [← Shape.exists_parse_eq_ok_iff]
  constructor
  · rintro ⟨s, hparse⟩
    rcases parse_eq_ok_iff.mp hparse with ⟨shape, hshape, -⟩
    exact ⟨shape, hshape⟩
  · rintro ⟨shape, hshape⟩
    exact ⟨_, parse_eq_ok_iff.mpr ⟨shape, hshape, rfl⟩⟩

theorem parse_ne_invalid_integer (text : String) (span : Span) :
    catalog.parse source ≠ .error (.grammar ("invalid integer parameter '" ++ text ++ "'") span) := by
  intro herror
  cases hscan : scan source with
  | error fault =>
    rw [parse_of_scan_eq_error hscan] at herror
    cases herror
  | ok lexemes =>
    rcases (parse_eq_error_iff hscan).mp herror with ⟨fault, -, hfault⟩
    exact fault.message_ne_invalid_integer text (Error.grammar.inj hfault).1

/-- Parsing accepts exactly the tokens of the grammar and loses none of them: the text of the signature
has the same tokens in canonical form, its fixed parameters are the integers that stand bare as arguments,
and a number keeps its text. That an integer is out of range is no fault of the grammar. -/
theorem parse_accepts_grammar (catalog : Catalog) (source : String) :
    ((∃ s, catalog.parse source = .ok s) ↔
        ∃ lexemes, scan source = .ok lexemes ∧ IsSignature (lexemes.map Lexeme.token)) ∧
      (∀ s, catalog.parse source = .ok s →
        ∃ lexemes rendered, scan source = .ok lexemes ∧ scan s.render = .ok rendered ∧
          rendered.map Lexeme.token = canonicalTokens false (lexemes.map Lexeme.token) ∧
          s.fixedParams.map (fun value => some value.toInt) =
            (bareIntegers false (lexemes.map Lexeme.token)).map
              (fun l => Text.Decimal.integer? l.text.toList) ∧
          ∀ text, s = .number text ↔ ∃ l, lexemes.map Lexeme.token = [.int l] ∧ l.text = text) ∧
      ∀ text span, catalog.parse source ≠
        .error (.grammar ("invalid integer parameter '" ++ text ++ "'") span) := by
  refine ⟨exists_parse_eq_ok_iff, ?_, parse_ne_invalid_integer⟩
  intro s hparse
  rcases parse_eq_ok_iff.mp hparse with ⟨shape, hshape, rfl⟩
  rcases Shape.parse_eq_ok_iff.mp hshape with ⟨lexemes, hscan, halone, htokens⟩
  have hwritten := written_of_scan hscan
  rw [← htokens] at hwritten
  rcases Shape.exists_scan_render halone hwritten with ⟨rendered, hrendered, hcanonical⟩
  refine ⟨lexemes, rendered, hscan, hrendered, ?_⟩
  rw [← htokens]
  exact ⟨hcanonical, Shape.map_fixedParams, fun _ => Shape.signature_eq_number_iff⟩

end Catalog

end Signatures
