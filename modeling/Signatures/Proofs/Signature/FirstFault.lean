import Signatures.Proofs.Shape.Viable
import Signatures.Proofs.Signature.Parsing

/-!
# Which fault is reported

The error of a text that is cut into lexemes but has no signature is about the first of them with which
they stop being the beginning of a signature, or about the end of the text if there is none. It names all
that could have come there instead, once each and in order. Only a number with a mark and no complete list
has an error of its own, which is the same whatever comes after the mark.
-/

namespace Signatures

open Lexeme Grammar

/-- What an error about the lexeme with an index says it found, and where: the token in quotes and its
span, or the end of the text behind the last lexeme. -/
inductive FoundAt (source : String) (lexemes : List Lexeme) (index : Nat) : String → Span → Prop where
  | token {lexeme : Lexeme} (h : lexemes[index]? = some lexeme) :
      FoundAt source lexemes index ("'" ++ lexeme.token.text ++ "'") lexeme.span
  | finish (h : index = lexemes.length) :
      FoundAt source lexemes index "end of input"
        ⟨Text.byteSize source.toList, Text.byteSize source.toList⟩

theorem foundAt_of_le_length {source : String} {lexemes : List Lexeme} {index : Nat}
    (h : index ≤ lexemes.length) (expected : List Expectation) (found : Option Token) :
    FoundAt source lexemes index
      (GrammarFault.foundText (lexemes.map Lexeme.token)[index]?)
      ((GrammarFault.unexpected expected found index).span lexemes (Text.byteSize source.toList)) := by
  rw [List.getElem?_map, GrammarFault.span, spanAt]
  cases hlexeme : lexemes[index]? with
  | some lexeme => exact .token hlexeme
  | none =>
    have hlength := List.getElem?_eq_none_iff.mp hlexeme
    exact .finish (Nat.le_antisymm h hlength)

namespace Catalog

variable {catalog : Catalog} {source : String} {lexemes : List Lexeme}

/-- The error of a number with a mark and no complete list covers both of them. -/
theorem parse_of_isMarkedNumber (hscan : scan source = .ok lexemes)
    (h : IsMarkedNumber (lexemes.map Lexeme.token)) :
    ∃ number mark rest, lexemes = number :: mark :: rest ∧
      catalog.parse source = .error (.grammar "a number literal cannot be marked nullable"
        ⟨number.span.start, mark.span.stop⟩) := by
  have herror := (@parse_eq_error_iff catalog source lexemes hscan _).mpr
    ⟨.markedNumber, Shape.ofTokens_of_isMarkedNumber h, rfl⟩
  rcases h with ⟨l, rest, htokens, -⟩
  rcases List.map_eq_cons_iff.mp htokens with ⟨number, tail, rfl, -, htail⟩
  rcases List.map_eq_cons_iff.mp htail with ⟨mark, tail, rfl, -, -⟩
  exact ⟨number, mark, tail, rfl, herror⟩

/-- Any other error is about the first lexeme that cannot come where it stands. -/
theorem breaksAt_of_parse {error : Error} (hscan : scan source = .ok lexemes)
    (herror : catalog.parse source = .error error) (h : ¬ IsMarkedNumber (lexemes.map Lexeme.token)) :
    ∃ (expected : List Expectation) (index : Nat) (found : String) (span : Span),
      BreaksAt (lexemes.map Lexeme.token) index ∧ FoundAt source lexemes index found span ∧
      (expected.map Expectation.text).Pairwise Text.Precedes ∧
      (∀ e, e ∈ expected ↔ Follows ((lexemes.map Lexeme.token).take index) e) ∧
      error = .grammar ("expected " ++ " or ".intercalate (expected.map Expectation.text) ++
        ", found " ++ found) span := by
  rcases (parse_eq_error_iff hscan).mp herror with ⟨fault, hfault, rfl⟩
  rcases Shape.ofTokens_eq_error hfault with
    ⟨hmarked, -⟩ | ⟨-, expected, index, hbreaks, hsorted, hfollows, rfl⟩
  · exact absurd hmarked h
  · have hle := hbreaks.le_length
    rw [List.length_map] at hle
    exact ⟨expected, index, _, _, hbreaks, foundAt_of_le_length hle expected _, hsorted, hfollows, rfl⟩

/-- A text that is cut into lexemes but has no signature has an error about the first lexeme with which
they stop being the beginning of one, or about its end, and the error names exactly what could have come
there; but a number with a mark and no complete list has an error of its own. -/
theorem parse_reports_first_fault (hscan : scan source = .ok lexemes) :
    (IsMarkedNumber (lexemes.map Lexeme.token) →
      ∃ number mark rest, lexemes = number :: mark :: rest ∧
        catalog.parse source = .error (.grammar "a number literal cannot be marked nullable"
          ⟨number.span.start, mark.span.stop⟩)) ∧
      ∀ error, catalog.parse source = .error error → ¬ IsMarkedNumber (lexemes.map Lexeme.token) →
        ∃ (expected : List Expectation) (index : Nat) (found : String) (span : Span),
          BreaksAt (lexemes.map Lexeme.token) index ∧ FoundAt source lexemes index found span ∧
          (expected.map Expectation.text).Pairwise Text.Precedes ∧
          (∀ e, e ∈ expected ↔ Follows ((lexemes.map Lexeme.token).take index) e) ∧
          error = .grammar ("expected " ++ " or ".intercalate (expected.map Expectation.text) ++
            ", found " ++ found) span :=
  ⟨parse_of_isMarkedNumber hscan, fun _ herror => breaksAt_of_parse hscan herror⟩

/-- A marked number is reported with its mark, and a missing argument at the bracket in its place. -/
theorem parse_reports_missing_argument :
    builtin.parse "5?<" = .error (.grammar "a number literal cannot be marked nullable" ⟨0, 2⟩) ∧
      ∃ lexemes index found, scan "list<5?, >" = .ok lexemes ∧
        BreaksAt (lexemes.map Lexeme.token) index ∧ FoundAt "list<5?, >" lexemes index found ⟨9, 10⟩ := by
  constructor
  · have hscan : scan "5?<" = .ok [⟨.int ⟨"5", 5, by decide⟩, ⟨0, 1⟩⟩, ⟨.question, ⟨1, 2⟩⟩, ⟨.lt, ⟨2, 3⟩⟩] :=
      eq_ok_of_toOption (by decide +kernel)
    have hmarked : IsMarkedNumber [.int ⟨"5", 5, by decide⟩, .question, .lt] := by
      refine ⟨_, [.lt], rfl, ?_⟩
      intro list after heq hlist
      cases hlist with
      | brackets h => simp at heq
    rcases (@parse_reports_first_fault builtin _ _ hscan).1 hmarked with ⟨number, mark, rest, heq, herror⟩
    cases heq
    exact herror
  · have hscan : scan "list<5?, >" = .ok [⟨.ident "list", ⟨0, 4⟩⟩, ⟨.lt, ⟨4, 5⟩⟩,
        ⟨.int ⟨"5", 5, by decide⟩, ⟨5, 6⟩⟩, ⟨.question, ⟨6, 7⟩⟩, ⟨.comma, ⟨7, 8⟩⟩, ⟨.gt, ⟨9, 10⟩⟩] :=
      eq_ok_of_toOption (by decide +kernel)
    have herror : ∃ message, builtin.parse "list<5?, >" = .error (.grammar message ⟨9, 10⟩) :=
      ⟨_, (parse_eq_error_iff hscan).mpr ⟨.unexpected [.atom] (some .gt) 5, rfl, rfl⟩⟩
    have hmarked : ¬ IsMarkedNumber
        [.ident "list", .lt, .int ⟨"5", 5, by decide⟩, .question, .comma, .gt] := by
      rintro ⟨l, rest, heq, -⟩
      cases heq
    rcases herror with ⟨message, herror⟩
    rcases (@parse_reports_first_fault builtin _ _ hscan).2 _ herror hmarked with
      ⟨expected, index, found, span, hbreaks, hfound, -, -, heq⟩
    cases (Error.grammar.inj heq).2
    exact ⟨_, index, found, hscan, hbreaks, hfound⟩

end Catalog

end Signatures
