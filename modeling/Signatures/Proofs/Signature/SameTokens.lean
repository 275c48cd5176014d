import Signatures.CommandLine.Run
import Signatures.Proofs.Lexeme.Layout
import Signatures.Proofs.Signature.Parsing

/-!
# Texts with the same tokens

Parsing sees only the tokens of a text. Two texts with the same tokens have the same signature, or the same
fault at the same tokens, wherever these stand. So blanks between words that stay apart without them change
neither the signature nor what the commands make of it.
-/

namespace Signatures

open Text Lexeme

/-- Spans of two texts from the token of one index to that of another, or at the ends of both texts. -/
inductive SamePlace (source other : String) (lexemes others : List Lexeme) : Span → Span → Prop where
  | tokens {i j : Nat} {first last first' last' : Lexeme} (h : i ≤ j) (hfirst : lexemes[i]? = some first)
      (hlast : lexemes[j]? = some last) (hfirst' : others[i]? = some first')
      (hlast' : others[j]? = some last') :
      SamePlace source other lexemes others ⟨first.span.start, last.span.stop⟩
        ⟨first'.span.start, last'.span.stop⟩
  | finish : SamePlace source other lexemes others (.point (byteSize source.toList))
      (.point (byteSize other.toList))

section

variable {source other : String} {lexemes others : List Lexeme}

theorem GrammarFault.samePlace (h : lexemes.map Lexeme.token = others.map Lexeme.token)
    (fault : GrammarFault) :
    SamePlace source other lexemes others (fault.span lexemes (byteSize source.toList))
      (fault.span others (byteSize other.toList)) := by
  cases fault with
  | markedNumber =>
    cases lexemes with
    | nil =>
      cases List.map_eq_nil_iff.mp h.symm
      exact .finish
    | cons number rest =>
      rcases List.map_eq_cons_iff.mp h.symm with ⟨number', rest', rfl, -, hrest⟩
      cases rest with
      | nil =>
        cases List.map_eq_nil_iff.mp hrest
        exact .finish
      | cons mark rest =>
        rcases List.map_eq_cons_iff.mp hrest with ⟨mark', rest', rfl, -, -⟩
        exact @SamePlace.tokens source other _ _ 0 1 _ _ _ _ (Nat.zero_le 1) rfl rfl rfl rfl
  | unexpected expected found index =>
    have hindex := congrArg (·[index]?) h
    simp only [List.getElem?_map] at hindex
    simp only [GrammarFault.span, spanAt]
    cases hlexeme : lexemes[index]? with
    | none =>
      rw [hlexeme, Option.map_none, eq_comm, Option.map_eq_none_iff] at hindex
      rw [hindex]
      exact .finish
    | some lexeme =>
      rw [hlexeme, Option.map_some, eq_comm, Option.map_eq_some_iff] at hindex
      rcases hindex with ⟨lexeme', hlexeme', -⟩
      rw [hlexeme']
      exact .tokens (Nat.le_refl index) hlexeme hlexeme hlexeme' hlexeme'

theorem Catalog.parse_of_same_tokens (catalog : Catalog) (hscan : scan source = .ok lexemes)
    (hother : scan other = .ok others) (h : lexemes.map Lexeme.token = others.map Lexeme.token) :
    (∃ s, catalog.parse source = .ok s ∧ catalog.parse other = .ok s) ∨
      ∃ message span span', catalog.parse source = .error (.grammar message span) ∧
        catalog.parse other = .error (.grammar message span') ∧
        SamePlace source other lexemes others span span' := by
  cases hshape : Shape.ofTokens (lexemes.map Lexeme.token) with
  | ok shape =>
    have hshape' := hshape
    rw [h] at hshape'
    left
    refine ⟨shape.signature catalog.knows, ?_, ?_⟩
    · simp only [parse_eq, Shape.parse, hscan, hshape, Except.map]
    · simp only [parse_eq, Shape.parse, hother, hshape', Except.map]
  | error fault =>
    right
    exact ⟨fault.message, _, _, (parse_eq_error_iff hscan).mpr ⟨fault, hshape, rfl⟩,
      (parse_eq_error_iff hother).mpr ⟨fault, h ▸ hshape, rfl⟩, fault.samePlace h⟩

end

def Layout.tokens : Layout → List Token
  | finish _ => []
  | word _ token rest => token :: rest.tokens

theorem Layout.map_token_lexemes (layout : Layout) (offset : Nat) :
    (layout.lexemes offset).map Lexeme.token = layout.tokens := by
  induction layout generalizing offset with
  | finish blanks => rfl
  | word blanks token rest ih => rw [lexemes, List.map_cons, ih, tokens]

theorem Layout.Spaced.scan {layout : Layout} (h : layout.Spaced) :
    scan (String.ofList layout.text) = .ok (layout.lexemes 0) := by
  rw [Lexeme.scan, String.toList_ofList]
  exact scanFrom_eq_ok_iff.mpr (h.spells 0)

namespace CommandLine

theorem toOption_bind {ε α β : Type} (result : Except ε α) (next : α → Except ε β) :
    (result >>= next).toOption = result.toOption.bind fun value => (next value).toOption := by
  cases result <;> rfl

theorem toOption_diagnose {α : Type} (source : String) (result : Except Error α) :
    (diagnose source result).toOption = result.toOption := by
  cases result <;> rfl

theorem toOption_expectType (source filename : String) (s : Signature) :
    (s.expectType source filename).toOption = s.type? := by
  cases s <;> rfl

section

variable {catalog : Catalog} {source other : String}

theorem toOption_typeOne (catalog : Catalog) (source : String) :
    (typeOne catalog source).toOption = (catalog.parse source).toOption.bind Signature.type? := by
  simp only [typeOne, toOption_bind, toOption_diagnose, toOption_expectType]

theorem toOption_eq_of_parse (h : (catalog.parse source).toOption = (catalog.parse other).toOption) :
    (∀ json, (parseOne catalog json source).toOption = (parseOne catalog json other).toOption) ∧
      (shortOne catalog source).toOption = (shortOne catalog other).toOption ∧
      ∀ json, (resolveOne catalog json source).toOption = (resolveOne catalog json other).toOption := by
  have htype : (typeOne catalog source).toOption = (typeOne catalog other).toOption := by
    rw [toOption_typeOne, toOption_typeOne, h]
  refine ⟨fun json => ?_, ?_, fun json => ?_⟩
  · simp only [parseOne, toOption_bind, toOption_diagnose, h]
  · simp only [shortOne, toOption_bind, toOption_diagnose, htype]
  · simp only [resolveOne, toOption_bind, toOption_diagnose, htype]

end

end CommandLine

/-- Under any catalog, two texts with the same tokens have the same signature, or errors with the same message
at the same tokens or at both ends. So two layouts of the same words, each with its own blanks, have the same
signature if either has one, and the same canonical text, short name and resolved type. -/
theorem Catalog.only_tokens_matter (catalog : Catalog) :
    (∀ source other lexemes others, scan source = .ok lexemes → scan other = .ok others →
        lexemes.map Lexeme.token = others.map Lexeme.token →
        (∃ s, catalog.parse source = .ok s ∧ catalog.parse other = .ok s) ∨
          ∃ message span span', catalog.parse source = .error (.grammar message span) ∧
            catalog.parse other = .error (.grammar message span') ∧
            SamePlace source other lexemes others span span') ∧
      ∀ layout other : Layout, layout.Spaced → other.Spaced → layout.tokens = other.tokens →
        let source := String.ofList layout.text
        let source' := String.ofList other.text
        (catalog.parse source).toOption = (catalog.parse source').toOption ∧
          (∀ json, (CommandLine.parseOne catalog json source).toOption =
            (CommandLine.parseOne catalog json source').toOption) ∧
          (CommandLine.shortOne catalog source).toOption =
            (CommandLine.shortOne catalog source').toOption ∧
          ∀ json, (CommandLine.resolveOne catalog json source).toOption =
            (CommandLine.resolveOne catalog json source').toOption := by
  refine ⟨fun _ _ _ _ hscan hother h => catalog.parse_of_same_tokens hscan hother h, ?_⟩
  intro layout other hlayout hother htokens source source'
  rw [← layout.map_token_lexemes 0, ← other.map_token_lexemes 0] at htokens
  have hparse : (catalog.parse source).toOption = (catalog.parse source').toOption := by
    rcases catalog.parse_of_same_tokens hlayout.scan hother.scan htokens with
      ⟨s, hs, hs'⟩ | ⟨message, span, span', herror, herror', -⟩
    · rw [hs, hs']
    · rw [herror, herror']
      rfl
  exact ⟨hparse, CommandLine.toOption_eq_of_parse hparse⟩

end Signatures
