import Signatures.Proofs.Catalog.Reachable
import Signatures.Proofs.Signature.Parsing
import Signatures.Proofs.Signature.Rendering
import Signatures.Proofs.Signature.Variables

/-!
# Parsing and canonical texts

A signature can be read back from its canonical text exactly if it is well formed, and every signature
that parsing returns is well formed. So parsing the canonical text is the identity on what parsing
returns, and no two of these signatures have the same text.
-/

namespace Signatures

theorem Shape.parse_render {known : String → Bool} {s : Signature} (hs : s.WellFormed known) :
    Shape.parse s.render = .ok s.shape :=
  Shape.parse_of_spellsTokens (Shape.standsAlone_shape hs) (Signature.spells_render hs)

namespace Catalog

variable {catalog : Catalog}

/-- What parsing returns is the signature of a shape that stands alone, and whose names are identifiers. -/
theorem exists_shape_of_parse {source : String} {s : Signature} (h : catalog.parse source = .ok s) :
    ∃ shape : Shape, shape.standsAlone = true ∧ (∀ token ∈ shape.tokens, token.Written) ∧
      shape.signature catalog.knows = s := by
  rcases parse_eq_ok_iff.mp h with ⟨shape, hshape, hs⟩
  rcases Shape.parse_eq_ok_iff.mp hshape with ⟨lexemes, hscan, halone, htokens⟩
  refine ⟨shape, halone, ?_, hs⟩
  rw [htokens]
  exact Lexeme.written_of_scan hscan

theorem wellFormed_of_parse {source : String} {s : Signature} (h : catalog.parse source = .ok s) :
    s.WellFormed catalog.knows := by
  rcases exists_shape_of_parse h with ⟨shape, halone, hwritten, rfl⟩
  exact Shape.wellFormed_signature halone hwritten

/-- A well-formed signature is read back from its canonical text. -/
theorem Valid.parse_render (h : catalog.Valid) {s : Signature} (hs : s.WellFormed catalog.knows) :
    catalog.parse s.render = .ok s := by
  have hknown : Shape.NamesAreIdentifiers catalog.knows := fun name => h.isIdentifier_of_knows
  exact parse_eq_ok_iff.mpr ⟨s.shape, Shape.parse_render hs, Shape.signature_shape hknown hs⟩

/-- Well-formed signatures differ in their canonical texts. -/
theorem Valid.eq_of_render_eq (h : catalog.Valid) {s t : Signature} (hs : s.WellFormed catalog.knows)
    (ht : t.WellFormed catalog.knows) (htext : s.render = t.render) : s = t := by
  have hparse := h.parse_render hs
  rw [htext, h.parse_render ht] at hparse
  exact (Except.ok.inj hparse).symm

/-- The signatures of texts differ in their canonical texts, whatever names the catalog has. -/
theorem eq_of_render_eq {source other : String} {s t : Signature} (hs : catalog.parse source = .ok s)
    (ht : catalog.parse other = .ok t) (htext : s.render = t.render) : s = t := by
  -- A known name that is no identifier is in no text, so it may as well be unknown.
  have hwellFormed {source : String} {s : Signature} (h : catalog.parse source = .ok s) :
      s.WellFormed (Shape.identifiersOf catalog.knows) := by
    rcases exists_shape_of_parse h with ⟨shape, halone, hwritten, rfl⟩
    rw [← Shape.signature_identifiersOf halone hwritten]
    exact Shape.wellFormed_signature halone hwritten
  have hknown := Shape.namesAreIdentifiers_identifiersOf catalog.knows
  have hshape := Shape.parse_render (hwellFormed hs)
  rw [htext, Shape.parse_render (hwellFormed ht)] at hshape
  rw [← Shape.signature_shape hknown (hwellFormed hs), ← Except.ok.inj hshape,
    Shape.signature_shape hknown (hwellFormed ht)]

/-- Under a catalog that comes from adding extensions, exactly the well-formed signatures are read back
from their canonical texts; they are all that parsing returns, and their texts differ. -/
theorem Reachable.parse_render_eq_ok_iff (h : catalog.Reachable) :
    (∀ s : Signature, catalog.parse s.render = .ok s ↔ s.WellFormed catalog.knows) ∧
      (∀ source s, catalog.parse source = .ok s →
        s.WellFormed catalog.knows ∧ catalog.parse s.render = .ok s) ∧
      ∀ s t : Signature, s.WellFormed catalog.knows → t.WellFormed catalog.knows →
        s.render = t.render → s = t := by
  refine ⟨?_, ?_, ?_⟩
  · intro s
    exact ⟨wellFormed_of_parse, h.valid.parse_render⟩
  · intro source s hparse
    have hs := wellFormed_of_parse hparse
    exact ⟨hs, h.valid.parse_render hs⟩
  · intro s t hs ht htext
    have hparse := h.valid.parse_render hs
    rw [htext, h.valid.parse_render ht] at hparse
    cases hparse
    rfl

/-- A nested list with an extension, a variable and a wildcard is read back; an extension in the place of
a variable is not. -/
theorem parse_render_points :
    points.Reachable ∧
      points.parse "map<point?<-7,n>, any1>" =
        .ok (.type ⟨"map", false, [.type ⟨"point", true, [.param (.fixed (-7)), .param (.free "n")]⟩,
          .type ⟨"any1", false, []⟩]⟩) ∧
      points.parse "list<point>" ≠ .ok (.type ⟨"list", false, [.param (.free "point")]⟩) := by
  have hiff := (Reachable.parse_render_eq_ok_iff reachable_points).1
  refine ⟨reachable_points, ?_, ?_⟩
  · have htext : "map<point?<-7,n>, any1>" = Signature.render (.type ⟨"map", false, [
        .type ⟨"point", true, [.param (.fixed (-7)), .param (.free "n")]⟩,
        .type ⟨"any1", false, []⟩]⟩) := by decide +kernel
    have hpoint : TypeExpr.WellFormed points.knows
        ⟨"point", true, [.param (.fixed (-7)), .param (.free "n")]⟩ :=
      ⟨.inl rfl, nofun, trivial, ⟨rfl, rfl⟩, trivial⟩
    have hany : TypeExpr.WellFormed points.knows ⟨"any1", false, []⟩ :=
      ⟨.inl rfl, fun _ _ => rfl, trivial⟩
    rw [htext]
    exact (hiff _).mpr ⟨.inl rfl, hpoint, hany, trivial⟩
  · have htext : "list<point>" = Signature.render (.type ⟨"list", false, [.param (.free "point")]⟩) := by
      decide +kernel
    intro hparse
    rw [htext] at hparse
    cases ((hiff _).mp hparse).2.1.2

end Catalog

end Signatures
