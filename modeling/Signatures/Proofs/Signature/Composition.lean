import Signatures.Proofs.Catalog.Reachable
import Signatures.Proofs.Signature.Parsing
import Signatures.Proofs.Signature.Rendering

/-!
# Signatures as arguments

A text that has a signature by itself can stand in a list of arguments, and it is the same there: a number is
the parameter of its value, a bare name that is not known is a variable, and every other type is itself. So
the signature of a name with a list of such texts is made from their signatures, whatever is nested in them.
-/

namespace Signatures

open Text Lexeme

/-- The argument that a signature is in a list. A number is a fixed parameter, a type with neither mark nor
arguments whose name is not known is a variable, and any other type is itself. -/
def Signature.arg? (known : String → Bool) : Signature → Option (Arg TypeExpr)
  | number text => (Text.Decimal.int32? text.toList).map fun value => .param (.fixed value)
  | type expr =>
    if !expr.nullable && expr.args.isEmpty && !known expr.name then some (.param (.free expr.name))
    else some (.type expr)

theorem Shape.arg?_signature (known : String → Bool) {shape : Shape} (h : shape.standsAlone = true) :
    (shape.signature known).arg? known = some (shape.arg known) := by
  rcases shape with ⟨a, nullable, args⟩
  cases args with
  | cons first shapes =>
    have hlisted : first :: shapes ≠ [] := List.cons_ne_nil _ _
    rw [signature_of_listed known a nullable hlisted, arg_of_marked_or_listed known a (.inr hlisted)]
    simp [Signature.arg?, argsOf]
  | nil =>
    cases a with
    | name n =>
      cases nullable with
      | true => simp [signature, arg, Signature.arg?, argsOf, Atom.text]
      | false =>
        cases hknown : known n <;>
          simp [signature, arg, Signature.arg?, argsOf, Atom.text, TypeExpr.bare, hknown]
    | literal l =>
      cases nullable with
      | true => cases h
      | false => simp [signature, arg, Signature.arg?, l.denotes]

namespace Catalog

variable {catalog : Catalog}

/-- A text that has a shape spells its tokens wherever no letter, digit or `_` comes next. -/
theorem spellsTokens_of_parse {source : String} {shape : Shape} (h : Shape.parse source = .ok shape)
    (rest : List Char) (hrest : NoWord rest) : SpellsTokens source.toList shape.tokens rest := by
  rcases Shape.parse_eq_ok_iff.mp h with ⟨lexemes, hscan, -, htokens⟩
  have hspells : Spells 0 source.toList lexemes [] := scanFrom_eq_ok_iff.mp hscan
  rw [htokens]
  exact (hspells.of_rest fun _ => hrest).spellsTokens

theorem exists_shapes_of_parse {sources : List String} {signatures : List Signature}
    (h : sources.map catalog.parse = signatures.map .ok) :
    ∃ shapes, SpellShapes sources shapes ∧
      signatures.map (Signature.arg? catalog.knows) = (Shape.argsOf catalog.knows shapes).map some := by
  induction sources generalizing signatures with
  | nil =>
    cases List.map_eq_nil_iff.mp h.symm
    exact ⟨[], .nil, by rw [Shape.argsOf]; rfl⟩
  | cons source sources ih =>
    rcases List.map_eq_cons_iff.mp h.symm with ⟨s, tail, rfl, hs, htail⟩
    rcases ih htail.symm with ⟨shapes, hshapes, hargs⟩
    rcases parse_eq_ok_iff.mp hs.symm with ⟨shape, hshape, rfl⟩
    rcases Shape.parse_eq_ok_iff.mp hshape with ⟨lexemes, -, halone, -⟩
    refine ⟨shape :: shapes, .cons (spellsTokens_of_parse hshape) hshapes, ?_⟩
    rw [List.map_cons, hargs, Shape.arg?_signature _ halone, Shape.argsOf, List.map_cons]

/-- Under any catalog, a name with or without a mark and texts between brackets that have signatures by
themselves is the type of this name whose arguments are these signatures, in the same order. -/
theorem parse_list {name : String} {sources : List String} {signatures : List Signature}
    (hname : isIdentifier name.toList = true) (hne : sources ≠ [])
    (h : sources.map catalog.parse = signatures.map .ok) (nullable : Bool) :
    ∃ args, signatures.map (Signature.arg? catalog.knows) = args.map some ∧
      catalog.parse (headed name nullable ++ bracketed "," sources) = .ok (.type ⟨name, nullable, args⟩) := by
  rcases exists_shapes_of_parse h with ⟨shapes, hshapes, hargs⟩
  have hspells := hshapes.spells_listed
    (fun rest => @spellsTokens_token .comma rest trivial trivial)
    (fun rest => noWord_cons (by decide) rest) hne (.inl hname) nullable []
  rw [Atom.ofText_of_isIdentifier hname] at hspells
  have halone : Shape.standsAlone ⟨.name name, nullable, shapes⟩ = true :=
    Shape.standsAlone_iff.mpr (.inr (.inr ⟨name, rfl⟩))
  exact ⟨_, hargs, parse_eq_ok_iff.mpr ⟨_, Shape.parse_of_spellsTokens halone hspells, rfl⟩⟩

/-- A number, a variable and a marked list are the arguments of a type with a mark of its own. -/
theorem parse_list_points :
    ["007", "n", "list?< point >"].map points.parse =
        [.number "007", .type ⟨"n", false, []⟩,
          .type ⟨"list", true, [.type ⟨"point", false, []⟩]⟩].map .ok ∧
      points.parse "pair?<007,n,list?< point >>" =
        .ok (.type ⟨"pair", true, [.param (.fixed 7), .param (.free "n"),
          .type ⟨"list", true, [.type ⟨"point", false, []⟩]⟩]⟩) := by
  have hsources : ["007", "n", "list?< point >"].map points.parse =
      [.number "007", .type ⟨"n", false, []⟩,
        .type ⟨"list", true, [.type ⟨"point", false, []⟩]⟩].map .ok := by
    have hnumber : points.parse "007" = .ok (.number "007") := eq_ok_of_toOption (by decide +kernel)
    have hname : points.parse "n" = .ok (.type ⟨"n", false, []⟩) := eq_ok_of_toOption (by decide +kernel)
    have hlist : points.parse "list?< point >" =
        .ok (.type ⟨"list", true, [.type ⟨"point", false, []⟩]⟩) := eq_ok_of_toOption (by decide +kernel)
    simp only [List.map_cons, List.map_nil, hnumber, hname, hlist]
  refine ⟨hsources, ?_⟩
  rcases @parse_list points "pair" _ _ (by decide) (List.cons_ne_nil _ _) hsources true with
    ⟨args, hargs, hparse⟩
  have hlifted : [.number "007", .type ⟨"n", false, []⟩,
        .type ⟨"list", true, [.type ⟨"point", false, []⟩]⟩].map (Signature.arg? points.knows) =
      [.param (.fixed 7), .param (.free "n"),
        .type ⟨"list", true, [.type ⟨"point", false, []⟩]⟩].map some := by decide +kernel
  rw [hlifted, List.map_inj_right fun _ _ => Option.some.inj] at hargs
  rw [hargs, ← hparse]
  rfl

end Catalog

end Signatures
