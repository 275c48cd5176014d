import Signatures.Proofs.ArgType.Nullability
import Signatures.Proofs.Catalog.Extending
import Signatures.Proofs.Catalog.History
import Signatures.Proofs.Shape.Place
import Signatures.Proofs.Signature.RoundTrip

/-!
# Names in texts

A text is an identifier exactly if it is a single lexeme and this lexeme is a name. So whatever a catalog has as
a name can be written: by itself it is the type of this name, and alone between brackets it is a type and never
a variable, whatever type takes it as its argument and wherever this type stands.
-/

namespace Signatures

open Text Lexeme

/-- A text is an identifier exactly if it is cut into one lexeme, a name that is the whole text. -/
theorem Lexeme.isIdentifier_iff_scan {name : String} :
    isIdentifier name.toList = true ↔
      scan name = .ok [⟨.ident name, ⟨0, byteSize name.toList⟩⟩] := by
  constructor
  · intro hname
    have hspells := @Spells.single 0 (.ident name) [] hname noWord_nil
    rw [Nat.zero_add] at hspells
    exact scanFrom_eq_ok_iff.mpr hspells
  · intro hscan
    exact written_of_scan hscan (.ident name) List.mem_cons_self

namespace Shape

variable {known : String → Bool} {t : Shape}

theorem at?_argsOf (hlisted : t.args ≠ []) {place : List Nat} {shape : Shape}
    (h : shape.at? place = some t) :
    TypeExpr.at? place ⟨shape.atom.text, shape.nullable, argsOf known shape.args⟩ =
      some ⟨t.atom.text, t.nullable, argsOf known t.args⟩ := by
  induction place generalizing shape with
  | nil =>
    cases h
    rfl
  | cons index place ih =>
    rcases Option.bind_eq_some_iff.mp h with ⟨⟨a, nullable, args⟩, hinner, hinside⟩
    -- Something stands inside the argument, so it has arguments of its own and is no parameter.
    have harg : arg known ⟨a, nullable, args⟩ = .type ⟨a.text, nullable, argsOf known args⟩ :=
      arg_of_marked_or_listed known a (.inr (args_ne_nil_of_at? hinside hlisted))
    rw [TypeExpr.at?, TypeExpr.child?, argsOf_eq_map, List.getElem?_map, hinner, Option.map_some, harg]
    exact ih hinside

/-- A shape with arguments inside the shape of a signature is the type at its place. -/
theorem at?_signature (hlisted : t.args ≠ []) {place : List Nat} {shape : Shape}
    (h : shape.at? place = some t) :
    ∃ expr, shape.signature known = .type expr ∧
      expr.at? place = some ⟨t.atom.text, t.nullable, argsOf known t.args⟩ := by
  have hroot := args_ne_nil_of_at? h hlisted
  have hat := @at?_argsOf known t hlisted place shape h
  rcases shape with ⟨a, nullable, args⟩
  exact ⟨_, signature_of_listed known a nullable hroot, hat⟩

theorem tokens_sole (a : Atom) (nullable : Bool) (name : String) :
    tokens ⟨a, nullable, [⟨.name name, false, []⟩]⟩ =
      a.token :: (markTokens nullable ++ [.lt, .ident name, .gt]) := by
  simp [tokens, listTokens, moreTokens, markTokens, Atom.token]

end Shape

namespace Catalog

variable {catalog : Catalog} {name : String}

theorem Valid.parse_bare (h : catalog.Valid) (hname : isIdentifier name.toList = true) :
    catalog.parse name = .ok (.type (.bare name false)) := by
  have hwellFormed : Signature.WellFormed catalog.knows (.type (.bare name false)) := ⟨.inl hname, trivial⟩
  have hparse := h.parse_render hwellFormed
  rwa [Signature.render, TypeExpr.bare, TypeExpr.render] at hparse

theorem Valid.parse_sole (h : catalog.Valid) (hknown : catalog.knows name = true) {head : String}
    (hhead : IsAtomText head) (nullable : Bool) :
    catalog.parse (headed head nullable ++ ("<" ++ name ++ ">")) =
      .ok (.type ⟨head, nullable, [.type (.bare name false)]⟩) := by
  have harg : TypeExpr.WellFormed catalog.knows (.bare name false) :=
    ⟨.inl (h.isIdentifier_of_knows hknown), fun _ _ => hknown, trivial⟩
  have hwellFormed : Signature.WellFormed catalog.knows
      (.type ⟨head, nullable, [.type (.bare name false)]⟩) :=
    ⟨hhead.imp_right fun hint => ⟨hint, List.cons_ne_nil _ _⟩, harg, trivial⟩
  have hparse := h.parse_render hwellFormed
  have hrender : TypeExpr.renderArgs [.type (.bare name false)] = [name] := by
    simp [TypeExpr.renderArgs, TypeExpr.renderArg, TypeExpr.bare, TypeExpr.render, headed]
  rw [Signature.render, TypeExpr.render, hrender] at hparse
  exact hparse

/-- Wherever a known name stands alone between brackets in a text that has a signature, it is a type and the
argument of the type whose text stands before the brackets. -/
theorem at?_of_parse (hknown : catalog.knows name = true) {source : String} {lexemes : List Lexeme}
    {s : Signature} (hscan : scan source = .ok lexemes) (hparse : catalog.parse source = .ok s)
    {before after : List Token} {a : Atom} {nullable : Bool}
    (htokens : lexemes.map Lexeme.token =
      before ++ (a.token :: (markTokens nullable ++ [.lt, .ident name, .gt]) ++ after)) :
    ∃ expr, s = .type expr ∧
      expr.at? (placeAfter before) = some ⟨a.text, nullable, [.type (.bare name false)]⟩ := by
  rcases parse_eq_ok_iff.mp hparse with ⟨shape, hshape, rfl⟩
  rcases Shape.parse_eq_ok_iff.mp hshape with ⟨lexemes', hscan', -, hlexemes⟩
  cases hscan.symm.trans hscan'
  rw [htokens, ← Shape.tokens_sole] at hlexemes
  have hlisted : [(⟨.name name, false, []⟩ : Shape)] ≠ [] := List.cons_ne_nil _ _
  have hplace := Shape.at?_placeAfter hlexemes hlisted
  rcases @Shape.at?_signature catalog.knows _ hlisted _ _ hplace with ⟨expr, hexpr, hat⟩
  refine ⟨expr, hexpr, ?_⟩
  rw [hat, Shape.argsOf, Shape.argsOf, Shape.arg, if_pos hknown]

/-- A text is an identifier exactly if it is a single lexeme, a name that is the whole text. So under a catalog
that comes from adding extensions each of its names and each wildcard is the type of this name where it stands
by itself, and a type where it stands alone between brackets: behind whatever name or literal, with a mark or
without, and in whatever text this stands. It is never a variable. -/
theorem names_parse_as_types :
    (∀ name : String, isIdentifier name.toList = true ↔
        scan name = .ok [⟨.ident name, ⟨0, byteSize name.toList⟩⟩]) ∧
      ∀ catalog : Catalog, catalog.Reachable →
        ∀ name, name ∈ catalog.names ∨ isWildcard name = true →
          catalog.parse name = .ok (.type (.bare name false)) ∧
          (∀ head nullable, IsAtomText head →
            catalog.parse (headed head nullable ++ ("<" ++ name ++ ">")) =
              .ok (.type ⟨head, nullable, [.type (.bare name false)]⟩)) ∧
          ∀ source lexemes s, scan source = .ok lexemes → catalog.parse source = .ok s →
            name ∉ s.vars ∧
            ∀ (before : List Token) (a : Atom) (nullable : Bool) (after : List Token),
              lexemes.map Lexeme.token =
                before ++ (a.token :: (markTokens nullable ++ [.lt, .ident name, .gt]) ++ after) →
              ∃ expr, s = .type expr ∧
                expr.at? (placeAfter before) = some ⟨a.text, nullable, [.type (.bare name false)]⟩ := by
  refine ⟨fun name => isIdentifier_iff_scan, ?_⟩
  intro catalog hreachable name hname
  have hvalid := hreachable.valid
  have hknown : catalog.knows name = true := hvalid.isSome_lookup?_iff.mpr hname
  refine ⟨hvalid.parse_bare (hvalid.isIdentifier_of_knows hknown), ?_, ?_⟩
  · intro head nullable hhead
    exact hvalid.parse_sole hknown hhead nullable
  · intro source lexemes s hscan hparse
    refine ⟨?_, fun before a nullable after htokens => at?_of_parse hknown hscan hparse htokens⟩
    intro hvar
    rw [knows_eq_false_of_mem_vars hparse hvar] at hknown
    cases hknown

/-- An extension by itself and in the list of a literal, and a wildcard in a list inside another one. -/
theorem names_parse_as_types_points :
    points.Reachable ∧ "point" ∈ points.names ∧ isWildcard "any1" = true ∧
      points.parse "point" = .ok (.type ⟨"point", false, []⟩) ∧
      points.parse "-7?<point>" = .ok (.type ⟨"-7", true, [.type ⟨"point", false, []⟩]⟩) ∧
      ∃ expr, points.parse "map<i8, 7? < any1 >>" = .ok (.type expr) ∧
        expr.at? [1] = some ⟨"7", true, [.type ⟨"any1", false, []⟩]⟩ ∧ "any1" ∉ expr.vars := by
  have hpoint : "point" ∈ points.names := by decide
  have hany : isWildcard "any1" = true := by decide
  have hseven : IsAtomText "-7" := .inr (Decimal.isInt32_iff.mpr ⟨-7, by decide⟩)
  have hscan : scan "map<i8, 7? < any1 >>" =
      .ok [⟨.ident "map", ⟨0, 3⟩⟩, ⟨.lt, ⟨3, 4⟩⟩, ⟨.ident "i8", ⟨4, 6⟩⟩, ⟨.comma, ⟨6, 7⟩⟩,
        ⟨.int ⟨"7", 7, by decide⟩, ⟨8, 9⟩⟩, ⟨.question, ⟨9, 10⟩⟩, ⟨.lt, ⟨11, 12⟩⟩,
        ⟨.ident "any1", ⟨13, 17⟩⟩, ⟨.gt, ⟨18, 19⟩⟩, ⟨.gt, ⟨19, 20⟩⟩] :=
    eq_ok_of_toOption (by decide +kernel)
  have hparse : points.parse "map<i8, 7? < any1 >>" =
      .ok (.type ⟨"map", false, [.type ⟨"i8", false, []⟩, .type ⟨"7", true, [.type ⟨"any1", false, []⟩]⟩]⟩) :=
    eq_ok_of_toOption (by decide +kernel)
  have hnames := names_parse_as_types.2 points reachable_points
  rcases hnames "point" (.inl hpoint) with ⟨hbare, hsole, -⟩
  rcases (hnames "any1" (.inr hany)).2.2 _ _ _ hscan hparse with ⟨hvars, hplace⟩
  rcases hplace [.ident "map", .lt, .ident "i8", .comma] (.literal ⟨"7", 7, by decide⟩) true [.gt] rfl with
    ⟨expr, hexpr, hat⟩
  cases hexpr
  exact ⟨reachable_points, hpoint, hany, hbare, hsole "-7" true hseven, _, hparse, hat, hvars⟩

end Catalog

end Signatures
