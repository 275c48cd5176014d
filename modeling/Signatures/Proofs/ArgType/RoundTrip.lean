import Signatures.Proofs.ArgType.WellFormed
import Signatures.Proofs.Signature.RoundTrip

/-!
# Resolved types and their texts

A type is written as the type expression that it is resolved from, so a well-formed type is read back from
its text: the text is parsed to that expression, and the expression is resolved to the type. No other
types are read back, and resolving what was parsed gives no others.
-/

namespace Signatures

@[simp]
theorem Nullability.ofFlag_flag (n : Nullability) : ofFlag n.flag = n := by cases n <;> rfl

namespace ArgType

mutual

/-- The type expression that a type is written with. -/
def expr : ArgType → TypeExpr
  | scalar kind n => ⟨kind.name, n.flag, []⟩
  | sized kind size n => ⟨kind.name, n.flag, [.param size]⟩
  | decimal precision scale n => ⟨"decimal", n.flag, [.param precision, .param scale]⟩
  | list element n => ⟨"list", n.flag, [.type element.expr]⟩
  | map key value n => ⟨"map", n.flag, [.type key.expr, .type value.expr]⟩
  | struct fields n => ⟨"struct", n.flag, fieldExprs fields⟩
  | any n => ⟨"any", n.flag, []⟩
  | extension name args n => ⟨name, n.flag, argExprs args⟩

def fieldExprs : List ArgType → List (Arg TypeExpr)
  | [] => []
  | field :: fields => .type field.expr :: fieldExprs fields

def argExprs : List (Arg ArgType) → List (Arg TypeExpr)
  | [] => []
  | .param value :: args => .param value :: argExprs args
  | .type inner :: args => .type inner.expr :: argExprs args

end

theorem map_isParam_argExprs (args : List (Arg ArgType)) :
    (argExprs args).map Arg.isParam = args.map Arg.isParam := by
  induction args with
  | nil => simp [argExprs]
  | cons arg args ih => cases arg <;> simp [argExprs, Arg.isParam, ih]

variable {catalog : Catalog}

mutual

theorem render_expr : (t : ArgType) → t.WellFormed catalog → t.expr.render = t.render
  | scalar kind n, _ => by rw [expr, TypeExpr.render, render]
  | sized kind size n, _ => by
    simp [expr, TypeExpr.render, render, TypeExpr.renderArgs, TypeExpr.renderArg, Arg.separator,
      Arg.isParam]
  | decimal precision scale n, _ => by
    simp [expr, TypeExpr.render, render, TypeExpr.renderArgs, TypeExpr.renderArg, Arg.separator,
      Arg.isParam]
  | list element n, h => by
    rw [WellFormed] at h
    simp [expr, TypeExpr.render, render, TypeExpr.renderArgs, TypeExpr.renderArg, Arg.separator,
      Arg.isParam, render_expr element h]
  | map key value n, h => by
    rw [WellFormed] at h
    simp [expr, TypeExpr.render, render, TypeExpr.renderArgs, TypeExpr.renderArg, Arg.separator,
      Arg.isParam, render_expr key h.1, render_expr value h.2]
  | struct [] n, h => by
    rw [WellFormed] at h
    exact absurd rfl h.1
  | struct (first :: fields) n, h => by
    rw [WellFormed] at h
    have hfields := renderArgs_fieldExprs (first :: fields) h.2
    rw [fieldExprs] at hfields
    rw [expr, fieldExprs, TypeExpr.render, render, hfields]
    simp [Arg.separator, Arg.isParam]
  | any n, _ => by rw [expr, TypeExpr.render, render]
  | extension name [] n, _ => by rw [expr, argExprs, TypeExpr.render, render]
  | extension name (first :: args) n, h => by
    rw [WellFormed] at h
    have hargs := renderArgs_argExprs (first :: args) h.2
    have hsep := Arg.separator_congr (map_isParam_argExprs (first :: args))
    rw [expr, render, ← hargs, ← hsep]
    cases first <;> rw [argExprs, TypeExpr.render]

theorem renderArgs_fieldExprs : (fields : List ArgType) → WellFormedFields catalog fields →
    TypeExpr.renderArgs (fieldExprs fields) = renderFields fields
  | [], _ => by rw [fieldExprs, TypeExpr.renderArgs, renderFields]
  | field :: fields, h => by
    rw [WellFormedFields] at h
    rw [fieldExprs, TypeExpr.renderArgs, TypeExpr.renderArg, renderFields, render_expr field h.1,
      renderArgs_fieldExprs fields h.2]

theorem renderArgs_argExprs : (args : List (Arg ArgType)) → WellFormedArgs catalog args →
    TypeExpr.renderArgs (argExprs args) = renderArgs args
  | [], _ => by rw [argExprs, TypeExpr.renderArgs, renderArgs]
  | .param value :: args, h => by
    rw [WellFormedArgs] at h
    rw [argExprs, TypeExpr.renderArgs, TypeExpr.renderArg, renderArgs, renderArgs_argExprs args h.2]
  | .type inner :: args, h => by
    rw [WellFormedArgs] at h
    rw [argExprs, TypeExpr.renderArgs, TypeExpr.renderArg, renderArgs, render_expr inner h.1,
      renderArgs_argExprs args h.2]

end

end ArgType

namespace Builtin

def IsNamed (name : String) (kind : TypeKind) : Prop := ∃ type ∈ table, type.name = name ∧ type.kind = kind

instance (name : String) (kind : TypeKind) : Decidable (IsNamed name kind) :=
  inferInstanceAs (Decidable (∃ type ∈ table, type.name = name ∧ type.kind = kind))

theorem isNamed_scalar (kind : ScalarKind) : IsNamed kind.name (.scalar kind) := by
  cases kind <;> decide

theorem isNamed_sized (kind : SizedKind) : IsNamed kind.name (.sized kind) := by
  cases kind <;> decide

end Builtin

namespace Catalog

variable {catalog : Catalog}

theorem resolve_builtin {name : String} {kind : TypeKind} (hnamed : Builtin.IsNamed name kind)
    {args : List (Arg TypeExpr)} {resolved : List (Arg ArgType)} (htakes : kind.Takes resolved)
    (hresolved : catalog.resolveArgs args = .ok resolved) (n : Nullability) :
    catalog.resolve ⟨name, n.flag, args⟩ = .ok (kind.assemble name resolved n) := by
  rcases hnamed with ⟨type, hmem, rfl, rfl⟩
  have hholds := (TypeKind.takes_iff.mp htakes).2
  rw [ArgRule.holds_congr _ (map_isParam_of_resolveArgs hresolved)] at hholds
  refine resolve_eq_ok_iff.mpr ⟨type.entry, resolved, lookup?_builtin catalog hmem, hholds, hresolved, ?_⟩
  rw [Nullability.ofFlag_flag]
  rfl

theorem Valid.resolve_extension (h : catalog.Valid) {ext : Extension} (hmem : ext ∈ catalog.extensions)
    {args : List (Arg TypeExpr)} {resolved : List (Arg ArgType)} (hholds : ext.rule.Holds resolved)
    (hresolved : catalog.resolveArgs args = .ok resolved) (n : Nullability) :
    catalog.resolve ⟨ext.name, n.flag, args⟩ = .ok (.extension ext.name resolved n) := by
  rw [ArgRule.holds_congr _ (map_isParam_of_resolveArgs hresolved)] at hholds
  refine resolve_eq_ok_iff.mpr ⟨ext.entry, resolved, h.lookup?_extension hmem, hholds, hresolved, ?_⟩
  rw [Nullability.ofFlag_flag]
  exact TypeKind.assemble_extension ext.name resolved n

mutual

theorem resolve_expr (hvalid : catalog.Valid) : (t : ArgType) → t.WellFormed catalog →
    catalog.resolve t.expr = .ok t
  | .scalar kind n, _ => by
    rw [ArgType.expr]
    exact resolve_builtin (Builtin.isNamed_scalar kind) (.scalar kind) resolveArgs_nil n
  | .sized kind size n, _ => by
    have hargs : catalog.resolveArgs [.param size] = .ok [.param size] := by
      simp [resolveArgs_param, resolveArgs_nil, Except.map]
    rw [ArgType.expr]
    exact resolve_builtin (Builtin.isNamed_sized kind) (.sized kind size) hargs n
  | .decimal precision scale n, _ => by
    have hargs : catalog.resolveArgs [.param precision, .param scale] =
        .ok [.param precision, .param scale] := by
      simp [resolveArgs_param, resolveArgs_nil, Except.map]
    rw [ArgType.expr]
    exact resolve_builtin (by decide) (.decimal precision scale) hargs n
  | .list element n, h => by
    rw [ArgType.WellFormed] at h
    have hargs : catalog.resolveArgs [.type element.expr] = .ok [.type element] := by
      simp [resolveArgs_type, resolveArgs_nil, Except.bind, Except.map, resolve_expr hvalid element h]
    rw [ArgType.expr]
    exact resolve_builtin (by decide) (.list element) hargs n
  | .map key value n, h => by
    rw [ArgType.WellFormed] at h
    have hargs : catalog.resolveArgs [.type key.expr, .type value.expr] = .ok [.type key, .type value] := by
      simp [resolveArgs_type, resolveArgs_nil, Except.bind, Except.map, resolve_expr hvalid key h.1,
        resolve_expr hvalid value h.2]
    rw [ArgType.expr]
    exact resolve_builtin (by decide) (.map key value) hargs n
  | .struct fields n, h => by
    rw [ArgType.WellFormed] at h
    have hargs := resolveArgs_fieldExprs hvalid fields h.2
    have hresolve := @resolve_builtin catalog "struct" _ (by decide) _ _ (.struct fields h.1) hargs n
    rw [TypeKind.assemble, TypeKind.typesOf_map_type] at hresolve
    rw [ArgType.expr]
    exact hresolve
  | .any n, _ => by
    rw [ArgType.expr]
    exact resolve_builtin (by decide) .any resolveArgs_nil n
  | .extension name args n, h => by
    rw [ArgType.WellFormed] at h
    rcases h with ⟨⟨ext, hmem, rfl, hholds⟩, hargs⟩
    rw [ArgType.expr]
    exact hvalid.resolve_extension hmem hholds (resolveArgs_argExprs hvalid args hargs) n

theorem resolveArgs_fieldExprs (hvalid : catalog.Valid) : (fields : List ArgType) →
    ArgType.WellFormedFields catalog fields →
    catalog.resolveArgs (ArgType.fieldExprs fields) = .ok (fields.map .type)
  | [], _ => by
    rw [ArgType.fieldExprs, resolveArgs_nil, List.map_nil]
  | field :: fields, h => by
    rw [ArgType.WellFormedFields] at h
    rw [ArgType.fieldExprs, resolveArgs_type_eq_ok_iff]
    exact ⟨field, _, resolve_expr hvalid field h.1, resolveArgs_fieldExprs hvalid fields h.2, rfl⟩

theorem resolveArgs_argExprs (hvalid : catalog.Valid) : (args : List (Arg ArgType)) →
    ArgType.WellFormedArgs catalog args →
    catalog.resolveArgs (ArgType.argExprs args) = .ok args
  | [], _ => by rw [ArgType.argExprs, resolveArgs_nil]
  | .param value :: args, h => by
    rw [ArgType.WellFormedArgs] at h
    rw [ArgType.argExprs, resolveArgs_param_eq_ok_iff]
    exact ⟨args, resolveArgs_argExprs hvalid args h.2, rfl⟩
  | .type inner :: args, h => by
    rw [ArgType.WellFormedArgs] at h
    rw [ArgType.argExprs, resolveArgs_type_eq_ok_iff]
    exact ⟨inner, args, resolve_expr hvalid inner h.1, resolveArgs_argExprs hvalid args h.2, rfl⟩

end

theorem knows_name_expr (hvalid : catalog.Valid) {t : ArgType} (h : t.WellFormed catalog) :
    catalog.knows t.expr.name = true := by
  have hresolve := resolve_expr hvalid t h
  generalize t.expr = expr at hresolve ⊢
  rcases expr with ⟨name, nullable, args⟩
  rcases resolve_eq_ok_iff.mp hresolve with ⟨entry, resolved, hlookup, -⟩
  exact Option.isSome_of_eq_some hlookup

theorem wellFormed_expr_of_args (hvalid : catalog.Valid) {t : ArgType} (h : t.WellFormed catalog)
    (hargs : TypeExpr.WellFormedArgs catalog.knows t.expr.args) : t.expr.WellFormed catalog.knows := by
  have hname := knows_name_expr hvalid h
  generalize t.expr = expr at hname hargs ⊢
  rcases expr with ⟨name, nullable, args⟩
  rw [TypeExpr.WellFormed]
  exact ⟨.inl (hvalid.isIdentifier_of_knows hname), fun _ _ => hname, hargs⟩

mutual

theorem wellFormedArgs_expr (hvalid : catalog.Valid) : (t : ArgType) → t.WellFormed catalog →
    TypeExpr.WellFormedArgs catalog.knows t.expr.args
  | .scalar kind n, _ => by
    rw [ArgType.expr]
    trivial
  | .sized kind size n, h => by
    rw [ArgType.WellFormed] at h
    rw [ArgType.expr]
    exact ⟨h, trivial⟩
  | .decimal precision scale n, h => by
    rw [ArgType.WellFormed] at h
    rw [ArgType.expr]
    exact ⟨h.1, h.2, trivial⟩
  | .list element n, h => by
    rw [ArgType.WellFormed] at h
    rw [ArgType.expr]
    exact ⟨wellFormed_expr_of_args hvalid h (wellFormedArgs_expr hvalid element h), trivial⟩
  | .map key value n, h => by
    rw [ArgType.WellFormed] at h
    rw [ArgType.expr]
    exact ⟨wellFormed_expr_of_args hvalid h.1 (wellFormedArgs_expr hvalid key h.1),
      wellFormed_expr_of_args hvalid h.2 (wellFormedArgs_expr hvalid value h.2), trivial⟩
  | .struct fields n, h => by
    rw [ArgType.WellFormed] at h
    rw [ArgType.expr]
    exact wellFormedArgs_fieldExprs hvalid fields h.2
  | .any n, _ => by
    rw [ArgType.expr]
    trivial
  | .extension name args n, h => by
    rw [ArgType.WellFormed] at h
    rw [ArgType.expr]
    exact wellFormedArgs_argExprs hvalid args h.2

theorem wellFormedArgs_fieldExprs (hvalid : catalog.Valid) : (fields : List ArgType) →
    ArgType.WellFormedFields catalog fields →
    TypeExpr.WellFormedArgs catalog.knows (ArgType.fieldExprs fields)
  | [], _ => by
    rw [ArgType.fieldExprs]
    trivial
  | field :: fields, h => by
    rw [ArgType.WellFormedFields] at h
    rw [ArgType.fieldExprs, TypeExpr.WellFormedArgs, TypeExpr.WellFormedArg]
    exact ⟨wellFormed_expr_of_args hvalid h.1 (wellFormedArgs_expr hvalid field h.1),
      wellFormedArgs_fieldExprs hvalid fields h.2⟩

theorem wellFormedArgs_argExprs (hvalid : catalog.Valid) : (args : List (Arg ArgType)) →
    ArgType.WellFormedArgs catalog args →
    TypeExpr.WellFormedArgs catalog.knows (ArgType.argExprs args)
  | [], _ => by
    rw [ArgType.argExprs]
    trivial
  | .param value :: args, h => by
    rw [ArgType.WellFormedArgs] at h
    rw [ArgType.argExprs, TypeExpr.WellFormedArgs, TypeExpr.WellFormedArg]
    exact ⟨h.1, wellFormedArgs_argExprs hvalid args h.2⟩
  | .type inner :: args, h => by
    rw [ArgType.WellFormedArgs] at h
    rw [ArgType.argExprs, TypeExpr.WellFormedArgs, TypeExpr.WellFormedArg]
    exact ⟨wellFormed_expr_of_args hvalid h.1 (wellFormedArgs_expr hvalid inner h.1),
      wellFormedArgs_argExprs hvalid args h.2⟩

end

/-- What resolving makes of a parsed signature is well formed. -/
theorem wellFormed_of_parse_of_resolve {source : String} {expr : TypeExpr} {t : ArgType}
    (hparse : catalog.parse source = .ok (.type expr)) (hresolve : catalog.resolve expr = .ok t) :
    t.WellFormed catalog :=
  wellFormed_of_resolve expr (wellFormed_of_parse hparse).2 hresolve

theorem parse_render_argType (hvalid : catalog.Valid) {t : ArgType} (h : t.WellFormed catalog) :
    catalog.parse t.render = .ok (.type t.expr) := by
  have hname := hvalid.isIdentifier_of_knows (knows_name_expr hvalid h)
  have hargs := wellFormedArgs_expr hvalid t h
  have hparse := @Valid.parse_render catalog hvalid (.type t.expr) ⟨.inl hname, hargs⟩
  rw [Signature.render, t.render_expr h] at hparse
  exact hparse

/-- Under a catalog that comes from adding extensions, exactly the well-formed types are resolved from
their own texts, and resolving a parsed signature gives no other types. -/
theorem Reachable.resolve_parse_render_iff (h : catalog.Reachable) :
    (∀ t : ArgType, (∃ expr, catalog.parse t.render = .ok (.type expr) ∧ catalog.resolve expr = .ok t) ↔
        t.WellFormed catalog) ∧
      ∀ source expr t, catalog.parse source = .ok (.type expr) → catalog.resolve expr = .ok t →
        t.WellFormed catalog := by
  refine ⟨?_, fun _ _ _ => wellFormed_of_parse_of_resolve⟩
  intro t
  constructor
  · rintro ⟨expr, hparse, hresolve⟩
    exact wellFormed_of_parse_of_resolve hparse hresolve
  · intro ht
    exact ⟨t.expr, parse_render_argType h.valid ht, resolve_expr h.valid t ht⟩

/-- A type with an extension, a variable and a structure is read back; one without fields is not. -/
theorem resolve_parse_render_points :
    points.Reachable ∧
      (∃ expr, points.parse "map<point?<-7,n>, struct<any>>" = .ok (.type expr) ∧
        points.resolve expr = .ok (.map
          (.extension "point" [.param (.fixed (-7)), .param (.free "n")] .nullable)
          (.struct [.any .required] .required) .required)) ∧
      ¬ ∃ expr, points.parse "struct<>" = .ok (.type expr) ∧
        points.resolve expr = .ok (.struct [] .required) := by
  have hiff := (Reachable.resolve_parse_render_iff reachable_points).1
  refine ⟨reachable_points, ?_, ?_⟩
  · have htext : "map<point?<-7,n>, struct<any>>" =
        ArgType.render (.map (.extension "point" [.param (.fixed (-7)), .param (.free "n")] .nullable)
          (.struct [.any .required] .required) .required) := by decide +kernel
    have hpoint : ArgType.WellFormed points
        (.extension "point" [.param (.fixed (-7)), .param (.free "n")] .nullable) :=
      ⟨⟨_, List.mem_singleton_self _, rfl, rfl, by decide⟩, trivial, ⟨rfl, rfl⟩, trivial⟩
    have hstruct : ArgType.WellFormed points (.struct [.any .required] .required) :=
      ⟨List.cons_ne_nil _ _, trivial, trivial⟩
    rw [htext]
    exact (hiff _).mpr ⟨hpoint, hstruct⟩
  · have htext : "struct<>" = ArgType.render (.struct [] .required) := by decide +kernel
    intro hread
    rw [htext] at hread
    exact ((hiff _).mp hread).1 rfl

end Catalog

end Signatures
