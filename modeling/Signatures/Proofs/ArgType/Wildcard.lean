import Signatures.Proofs.ArgType.Resolving
import Signatures.Proofs.Catalog.Reachable

/-!
# Wildcards and the text of a resolved type

All wildcards mean the same, whatever their labels are. A resolved type is written like the type expression
that it comes from, without these labels, and an expression with other labels is resolved to the same type.
The two texts are printed in different ways: that of an expression from its name, that of a resolved type
from its kind, with a layout of its own for each.
-/

namespace Signatures

/-- A name without the label of a wildcard. -/
def unlabelled (name : String) : String := if isWildcard name then "any" else name

theorem unlabelled_eq {name other : String}
    (h : name = other ∨ (isWildcard name = true ∧ isWildcard other = true)) :
    unlabelled name = unlabelled other := by
  rcases h with rfl | ⟨hname, hother⟩
  · rfl
  · rw [unlabelled, unlabelled, if_pos hname, if_pos hother]

def written (name : String) (nullable : Bool) (separator : String) (items : List String) : String :=
  match items with
  | [] => headed name nullable
  | items => headed name nullable ++ bracketed separator items

namespace TypeExpr

mutual

/-- A type expression without the labels of its wildcards. A parameter is no type and keeps its name. -/
def unlabel : TypeExpr → TypeExpr
  | ⟨name, nullable, args⟩ => ⟨unlabelled name, nullable, unlabelArgs args⟩

def unlabelArgs : List (Arg TypeExpr) → List (Arg TypeExpr)
  | [] => []
  | .param value :: args => .param value :: unlabelArgs args
  | .type inner :: args => .type inner.unlabel :: unlabelArgs args

end

mutual

/-- Type expressions that are the same, except that wildcards may have other labels. -/
inductive Relabels : TypeExpr → TypeExpr → Prop where
  | node {name name' : String} {args args' : List (Arg TypeExpr)}
      (h : name = name' ∨ (isWildcard name = true ∧ isWildcard name' = true)) (nullable : Bool)
      (hargs : RelabelsArgs args args') : Relabels ⟨name, nullable, args⟩ ⟨name', nullable, args'⟩

inductive RelabelsArgs : List (Arg TypeExpr) → List (Arg TypeExpr) → Prop where
  | nil : RelabelsArgs [] []
  | param (value : Param) {args args' : List (Arg TypeExpr)} (hs : RelabelsArgs args args') :
      RelabelsArgs (.param value :: args) (.param value :: args')
  | type {inner inner' : TypeExpr} {args args' : List (Arg TypeExpr)} (h : Relabels inner inner')
      (hs : RelabelsArgs args args') : RelabelsArgs (.type inner :: args) (.type inner' :: args')

end

theorem render_eq_written (name : String) (nullable : Bool) (args : List (Arg TypeExpr)) :
    render ⟨name, nullable, args⟩ = written name nullable (Arg.separator args) (renderArgs args) := by
  cases args <;> rw [render, renderArgs] <;> rfl

theorem map_isParam_unlabelArgs (args : List (Arg TypeExpr)) :
    (unlabelArgs args).map Arg.isParam = args.map Arg.isParam := by
  induction args with
  | nil => simp [unlabelArgs]
  | cons arg args ih => cases arg <;> simp [unlabelArgs, Arg.isParam, ih]

mutual

theorem Relabels.unlabel_eq {expr other : TypeExpr} : expr.Relabels other → expr.unlabel = other.unlabel
  | .node h nullable hargs => by
    have hname := unlabelled_eq h
    rw [unlabel, unlabel, hname, hargs.unlabelArgs_eq]

theorem RelabelsArgs.unlabelArgs_eq {args others : List (Arg TypeExpr)} :
    RelabelsArgs args others → unlabelArgs args = unlabelArgs others
  | .nil => rfl
  | .param value hs => by rw [unlabelArgs, unlabelArgs, hs.unlabelArgs_eq]
  | .type h hs => by rw [unlabelArgs, unlabelArgs, h.unlabel_eq, hs.unlabelArgs_eq]

end

end TypeExpr

namespace ArgType

theorem renderArgs_map_type (types : List ArgType) : renderArgs (types.map .type) = renderFields types := by
  induction types with
  | nil => simp [renderArgs, renderFields]
  | cons t types ih => simp [renderArgs, renderFields, ih]

theorem render_extension (name : String) (args : List (Arg ArgType)) (n : Nullability) :
    render (.extension name args n) = written name n.flag (Arg.separator args) (renderArgs args) := by
  cases args with
  | nil => rw [render, renderArgs, written]
  | cons arg args => cases arg <;> simp [render, renderArgs, written]

end ArgType

namespace TypeKind

/-- The name that the types of a kind are written with; an extension has a name of its own. -/
def writtenName (kind : TypeKind) (name : String) : String :=
  match kind with
  | scalar kind => kind.name
  | sized kind => kind.name
  | decimal => "decimal"
  | list => "list"
  | map => "map"
  | struct => "struct"
  | any => "any"
  | extension => name

theorem render_assemble {kind : TypeKind} {args : List (Arg ArgType)}
    (h : kind = .extension ∨ kind.rule.Holds args) (name : String) (n : Nullability) :
    (kind.assemble name args n).render =
      written (kind.writtenName name) n.flag (Arg.separator args) (ArgType.renderArgs args) := by
  by_cases hext : kind = .extension
  · subst hext
    rw [assemble_extension, ArgType.render_extension, writtenName]
  cases takes_iff.mpr ⟨hext, h.resolve_left hext⟩ with
  | scalar kind => rw [assemble, ArgType.render, ArgType.renderArgs, written, writtenName]
  | sized kind size =>
    simp [assemble, ArgType.render, ArgType.renderArgs, written, writtenName, Arg.separator, Arg.isParam]
  | decimal precision scale =>
    simp [assemble, ArgType.render, ArgType.renderArgs, written, writtenName, Arg.separator, Arg.isParam]
  | list element =>
    simp [assemble, ArgType.render, ArgType.renderArgs, written, writtenName, Arg.separator, Arg.isParam]
  | map key value =>
    simp [assemble, ArgType.render, ArgType.renderArgs, written, writtenName, Arg.separator, Arg.isParam]
  | struct fields hne =>
    rcases List.exists_cons_of_ne_nil hne with ⟨first, fields, rfl⟩
    rw [assemble, typesOf_map_type, ArgType.render, ArgType.renderArgs_map_type]
    simp [ArgType.renderFields, written, writtenName, Arg.separator, Arg.isParam]
  | any => rw [assemble, ArgType.render, ArgType.renderArgs, written, writtenName]

end TypeKind

namespace Builtin

theorem writtenName_kind : ∀ type ∈ table, type.kind.writtenName type.name = unlabelled type.name := by
  decide

theorem entry_of_wildcard :
    ∀ type ∈ table, isWildcard type.name = true → type.entry = ⟨"any", .any, .none⟩ := by
  decide

end Builtin

namespace Catalog

variable {catalog : Catalog}

theorem Valid.lookup?_wildcard (hvalid : catalog.Valid) {name : String} (h : isWildcard name = true) :
    catalog.lookup? name = some ⟨"any", .any, .none⟩ := by
  have hknown : (catalog.lookup? name).isSome = true := by
    rw [lookup?]
    split
    · rfl
    split
    · rfl
    rw [if_pos h]
    rfl
  rcases Option.isSome_iff_exists.mp hknown with ⟨entry, hentry⟩
  rw [hentry]
  cases meaning_of_lookup? hentry with
  -- The only built-in type whose name is a wildcard is the one without a label.
  | builtin type hmem hname => rw [Builtin.entry_of_wildcard type hmem (hname ▸ h)]
  | extension ext hmem hname =>
    have hwild := (hvalid.valid ext hmem).not_wildcard
    rw [hname, h] at hwild
    cases hwild
  | wildcard hwild => rfl

/-- A name means the same without its label. -/
theorem Valid.lookup?_unlabelled (hvalid : catalog.Valid) (name : String) :
    catalog.lookup? (unlabelled name) = catalog.lookup? name := by
  by_cases hwild : isWildcard name = true
  · rw [unlabelled, if_pos hwild, hvalid.lookup?_wildcard hwild, hvalid.lookup?_wildcard (by decide)]
  · rw [unlabelled, if_neg hwild]

/-- The types of a known name are written with it, but without its label. -/
theorem Valid.writtenName_of_lookup? (hvalid : catalog.Valid) {name : String} {entry : Entry}
    (h : catalog.lookup? name = some entry) : entry.kind.writtenName name = unlabelled name := by
  cases meaning_of_lookup? h with
  | builtin type hmem hname => exact hname ▸ Builtin.writtenName_kind type hmem
  | extension ext hmem hname =>
    have hwild := (hvalid.valid ext hmem).not_wildcard
    rw [hname] at hwild
    rw [Extension.entry, TypeKind.writtenName, unlabelled, hwild]
    rfl
  | wildcard hwild => rw [TypeKind.writtenName, unlabelled, if_pos hwild]

theorem Valid.assemble_unlabelled (hvalid : catalog.Valid) {name : String} {entry : Entry}
    (h : catalog.lookup? name = some entry) {args : List (Arg ArgType)} (hholds : entry.rule.Holds args)
    (n : Nullability) : entry.kind.assemble (unlabelled name) args n = entry.kind.assemble name args n := by
  by_cases hwild : isWildcard name = true
  · -- A wildcard takes no arguments, and its type does not hold its name.
    rw [hvalid.lookup?_wildcard hwild] at h
    cases h
    cases ArgRule.holds_none_iff.mp hholds
    rfl
  · rw [unlabelled, if_neg hwild]

mutual

/-- A type expression is resolved to a type exactly if it is without its labels. -/
theorem Valid.resolve_unlabel_eq_ok_iff (hvalid : catalog.Valid) : (expr : TypeExpr) → {t : ArgType} →
    (catalog.resolve expr.unlabel = .ok t ↔ catalog.resolve expr = .ok t)
  | ⟨name, nullable, args⟩, t => by
    rw [TypeExpr.unlabel, resolve_eq_ok_iff, resolve_eq_ok_iff, hvalid.lookup?_unlabelled]
    refine exists_congr fun entry => exists_congr fun resolved => and_congr_right fun hlookup => ?_
    -- The rule only sees which arguments are parameters, and no label changes that.
    rw [entry.rule.holds_congr (TypeExpr.map_isParam_unlabelArgs args),
      hvalid.resolveArgs_unlabelArgs_eq_ok_iff args]
    refine and_congr_right fun hholds => and_congr_right fun hresolved => ?_
    rw [← entry.rule.holds_congr (map_isParam_of_resolveArgs hresolved)] at hholds
    rw [hvalid.assemble_unlabelled hlookup hholds]

theorem Valid.resolveArgs_unlabelArgs_eq_ok_iff (hvalid : catalog.Valid) :
    (args : List (Arg TypeExpr)) → {resolved : List (Arg ArgType)} →
    (catalog.resolveArgs (TypeExpr.unlabelArgs args) = .ok resolved ↔
      catalog.resolveArgs args = .ok resolved)
  | [], resolved => by rw [TypeExpr.unlabelArgs]
  | .param value :: args, resolved => by
    rw [TypeExpr.unlabelArgs, resolveArgs_param_eq_ok_iff, resolveArgs_param_eq_ok_iff]
    simp only [hvalid.resolveArgs_unlabelArgs_eq_ok_iff args]
  | .type inner :: args, resolved => by
    rw [TypeExpr.unlabelArgs, resolveArgs_type_eq_ok_iff, resolveArgs_type_eq_ok_iff]
    simp only [hvalid.resolve_unlabel_eq_ok_iff inner, hvalid.resolveArgs_unlabelArgs_eq_ok_iff args]

end

mutual

/-- A resolved type has the text of its type expression without labels. -/
theorem Valid.render_of_resolve (hvalid : catalog.Valid) : (expr : TypeExpr) → {t : ArgType} →
    catalog.resolve expr = .ok t → t.render = expr.unlabel.render
  | ⟨name, nullable, args⟩, t, h => by
    rcases resolve_eq_ok_iff.mp h with ⟨entry, resolved, hlookup, hholds, hresolved, rfl⟩
    have hparams := map_isParam_of_resolveArgs hresolved
    have hkind : entry.kind = .extension ∨ entry.kind.rule.Holds resolved := by
      refine (rule_of_lookup? hlookup).imp_right fun hrule => ?_
      rwa [← hrule, entry.rule.holds_congr hparams]
    have hseparator := Arg.separator_congr (hparams.trans (TypeExpr.map_isParam_unlabelArgs args).symm)
    rw [TypeKind.render_assemble hkind, TypeExpr.unlabel, TypeExpr.render_eq_written, hseparator,
      hvalid.writtenName_of_lookup? hlookup, Nullability.flag_ofFlag,
      hvalid.renderArgs_of_resolveArgs args hresolved]

theorem Valid.renderArgs_of_resolveArgs (hvalid : catalog.Valid) :
    (args : List (Arg TypeExpr)) → {resolved : List (Arg ArgType)} →
    catalog.resolveArgs args = .ok resolved →
    ArgType.renderArgs resolved = TypeExpr.renderArgs (TypeExpr.unlabelArgs args)
  | [], resolved, h => by
    rw [resolveArgs_nil] at h
    cases h
    rw [TypeExpr.unlabelArgs, TypeExpr.renderArgs, ArgType.renderArgs]
  | .param value :: args, resolved, h => by
    rcases resolveArgs_param_eq_ok_iff.mp h with ⟨tail, htail, rfl⟩
    rw [TypeExpr.unlabelArgs, TypeExpr.renderArgs, TypeExpr.renderArg, ArgType.renderArgs,
      hvalid.renderArgs_of_resolveArgs args htail]
  | .type inner :: args, resolved, h => by
    rcases resolveArgs_type_eq_ok_iff.mp h with ⟨t, tail, ht, htail, rfl⟩
    rw [TypeExpr.unlabelArgs, TypeExpr.renderArgs, TypeExpr.renderArg, ArgType.renderArgs,
      hvalid.render_of_resolve inner ht, hvalid.renderArgs_of_resolveArgs args htail]

end

theorem Valid.resolve_eq_ok_iff_of_relabels (hvalid : catalog.Valid) {expr other : TypeExpr}
    (h : expr.Relabels other) (t : ArgType) :
    catalog.resolve expr = .ok t ↔ catalog.resolve other = .ok t := by
  rw [← hvalid.resolve_unlabel_eq_ok_iff expr, h.unlabel_eq, hvalid.resolve_unlabel_eq_ok_iff other]

/-- Under a catalog that comes from adding extensions, a resolved type has the text of its type expression
without the labels of wildcards, and an expression with other labels is resolved to the same type or fails
with it. -/
theorem Reachable.resolve_unlabelled (h : catalog.Reachable) (expr : TypeExpr) :
    (∀ t, catalog.resolve expr = .ok t → t.render = expr.unlabel.render) ∧
      ∀ other, expr.Relabels other →
        (∀ t, catalog.resolve expr = .ok t ↔ catalog.resolve other = .ok t) ∧
        ((∃ fault, catalog.resolve expr = .error fault) ↔
          ∃ fault, catalog.resolve other = .error fault) := by
  refine ⟨fun t => h.valid.render_of_resolve expr, ?_⟩
  intro other hother
  have hok := h.valid.resolve_eq_ok_iff_of_relabels hother
  refine ⟨hok, ?_⟩
  cases hexpr : catalog.resolve expr with
  | ok t => simp [(hok t).mp hexpr]
  | error fault =>
    cases hresolved : catalog.resolve other with
    | ok t =>
      rw [(hok t).mpr hresolved] at hexpr
      cases hexpr
    | error other => simp

/-- The label of a key is not in the text of the resolved type, and another label leads to the same type. -/
theorem resolve_unlabelled_points :
    points.Reachable ∧ ∃ t,
      points.resolve ⟨"map", false, [.type ⟨"any1", true, []⟩,
        .type ⟨"point", false, [.param (.fixed (-7)), .param (.free "n")]⟩]⟩ = .ok t ∧
      points.resolve ⟨"map", false, [.type ⟨"anyKey", true, []⟩,
        .type ⟨"point", false, [.param (.fixed (-7)), .param (.free "n")]⟩]⟩ = .ok t ∧
      t.render = "map<any?, point<-7,n>>" := by
  have hresolve : points.resolve ⟨"map", false, [.type ⟨"any1", true, []⟩,
      .type ⟨"point", false, [.param (.fixed (-7)), .param (.free "n")]⟩]⟩ =
      .ok (.map (.any .nullable) (.extension "point" [.param (.fixed (-7)), .param (.free "n")] .required)
        .required) := rfl
  have hkey : TypeExpr.Relabels ⟨"any1", true, []⟩ ⟨"anyKey", true, []⟩ := .node (by decide) true .nil
  have hargs := TypeExpr.RelabelsArgs.type hkey
    (.type (.node (.inl (Eq.refl "point")) false (.param (.fixed (-7)) (.param (.free "n") .nil))) .nil)
  rcases Reachable.resolve_unlabelled reachable_points _ with ⟨hrender, hrelabelled⟩
  refine ⟨reachable_points, _, hresolve, ?_, ?_⟩
  · exact ((hrelabelled _ (.node (.inl (Eq.refl "map")) false hargs)).1 _).mp hresolve
  · rw [hrender _ hresolve]
    decide +kernel

end Catalog

end Signatures
