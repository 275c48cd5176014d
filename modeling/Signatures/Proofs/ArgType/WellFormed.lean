import Signatures.Proofs.ArgType.Resolving
import Signatures.Proofs.Catalog.Reachable
import Signatures.Proofs.Signature.WellFormed

/-!
# Well-formed argument types

An argument type is well formed under a catalog if it is what some signature denotes there: structures
have fields, variables are no known names, and the arguments of an extension keep its rule. Resolving
makes well-formed types of well-formed expressions.
-/

namespace Signatures

namespace ArgType

mutual

/-- At every depth, structures have a field, variables are identifiers that are not known, and extensions
are known and have arguments that keep their rule. -/
def WellFormed (catalog : Catalog) : ArgType → Prop
  | scalar _ _ => True
  | sized _ size _ => size.WellFormed catalog.knows
  | decimal precision scale _ => precision.WellFormed catalog.knows ∧ scale.WellFormed catalog.knows
  | list element _ => element.WellFormed catalog
  | map key value _ => key.WellFormed catalog ∧ value.WellFormed catalog
  | struct fields _ => fields ≠ [] ∧ WellFormedFields catalog fields
  | any _ => True
  | extension name args _ =>
    (∃ ext ∈ catalog.extensions, ext.name = name ∧ ext.rule.Holds args) ∧ WellFormedArgs catalog args

def WellFormedFields (catalog : Catalog) : List ArgType → Prop
  | [] => True
  | field :: fields => field.WellFormed catalog ∧ WellFormedFields catalog fields

def WellFormedArgs (catalog : Catalog) : List (Arg ArgType) → Prop
  | [] => True
  | .param value :: args => value.WellFormed catalog.knows ∧ WellFormedArgs catalog args
  | .type inner :: args => inner.WellFormed catalog ∧ WellFormedArgs catalog args

end

variable {catalog : Catalog}

theorem wellFormedArgs_map_type {types : List ArgType} :
    WellFormedArgs catalog (types.map .type) ↔ WellFormedFields catalog types := by
  induction types with
  | nil => simp [WellFormedArgs, WellFormedFields]
  | cons t types ih => simp [WellFormedArgs, WellFormedFields, ih]

end ArgType

theorem Builtin.kind_ne_extension : ∀ type ∈ table, type.kind ≠ .extension := by decide

namespace TypeKind

/-- Well-formed arguments that a kind takes make a well-formed type of it. -/
theorem wellFormed_assemble {catalog : Catalog} {kind : TypeKind} {args : List (Arg ArgType)}
    (htakes : kind.Takes args) (hargs : ArgType.WellFormedArgs catalog args) (name : String)
    (n : Nullability) : (kind.assemble name args n).WellFormed catalog := by
  cases htakes with
  | scalar kind => simp [assemble, ArgType.WellFormed]
  | sized kind size => simpa [assemble, ArgType.WellFormed, ArgType.WellFormedArgs] using hargs
  | decimal precision scale => simpa [assemble, ArgType.WellFormed, ArgType.WellFormedArgs] using hargs
  | list element => simpa [assemble, ArgType.WellFormed, ArgType.WellFormedArgs] using hargs
  | map key value => simpa [assemble, ArgType.WellFormed, ArgType.WellFormedArgs] using hargs
  | struct fields hne =>
    rw [ArgType.wellFormedArgs_map_type] at hargs
    rw [assemble, typesOf_map_type, ArgType.WellFormed]
    exact ⟨hne, hargs⟩
  | any => simp [assemble, ArgType.WellFormed]

end TypeKind

namespace Catalog

variable {catalog : Catalog}

mutual

/-- A type expression with well-formed arguments is resolved to a well-formed type. -/
theorem wellFormed_of_resolve : (expr : TypeExpr) → TypeExpr.WellFormedArgs catalog.knows expr.args →
    {t : ArgType} → catalog.resolve expr = .ok t → t.WellFormed catalog
  | ⟨name, nullable, args⟩, hargs, t, h => by
    rcases resolve_eq_ok_iff.mp h with ⟨entry, resolved, hlookup, hholds, hresolved, rfl⟩
    have hwell := wellFormedArgs_of_resolveArgs args hargs hresolved
    -- The rule was checked before the arguments were resolved, and it only sees their kinds.
    rw [← entry.rule.holds_congr (map_isParam_of_resolveArgs hresolved)] at hholds
    cases meaning_of_lookup? hlookup with
    | builtin type hmem hname =>
      have htakes := TypeKind.takes_iff.mpr ⟨Builtin.kind_ne_extension type hmem, hholds⟩
      exact TypeKind.wellFormed_assemble htakes hwell name _
    | extension ext hmem hname =>
      rw [Extension.entry, TypeKind.assemble_extension, ArgType.WellFormed]
      exact ⟨⟨ext, hmem, hname, hholds⟩, hwell⟩
    | wildcard hwild =>
      cases ArgRule.holds_none_iff.mp hholds
      exact TypeKind.wellFormed_assemble .any hwell name _

theorem wellFormedArgs_of_resolveArgs : (args : List (Arg TypeExpr)) →
    TypeExpr.WellFormedArgs catalog.knows args → {resolved : List (Arg ArgType)} →
    catalog.resolveArgs args = .ok resolved → ArgType.WellFormedArgs catalog resolved
  | [], _, resolved, h => by
    rw [resolveArgs_nil] at h
    cases h
    trivial
  | .param value :: args, hargs, resolved, h => by
    rcases resolveArgs_param_eq_ok_iff.mp h with ⟨tail, htail, rfl⟩
    rw [TypeExpr.WellFormedArgs, TypeExpr.WellFormedArg] at hargs
    rw [ArgType.WellFormedArgs]
    exact ⟨hargs.1, wellFormedArgs_of_resolveArgs args hargs.2 htail⟩
  | .type ⟨name, nullable, inner⟩ :: args, hargs, resolved, h => by
    rcases resolveArgs_type_eq_ok_iff.mp h with ⟨t, tail, ht, htail, rfl⟩
    rw [TypeExpr.WellFormedArgs, TypeExpr.WellFormedArg, TypeExpr.WellFormed] at hargs
    rw [ArgType.WellFormedArgs]
    exact ⟨wellFormed_of_resolve ⟨name, nullable, inner⟩ hargs.1.2.2 ht,
      wellFormedArgs_of_resolveArgs args hargs.2 htail⟩

end

end Catalog

end Signatures
