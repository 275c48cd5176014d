import Signatures.Proofs.ArgType.Resolving
import Signatures.Proofs.Catalog.Reachable

/-!
# Marks and nullability

Every type expression has a mark of its own, and so has every type in an argument type. Resolving takes each
of them over to the same place and reads none of them: a place is the sequence of the argument indices that
lead to it. So expressions that differ in their marks are resolved to types that differ in them, and whether
they are resolved does not depend on a mark.
-/

namespace Signatures

namespace TypeExpr

mutual

/-- A type expression without its mark and those inside it. -/
def unmark : TypeExpr → TypeExpr
  | ⟨name, _, args⟩ => ⟨name, false, unmarkArgs args⟩

def unmarkArgs : List (Arg TypeExpr) → List (Arg TypeExpr)
  | [] => []
  | .param value :: args => .param value :: unmarkArgs args
  | .type inner :: args => .type inner.unmark :: unmarkArgs args

end

def child? (expr : TypeExpr) (index : Nat) : Option TypeExpr := expr.args[index]?.bind Arg.type?

def at? : List Nat → TypeExpr → Option TypeExpr
  | [], expr => some expr
  | index :: path, expr => (expr.child? index).bind (at? path)

theorem map_isParam_unmarkArgs (args : List (Arg TypeExpr)) :
    (unmarkArgs args).map Arg.isParam = args.map Arg.isParam := by
  induction args with
  | nil => simp [unmarkArgs]
  | cons arg args ih => cases arg <;> simp [unmarkArgs, Arg.isParam, ih]

end TypeExpr

namespace ArgType

mutual

def unmark : ArgType → ArgType
  | scalar kind _ => scalar kind .required
  | sized kind size _ => sized kind size .required
  | decimal precision scale _ => decimal precision scale .required
  | list element _ => list element.unmark .required
  | map key value _ => map key.unmark value.unmark .required
  | struct fields _ => struct (unmarkFields fields) .required
  | any _ => any .required
  | extension name args _ => extension name (unmarkArgs args) .required

def unmarkFields : List ArgType → List ArgType
  | [] => []
  | field :: fields => field.unmark :: unmarkFields fields

def unmarkArgs : List (Arg ArgType) → List (Arg ArgType)
  | [] => []
  | .param value :: args => .param value :: unmarkArgs args
  | .type inner :: args => .type inner.unmark :: unmarkArgs args

end

/-- The type directly inside another that comes from its argument of the given index. -/
def child? (t : ArgType) (index : Nat) : Option ArgType :=
  match t with
  | list element _ => [element][index]?
  | map key value _ => [key, value][index]?
  | struct fields _ => fields[index]?
  | extension _ args _ => args[index]?.bind Arg.type?
  | scalar .. | sized .. | decimal .. | any _ => none

def at? : List Nat → ArgType → Option ArgType
  | [], t => some t
  | index :: path, t => (t.child? index).bind (at? path)

theorem unmarkArgs_map_type (types : List ArgType) :
    unmarkArgs (types.map .type) = (unmarkFields types).map .type := by
  induction types with
  | nil => simp [unmarkArgs, unmarkFields]
  | cons t types ih => simp [unmarkArgs, unmarkFields, ih]

end ArgType

namespace TypeKind

variable {kind : TypeKind} {args : List (Arg ArgType)}

theorem nullability_assemble (kind : TypeKind) (name : String) (args : List (Arg ArgType))
    (n : Nullability) : (kind.assemble name args n).nullability = n := by
  unfold assemble
  split <;> rfl

theorem withNullability_assemble (kind : TypeKind) (name : String) (args : List (Arg ArgType))
    (m n : Nullability) :
    (kind.assemble name args m).withNullability n = kind.assemble name args n := by
  unfold assemble
  split <;> rfl

theorem child?_assemble (h : kind = .extension ∨ kind.Takes args) (name : String) (n : Nullability)
    (index : Nat) : (kind.assemble name args n).child? index = args[index]?.bind Arg.type? := by
  rcases h with rfl | htakes
  · rw [assemble_extension, ArgType.child?]
  cases htakes with
  | scalar kind => rfl
  | sized kind size => cases index <;> rfl
  | decimal precision scale =>
    match index with
    | 0 | 1 | index + 2 => rfl
  | list element => cases index <;> rfl
  | map key value =>
    match index with
    | 0 | 1 | index + 2 => rfl
  | struct fields hne =>
    rw [assemble, typesOf_map_type, ArgType.child?, List.getElem?_map]
    cases fields[index]? <;> rfl
  | any => rfl

/-- A type made from arguments is unmarked by making it from unmarked ones. -/
theorem unmark_assemble (h : kind = .extension ∨ kind.Takes args) (name : String) (n : Nullability) :
    (kind.assemble name args n).unmark = kind.assemble name (ArgType.unmarkArgs args) .required := by
  rcases h with rfl | htakes
  · rw [assemble_extension, assemble_extension, ArgType.unmark]
  cases htakes with
  | scalar | sized | decimal | list | map | any => simp [assemble, ArgType.unmark, ArgType.unmarkArgs]
  | struct fields hne =>
    rw [ArgType.unmarkArgs_map_type, assemble, assemble, typesOf_map_type, typesOf_map_type, ArgType.unmark]

end TypeKind

namespace Catalog

variable {catalog : Catalog} {expr other : TypeExpr} {t : ArgType}

section Places

theorem map_resolve_getElem? {args : List (Arg TypeExpr)} {resolved : List (Arg ArgType)}
    (h : catalog.resolveArgs args = .ok resolved) (index : Nat) :
    (args[index]?.bind Arg.type?).map catalog.resolve = (resolved[index]?.bind Arg.type?).map .ok := by
  induction args generalizing resolved index with
  | nil =>
    rw [resolveArgs_nil] at h
    cases h
    rfl
  | cons arg args ih =>
    cases arg with
    | param value =>
      rcases resolveArgs_param_eq_ok_iff.mp h with ⟨tail, htail, rfl⟩
      cases index with
      | zero => rfl
      | succ index => exact ih htail index
    | type inner =>
      rcases resolveArgs_type_eq_ok_iff.mp h with ⟨s, tail, hs, htail, rfl⟩
      cases index with
      | zero => simp [Arg.type?, hs]
      | succ index => exact ih htail index

theorem map_resolve_child? (h : catalog.resolve expr = .ok t) (index : Nat) :
    (expr.child? index).map catalog.resolve = (t.child? index).map .ok := by
  rcases expr with ⟨name, nullable, args⟩
  rcases resolve_eq_ok_iff.mp h with ⟨entry, resolved, hlookup, hholds, hresolved, rfl⟩
  rw [TypeKind.child?_assemble (takes_of_resolveArgs hlookup hholds hresolved), TypeExpr.child?,
    map_resolve_getElem? hresolved]

/-- At the same place there are either an expression and the type that it is resolved to, or neither. -/
theorem none_or_resolve {expr? : Option TypeExpr} {t? : Option ArgType}
    (h : expr?.map catalog.resolve = t?.map .ok) :
    (expr? = none ∧ t? = none) ∨ ∃ node s, expr? = some node ∧ t? = some s ∧ catalog.resolve node = .ok s := by
  cases expr? with
  | none =>
    cases t? with
    | none => exact .inl ⟨rfl, rfl⟩
    | some s => cases h
  | some node =>
    cases t? with
    | none => cases h
    | some s => exact .inr ⟨node, s, rfl, rfl, Option.some.inj h⟩

/-- The type at a place of a resolved type is what the expression at that place is resolved to. -/
theorem map_resolve_at? (h : catalog.resolve expr = .ok t) (path : List Nat) :
    (expr.at? path).map catalog.resolve = (t.at? path).map .ok := by
  induction path generalizing expr t with
  | nil => simp [TypeExpr.at?, ArgType.at?, h]
  | cons index path ih =>
    rw [TypeExpr.at?, ArgType.at?]
    rcases none_or_resolve (map_resolve_child? h index) with ⟨hexpr, ht⟩ | ⟨node, s, hexpr, ht, hnode⟩
    · rw [hexpr, ht]
      rfl
    · rw [hexpr, ht]
      exact ih hnode

theorem nullability_of_resolve (h : catalog.resolve expr = .ok t) :
    t.nullability = .ofFlag expr.nullable := by
  rcases expr with ⟨name, nullable, args⟩
  rcases resolve_eq_ok_iff.mp h with ⟨entry, resolved, -, -, -, rfl⟩
  exact entry.kind.nullability_assemble name resolved _

/-- The nullability at a place of a resolved type is the mark of the expression at that place. -/
theorem map_nullability_at? (h : catalog.resolve expr = .ok t) (path : List Nat) :
    (t.at? path).map ArgType.nullability = (expr.at? path).map fun node => .ofFlag node.nullable := by
  rcases none_or_resolve (map_resolve_at? h path) with ⟨hexpr, ht⟩ | ⟨node, s, hexpr, ht, hnode⟩
  · rw [hexpr, ht]
    rfl
  · rw [hexpr, ht, Option.map_some, Option.map_some, nullability_of_resolve hnode]

end Places

section Marks

mutual

/-- A type expression is resolved without its marks exactly if it is with them, to the same type unmarked. -/
theorem resolve_unmark_eq_ok_iff : (expr : TypeExpr) → {u : ArgType} →
    (catalog.resolve expr.unmark = .ok u ↔ ∃ t, catalog.resolve expr = .ok t ∧ t.unmark = u)
  | ⟨name, nullable, args⟩, u => by
    have hrule (rule : ArgRule) := rule.holds_congr (TypeExpr.map_isParam_unmarkArgs args)
    rw [TypeExpr.unmark]
    constructor
    · intro h
      rcases resolve_eq_ok_iff.mp h with ⟨entry, unmarked, hlookup, hholds, hunmarked, rfl⟩
      rcases (resolveArgs_unmarkArgs_eq_ok_iff args).mp hunmarked with ⟨resolved, hresolved, rfl⟩
      have hholds := (hrule entry.rule).mp hholds
      refine ⟨_, resolve_eq_ok_iff.mpr ⟨entry, resolved, hlookup, hholds, hresolved, rfl⟩, ?_⟩
      exact TypeKind.unmark_assemble (takes_of_resolveArgs hlookup hholds hresolved) name _
    · rintro ⟨t, h, rfl⟩
      rcases resolve_eq_ok_iff.mp h with ⟨entry, resolved, hlookup, hholds, hresolved, rfl⟩
      have hunmarked := (resolveArgs_unmarkArgs_eq_ok_iff args).mpr ⟨resolved, hresolved, rfl⟩
      rw [TypeKind.unmark_assemble (takes_of_resolveArgs hlookup hholds hresolved)]
      exact resolve_eq_ok_iff.mpr ⟨entry, _, hlookup, (hrule entry.rule).mpr hholds, hunmarked, rfl⟩

theorem resolveArgs_unmarkArgs_eq_ok_iff : (args : List (Arg TypeExpr)) → {unmarked : List (Arg ArgType)} →
    (catalog.resolveArgs (TypeExpr.unmarkArgs args) = .ok unmarked ↔
      ∃ resolved, catalog.resolveArgs args = .ok resolved ∧ ArgType.unmarkArgs resolved = unmarked)
  | [], unmarked => by simp [TypeExpr.unmarkArgs, resolveArgs_nil, ArgType.unmarkArgs]
  | .param value :: args, unmarked => by
    simp only [TypeExpr.unmarkArgs, resolveArgs_param_eq_ok_iff, resolveArgs_unmarkArgs_eq_ok_iff args]
    constructor
    · rintro ⟨_, ⟨tail, htail, rfl⟩, rfl⟩
      exact ⟨_, ⟨tail, htail, rfl⟩, by rw [ArgType.unmarkArgs]⟩
    · rintro ⟨_, ⟨tail, htail, rfl⟩, rfl⟩
      exact ⟨_, ⟨tail, htail, rfl⟩, by rw [ArgType.unmarkArgs]⟩
  | .type inner :: args, unmarked => by
    simp only [TypeExpr.unmarkArgs, resolveArgs_type_eq_ok_iff, resolve_unmark_eq_ok_iff inner,
      resolveArgs_unmarkArgs_eq_ok_iff args]
    constructor
    · rintro ⟨_, _, ⟨t, ht, rfl⟩, ⟨tail, htail, rfl⟩, rfl⟩
      exact ⟨_, ⟨t, tail, ht, htail, rfl⟩, by rw [ArgType.unmarkArgs]⟩
    · rintro ⟨_, ⟨t, tail, ht, htail, rfl⟩, rfl⟩
      exact ⟨_, _, ⟨t, ht, rfl⟩, ⟨tail, htail, rfl⟩, by rw [ArgType.unmarkArgs]⟩

end

/-- An expression with other marks is resolved to a type with other marks. -/
theorem exists_resolve_of_unmark_eq (hunmark : expr.unmark = other.unmark)
    (h : catalog.resolve expr = .ok t) : ∃ u, catalog.resolve other = .ok u ∧ u.unmark = t.unmark := by
  apply (resolve_unmark_eq_ok_iff other).mp
  rw [← hunmark]
  exact (resolve_unmark_eq_ok_iff expr).mpr ⟨t, h, rfl⟩

/-- The mark of a type expression itself is the nullability of its type, and no fault is about it. -/
theorem resolve_remarked (catalog : Catalog) (name : String) (nullable marked : Bool)
    (args : List (Arg TypeExpr)) :
    catalog.resolve ⟨name, marked, args⟩ =
      (catalog.resolve ⟨name, nullable, args⟩).map (ArgType.withNullability (.ofFlag marked)) := by
  cases hlookup : catalog.lookup? name with
  | none =>
    rw [resolve_eq_unknown hlookup, resolve_eq_unknown hlookup]
    rfl
  | some entry =>
    rw [resolve_eq hlookup, resolve_eq hlookup]
    cases entry.rule.check args with
    | error fault => rfl
    | ok _ =>
      cases catalog.resolveArgs args with
      | error fault => rfl
      | ok resolved => exact congrArg Except.ok (entry.kind.withNullability_assemble name resolved _ _).symm

end Marks

/-- Nullability is independent at each depth. Of two type expressions that differ in their marks only, one
is resolved exactly if the other is, and then to the same type up to nullability; at each place of it the
nullability is the mark of the expression there. If they have the same arguments, what the second is
resolved to is that of the first with another nullability, and they have the same fault. -/
theorem resolve_nullability (catalog : Catalog) {expr other : TypeExpr}
    (hunmark : expr.unmark = other.unmark) :
    ((∃ t, catalog.resolve expr = .ok t) ↔ ∃ u, catalog.resolve other = .ok u) ∧
      (∀ t u, catalog.resolve expr = .ok t → catalog.resolve other = .ok u → t.unmark = u.unmark) ∧
      (∀ t, catalog.resolve expr = .ok t → ∀ path,
        (t.at? path).map ArgType.nullability =
          (expr.at? path).map fun node => .ofFlag node.nullable) ∧
      (expr.args = other.args → catalog.resolve other =
        (catalog.resolve expr).map (ArgType.withNullability (.ofFlag other.nullable))) := by
  refine ⟨⟨?_, ?_⟩, ?_, fun t => map_nullability_at?, ?_⟩
  · rintro ⟨t, ht⟩
    rcases exists_resolve_of_unmark_eq hunmark ht with ⟨u, hu, -⟩
    exact ⟨u, hu⟩
  · rintro ⟨u, hu⟩
    rcases exists_resolve_of_unmark_eq hunmark.symm hu with ⟨t, ht, -⟩
    exact ⟨t, ht⟩
  · intro t u ht hu
    rcases exists_resolve_of_unmark_eq hunmark ht with ⟨u', hu', heq⟩
    rw [hu] at hu'
    cases hu'
    exact heq.symm
  · intro hargs
    rcases expr with ⟨name, nullable, args⟩
    rcases other with ⟨name', nullable', args'⟩
    have hname : name = name' := by
      rw [TypeExpr.unmark, TypeExpr.unmark] at hunmark
      exact (TypeExpr.mk.inj hunmark).1
    cases hname
    cases hargs
    exact resolve_remarked catalog name nullable nullable' args

theorem resolve_nullability_points :
    let expr : TypeExpr := ⟨"map", false, [.type ⟨"point", true, [.param (.fixed 1), .param (.free "n")]⟩,
      .type ⟨"list", false, [.type ⟨"any1", false, []⟩]⟩]⟩
    let other : TypeExpr := ⟨"map", true, [.type ⟨"point", false, [.param (.fixed 1), .param (.free "n")]⟩,
      .type ⟨"list", false, [.type ⟨"any1", true, []⟩]⟩]⟩
    expr.unmark = other.unmark ∧ ∃ t u, points.resolve expr = .ok t ∧ points.resolve other = .ok u ∧
      t.unmark = u.unmark ∧ (t.at? [0]).map ArgType.nullability = some .nullable ∧
      (u.at? [0]).map ArgType.nullability = some .required ∧
      (u.at? [1, 0]).map ArgType.nullability = some .nullable := by
  intro expr other
  have hunmark : expr.unmark = other.unmark := rfl
  rcases resolve_nullability points hunmark with ⟨hiff, hsame, hplace, -⟩
  rcases resolve_nullability points hunmark.symm with ⟨-, -, hplace', -⟩
  have ht : ∃ t, points.resolve expr = .ok t := ⟨_, rfl⟩
  rcases hiff.mp ht with ⟨u, hu⟩
  rcases ht with ⟨t, ht⟩
  exact ⟨hunmark, t, u, ht, hu, hsame t u ht hu, hplace t ht [0], hplace' u hu [0], hplace' u hu [1, 0]⟩

end Catalog

end Signatures
