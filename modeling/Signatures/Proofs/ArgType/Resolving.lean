import Signatures.Proofs.ArgType.Rule
import Signatures.Resolve

/-!
# What resolving accepts

The kinds of types take their arguments in different ways: by index, in a row, or not at all. Once the rule
of a name holds of its arguments, all of them come to the same: the arguments are resolved one after the
other, and the kind makes a type of what they are resolved to.
-/

namespace Signatures

namespace TypeKind

def typesOf (args : List (Arg ArgType)) : List ArgType := args.filterMap Arg.type?

/-- The argument type of a kind with the given arguments. Arguments that do not suit the kind stay
what they are, those of an extension; a list that keeps the rule of the kind suits it. -/
def assemble (kind : TypeKind) (name : String) (args : List (Arg ArgType)) (n : Nullability) :
    ArgType :=
  match kind, args with
  | .scalar kind, [] => .scalar kind n
  | .sized kind, [.param size] => .sized kind size n
  | .decimal, [.param precision, .param scale] => .decimal precision scale n
  | .list, [.type element] => .list element n
  | .map, [.type key, .type value] => .map key value n
  | .struct, args => .struct (typesOf args) n
  | .any, [] => .any n
  | _, args => .extension name args n

theorem typesOf_map_type (types : List ArgType) : typesOf (types.map .type) = types := by
  induction types with
  | nil => rfl
  | cons t types ih => simpa [typesOf, Arg.type?] using ih

theorem assemble_extension (name : String) (args : List (Arg ArgType)) (n : Nullability) :
    extension.assemble name args n = .extension name args n := by
  cases args <;> rfl

end TypeKind

namespace Arg

theorem separator_congr {τ σ : Type} {args : List (Arg τ)} {others : List (Arg σ)}
    (h : args.map isParam = others.map isParam) : separator args = separator others := by
  have hall := congrArg (fun flags => flags.all id) h
  simp only [List.all_map, Function.id_comp] at hall
  rw [separator, separator, hall]

theorem mapM_typeAt (name : String) (before after : List (Except ResolveFault ArgType)) :
    (List.range' before.length after.length).mapM (typeAt name ((before ++ after).map .type)) =
      after.mapM id := by
  induction after generalizing before with
  | nil => rfl
  | cons outcome after ih =>
    have hhead : typeAt name ((before ++ outcome :: after).map .type) before.length = outcome := by
      simp [typeAt]
    have htail := ih (before ++ [outcome])
    rw [List.append_assoc, List.singleton_append, List.length_append, List.length_singleton] at htail
    rw [List.length_cons, List.range'_succ, List.mapM_cons, List.mapM_cons, hhead, htail]
    rfl

theorem collect_map_type (outcomes : List (Except ResolveFault ArgType)) :
    collect (outcomes.map .type) = (outcomes.mapM id).map (List.map .type) := by
  induction outcomes with
  | nil => rfl
  | cons outcome outcomes ih =>
    rw [List.map_cons, collect, ih, List.mapM_cons]
    cases outcome with
    | error fault => rfl
    | ok t => cases outcomes.mapM id <;> rfl

end Arg

namespace Catalog

variable {catalog : Catalog}

def resolveArgs (catalog : Catalog) (args : List (Arg TypeExpr)) :
    Except ResolveFault (List (Arg ArgType)) :=
  Arg.collect (catalog.outcomes args)

theorem resolveArgs_nil : catalog.resolveArgs [] = .ok [] := by
  rw [resolveArgs, outcomes, Arg.collect]

theorem resolveArgs_param (value : Param) (args : List (Arg TypeExpr)) :
    catalog.resolveArgs (.param value :: args) = (catalog.resolveArgs args).map (.param value :: ·) := by
  rw [resolveArgs, resolveArgs, outcomes, Arg.collect]
  cases Arg.collect (catalog.outcomes args) <;> rfl

theorem resolveArgs_type (inner : TypeExpr) (args : List (Arg TypeExpr)) :
    catalog.resolveArgs (.type inner :: args) =
      (catalog.resolve inner).bind fun t => (catalog.resolveArgs args).map (.type t :: ·) := by
  rw [resolveArgs, resolveArgs, outcomes, Arg.collect]
  cases catalog.resolve inner with
  | error fault => rfl
  | ok t => cases Arg.collect (catalog.outcomes args) <;> rfl

theorem outcomes_map_type (types : List TypeExpr) :
    catalog.outcomes (types.map .type) = (types.map catalog.resolve).map .type := by
  induction types with
  | nil => rw [List.map_nil, outcomes]; rfl
  | cons inner types ih => rw [List.map_cons, outcomes, ih]; rfl

/-- A kind whose rule holds of the arguments finds at each index what it takes from them, and takes all of
them. -/
theorem build_outcomes {kind : TypeKind} {args : List (Arg TypeExpr)}
    (h : kind = .extension ∨ kind.rule.Holds args) (name : String) (n : Nullability) :
    kind.build name (catalog.outcomes args) n =
      (catalog.resolveArgs args).map (kind.assemble name · n) := by
  by_cases hext : kind = .extension
  · subst hext
    rw [TypeKind.build, resolveArgs]
    cases Arg.collect (catalog.outcomes args) with
    | error fault => rfl
    | ok resolved =>
      rw [Except.map, TypeKind.assemble_extension]
      rfl
  cases TypeKind.takes_iff.mpr ⟨hext, h.resolve_left hext⟩ with
  | scalar kind =>
    rw [resolveArgs_nil]
    rfl
  | sized kind size =>
    rw [resolveArgs_param, resolveArgs_nil, outcomes]
    rfl
  | decimal precision scale =>
    rw [resolveArgs_param, resolveArgs_param, resolveArgs_nil, outcomes, outcomes]
    rfl
  | list element =>
    rw [resolveArgs_type, resolveArgs_nil, outcomes]
    cases catalog.resolve element <;> rfl
  | map key value =>
    rw [resolveArgs_type, resolveArgs_type, resolveArgs_nil, outcomes, outcomes]
    cases catalog.resolve key with
    | error fault => rfl
    | ok t => cases catalog.resolve value <;> rfl
  | struct types hne =>
    have hfields := Arg.mapM_typeAt name [] (types.map catalog.resolve)
    rw [List.nil_append, List.length_nil, ← List.range_eq_range'] at hfields
    rw [TypeKind.build, resolveArgs, outcomes_map_type, Arg.collect_map_type, List.length_map, hfields]
    cases (types.map catalog.resolve).mapM id with
    | error fault => rfl
    | ok fields =>
      change Except.ok _ = Except.ok (TypeKind.assemble .struct name (fields.map .type) n)
      rw [TypeKind.assemble, TypeKind.typesOf_map_type]
  | any =>
    rw [resolveArgs_nil]
    rfl

/-- An extension brings its own rule; every other name has the rule of its kind. -/
theorem rule_of_lookup? {name : String} {entry : Entry} (h : catalog.lookup? name = some entry) :
    entry.kind = .extension ∨ entry.rule = entry.kind.rule := by
  rw [lookup?] at h
  split at h
  · cases h
    exact .inr rfl
  split at h
  · cases h
    exact .inl rfl
  split at h
  · cases h
    exact .inr rfl
  · cases h

/-- Resolving checks the rule of the name and then resolves the arguments one after the other. -/
theorem resolve_eq {name : String} {entry : Entry} (hlookup : catalog.lookup? name = some entry)
    (nullable : Bool) (args : List (Arg TypeExpr)) :
    catalog.resolve ⟨name, nullable, args⟩ =
      ((entry.rule.check args).mapError (.arity name)).bind fun _ =>
        (catalog.resolveArgs args).map (entry.kind.assemble name · (.ofFlag nullable)) := by
  cases hcheck : entry.rule.check args with
  | error fault =>
    simp only [resolve, hlookup, hcheck]
    rfl
  | ok _ =>
    have hholds : entry.kind = .extension ∨ entry.kind.rule.Holds args := by
      rcases rule_of_lookup? hlookup with hext | hrule
      · exact .inl hext
      · exact .inr (hrule ▸ (entry.rule.check_eq_ok_iff args).mp hcheck)
    simp only [resolve, hlookup, hcheck, build_outcomes hholds]
    rfl

theorem resolve_eq_unknown {name : String} (hlookup : catalog.lookup? name = none) (nullable : Bool)
    (args : List (Arg TypeExpr)) : catalog.resolve ⟨name, nullable, args⟩ = .error (.unknown name) := by
  rw [resolve, hlookup]

theorem resolve_eq_ok_iff {name : String} {nullable : Bool} {args : List (Arg TypeExpr)} {t : ArgType} :
    catalog.resolve ⟨name, nullable, args⟩ = .ok t ↔
      ∃ entry resolved, catalog.lookup? name = some entry ∧ entry.rule.Holds args ∧
        catalog.resolveArgs args = .ok resolved ∧
        entry.kind.assemble name resolved (.ofFlag nullable) = t := by
  constructor
  · intro h
    cases hlookup : catalog.lookup? name with
    | none =>
      rw [resolve_eq_unknown hlookup] at h
      cases h
    | some entry =>
      rw [resolve_eq hlookup] at h
      cases hcheck : entry.rule.check args with
      | error fault =>
        rw [hcheck] at h
        cases h
      | ok _ =>
        rw [hcheck] at h
        cases hresolved : catalog.resolveArgs args with
        | error fault =>
          rw [hresolved] at h
          cases h
        | ok resolved =>
          rw [hresolved] at h
          cases h
          exact ⟨entry, resolved, rfl, (entry.rule.check_eq_ok_iff args).mp hcheck, rfl, rfl⟩
  · rintro ⟨entry, resolved, hlookup, hholds, hresolved, rfl⟩
    rw [resolve_eq hlookup, (entry.rule.check_eq_ok_iff args).mpr hholds, hresolved]
    rfl

theorem resolveArgs_param_eq_ok_iff {value : Param} {args : List (Arg TypeExpr)}
    {resolved : List (Arg ArgType)} :
    catalog.resolveArgs (.param value :: args) = .ok resolved ↔
      ∃ tail, catalog.resolveArgs args = .ok tail ∧ .param value :: tail = resolved := by
  rw [resolveArgs_param]
  cases catalog.resolveArgs args <;> simp [Except.map]

theorem resolveArgs_type_eq_ok_iff {inner : TypeExpr} {args : List (Arg TypeExpr)}
    {resolved : List (Arg ArgType)} :
    catalog.resolveArgs (.type inner :: args) = .ok resolved ↔
      ∃ t tail, catalog.resolve inner = .ok t ∧ catalog.resolveArgs args = .ok tail ∧
        .type t :: tail = resolved := by
  rw [resolveArgs_type]
  cases catalog.resolve inner with
  | error fault => simp [Except.bind]
  | ok t => cases catalog.resolveArgs args <;> simp [Except.bind, Except.map]

theorem map_isParam_of_resolveArgs {args : List (Arg TypeExpr)} {resolved : List (Arg ArgType)}
    (h : catalog.resolveArgs args = .ok resolved) : resolved.map Arg.isParam = args.map Arg.isParam := by
  induction args generalizing resolved with
  | nil =>
    rw [resolveArgs_nil] at h
    cases h
    rfl
  | cons arg args ih =>
    cases arg with
    | param value =>
      rcases resolveArgs_param_eq_ok_iff.mp h with ⟨tail, htail, rfl⟩
      rw [List.map_cons, List.map_cons, ih htail]
      rfl
    | type inner =>
      rcases resolveArgs_type_eq_ok_iff.mp h with ⟨t, tail, -, htail, rfl⟩
      rw [List.map_cons, List.map_cons, ih htail]
      rfl

theorem takes_of_resolveArgs {name : String} {entry : Entry} (hlookup : catalog.lookup? name = some entry)
    {args : List (Arg TypeExpr)} (hholds : entry.rule.Holds args) {resolved : List (Arg ArgType)}
    (hresolved : catalog.resolveArgs args = .ok resolved) :
    entry.kind = .extension ∨ entry.kind.Takes resolved := by
  by_cases hext : entry.kind = .extension
  · exact .inl hext
  · have hrule := (rule_of_lookup? hlookup).resolve_left hext
    rw [hrule, ← ArgRule.holds_congr _ (map_isParam_of_resolveArgs hresolved)] at hholds
    exact .inr (TypeKind.takes_iff.mpr ⟨hext, hholds⟩)

end Catalog

end Signatures
