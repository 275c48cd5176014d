import Mathlib.Data.List.Basic
import Signatures.Catalog.Builtin

/-!
# Which arguments keep a rule

A rule holds of arguments by their number and their kinds alone, so it holds of the arguments of a type
expression exactly if it holds of what they are resolved to. The rules of the built-in kinds say which
lists of arguments these are: each kind takes lists of one form.
-/

namespace Signatures

variable {τ σ : Type}

namespace ArgKind

theorem admits_congr (kind : ArgKind) {arg : Arg τ} {other : Arg σ} (h : arg.isParam = other.isParam) :
    kind.admits arg = kind.admits other := by
  cases kind <;> cases arg <;> cases other <;> simp_all [admits, Arg.isParam]

theorem admits_integer_iff {args : List (Arg τ)} :
    (∀ arg ∈ args, integer.admits arg = true) ↔ ∃ values : List Param, args = values.map .param := by
  constructor
  · intro h
    induction args with
    | nil => exact ⟨[], rfl⟩
    | cons arg args ih =>
      rw [List.forall_mem_cons] at h
      rcases ih h.2 with ⟨values, rfl⟩
      cases arg with
      | type inner => cases h.1
      | param value => exact ⟨value :: values, rfl⟩
  · rintro ⟨values, rfl⟩
    simp [admits]

theorem admits_type_iff {args : List (Arg τ)} :
    (∀ arg ∈ args, type.admits arg = true) ↔ ∃ types : List τ, args = types.map .type := by
  constructor
  · intro h
    induction args with
    | nil => exact ⟨[], rfl⟩
    | cons arg args ih =>
      rw [List.forall_mem_cons] at h
      rcases ih h.2 with ⟨types, rfl⟩
      cases arg with
      | type inner => exact ⟨inner :: types, rfl⟩
      | param value => cases h.1
  · rintro ⟨types, rfl⟩
    simp [admits]

end ArgKind

namespace ArgRule

/-- A rule holds of arguments if it allows their number and its kind admits each of them. -/
def Holds (rule : ArgRule) (args : List (Arg τ)) : Prop :=
  rule.allowsCount args.length = true ∧ ∀ arg ∈ args, rule.kind.admits arg = true

theorem holds_congr (rule : ArgRule) {args : List (Arg τ)} {others : List (Arg σ)}
    (h : args.map Arg.isParam = others.map Arg.isParam) : rule.Holds args ↔ rule.Holds others := by
  have hlength := congrArg List.length h
  rw [List.length_map, List.length_map] at hlength
  have hkind : (∀ arg ∈ args, rule.kind.admits arg = true) ↔
      ∀ arg ∈ others, rule.kind.admits arg = true := by
    clear hlength
    induction args generalizing others with
    | nil =>
      rw [List.map_eq_nil_iff.mp h.symm]
      simp
    | cons arg args ih =>
      rcases List.map_eq_cons_iff.mp h.symm with ⟨other, tail, rfl, hother, htail⟩
      rw [List.forall_mem_cons, List.forall_mem_cons, ih htail.symm, rule.kind.admits_congr hother]
  rw [Holds, Holds, hlength, hkind]

theorem allowsCount_eq_true_iff {rule : ArgRule} {count : Nat} :
    rule.allowsCount count = true ↔
      rule.min.toNat ≤ count ∧ ∀ max, rule.max = some max → count ≤ max.toNat := by
  rw [allowsCount]
  cases rule.max <;> simp

theorem holds_none_iff {args : List (Arg τ)} : none.Holds args ↔ args = [] := by
  cases args <;> simp [Holds, none, allowsCount]

theorem allowsCount_exactly_iff {count : UInt64} {kind : ArgKind} {found : Nat} :
    (exactly count kind).allowsCount found = true ↔ found = count.toNat := by
  rw [allowsCount_eq_true_iff]
  constructor
  · rintro ⟨hmin, hmax⟩
    exact Nat.le_antisymm (hmax count rfl) hmin
  · rintro rfl
    refine ⟨Nat.le_refl _, ?_⟩
    intro max hmax
    cases hmax
    exact Nat.le_refl _

theorem holds_params_iff {count : UInt64} {args : List (Arg τ)} :
    (exactly count .integer).Holds args ↔
      ∃ values : List Param, values.length = count.toNat ∧ args = values.map .param := by
  rw [Holds, allowsCount_exactly_iff, exactly, ArgKind.admits_integer_iff]
  constructor
  · rintro ⟨hlength, values, rfl⟩
    exact ⟨values, by rwa [List.length_map] at hlength, rfl⟩
  · rintro ⟨values, hlength, rfl⟩
    exact ⟨by rwa [List.length_map], values, rfl⟩

theorem holds_types_iff {count : UInt64} {args : List (Arg τ)} :
    (exactly count .type).Holds args ↔
      ∃ types : List τ, types.length = count.toNat ∧ args = types.map .type := by
  rw [Holds, allowsCount_exactly_iff, exactly, ArgKind.admits_type_iff]
  constructor
  · rintro ⟨hlength, types, rfl⟩
    exact ⟨types, by rwa [List.length_map] at hlength, rfl⟩
  · rintro ⟨types, hlength, rfl⟩
    exact ⟨by rwa [List.length_map], types, rfl⟩

theorem holds_some_types_iff {args : List (Arg τ)} :
    (atLeast 1 .type).Holds args ↔ ∃ types : List τ, types ≠ [] ∧ args = types.map .type := by
  have hcount : (atLeast 1 .type).allowsCount args.length = true ↔ 0 < args.length := by
    rw [allowsCount_eq_true_iff]
    simp [atLeast, Nat.one_le_iff_ne_zero, Nat.pos_iff_ne_zero]
  rw [Holds, hcount, atLeast, ArgKind.admits_type_iff]
  constructor
  · rintro ⟨hlength, types, rfl⟩
    rw [List.length_map] at hlength
    exact ⟨types, List.ne_nil_of_length_pos hlength, rfl⟩
  · rintro ⟨types, hne, rfl⟩
    refine ⟨?_, types, rfl⟩
    rw [List.length_map]
    exact List.length_pos_iff.mpr hne

end ArgRule

namespace TypeKind

/-- The arguments that a kind takes, unless it is an extension, which has a rule of its own. -/
inductive Takes : TypeKind → List (Arg τ) → Prop where
  | scalar (kind : ScalarKind) : Takes (.scalar kind) []
  | sized (kind : SizedKind) (size : Param) : Takes (.sized kind) [.param size]
  | decimal (precision scale : Param) : Takes .decimal [.param precision, .param scale]
  | list (element : τ) : Takes .list [.type element]
  | map (key value : τ) : Takes .map [.type key, .type value]
  | struct (fields : List τ) (hne : fields ≠ []) : Takes .struct (fields.map .type)
  | any : Takes .any []

theorem takes_iff {kind : TypeKind} {args : List (Arg τ)} :
    kind.Takes args ↔ kind ≠ .extension ∧ kind.rule.Holds args := by
  constructor
  · intro h
    refine ⟨by cases h <;> exact nofun, ?_⟩
    cases h with
    | scalar kind => exact ArgRule.holds_none_iff.mpr rfl
    | sized kind size => exact ArgRule.holds_params_iff.mpr ⟨[size], rfl, rfl⟩
    | decimal precision scale => exact ArgRule.holds_params_iff.mpr ⟨[precision, scale], rfl, rfl⟩
    | list element => exact ArgRule.holds_types_iff.mpr ⟨[element], rfl, rfl⟩
    | map key value => exact ArgRule.holds_types_iff.mpr ⟨[key, value], rfl, rfl⟩
    | struct fields hne => exact ArgRule.holds_some_types_iff.mpr ⟨fields, hne, rfl⟩
    | any => exact ArgRule.holds_none_iff.mpr rfl
  · rintro ⟨hkind, h⟩
    cases kind with
    | scalar kind =>
      cases ArgRule.holds_none_iff.mp h
      exact .scalar kind
    | sized kind =>
      rcases ArgRule.holds_params_iff.mp h with ⟨values, hlength, rfl⟩
      rcases List.length_eq_one_iff.mp hlength with ⟨size, rfl⟩
      exact .sized kind size
    | decimal =>
      rcases ArgRule.holds_params_iff.mp h with ⟨values, hlength, rfl⟩
      rcases List.length_eq_two.mp hlength with ⟨precision, scale, rfl⟩
      exact .decimal precision scale
    | list =>
      rcases ArgRule.holds_types_iff.mp h with ⟨types, hlength, rfl⟩
      rcases List.length_eq_one_iff.mp hlength with ⟨element, rfl⟩
      exact .list element
    | map =>
      rcases ArgRule.holds_types_iff.mp h with ⟨types, hlength, rfl⟩
      rcases List.length_eq_two.mp hlength with ⟨key, value, rfl⟩
      exact .map key value
    | struct =>
      rcases ArgRule.holds_some_types_iff.mp h with ⟨fields, hne, rfl⟩
      exact .struct fields hne
    | any =>
      cases ArgRule.holds_none_iff.mp h
      exact .any
    | extension => exact absurd rfl hkind

end TypeKind

end Signatures
