import Signatures.Proofs.Signature.WellFormed

/-!
# The variables of a signature

The variables of a signature are the names among its parameters. Where more names are known as types, a
shape stands for the same signature exactly if none of these names is a variable of it. So only the known
names that are identifiers matter for what a text means.
-/

namespace Signatures

open Text

namespace TypeExpr

mutual

/-- The variables of a type in the order of its text, each as often as it occurs. -/
def vars : TypeExpr → List String
  | ⟨_, _, args⟩ => varsOfArgs args

def varsOfArgs : List (Arg TypeExpr) → List String
  | [] => []
  | arg :: args => varsOfArg arg ++ varsOfArgs args

def varsOfArg : Arg TypeExpr → List String
  | .type inner => inner.vars
  | .param value => value.vars

end

end TypeExpr

def Signature.vars : Signature → List String
  | number _ => []
  | type expr => expr.vars

namespace TypeExpr

variable {known : String → Bool} {name : String}

mutual

theorem wellFormed_of_mem_vars : (expr : TypeExpr) → expr.WellFormed known → name ∈ expr.vars →
    (Param.free name).WellFormed known
  | ⟨_, _, args⟩, h, hname => by
    rw [WellFormed] at h
    rw [vars] at hname
    exact wellFormed_of_mem_varsOfArgs args h.2.2 hname

theorem wellFormed_of_mem_varsOfArgs : (args : List (Arg TypeExpr)) → WellFormedArgs known args →
    name ∈ varsOfArgs args → (Param.free name).WellFormed known
  | [], _, hname => by
    rw [varsOfArgs] at hname
    cases hname
  | arg :: args, h, hname => by
    rw [WellFormedArgs] at h
    rw [varsOfArgs] at hname
    rcases List.mem_append.mp hname with hname | hname
    · exact wellFormed_of_mem_varsOfArg arg h.1 hname
    · exact wellFormed_of_mem_varsOfArgs args h.2 hname

theorem wellFormed_of_mem_varsOfArg : (arg : Arg TypeExpr) → WellFormedArg known arg →
    name ∈ varsOfArg arg → (Param.free name).WellFormed known
  | .type inner, h, hname => by
    rw [WellFormedArg] at h
    rw [varsOfArg] at hname
    exact wellFormed_of_mem_vars inner h hname
  | .param (.fixed _), _, hname => by
    rw [varsOfArg] at hname
    cases hname
  | .param (.free free), h, hname => by
    rw [WellFormedArg] at h
    rw [varsOfArg, Param.vars, List.mem_singleton] at hname
    exact hname ▸ h

end

end TypeExpr

theorem Signature.WellFormed.of_mem_vars {known : String → Bool} {s : Signature} {name : String}
    (h : s.WellFormed known) (hname : name ∈ s.vars) : (Param.free name).WellFormed known := by
  cases s with
  | number text => cases hname
  | type expr =>
    rcases expr with ⟨head, nullable, args⟩
    exact TypeExpr.wellFormed_of_mem_varsOfArgs args h.2 (by simpa [vars, TypeExpr.vars] using hname)

namespace Shape

open TypeExpr (varsOfArg varsOfArgs)

variable {known other : String → Bool}

mutual

theorem arg_eq_iff (h : ∀ name, known name = true → other name = true) : (shape : Shape) →
    (shape.arg other = shape.arg known ↔ ∀ name ∈ varsOfArg (shape.arg known), other name = false)
  | ⟨.literal l, false, []⟩ => by simp [arg, varsOfArg, Param.vars]
  | ⟨.name n, false, []⟩ => by
    cases hknown : known n with
    | true => simp [arg, hknown, h n hknown, varsOfArg, TypeExpr.bare, TypeExpr.vars, varsOfArgs]
    | false => cases hother : other n <;> simp [arg, hknown, hother, varsOfArg, Param.vars]
  | ⟨a, true, shapes⟩ => by
    rw [arg_of_marked_or_listed other a (.inl rfl), arg_of_marked_or_listed known a (.inl rfl)]
    simpa [varsOfArg, TypeExpr.vars] using argsOf_eq_iff h shapes
  | ⟨a, nullable, first :: shapes⟩ => by
    have hlisted : first :: shapes ≠ [] := List.cons_ne_nil _ _
    rw [arg_of_marked_or_listed other a (.inr hlisted), arg_of_marked_or_listed known a (.inr hlisted)]
    simpa [varsOfArg, TypeExpr.vars] using argsOf_eq_iff h (first :: shapes)

theorem argsOf_eq_iff (h : ∀ name, known name = true → other name = true) : (shapes : List Shape) →
    (argsOf other shapes = argsOf known shapes ↔
      ∀ name ∈ varsOfArgs (argsOf known shapes), other name = false)
  | [] => by simp [argsOf, varsOfArgs]
  | shape :: shapes => by
    rw [argsOf, argsOf, varsOfArgs, List.cons.injEq, arg_eq_iff h shape, argsOf_eq_iff h shapes,
      List.forall_mem_append]

end

/-- A shape stands for the same signature where more names are known, unless one of them is a variable of
it. -/
theorem signature_eq_iff (h : ∀ name, known name = true → other name = true) (shape : Shape) :
    shape.signature other = shape.signature known ↔
      ∀ name ∈ (shape.signature known).vars, other name = false := by
  unfold signature
  split
  · simp [Signature.vars]
  · simpa [Signature.vars, TypeExpr.vars] using argsOf_eq_iff h _

def identifiersOf (known : String → Bool) (name : String) : Bool := known name && isIdentifier name.toList

theorem namesAreIdentifiers_identifiersOf (known : String → Bool) :
    NamesAreIdentifiers (identifiersOf known) := by
  intro name h
  exact (Bool.and_eq_true_iff.mp h).2

/-- A shape whose names are identifiers means the same where all other names are unknown. -/
theorem signature_identifiersOf {shape : Shape} (halone : shape.standsAlone = true)
    (h : ∀ token ∈ shape.tokens, token.Written) :
    shape.signature (identifiersOf known) = shape.signature known := by
  have hknown : ∀ name, identifiersOf known name = true → known name = true :=
    fun name hname => (Bool.and_eq_true_iff.mp hname).1
  refine ((signature_eq_iff hknown shape).mpr ?_).symm
  intro name hname
  rcases (wellFormed_signature halone h).of_mem_vars hname with ⟨hidentifier, hunknown⟩
  rwa [identifiersOf, hidentifier, Bool.and_true] at hunknown

end Shape

end Signatures
