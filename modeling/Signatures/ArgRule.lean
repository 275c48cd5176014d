import Signatures.TypeExpr

/-!
# Argument rules

Every type says how many arguments it takes and of what kind. The count is checked before the kind,
and the first argument of the wrong kind is the one reported.
-/

namespace Signatures

inductive ArgKind where
  | empty
  | integer
  | type
  | mixed
  deriving DecidableEq, Repr

/-- The number of arguments, at least `min` and at most `max` if given, and their kind. -/
structure ArgRule where
  min : UInt64
  max : Option UInt64
  kind : ArgKind
  deriving DecidableEq, Repr

inductive ArityFault where
  | count (rule : ArgRule) (found : Nat)
  /-- The argument of the given index is a type where a parameter belongs. -/
  | wantsParam (index : Nat) (found : TypeExpr)
  /-- The argument of the given index is a parameter where a type belongs. -/
  | wantsType (index : Nat) (found : Param)
  | missingParam (index : Nat)
  | missingType (index : Nat)
  deriving DecidableEq, Repr

namespace ArgKind

def noun : ArgKind → String
  | empty | mixed => "argument"
  | integer => "integer parameter"
  | type => "type argument"

def nouns (kind : ArgKind) (count : UInt64) : String :=
  if count = 1 then kind.noun else kind.noun ++ "s"

def admits {τ : Type} : ArgKind → Arg τ → Bool
  | integer, .type _ => false
  | type, .param _ => false
  | _, _ => true

end ArgKind

namespace ArgRule

def none : ArgRule := ⟨0, some 0, .empty⟩

def exactly (count : UInt64) (kind : ArgKind) : ArgRule := ⟨count, some count, kind⟩

def atLeast (count : UInt64) (kind : ArgKind) : ArgRule := ⟨count, Option.none, kind⟩

def allowsCount (rule : ArgRule) (count : Nat) : Bool :=
  rule.min.toNat ≤ count && rule.max.all fun max => count ≤ max.toNat

def countText (rule : ArgRule) : String :=
  match rule.kind, rule.max with
  | .empty, _ => "no arguments"
  | kind, Option.none => s!"at least {rule.min.toNat} {kind.nouns rule.min}"
  | kind, some max =>
    if max = 0 then "no arguments"
    else if max = rule.min then s!"exactly {max.toNat} {kind.nouns max}"
    else s!"between {rule.min.toNat} and {max.toNat} {kind.nouns max}"

/-- The first argument of the wrong kind, where the list starts at the given index. -/
def mismatch? (kind : ArgKind) (index : Nat) : List (Arg TypeExpr) → Option ArityFault
  | [] => .none
  | arg :: args =>
    match kind, arg with
    | .integer, .type inner => some (.wantsParam index inner)
    | .type, .param value => some (.wantsType index value)
    | _, _ => mismatch? kind (index + 1) args

def check (rule : ArgRule) (args : List (Arg TypeExpr)) : Except ArityFault Unit :=
  if rule.allowsCount args.length then
    match mismatch? rule.kind 0 args with
    | .none => .ok ()
    | some fault => .error fault
  else .error (.count rule args.length)

theorem mismatch?_eq_none_iff (kind : ArgKind) (index : Nat) (args : List (Arg TypeExpr)) :
    mismatch? kind index args = Option.none ↔ ∀ arg ∈ args, kind.admits arg = true := by
  induction args generalizing index with
  | nil => simp [mismatch?]
  | cons arg args ih => cases kind <;> cases arg <;> simp [mismatch?, ArgKind.admits, ih]

/-- A list passes exactly when the rule allows its length and the kind admits its arguments. -/
theorem check_eq_ok_iff (rule : ArgRule) (args : List (Arg TypeExpr)) :
    rule.check args = .ok () ↔
      rule.allowsCount args.length = true ∧ ∀ arg ∈ args, rule.kind.admits arg = true := by
  rw [← mismatch?_eq_none_iff rule.kind 0]
  unfold check
  split
  · next h => split <;> simp_all
  · next h => simp [h]

end ArgRule

namespace ArityFault

/-- The wording of a fault, to follow the name of the type. -/
def message : ArityFault → String
  | count rule found => s!"expects {rule.countText}, found {found}"
  | wantsParam index found =>
    s!"argument {index + 1} must be an integer parameter, found type `{found.render}`"
  | wantsType index found =>
    s!"argument {index + 1} must be a type, found integer parameter `{found.render}`"
  | missingParam index => s!"argument {index + 1} must be an integer parameter"
  | missingType index => s!"argument {index + 1} must be a type"

end ArityFault

end Signatures
