import Signatures.Text.Decimal

/-!
# Type expressions

A type expression is a name, a mark that says whether its values may be missing, and a list of
arguments. An argument is a type expression of its own or an integer parameter. A signature is a
type expression or a number that stands alone.

`TypeExpr.render` is the canonical text: parameters alone are separated by a comma, and as soon as
one argument is a type by a comma and a space.
-/

namespace Signatures

/-- An integer parameter: a fixed number, or a free variable that stands for one. -/
inductive Param where
  | fixed (value : Int32)
  | free (name : String)
  deriving DecidableEq, Repr

namespace Param

def render : Param → String
  | fixed value => Text.Decimal.ofInt32 value
  | free name => name

def value? : Param → Option Int32
  | fixed value => some value
  | free _ => none

def isVariable : Param → Bool
  | fixed _ => false
  | free _ => true

def vars : Param → List String
  | fixed _ => []
  | free name => [name]

end Param

/-- An argument in a list of arguments: a type, in the form `τ` that types have here, or an integer
parameter. -/
inductive Arg (τ : Type) where
  | type (inner : τ)
  | param (value : Param)
  deriving DecidableEq, Repr

namespace Arg

variable {τ : Type}

def isParam : Arg τ → Bool
  | type _ => false
  | param _ => true

def type? : Arg τ → Option τ
  | type inner => some inner
  | param _ => none

def param? : Arg τ → Option Param
  | type _ => none
  | param value => some value

/-- What stands between two arguments of a list: a list of parameters is written without spaces. -/
def separator (args : List (Arg τ)) : String :=
  if args.all isParam then "," else ", "

end Arg

def bracketed (separator : String) (items : List String) : String :=
  "<" ++ separator.intercalate items ++ ">"

def headed (name : String) (nullable : Bool) : String :=
  if nullable then name ++ "?" else name

/-- A type as it is written: a name, a mark and arguments. -/
structure TypeExpr where
  name : String
  nullable : Bool
  args : List (Arg TypeExpr)
  deriving Repr

namespace TypeExpr

def bare (name : String) (nullable : Bool) : TypeExpr := ⟨name, nullable, []⟩

mutual

def decideEq : (s t : TypeExpr) → Decidable (s = t)
  | ⟨name, nullable, args⟩, ⟨name', nullable', args'⟩ =>
    match decEq name name', decEq nullable nullable', decideEqArgs args args' with
    | .isTrue hn, .isTrue hm, .isTrue ha => .isTrue (by rw [hn, hm, ha])
    | .isFalse h, _, _ => .isFalse fun e => h (congrArg TypeExpr.name e)
    | _, .isFalse h, _ => .isFalse fun e => h (congrArg TypeExpr.nullable e)
    | _, _, .isFalse h => .isFalse fun e => h (congrArg TypeExpr.args e)

def decideEqArgs : (as bs : List (Arg TypeExpr)) → Decidable (as = bs)
  | [], [] => .isTrue rfl
  | [], _ :: _ => .isFalse nofun
  | _ :: _, [] => .isFalse nofun
  | a :: as, b :: bs =>
    match decideEqArg a b, decideEqArgs as bs with
    | .isTrue h, .isTrue hs => .isTrue (by rw [h, hs])
    | .isFalse h, _ => .isFalse fun e => h (List.cons.inj e).1
    | _, .isFalse h => .isFalse fun e => h (List.cons.inj e).2

def decideEqArg : (a b : Arg TypeExpr) → Decidable (a = b)
  | .type s, .type t =>
    match decideEq s t with
    | .isTrue h => .isTrue (by rw [h])
    | .isFalse h => .isFalse fun e => h (Arg.type.inj e)
  | .param p, .param q =>
    if h : p = q then .isTrue (by rw [h]) else .isFalse fun e => h (Arg.param.inj e)
  | .type _, .param _ => .isFalse nofun
  | .param _, .type _ => .isFalse nofun

end

instance : DecidableEq TypeExpr := decideEq

mutual

def render : TypeExpr → String
  | ⟨name, nullable, args⟩ =>
    match args with
    | [] => headed name nullable
    | args@(_ :: _) => headed name nullable ++ bracketed (Arg.separator args) (renderArgs args)

def renderArgs : List (Arg TypeExpr) → List String
  | [] => []
  | arg :: args => renderArg arg :: renderArgs args

def renderArg : Arg TypeExpr → String
  | .type inner => inner.render
  | .param value => value.render

end

end TypeExpr

/-- What a text denotes: a number that stands alone, kept as it was written, or a type. -/
inductive Signature where
  | number (text : String)
  | type (expr : TypeExpr)
  deriving DecidableEq, Repr

namespace Signature

def render : Signature → String
  | number text => text
  | type expr => expr.render

def type? : Signature → Option TypeExpr
  | number _ => none
  | type expr => some expr

end Signature

end Signatures
