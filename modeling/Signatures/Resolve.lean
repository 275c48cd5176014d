import Signatures.Catalog.Basic

/-!
# Resolving type expressions

A catalog resolves a type expression to the argument type that it denotes. Every expression in it must
have a known name and arguments that keep the rule of that name. Then the kind of the name takes what it
needs from its arguments, by their indices or all of them, and each of these is resolved in turn.
-/

namespace Signatures

/-- Why a type expression denotes no argument type. -/
inductive ResolveFault where
  | unknown (name : String)
  | arity (name : String) (fault : ArityFault)
  deriving DecidableEq, Repr

namespace Arg

/-- What an argument denotes by itself: a parameter denotes itself, and a type an argument type unless
there is a fault in it. -/
abbrev Outcome := Arg (Except ResolveFault ArgType)

def paramAt (name : String) (args : List Outcome) (index : Nat) : Except ResolveFault Param :=
  match args[index]? with
  | some (.param value) => .ok value
  | _ => .error (.arity name (.missingParam index))

def typeAt (name : String) (args : List Outcome) (index : Nat) : Except ResolveFault ArgType :=
  match args[index]? with
  | some (.type outcome) => outcome
  | _ => .error (.arity name (.missingType index))

/-- All that arguments denote, or the first fault in them. -/
def collect : List Outcome → Except ResolveFault (List (Arg ArgType))
  | [] => .ok []
  | .param value :: args => return .param value :: (← collect args)
  | .type outcome :: args => return .type (← outcome) :: (← collect args)

end Arg

namespace TypeKind

open Arg (paramAt typeAt collect)

/-- The argument type of a kind, with the parameters and types that the kind takes from its arguments.
Only an extension takes them whatever they are. -/
def build (kind : TypeKind) (name : String) (args : List Arg.Outcome) (n : Nullability) :
    Except ResolveFault ArgType :=
  match kind with
  | scalar kind => return .scalar kind n
  | sized kind => return .sized kind (← paramAt name args 0) n
  | decimal => return .decimal (← paramAt name args 0) (← paramAt name args 1) n
  | list => return .list (← typeAt name args 0) n
  | map => return .map (← typeAt name args 0) (← typeAt name args 1) n
  | struct => return .struct (← (List.range args.length).mapM (typeAt name args)) n
  | any => return .any n
  | extension => return .extension name (← collect args) n

end TypeKind

namespace Catalog

mutual

/-- The argument type that a type expression denotes. -/
def resolve (catalog : Catalog) : TypeExpr → Except ResolveFault ArgType
  | ⟨name, nullable, args⟩ =>
    match catalog.lookup? name with
    | none => .error (.unknown name)
    | some entry =>
      match entry.rule.check args with
      | .error fault => .error (.arity name fault)
      | .ok () => entry.kind.build name (catalog.outcomes args) (.ofFlag nullable)

def outcomes (catalog : Catalog) : List (Arg TypeExpr) → List Arg.Outcome
  | [] => []
  | .param value :: args => .param value :: catalog.outcomes args
  | .type inner :: args => .type (catalog.resolve inner) :: catalog.outcomes args

end

/-- The short name of a type expression; its arguments do not matter. -/
def shortName (catalog : Catalog) (name : String) : Except ResolveFault String :=
  match catalog.lookup? name with
  | some entry => .ok entry.shortName
  | none => .error (.unknown name)

def ruleOf (catalog : Catalog) (name : String) : Except ResolveFault ArgRule :=
  match catalog.lookup? name with
  | some entry => .ok entry.rule
  | none => .error (.unknown name)

end Catalog

end Signatures
