import Signatures.Json.Basic
import Signatures.TypeExpr

/-!
# Signatures in JSON

A type expression is an object with its name, its mark and its arguments, which are left out where
there are none. An argument is a case `Type` or `Integer`, a parameter a case `Concrete` or `Variable`
and a signature a case `Number` or `Type`.
-/

namespace Signatures

namespace Param

def toJson : Param → Json
  | fixed value => .tagged "Concrete" (.integer value.toInt)
  | free name => .tagged "Variable" (.text name)

def ofJson? (json : Json) : Option Param := do
  match ← json.case? with
  | ("Concrete", value) => return fixed (← Text.Decimal.toInt32? (← value.integer?))
  | ("Variable", value) => return free (← value.text?)
  | _ => none

@[simp]
theorem ofJson?_toJson (p : Param) : ofJson? p.toJson = some p := by
  cases p <;> simp [toJson, ofJson?, Text.Decimal.toInt32?_toInt, Json.text?]

end Param

namespace TypeExpr

mutual

def toJson : TypeExpr → Json
  | ⟨name, nullable, args⟩ =>
    .object ([("name", .text name), ("nullable", .bool nullable)] ++
      if args.isEmpty then [] else [("args", .array (argsToJson args))])

def argsToJson : List (Arg TypeExpr) → List Json
  | [] => []
  | .type inner :: args => .tagged "Type" inner.toJson :: argsToJson args
  | .param value :: args => .tagged "Integer" value.toJson :: argsToJson args

end

mutual

def ofJson? (json : Json) : Option TypeExpr :=
  match json with
  | .object fields => do
    let name ← (← Json.field? fields "name").text?
    let nullable ← (← Json.field? fields "nullable").bool?
    let args ←
      match _h : Json.field? fields "args" with
      | none => some []
      | some (.array items) => argsOfJson? items
      | some _ => none
    return ⟨name, nullable, args⟩
  | _ => none
termination_by sizeOf json
decreasing_by
  have := Json.sizeOf_field?_lt _h
  simp only [Json.array.sizeOf_spec, Json.object.sizeOf_spec] at *
  omega

def argOfJson? (json : Json) : Option (Arg TypeExpr) :=
  match _h : json.case? with
  | some ("Type", value) => (ofJson? value).map Arg.type
  | some ("Integer", value) => (Param.ofJson? value).map Arg.param
  | _ => none
termination_by sizeOf json
decreasing_by exact Json.sizeOf_case?_lt _h

def argsOfJson? (items : List Json) : Option (List (Arg TypeExpr)) :=
  match items with
  | [] => some []
  | item :: items => do return (← argOfJson? item) :: (← argsOfJson? items)
termination_by sizeOf items

end

end TypeExpr

namespace Signature

def toJson : Signature → Json
  | number text => .tagged "Number" (.text text)
  | type expr => .tagged "Type" expr.toJson

def ofJson? (json : Json) : Option Signature := do
  match ← json.case? with
  | ("Number", value) => return number (← value.text?)
  | ("Type", value) => return type (← TypeExpr.ofJson? value)
  | _ => none

end Signature

end Signatures
