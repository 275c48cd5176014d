import Signatures.ArgType
import Signatures.Codec.TypeExpr

/-!
# Argument types in JSON

An argument type is a case named for its kind, which holds an object with the parts of the type; the
nullability is the last of them. The same names stand for the kinds of types in messages.
-/

namespace Signatures

namespace Nullability

def label : Nullability → String
  | required => "Required"
  | nullable => "Nullable"

def toJson (n : Nullability) : Json := .text n.label

def ofJson? : Json → Option Nullability := Json.labelled? label [required, nullable]

@[simp]
theorem ofJson?_toJson (n : Nullability) : ofJson? n.toJson = some n := by cases n <;> rfl

end Nullability

namespace ScalarKind

def label : ScalarKind → String
  | boolean => "Boolean"
  | i8 => "I8"
  | i16 => "I16"
  | i32 => "I32"
  | i64 => "I64"
  | fp32 => "Fp32"
  | fp64 => "Fp64"
  | string => "String"
  | binary => "Binary"
  | timestamp => "Timestamp"
  | timestampTz => "TimestampTz"
  | date => "Date"
  | time => "Time"
  | intervalYear => "IntervalYear"
  | intervalDay => "IntervalDay"
  | uuid => "Uuid"

def toJson (kind : ScalarKind) : Json := .text kind.label

def ofJson? : Json → Option ScalarKind := Json.labelled? label all

@[simp]
theorem ofJson?_toJson (kind : ScalarKind) : ofJson? kind.toJson = some kind := by
  cases kind <;> rfl

end ScalarKind

namespace SizedKind

def label : SizedKind → String
  | fixedChar => "FixedChar"
  | varChar => "VarChar"
  | fixedBinary => "FixedBinary"
  | timestamp => "PrecisionTimestamp"
  | timestampTz => "PrecisionTimestampTz"

def sizeField (kind : SizedKind) : String := if kind.isTimestamp then "precision" else "length"

end SizedKind

namespace TypeKind

def label : TypeKind → String
  | scalar kind => "Scalar(" ++ kind.label ++ ")"
  | sized kind => kind.label
  | decimal => "Decimal"
  | list => "List"
  | map => "Map"
  | struct => "Struct"
  | any => "Any"
  | extension => "Extension"

def toJson : TypeKind → Json
  | scalar kind => .tagged "Scalar" kind.toJson
  | kind => .text kind.label

end TypeKind

namespace TimeUnit

def label : TimeUnit → String
  | seconds => "Seconds"
  | deciSeconds => "DeciSeconds"
  | centiSeconds => "CentiSeconds"
  | milliSeconds => "MilliSeconds"
  | eMinus4Seconds => "EMinus4Seconds"
  | eMinus5Seconds => "EMinus5Seconds"
  | microSeconds => "MicroSeconds"
  | eMinus7Seconds => "EMinus7Seconds"
  | eMinus8Seconds => "EMinus8Seconds"
  | nanoSeconds => "NanoSeconds"

end TimeUnit

namespace ArgType

/-- A case with the given parts and a nullability. -/
def parts (tag : String) (fields : List (String × Json)) (n : Nullability) : Json :=
  .tagged tag (.object (fields ++ [("nullability", n.toJson)]))

mutual

def toJson : ArgType → Json
  | scalar kind n => parts "Scalar" [("kind", kind.toJson)] n
  | sized kind size n => parts kind.label [(kind.sizeField, size.toJson)] n
  | decimal precision scale n =>
    parts "Decimal" [("precision", precision.toJson), ("scale", scale.toJson)] n
  | list element n => parts "List" [("element", element.toJson)] n
  | map key value n => parts "Map" [("key", key.toJson), ("value", value.toJson)] n
  | struct fields n => parts "Struct" [("fields", .array (fieldsToJson fields))] n
  | any n => parts "Any" [] n
  | extension name args n =>
    parts "Extension" [("name", .text name), ("args", .array (argsToJson args))] n

def fieldsToJson : List ArgType → List Json
  | [] => []
  | field :: fields => field.toJson :: fieldsToJson fields

def argsToJson : List (Arg ArgType) → List Json
  | [] => []
  | .type inner :: args => .tagged "Type" inner.toJson :: argsToJson args
  | .param value :: args => .tagged "Integer" value.toJson :: argsToJson args

end

/-- The parts of a type that hold no other type, where its case has the given name. -/
def flatOfJson? (tag : String) (fields : List (String × Json)) (n : Nullability) : Option ArgType :=
  match tag with
  | "Scalar" => do return scalar (← ScalarKind.ofJson? (← Json.field? fields "kind")) n
  | "Decimal" => do
    let precision ← Param.ofJson? (← Json.field? fields "precision")
    let scale ← Param.ofJson? (← Json.field? fields "scale")
    return decimal precision scale n
  | "Any" => some (any n)
  | tag => do
    let kind ← Json.withLabel? SizedKind.label SizedKind.all tag
    return sized kind (← Param.ofJson? (← Json.field? fields kind.sizeField)) n

mutual

def ofJson? (json : Json) : Option ArgType :=
  match _h : json.case? with
  | some (tag, .object fields) => do
    let n ← Nullability.ofJson? (← Json.field? fields "nullability")
    match tag with
    | "List" => return list (← fieldOfJson? fields "element") n
    | "Map" =>
      let key ← fieldOfJson? fields "key"
      return map key (← fieldOfJson? fields "value") n
    | "Struct" =>
      match _h : Json.field? fields "fields" with
      | some (.array items) => return struct (← fieldsOfJson? items) n
      | _ => none
    | "Extension" =>
      let name ← (← Json.field? fields "name").text?
      match _h : Json.field? fields "args" with
      | some (.array items) => return extension name (← argsOfJson? items) n
      | _ => none
    | tag => flatOfJson? tag fields n
  | _ => none
termination_by (sizeOf json, 0)
decreasing_by
  all_goals
    have hcase := Json.sizeOf_case?_lt ‹_›
    simp only [Json.object.sizeOf_spec] at hcase
  · exact .left _ _ (by omega)
  · exact .left _ _ (by omega)
  · exact .left _ _ (by omega)
  · have := Json.sizeOf_field?_lt _h
    simp only [Json.array.sizeOf_spec] at this
    exact .left _ _ (by omega)
  · have := Json.sizeOf_field?_lt _h
    simp only [Json.array.sizeOf_spec] at this
    exact .left _ _ (by omega)

/-- The type in the field of a name. -/
def fieldOfJson? (fields : List (String × Json)) (name : String) : Option ArgType :=
  match _h : Json.field? fields name with
  | some value => ofJson? value
  | none => none
termination_by (sizeOf fields, 1)
decreasing_by exact .left _ _ (Json.sizeOf_field?_lt _h)

def fieldsOfJson? (items : List Json) : Option (List ArgType) :=
  match items with
  | [] => some []
  | item :: items => do return (← ofJson? item) :: (← fieldsOfJson? items)
termination_by (sizeOf items, 0)

def argOfJson? (json : Json) : Option (Arg ArgType) :=
  match _h : json.case? with
  | some ("Type", value) => (ofJson? value).map Arg.type
  | some ("Integer", value) => (Param.ofJson? value).map Arg.param
  | _ => none
termination_by (sizeOf json, 0)
decreasing_by exact .left _ _ (Json.sizeOf_case?_lt _h)

def argsOfJson? (items : List Json) : Option (List (Arg ArgType)) :=
  match items with
  | [] => some []
  | item :: items => do return (← argOfJson? item) :: (← argsOfJson? items)
termination_by (sizeOf items, 0)

end

end ArgType

end Signatures
