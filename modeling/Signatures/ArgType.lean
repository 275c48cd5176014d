import Signatures.TypeExpr

/-!
# Argument types

An argument type is what a type expression denotes once its names are known: a scalar, a type of
some size or precision, a container, the wildcard or an extension. Variables stay in it as they are.
-/

namespace Signatures

/-- Whether the values of a type may be missing. -/
inductive Nullability where
  | required
  | nullable
  deriving DecidableEq, Repr

namespace Nullability

def ofFlag : Bool → Nullability
  | true => nullable
  | false => required

def flag : Nullability → Bool
  | nullable => true
  | required => false

@[simp]
theorem flag_ofFlag (b : Bool) : (ofFlag b).flag = b := by cases b <;> rfl

end Nullability

inductive ScalarKind where
  | boolean
  | i8
  | i16
  | i32
  | i64
  | fp32
  | fp64
  | string
  | binary
  | timestamp
  | timestampTz
  | date
  | time
  | intervalYear
  | intervalDay
  | uuid
  deriving DecidableEq, Repr

namespace ScalarKind

def name : ScalarKind → String
  | boolean => "boolean"
  | i8 => "i8"
  | i16 => "i16"
  | i32 => "i32"
  | i64 => "i64"
  | fp32 => "fp32"
  | fp64 => "fp64"
  | string => "string"
  | binary => "binary"
  | timestamp => "timestamp"
  | timestampTz => "timestamp_tz"
  | date => "date"
  | time => "time"
  | intervalYear => "interval_year"
  | intervalDay => "interval_day"
  | uuid => "uuid"

def all : List ScalarKind :=
  [boolean, i8, i16, i32, i64, fp32, fp64, string, binary, timestamp, timestampTz, date, time,
    intervalYear, intervalDay, uuid]

end ScalarKind

/-- The types with one parameter: a length, or the precision of a point in time. -/
inductive SizedKind where
  | fixedChar
  | varChar
  | fixedBinary
  | timestamp
  | timestampTz
  deriving DecidableEq, Repr

namespace SizedKind

def name : SizedKind → String
  | fixedChar => "fixedchar"
  | varChar => "varchar"
  | fixedBinary => "fixedbinary"
  | timestamp => "precision_timestamp"
  | timestampTz => "precision_timestamp_tz"

def isTimestamp : SizedKind → Bool
  | timestamp | timestampTz => true
  | _ => false

def all : List SizedKind := [fixedChar, varChar, fixedBinary, timestamp, timestampTz]

end SizedKind

inductive TypeKind where
  | scalar (kind : ScalarKind)
  | sized (kind : SizedKind)
  | decimal
  | list
  | map
  | struct
  | any
  | extension
  deriving DecidableEq, Repr

/-- The unit in which a timestamp of some precision counts, from seconds to nanoseconds. -/
inductive TimeUnit where
  | seconds
  | deciSeconds
  | centiSeconds
  | milliSeconds
  | eMinus4Seconds
  | eMinus5Seconds
  | microSeconds
  | eMinus7Seconds
  | eMinus8Seconds
  | nanoSeconds
  deriving DecidableEq, Repr

namespace TimeUnit

def all : List TimeUnit :=
  [seconds, deciSeconds, centiSeconds, milliSeconds, eMinus4Seconds, eMinus5Seconds, microSeconds,
    eMinus7Seconds, eMinus8Seconds, nanoSeconds]

/-- The unit of a precision: the number of decimal places of a second, up to nine. -/
def ofPrecision? (precision : Int32) : Option TimeUnit :=
  if precision < 0 then none else all[precision.toInt.toNat]?

def precision (timeUnit : TimeUnit) : Nat := all.idxOf timeUnit

end TimeUnit

/-- What a type expression denotes. -/
inductive ArgType where
  | scalar (kind : ScalarKind) (nullability : Nullability)
  | sized (kind : SizedKind) (size : Param) (nullability : Nullability)
  | decimal (precision scale : Param) (nullability : Nullability)
  | list (element : ArgType) (nullability : Nullability)
  | map (key value : ArgType) (nullability : Nullability)
  | struct (fields : List ArgType) (nullability : Nullability)
  | any (nullability : Nullability)
  | extension (name : String) (args : List (Arg ArgType)) (nullability : Nullability)
  deriving Repr

namespace ArgType

def kind : ArgType → TypeKind
  | scalar kind _ => .scalar kind
  | sized kind _ _ => .sized kind
  | decimal .. => .decimal
  | list .. => .list
  | map .. => .map
  | struct .. => .struct
  | any _ => .any
  | extension .. => .extension

def nullability : ArgType → Nullability
  | scalar _ n | sized _ _ n | decimal _ _ n | list _ n | map _ _ n | struct _ n | any n
  | extension _ _ n => n

/-- The same type with another nullability; the types inside it keep theirs. -/
def withNullability (n : Nullability) : ArgType → ArgType
  | scalar kind _ => scalar kind n
  | sized kind size _ => sized kind size n
  | decimal precision scale _ => decimal precision scale n
  | list element _ => list element n
  | map key value _ => map key value n
  | struct fields _ => struct fields n
  | any _ => any n
  | extension name args _ => extension name args n

/-- The unit of a timestamp whose precision is a number that has one. -/
def timeUnit? : ArgType → Option TimeUnit
  | sized kind size _ => if kind.isTimestamp then size.value?.bind TimeUnit.ofPrecision? else none
  | _ => none

mutual

/-- The variables of a type in the order of its text, each as often as it occurs. -/
def vars : ArgType → List String
  | scalar _ _ => []
  | sized _ size _ => size.vars
  | decimal precision scale _ => precision.vars ++ scale.vars
  | list element _ => element.vars
  | map key value _ => key.vars ++ value.vars
  | struct fields _ => fieldVars fields
  | any _ => []
  | extension _ args _ => argVars args

def fieldVars : List ArgType → List String
  | [] => []
  | field :: fields => field.vars ++ fieldVars fields

def argVars : List (Arg ArgType) → List String
  | [] => []
  | .param value :: args => value.vars ++ argVars args
  | .type inner :: args => inner.vars ++ argVars args

end

mutual

def render : ArgType → String
  | scalar kind n => headed kind.name n.flag
  | sized kind size n => headed kind.name n.flag ++ bracketed "," [size.render]
  | decimal precision scale n =>
    headed "decimal" n.flag ++ bracketed "," [precision.render, scale.render]
  | list element n => headed "list" n.flag ++ bracketed ", " [element.render]
  | map key value n => headed "map" n.flag ++ bracketed ", " [key.render, value.render]
  | struct fields n => headed "struct" n.flag ++ bracketed ", " (renderFields fields)
  | any n => headed "any" n.flag
  | extension name args n =>
    match args with
    | [] => headed name n.flag
    | args@(_ :: _) => headed name n.flag ++ bracketed (Arg.separator args) (renderArgs args)

def renderFields : List ArgType → List String
  | [] => []
  | field :: fields => field.render :: renderFields fields

def renderArgs : List (Arg ArgType) → List String
  | [] => []
  | .param value :: args => value.render :: renderArgs args
  | .type inner :: args => inner.render :: renderArgs args

end

end ArgType

end Signatures
