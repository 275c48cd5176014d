import Signatures.ArgRule
import Signatures.ArgType

/-!
# Built-in types

Every built-in type has a name, a short name and a kind; the kind alone says which arguments it takes.
-/

namespace Signatures

/-- The arguments that a built-in type of a kind takes. Extensions bring their own rule. -/
def TypeKind.rule : TypeKind → ArgRule
  | scalar _ | any | extension => .none
  | sized _ => .exactly 1 .integer
  | decimal => .exactly 2 .integer
  | list => .exactly 1 .type
  | map => .exactly 2 .type
  | struct => .atLeast 1 .type

/-- What a catalog says about a name. -/
structure Entry where
  shortName : String
  kind : TypeKind
  rule : ArgRule
  deriving DecidableEq, Repr

structure Builtin where
  name : String
  shortName : String
  kind : TypeKind
  deriving DecidableEq, Repr

namespace Builtin

def entry (type : Builtin) : Entry := ⟨type.shortName, type.kind, type.kind.rule⟩

def table : List Builtin := [
  ⟨"boolean", "bool", .scalar .boolean⟩,
  ⟨"i8", "i8", .scalar .i8⟩,
  ⟨"i16", "i16", .scalar .i16⟩,
  ⟨"i32", "i32", .scalar .i32⟩,
  ⟨"i64", "i64", .scalar .i64⟩,
  ⟨"fp32", "fp32", .scalar .fp32⟩,
  ⟨"fp64", "fp64", .scalar .fp64⟩,
  ⟨"string", "str", .scalar .string⟩,
  ⟨"binary", "vbin", .scalar .binary⟩,
  ⟨"timestamp", "ts", .scalar .timestamp⟩,
  ⟨"timestamp_tz", "tstz", .scalar .timestampTz⟩,
  ⟨"date", "date", .scalar .date⟩,
  ⟨"time", "time", .scalar .time⟩,
  ⟨"interval_year", "iyear", .scalar .intervalYear⟩,
  ⟨"interval_day", "iday", .scalar .intervalDay⟩,
  ⟨"uuid", "uuid", .scalar .uuid⟩,
  ⟨"fixedchar", "fchar", .sized .fixedChar⟩,
  ⟨"varchar", "vchar", .sized .varChar⟩,
  ⟨"fixedbinary", "fbin", .sized .fixedBinary⟩,
  ⟨"decimal", "dec", .decimal⟩,
  ⟨"precision_timestamp", "prets", .sized .timestamp⟩,
  ⟨"precision_timestamp_tz", "pretstz", .sized .timestampTz⟩,
  ⟨"list", "list", .list⟩,
  ⟨"map", "map", .map⟩,
  ⟨"struct", "struct", .struct⟩,
  ⟨"any", "any", .any⟩]

def find? (name : String) : Option Builtin := table.find? fun type => type.name == name

end Builtin

end Signatures
