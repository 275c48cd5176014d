import Signatures.Catalog.Basic
import Signatures.Codec.ArgType

/-!
# Argument rules and extensions in JSON

The greatest number of arguments is `null` where there is none, and may be left out; so may the other
count of an extension, which then is zero.
-/

namespace Signatures

namespace ArgKind

def label : ArgKind → String
  | empty => "Empty"
  | integer => "Integer"
  | type => "Type"
  | mixed => "Mixed"

def all : List ArgKind := [empty, integer, type, mixed]

def toJson (kind : ArgKind) : Json := .text kind.label

def ofJson? : Json → Option ArgKind := Json.labelled? label all

@[simp]
theorem ofJson?_toJson (kind : ArgKind) : ofJson? kind.toJson = some kind := by cases kind <;> rfl

end ArgKind

namespace Json

def count (n : UInt64) : Json := integer n.toNat

def count? (json : Json) : Option UInt64 := do
  let n ← json.integer?
  if 0 ≤ n ∧ n ≤ 18446744073709551615 then some (.ofNat n.toNat) else none

theorem count?_integer (m : Int) :
    (integer m).count? = if 0 ≤ m ∧ m ≤ 18446744073709551615 then some (.ofNat m.toNat) else none :=
  rfl

theorem count?_count (n : UInt64) : (count n).count? = some n := by
  have h : n.toNat < 2 ^ 64 := n.toNat_lt
  have key (m : Int) (hm : m = n.toNat) (hle : m ≤ 18446744073709551615) :
      (integer m).count? = some n := by
    rw [count?_integer, if_pos ⟨by omega, hle⟩, hm, Int.toNat_natCast, UInt64.ofNat_toNat]
  exact key _ rfl (by omega)

def bound : Option UInt64 → Json
  | some n => count n
  | none => null

/-- The count in the field of a name, which may be left out or be `null`. -/
def bound? (fields : List (String × Json)) (name : String) : Option (Option UInt64) :=
  match field? fields name with
  | none | some null => some none
  | some value => value.count?.map some

end Json

namespace ArgRule

def toJson (rule : ArgRule) : Json :=
  .object [("min", Json.count rule.min), ("max", Json.bound rule.max), ("kind", rule.kind.toJson)]

def ofJson? (json : Json) : Option ArgRule := do
  let fields ← json.fields?
  let min ← (← Json.field? fields "min").count?
  let max ← Json.bound? fields "max"
  let kind ← ArgKind.ofJson? (← Json.field? fields "kind")
  return ⟨min, max, kind⟩

end ArgRule

namespace Extension

def toJson (ext : Extension) : Json :=
  .object [("name", .text ext.name), ("short_name", .text ext.shortName),
    ("min_args", Json.count ext.minArgs), ("max_args", Json.bound ext.maxArgs),
    ("arg_kind", ext.argKind.toJson)]

def ofJson? (json : Json) : Option Extension := do
  let fields ← json.fields?
  let name ← (← Json.field? fields "name").text?
  let shortName ← (← Json.field? fields "short_name").text?
  let minArgs ←
    match Json.field? fields "min_args" with
    | none => some 0
    | some value => value.count?
  let maxArgs ← Json.bound? fields "max_args"
  let argKind ← ArgKind.ofJson? (← Json.field? fields "arg_kind")
  return ⟨name, shortName, minArgs, maxArgs, argKind⟩

def listOfJson? (json : Json) : Option (List Extension) := do (← json.items?).mapM ofJson?

end Extension

end Signatures
