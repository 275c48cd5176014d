/-!
# JSON values

The values of JSON, and the conventions by which the types of this library are written in it: a
structure is an object with a field for each part, and a case of a sum is an object with one field,
named for the case, or, where the case holds nothing, its name alone.

The fields of an object are ordered. Reading looks for a field by its name and leaves unknown ones
aside.
-/

namespace Signatures

/-- A JSON value. A number is `mantissa` divided by ten to the power of `places`; it is an integer as
written where it has no places. -/
inductive Json where
  | null
  | bool (value : Bool)
  | number (mantissa : Int) (places : Nat)
  | text (value : String)
  | array (items : List Json)
  | object (fields : List (String × Json))
  deriving Repr, Inhabited

namespace Json

def integer (value : Int) : Json := number value 0

def tagged (tag : String) (value : Json) : Json := object [(tag, value)]

def bool? : Json → Option Bool
  | bool value => some value
  | _ => none

def integer? : Json → Option Int
  | number value 0 => some value
  | _ => none

def text? : Json → Option String
  | text value => some value
  | _ => none

def items? : Json → Option (List Json)
  | array items => some items
  | _ => none

def fields? : Json → Option (List (String × Json))
  | object fields => some fields
  | _ => none

def field? (fields : List (String × Json)) (name : String) : Option Json := fields.lookup name

/-- The case of a sum and what it holds; a case that holds nothing may be its name alone. -/
def case? : Json → Option (String × Json)
  | text tag => some (tag, null)
  | object [(tag, value)] => some (tag, value)
  | _ => none

def withLabel? {α : Type} (label : α → String) (values : List α) (text : String) : Option α :=
  values.find? fun value => label value == text

/-- The value among some whose label a JSON value is: a case that holds nothing. -/
def labelled? {α : Type} (label : α → String) (values : List α) (json : Json) : Option α := do
  match ← json.case? with
  | (tag, null) => withLabel? label values tag
  | _ => none

theorem sizeOf_field?_lt {fields : List (String × Json)} {name : String} {value : Json}
    (h : field? fields name = some value) : sizeOf value < sizeOf fields := by
  induction fields with
  | nil => cases h
  | cons head rest ih =>
    obtain ⟨key, first⟩ := head
    simp only [field?, List.lookup_cons] at h
    split at h
    · cases h
      simp only [List.cons.sizeOf_spec, Prod.mk.sizeOf_spec]
      omega
    · have := ih h
      simp only [List.cons.sizeOf_spec]
      omega

theorem sizeOf_case?_lt {json value : Json} {tag : String} (h : json.case? = some (tag, value)) :
    sizeOf value < sizeOf json := by
  unfold case? at h
  split at h
  · next tag =>
    cases h
    cases tag
    simp +arith
  · cases h
    simp only [Json.object.sizeOf_spec, List.cons.sizeOf_spec, Prod.mk.sizeOf_spec]
    omega
  · cases h

@[simp]
theorem integer?_integer (value : Int) : (integer value).integer? = some value := rfl

@[simp]
theorem case?_tagged (tag : String) (value : Json) : (tagged tag value).case? = some (tag, value) :=
  rfl

@[simp]
theorem case?_text (tag : String) : (text tag).case? = some (tag, null) := rfl

end Json

end Signatures
