import Signatures.Codec.Catalog

/-!
# Decoding undoes encoding

Signatures, argument types and extensions are read from JSON as they were written, so different ones are written
differently. The arguments of a type expression are written exactly where there are some; they are read as none
where they have been left out.
-/

namespace Signatures

namespace Json

@[simp]
theorem field?_nil (name : String) : field? [] name = none := rfl

@[simp]
theorem field?_cons (key : String) (value : Json) (fields : List (String × Json)) (name : String) :
    field? ((key, value) :: fields) name = if name = key then some value else field? fields name := by
  rw [field?, List.lookup_cons]
  by_cases h : name = key
  · rw [if_pos h, beq_iff_eq.mpr h]
  · rw [if_neg h, beq_false_of_ne h, field?]

@[simp]
theorem text?_text (value : String) : (text value).text? = some value := rfl

@[simp]
theorem bool?_bool (value : Bool) : (bool value).bool? = some value := rfl

end Json

namespace TypeExpr

theorem argOfJson?_type (value : Json) :
    argOfJson? (.tagged "Type" value) = (ofJson? value).map Arg.type := by
  rw [argOfJson?]
  rfl

theorem argOfJson?_param (value : Json) :
    argOfJson? (.tagged "Integer" value) = (Param.ofJson? value).map Arg.param := by
  rw [argOfJson?]
  rfl

theorem exists_toJson (expr : TypeExpr) : ∃ fields, expr.toJson = .object fields ∧
    Json.field? fields "name" = some (.text expr.name) ∧
    Json.field? fields "nullable" = some (.bool expr.nullable) ∧
    Json.field? fields "args" = if expr.args = [] then none else some (.array (argsToJson expr.args)) := by
  rcases expr with ⟨name, nullable, args⟩
  refine ⟨_, toJson.eq_1 name nullable args, ?_⟩
  cases args <;> simp

theorem ofJson?_object {fields : List (String × Json)} {name : String} {nullable : Bool}
    {args : List (Arg TypeExpr)} (hname : Json.field? fields "name" = some (.text name))
    (hnullable : Json.field? fields "nullable" = some (.bool nullable))
    (hargs : Json.field? fields "args" = none ∧ args = [] ∨
      ∃ items, Json.field? fields "args" = some (.array items) ∧ argsOfJson? items = some args) :
    ofJson? (.object fields) = some ⟨name, nullable, args⟩ := by
  rw [ofJson?, hname, hnullable]
  simp only [Option.bind_eq_bind, Option.bind_some, Json.text?_text, Json.bool?_bool]
  rcases hargs with ⟨hnone, rfl⟩ | ⟨items, hsome, hitems⟩
  · split
    · rfl
    · next heq => cases hnone.symm.trans heq
    · next heq => cases hnone.symm.trans heq
  · split
    · next heq => cases hsome.symm.trans heq
    · next items' heq =>
      cases hsome.symm.trans heq
      rw [hitems]
      rfl
    · next hne heq =>
      cases hsome.symm.trans heq
      exact absurd rfl (hne items)

-- What is read recurs on JSON values, what is written on types; the induction is on the types.
mutual

@[simp]
theorem ofJson?_toJson : (expr : TypeExpr) → ofJson? expr.toJson = some expr
  | ⟨name, nullable, args⟩ => by
    have hargs := argsOfJson?_argsToJson args
    rcases exists_toJson ⟨name, nullable, args⟩ with ⟨fields, heq, hname, hnullable, hwritten⟩
    rw [heq]
    by_cases hnil : args = []
    · exact ofJson?_object hname hnullable (.inl ⟨by rw [hwritten, if_pos hnil], hnil⟩)
    · exact ofJson?_object hname hnullable (.inr ⟨_, by rw [hwritten, if_neg hnil], hargs⟩)

theorem argsOfJson?_argsToJson : (args : List (Arg TypeExpr)) → argsOfJson? (argsToJson args) = some args
  | [] => by rw [argsToJson, argsOfJson?]
  | .type inner :: args => by
    rw [argsToJson, argsOfJson?, argOfJson?_type, ofJson?_toJson inner, argsOfJson?_argsToJson args]
    rfl
  | .param value :: args => by
    rw [argsToJson, argsOfJson?, argOfJson?_param, Param.ofJson?_toJson, argsOfJson?_argsToJson args]
    rfl

end

end TypeExpr

@[simp]
theorem Signature.ofJson?_toJson (signature : Signature) : ofJson? signature.toJson = some signature := by
  cases signature <;> simp [toJson, ofJson?]

namespace ArgType

theorem argOfJson?_type (value : Json) :
    argOfJson? (.tagged "Type" value) = (ofJson? value).map Arg.type := by
  rw [argOfJson?]
  rfl

theorem argOfJson?_param (value : Json) :
    argOfJson? (.tagged "Integer" value) = (Param.ofJson? value).map Arg.param := by
  rw [argOfJson?]
  rfl

theorem fieldOfJson?_of_field? {fields : List (String × Json)} {name : String} {value : Json}
    (h : Json.field? fields name = some value) : fieldOfJson? fields name = ofJson? value := by
  rw [fieldOfJson?]
  split
  · next found heq =>
    cases h.symm.trans heq
    rfl
  · next heq => cases h.symm.trans heq

section

variable {fields : List (String × Json)} (items : List Json) (n : Nullability)

theorem ofJson?_struct (hn : Json.field? fields "nullability" = some n.toJson)
    (hitems : Json.field? fields "fields" = some (.array items)) :
    ofJson? (.tagged "Struct" (.object fields)) = (fieldsOfJson? items).map (struct · n) := by
  rw [ofJson?]
  simp only [Json.case?_tagged, hn, Option.bind_eq_bind, Option.bind_some, Nullability.ofJson?_toJson]
  split
  · next found heq =>
    cases hitems.symm.trans heq
    cases fieldsOfJson? items <;> rfl
  · next hne =>
    exact absurd hitems (hne items)

theorem ofJson?_extension (name : String) (hn : Json.field? fields "nullability" = some n.toJson)
    (hname : Json.field? fields "name" = some (.text name))
    (hitems : Json.field? fields "args" = some (.array items)) :
    ofJson? (.tagged "Extension" (.object fields)) = (argsOfJson? items).map (extension name · n) := by
  rw [ofJson?]
  simp only [Json.case?_tagged, hn, hname, Option.bind_eq_bind, Option.bind_some, Nullability.ofJson?_toJson,
    Json.text?_text]
  split
  · next found heq =>
    cases hitems.symm.trans heq
    cases argsOfJson? items <;> rfl
  · next hne =>
    exact absurd hitems (hne items)

end

mutual

@[simp]
theorem ofJson?_toJson : (t : ArgType) → ofJson? t.toJson = some t
  | scalar kind n => by
    rw [toJson, parts, ofJson?]
    simp [flatOfJson?]
  | sized kind size n => by
    rw [toJson, parts, ofJson?]
    cases kind <;>
      simp [SizedKind.label, SizedKind.sizeField, SizedKind.isTimestamp, flatOfJson?, Json.withLabel?, SizedKind.all]
  | decimal precision scale n => by
    rw [toJson, parts, ofJson?]
    simp [flatOfJson?]
  | list element n => by
    rw [toJson, parts, ofJson?]
    simp [fieldOfJson?_of_field?, ofJson?_toJson element]
  | map key value n => by
    rw [toJson, parts, ofJson?]
    simp [fieldOfJson?_of_field?, ofJson?_toJson key, ofJson?_toJson value]
  | struct fields n => by
    have hfields := fieldsOfJson?_fieldsToJson fields
    rw [toJson, parts, ofJson?_struct (fieldsToJson fields) n (by simp) (by simp), hfields]
    rfl
  | any n => by
    rw [toJson, parts, ofJson?]
    simp [flatOfJson?]
  | extension name args n => by
    have hargs := argsOfJson?_argsToJson args
    rw [toJson, parts, ofJson?_extension (argsToJson args) n name (by simp) (by simp) (by simp), hargs]
    rfl

theorem fieldsOfJson?_fieldsToJson : (fields : List ArgType) →
    fieldsOfJson? (fieldsToJson fields) = some fields
  | [] => by rw [fieldsToJson, fieldsOfJson?]
  | field :: fields => by
    rw [fieldsToJson, fieldsOfJson?, ofJson?_toJson field, fieldsOfJson?_fieldsToJson fields]
    rfl

theorem argsOfJson?_argsToJson : (args : List (Arg ArgType)) → argsOfJson? (argsToJson args) = some args
  | [] => by rw [argsToJson, argsOfJson?]
  | .type inner :: args => by
    rw [argsToJson, argsOfJson?, argOfJson?_type, ofJson?_toJson inner, argsOfJson?_argsToJson args]
    rfl
  | .param value :: args => by
    rw [argsToJson, argsOfJson?, argOfJson?_param, Param.ofJson?_toJson, argsOfJson?_argsToJson args]
    rfl

end

end ArgType

theorem Json.bound?_of_field? {fields : List (String × Json)} {name : String} {max : Option UInt64}
    (h : field? fields name = some (bound max)) : bound? fields name = some max := by
  rw [bound?, h]
  cases max with
  | none => rfl
  | some max => exact congrArg (Option.map some) (count?_count max)

@[simp]
theorem Extension.ofJson?_toJson (ext : Extension) : ofJson? ext.toJson = some ext := by
  have hmax := @Json.bound?_of_field? [("name", .text ext.name), ("short_name", .text ext.shortName),
    ("min_args", Json.count ext.minArgs), ("max_args", Json.bound ext.maxArgs),
    ("arg_kind", ext.argKind.toJson)] "max_args" ext.maxArgs (by simp)
  simp [ofJson?, toJson, Json.fields?, Json.count?_count, hmax]

end Signatures
