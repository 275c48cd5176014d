import Signatures.Text.Decimal

/-!
# Tokens

The words of a signature: names, integer literals and four marks.
-/

namespace Signatures

/-- A decimal integer as it was written, with its value; it fits in 32 bits. -/
structure Literal where
  text : String
  value : Int32
  denotes : Text.Decimal.int32? text.toList = some value
  deriving DecidableEq, Repr

namespace Literal

def ofText? (text : String) : Option Literal :=
  match h : Text.Decimal.int32? text.toList with
  | some value => some ⟨text, value, h⟩
  | none => none

theorem ext_text {l m : Literal} (h : l.text = m.text) : l = m := by
  obtain ⟨text, value, hl⟩ := l
  obtain ⟨text', value', hm⟩ := m
  subst h
  have : value = value' := Option.some.inj (hl.symm.trans hm)
  subst this
  rfl

@[simp]
theorem ofText?_text (l : Literal) : ofText? l.text = some l := by
  have hl := l.denotes
  unfold ofText?
  split
  · exact congrArg some (ext_text rfl)
  · next h => rw [h] at hl; cases hl

theorem text_of_ofText? {text : String} {l : Literal} (h : ofText? text = some l) :
    l.text = text := by
  unfold ofText? at h
  split at h
  · exact (congrArg Literal.text (Option.some.inj h)).symm
  · cases h

end Literal

/-- A word of a signature. -/
inductive Token where
  | ident (name : String)
  | int (literal : Literal)
  | lt
  | gt
  | comma
  | question
  deriving DecidableEq, Repr

namespace Token

def text : Token → String
  | ident name => name
  | int literal => literal.text
  | lt => "<"
  | gt => ">"
  | comma => ","
  | question => "?"

end Token

end Signatures
