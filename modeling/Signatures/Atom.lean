import Signatures.Token

/-!
# Atoms

An atom is the word that a type or a parameter starts with: a name or a literal.
-/

namespace Signatures

inductive Atom where
  | name (n : String)
  | literal (l : Literal)
  deriving DecidableEq, Repr

namespace Atom

def text : Atom → String
  | name n => n
  | literal l => l.text

def token : Atom → Token
  | name n => .ident n
  | literal l => .int l

def ofToken? : Token → Option Atom
  | .ident n => some (name n)
  | .int l => some (literal l)
  | _ => none

def isLiteral : Atom → Bool
  | name _ => false
  | literal _ => true

@[simp]
theorem ofToken?_token (a : Atom) : ofToken? a.token = some a := by cases a <;> rfl

end Atom

end Signatures
