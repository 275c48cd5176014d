import Signatures.Token

/-!
# Faults of the grammar

A signature is a bare literal, a name with an optional mark, or a name or literal with an optional
mark and a list of arguments; an argument is a name or literal with an optional mark and an optional
list. The first token that cannot go on with what has been read is the fault of the tokens, and the
message tells what could have come instead.
-/

namespace Signatures

inductive Expectation where
  | comma
  | lt
  | gt
  | question
  | finish
  | atom
  deriving DecidableEq, Repr

namespace Expectation

def text : Expectation → String
  | comma => "','"
  | lt => "'<'"
  | gt => "'>'"
  | question => "'?'"
  | finish => "end of input"
  | atom => "type name or integer"

/-- What can come behind an item, in the order of the texts: whether it stands inside a list, whether it has no
list of its own, and whether it has a mark. -/
def behind (inside bare nullable : Bool) : List Expectation :=
  (if inside then [comma] else []) ++ (if bare then [lt] else []) ++ (if inside then [gt] else []) ++
    (if bare && !nullable then [question] else []) ++ (if inside then [] else [finish])

@[simp]
theorem mem_behind_iff {inside bare nullable : Bool} {e : Expectation} :
    e ∈ behind inside bare nullable ↔
      match e with
      | comma | gt => inside = true
      | lt => bare = true
      | question => bare = true ∧ nullable = false
      | finish => inside = false
      | atom => False := by
  cases e <;> cases inside <;> cases bare <;> cases nullable <;> decide

end Expectation

inductive GrammarFault where
  /-- The first token is a literal and the second a mark, and no complete list follows. -/
  | markedNumber
  /-- The token with the given index, or the end of the tokens, is none of those expected there. -/
  | unexpected (expected : List Expectation) (found : Option Token) (index : Nat)
  deriving DecidableEq, Repr

namespace GrammarFault

/-- The text of a token in a message, or of the end of the tokens. -/
def foundText : Option Token → String
  | some token => "'" ++ token.text ++ "'"
  | none => "end of input"

def message : GrammarFault → String
  | markedNumber => "a number literal cannot be marked nullable"
  | unexpected expected found _ =>
    "expected " ++ " or ".intercalate (expected.map Expectation.text) ++ ", found " ++
      foundText found

end GrammarFault

end Signatures
