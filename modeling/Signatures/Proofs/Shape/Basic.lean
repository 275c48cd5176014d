import Signatures.Atom
import Signatures.GrammarFault
import Signatures.TypeExpr

/-!
# Shapes

The shape of a signature is what its tokens say before any name is looked up: an atom, a mark and a
list of arguments, each with a shape of its own. Every list has at least one argument, so an empty
list of arguments is the absence of brackets.

`Shape.arg` gives a shape its meaning as an argument: a bare name is a type where it is known as one
and a variable elsewhere, a bare literal is a parameter, and anything else is a type.

Tokens are read into a `Reading`, the lists that are open and the item read last, without a look at the names.
-/

namespace Signatures

/-- A signature before its names are looked up. -/
structure Shape where
  atom : Atom
  nullable : Bool
  args : List Shape
  deriving Repr

namespace Shape

mutual

/-- The argument that a shape stands for where `known` tells which names are types. -/
def arg (known : String → Bool) : Shape → Arg TypeExpr
  | ⟨atom, nullable, args⟩ =>
    match atom, nullable, args with
    | .literal l, false, [] => .param (.fixed l.value)
    | .name n, false, [] => if known n then .type (.bare n false) else .param (.free n)
    | atom, nullable, args => .type ⟨atom.text, nullable, argsOf known args⟩

def argsOf (known : String → Bool) : List Shape → List (Arg TypeExpr)
  | [] => []
  | shape :: shapes => shape.arg known :: argsOf known shapes

end

theorem argsOf_eq_map (known : String → Bool) (shapes : List Shape) :
    argsOf known shapes = shapes.map (arg known) := by
  induction shapes with
  | nil => simp [argsOf]
  | cons shape shapes ih => simp [argsOf, ih]

/-- The signature that a shape stands for where `known` tells which names are types. A bare literal
is a number. -/
def signature (known : String → Bool) (shape : Shape) : Signature :=
  match shape with
  | ⟨.literal l, false, []⟩ => .number l.text
  | ⟨atom, nullable, args⟩ => .type ⟨atom.text, nullable, argsOf known args⟩

end Shape

/-- A list whose closing bracket has not come yet: its head, and its complete arguments, last
first. -/
structure OpenList where
  atom : Atom
  nullable : Bool
  earlier : List Shape
  deriving Repr

/-- The tokens of a signature read so far: the open lists, innermost first, and the item read last in
the innermost one, if one has been read there. -/
structure Reading where
  openLists : List OpenList
  item : Option Shape
  deriving Repr

namespace Reading

def start : Reading := ⟨[], none⟩

def expected (reading : Reading) : List Expectation :=
  match reading.item with
  | none => [.atom]
  | some item => Expectation.behind (!reading.openLists.isEmpty) item.args.isEmpty item.nullable

def step? (reading : Reading) (token : Token) : Option Reading :=
  match reading.item, token, reading.openLists with
  | none, token, openLists => (Atom.ofToken? token).map fun atom => ⟨openLists, some ⟨atom, false, []⟩⟩
  | some ⟨atom, false, []⟩, .question, openLists => some ⟨openLists, some ⟨atom, true, []⟩⟩
  | some ⟨atom, nullable, []⟩, .lt, openLists => some ⟨⟨atom, nullable, []⟩ :: openLists, none⟩
  | some item, .comma, list :: openLists =>
    some ⟨⟨list.atom, list.nullable, item :: list.earlier⟩ :: openLists, none⟩
  | some item, .gt, list :: openLists =>
    some ⟨openLists, some ⟨list.atom, list.nullable, (item :: list.earlier).reverse⟩⟩
  | _, _, _ => none

/-- The shape of a complete reading. A literal with a mark and no list is not one. -/
def shape? (reading : Reading) : Option Shape :=
  match reading with
  | ⟨[], some ⟨.literal _, true, []⟩⟩ => none
  | ⟨[], some item⟩ => some item
  | _ => none

/-- Whether a reading starts with a literal and a mark and has not completed their list. -/
def startsMarkedNumber (reading : Reading) : Bool :=
  match reading.openLists.getLast?, reading.item with
  | some ⟨.literal _, nullable, _⟩, _ => nullable
  | some _, _ => false
  | none, some ⟨.literal _, nullable, []⟩ => nullable
  | none, _ => false

def fault (reading : Reading) (found : Option Token) (index : Nat) : GrammarFault :=
  if reading.startsMarkedNumber then .markedNumber
  else .unexpected reading.expected found index

/-- Reads on to the last token; `index` counts the tokens read before. -/
def finish (reading : Reading) (index : Nat) : List Token → Except GrammarFault Shape
  | [] =>
    match reading.shape? with
    | some shape => .ok shape
    | none => .error (reading.fault none index)
  | token :: tokens =>
    match reading.step? token with
    | some next => next.finish (index + 1) tokens
    | none => .error (reading.fault (some token) index)

end Reading

def Shape.ofTokens (tokens : List Token) : Except GrammarFault Shape :=
  Reading.start.finish 0 tokens

end Signatures
