import Signatures.Atom
import Signatures.GrammarFault
import Signatures.TypeExpr

/-!
# Reading signatures from tokens

Tokens are read one at a time, with the types whose lists are open and the item read last. An item becomes an
argument where it ends, before a comma or a closing bracket: a bare literal is a parameter, a bare name is a
type where it is known as one and a variable elsewhere, and anything else is a type. The first token that
cannot go on with what has been read is the fault.
-/

namespace Signatures

/-- An atom that has been read, with its mark and, once its list is closed, its arguments. -/
structure Item where
  atom : Atom
  nullable : Bool
  args : Option (List (Arg TypeExpr))

/-- A type whose closing bracket has not come yet, with its complete arguments, last first. -/
structure OpenType where
  atom : Atom
  nullable : Bool
  earlier : List (Arg TypeExpr)

inductive ReadFault where
  | grammar (fault : GrammarFault)
  /-- The literal with the given index stands as an argument and does not fit in 32 bits. -/
  | invalidParameter (text : String) (index : Nat)
  deriving DecidableEq, Repr

namespace Item

/-- The argument that an item is, before the token with the given index. -/
def argument (known : String → Bool) (index : Nat) (item : Item) : Except ReadFault (Arg TypeExpr) :=
  match item.atom, item.nullable, item.args with
  | .literal l, false, none =>
    match Text.Decimal.int32? l.text.toList with
    | some value => .ok (.param (.fixed value))
    | none => .error (.invalidParameter l.text (index - 1))
  | .name n, false, none =>
    if known n then .ok (.type (.bare n false)) else .ok (.param (.free n))
  | atom, nullable, args => .ok (.type ⟨atom.text, nullable, args.getD []⟩)

/-- The signature that an item is by itself. A literal with a mark and no list is none. -/
def signature? (item : Item) : Option Signature :=
  match item.atom, item.nullable, item.args with
  | .literal _, true, none => none
  | .literal l, false, none => some (.number l.text)
  | atom, nullable, args => some (.type ⟨atom.text, nullable, args.getD []⟩)

end Item

/-- The tokens of a signature read so far: the types whose lists are open, innermost first, and the item read
last in the innermost list, if one has been read there. -/
structure SignatureReading where
  openTypes : List OpenType
  item : Option Item

namespace SignatureReading

def start : SignatureReading := ⟨[], none⟩

def expected (reading : SignatureReading) : List Expectation :=
  match reading.item with
  | none => [.atom]
  | some item => Expectation.behind (!reading.openTypes.isEmpty) item.args.isNone item.nullable

/-- Whether a reading starts with a literal and a mark and has not completed their list. -/
def startsMarkedNumber (reading : SignatureReading) : Bool :=
  match reading.openTypes.getLast?, reading.item with
  | some outermost, _ => outermost.atom.isLiteral && outermost.nullable
  | none, some item => item.atom.isLiteral && item.nullable && item.args.isNone
  | none, none => false

def fault (reading : SignatureReading) (found : Option Token) (index : Nat) : ReadFault :=
  if reading.startsMarkedNumber then .grammar .markedNumber
  else .grammar (.unexpected reading.expected found index)

def step (known : String → Bool) (index : Nat) (reading : SignatureReading) (token : Token) :
    Except ReadFault SignatureReading :=
  match reading.item, token, reading.openTypes with
  | none, token, openTypes =>
    match Atom.ofToken? token with
    | some atom => .ok ⟨openTypes, some ⟨atom, false, none⟩⟩
    | none => .error (reading.fault (some token) index)
  | some ⟨atom, false, none⟩, .question, openTypes => .ok ⟨openTypes, some ⟨atom, true, none⟩⟩
  | some ⟨atom, nullable, none⟩, .lt, openTypes => .ok ⟨⟨atom, nullable, []⟩ :: openTypes, none⟩
  | some item, .comma, ⟨atom, nullable, earlier⟩ :: openTypes =>
    (item.argument known index).map fun arg => ⟨⟨atom, nullable, arg :: earlier⟩ :: openTypes, none⟩
  | some item, .gt, ⟨atom, nullable, earlier⟩ :: openTypes =>
    (item.argument known index).map fun arg =>
      ⟨openTypes, some ⟨atom, nullable, some (arg :: earlier).reverse⟩⟩
  | _, token, _ => .error (reading.fault (some token) index)

def signature? : SignatureReading → Option Signature
  | ⟨[], some item⟩ => item.signature?
  | _ => none

/-- Reads on to the last token; `index` counts the tokens read before. -/
def finish (known : String → Bool) (reading : SignatureReading) (index : Nat) :
    List Token → Except ReadFault Signature
  | [] =>
    match reading.signature? with
    | some s => .ok s
    | none => .error (reading.fault none index)
  | token :: tokens =>
    match reading.step known index token with
    | .ok next => next.finish known (index + 1) tokens
    | .error fault => .error fault

end SignatureReading

/-- The signature with the given tokens where `known` tells which names are types. -/
def Signature.ofTokens (known : String → Bool) (tokens : List Token) : Except ReadFault Signature :=
  SignatureReading.start.finish known 0 tokens

end Signatures
