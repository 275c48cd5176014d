import Signatures.Parse
import Signatures.Proofs.Shape.Reading

/-!
# Classifying arguments while reading

Reading looks a name up where an argument ends. It could as well be done at the end: a reading is the one of
shapes with every complete argument classified, one token keeps it so, and classifying never fails, since a
literal is an integer of 32 bits. So the signature of a text is that of its shape, and the catalog has no part
in whether a text has a signature nor in its error.
-/

namespace Signatures

variable {known : String → Bool}

/-- The item that a shape is once its arguments are classified. -/
def Shape.item (known : String → Bool) (shape : Shape) : Item :=
  ⟨shape.atom, shape.nullable, if shape.args = [] then none else some (argsOf known shape.args)⟩

def OpenList.classified (known : String → Bool) (list : OpenList) : OpenType :=
  ⟨list.atom, list.nullable, list.earlier.map (Shape.arg known)⟩

def Reading.classified (known : String → Bool) (reading : Reading) : SignatureReading :=
  ⟨reading.openLists.map (OpenList.classified known), reading.item.map (Shape.item known)⟩

namespace Shape

@[simp]
theorem item_bare (a : Atom) (nullable : Bool) : item known ⟨a, nullable, []⟩ = ⟨a, nullable, none⟩ := rfl

@[simp]
theorem item_listed (a : Atom) (nullable : Bool) (first : Shape) (shapes : List Shape) :
    item known ⟨a, nullable, first :: shapes⟩ =
      ⟨a, nullable, some (argsOf known (first :: shapes))⟩ := rfl

theorem item_reverse (a : Atom) (nullable : Bool) (last : Shape) (earlier : List Shape) :
    item known ⟨a, nullable, (last :: earlier).reverse⟩ =
      ⟨a, nullable, some (last.arg known :: earlier.map (arg known)).reverse⟩ := by
  simp [item, argsOf_eq_map]

/-- Classifying does not fail and gives the argument that the shape stands for. -/
theorem argument_item (index : Nat) (shape : Shape) :
    (shape.item known).argument known index = .ok (shape.arg known) := by
  rcases shape with ⟨a, nullable, _ | ⟨first, shapes⟩⟩
  · cases a with
    | name n =>
      cases nullable with
      | false => by_cases h : known n = true <;> simp [Item.argument, arg, h]
      | true => simp [Item.argument, arg, argsOf]
    | literal l =>
      cases nullable with
      | false => simp [Item.argument, arg, l.denotes]
      | true => simp [Item.argument, arg, argsOf]
  · cases a <;> cases nullable <;> simp [Item.argument, arg]

theorem signature?_item (shape : Shape) :
    (shape.item known).signature? =
      (Reading.shape? ⟨[], some shape⟩).map (signature known) := by
  rcases shape with ⟨a, nullable, _ | ⟨first, shapes⟩⟩
  · cases a <;> cases nullable <;> simp [Item.signature?, Reading.shape?, signature, argsOf]
  · simp [Item.signature?, Reading.shape?, signature]

end Shape

namespace Reading

variable (reading : Reading)

theorem expected_classified : (reading.classified known).expected = reading.expected := by
  rcases reading with ⟨lists, _ | item⟩
  · rfl
  · rcases item with ⟨a, nullable, _ | ⟨first, shapes⟩⟩ <;>
      simp [classified, SignatureReading.expected, expected]

theorem startsMarkedNumber_classified :
    (reading.classified known).startsMarkedNumber = reading.startsMarkedNumber := by
  rcases reading with ⟨lists, item⟩
  simp only [classified, SignatureReading.startsMarkedNumber, startsMarkedNumber, List.getLast?_map]
  cases lists.getLast? with
  | some outermost => rcases outermost with ⟨_ | _, _, _⟩ <;> simp [OpenList.classified, Atom.isLiteral]
  | none =>
    rcases item with _ | ⟨_ | _, _, _ | ⟨first, shapes⟩⟩ <;> simp [Atom.isLiteral]

theorem fault_classified (found : Option Token) (index : Nat) :
    (reading.classified known).fault found index = .grammar (reading.fault found index) := by
  rw [SignatureReading.fault, fault, startsMarkedNumber_classified, expected_classified]
  split <;> rfl

/-- One token takes a classified reading to the classified reading after the token, or neither of them goes
on. -/
theorem step_classified (index : Nat) (token : Token) :
    (reading.classified known).step known index token =
      match reading.step? token with
      | some next => .ok (next.classified known)
      | none => .error (.grammar (reading.fault (some token) index)) := by
  rw [← @fault_classified known]
  rcases reading with ⟨lists, _ | item⟩
  · simp only [classified, SignatureReading.step, step?, Option.map_none]
    cases Atom.ofToken? token <;> rfl
  · cases token with
    | ident n => simp [classified, SignatureReading.step, step?]
    | int l => simp [classified, SignatureReading.step, step?]
    | question =>
      rcases item with ⟨a, _ | _, _ | ⟨first, shapes⟩⟩ <;>
        simp [classified, SignatureReading.step, step?]
    | lt =>
      rcases item with ⟨a, nullable, _ | ⟨first, shapes⟩⟩ <;>
        simp [classified, SignatureReading.step, step?, OpenList.classified]
    | comma =>
      cases lists with
      | nil => simp [classified, SignatureReading.step, step?]
      | cons list lists =>
        simp [classified, SignatureReading.step, step?, OpenList.classified, Shape.argument_item, Except.map]
    | gt =>
      cases lists with
      | nil => simp [classified, SignatureReading.step, step?]
      | cons list lists =>
        simp only [classified, SignatureReading.step, step?, List.map_cons, Option.map_some, Shape.argument_item,
          Shape.item_reverse]
        rfl

theorem signature?_classified :
    (reading.classified known).signature? = reading.shape?.map (Shape.signature known) := by
  rcases reading with ⟨_ | ⟨list, lists⟩, _ | item⟩
  · rfl
  · exact Shape.signature?_item item
  · rfl
  · rfl

/-- Reading on from a classified reading gives the signature of the shape that is read, or the same fault. -/
theorem finish_classified (index : Nat) (ts : List Token) :
    (reading.classified known).finish known index ts =
      ((reading.finish index ts).mapError .grammar).map (Shape.signature known) := by
  induction ts generalizing reading index with
  | nil =>
    rw [SignatureReading.finish, finish, signature?_classified, fault_classified]
    cases reading.shape? <;> rfl
  | cons token ts ih =>
    rw [SignatureReading.finish, finish, step_classified]
    cases reading.step? token with
    | none => rfl
    | some next => exact ih next (index + 1)

end Reading

/-- Reading with a look at the names gives the signature of the shape that the tokens have without it. -/
theorem Signature.ofTokens_eq (ts : List Token) :
    Signature.ofTokens known ts =
      ((Shape.ofTokens ts).mapError .grammar).map (Shape.signature known) :=
  Reading.finish_classified .start 0 ts

def Shape.parse (source : String) : Except Error Shape :=
  match Lexeme.scan source with
  | .error fault => .error (.ofLex fault)
  | .ok lexemes =>
    match Shape.ofTokens (lexemes.map Lexeme.token) with
    | .error fault => .error (.ofGrammar lexemes (Text.byteSize source.toList) fault)
    | .ok shape => .ok shape

/-- The signature of a text is the one of its shape. -/
theorem Catalog.parse_eq (catalog : Catalog) (source : String) :
    catalog.parse source = (Shape.parse source).map (Shape.signature catalog.knows) := by
  rw [Catalog.parse, Shape.parse]
  cases Lexeme.scan source with
  | error fault => rfl
  | ok lexemes =>
    simp only [Signature.ofTokens_eq]
    cases Shape.ofTokens (lexemes.map Lexeme.token) <;> rfl

end Signatures
