import Signatures.Proofs.Lexeme.Spelling
import Signatures.Proofs.Shape.Grammar

/-!
# Well-formed signatures

A signature is well formed if its canonical text can be read back: names are identifiers or literals,
and whatever stands as a bare word among arguments is a type if it is known and a variable if it is not.
Every shape whose names are identifiers has a well-formed signature, and a well-formed signature is the
one of its shape.
-/

namespace Signatures

open Text Text.Decimal

/-- The text of an atom: an identifier or an integer of 32 bits. -/
def IsAtomText (text : String) : Prop :=
  isIdentifier text.toList = true ∨ IsInt32 text.toList

/-- A variable is an identifier that is not known as a type. -/
def Param.WellFormed (known : String → Bool) : Param → Prop
  | fixed _ => True
  | free name => isIdentifier name.toList = true ∧ known name = false

namespace TypeExpr

mutual

/-- A type among arguments has the text of an atom, which is a known name where it stands bare, and its
own arguments are well formed. -/
def WellFormed (known : String → Bool) : TypeExpr → Prop
  | ⟨name, nullable, args⟩ =>
    IsAtomText name ∧ (nullable = false → args = [] → known name = true) ∧ WellFormedArgs known args

def WellFormedArgs (known : String → Bool) : List (Arg TypeExpr) → Prop
  | [] => True
  | arg :: args => WellFormedArg known arg ∧ WellFormedArgs known args

def WellFormedArg (known : String → Bool) : Arg TypeExpr → Prop
  | .type inner => inner.WellFormed known
  | .param value => value.WellFormed known

end

end TypeExpr

/-- A number is an integer of 32 bits. The name of a type that stands alone is an identifier, or an
integer of 32 bits with arguments, and its arguments are well formed. -/
def Signature.WellFormed (known : String → Bool) : Signature → Prop
  | number text => IsInt32 text.toList
  | type expr =>
    (isIdentifier expr.name.toList = true ∨ (IsInt32 expr.name.toList ∧ expr.args ≠ [])) ∧
      TypeExpr.WellFormedArgs known expr.args

theorem not_isInt32_of_isIdentifier {cs : List Char} (h : isIdentifier cs = true) : ¬ IsInt32 cs := by
  intro hint
  cases cs with
  | nil => cases h
  | cons c cs =>
    rw [isIdentifier, Bool.and_eq_true] at h
    have hstart := toNat_of_isIdentStart h.1
    cases hint with
    | plain hdigits hvalue =>
      have hc := toNat_of_isDigit (hdigits.2 c (List.mem_cons_self ..))
      omega
    | minus hdigits hvalue => exact absurd h.1 (by decide)

namespace Atom

/-- The atom that a text is read as. -/
def ofText (text : String) : Atom :=
  match Literal.ofText? text with
  | some l => literal l
  | none => name text

theorem text_ofText (text : String) : (ofText text).text = text := by
  rw [ofText]
  split
  · next l hl => exact Literal.text_of_ofText? hl
  · rfl

theorem ofText_of_isIdentifier {text : String} (h : isIdentifier text.toList = true) :
    ofText text = name text := by
  rw [ofText]
  split
  · next l hl =>
    have hsome := Option.isSome_of_eq_some hl
    exact absurd (Literal.ofText?_isSome_iff.mp hsome) (not_isInt32_of_isIdentifier h)
  · rfl

theorem ofText_of_isInt32 {text : String} (h : IsInt32 text.toList) :
    ∃ l : Literal, l.text = text ∧ ofText text = literal l := by
  rcases Option.isSome_iff_exists.mp (Literal.ofText?_isSome_iff.mpr h) with ⟨l, hl⟩
  exact ⟨l, Literal.text_of_ofText? hl, by rw [ofText, hl]⟩

theorem ofText_text {a : Atom} (h : a.token.Written) : ofText a.text = a := by
  cases a with
  | name n => exact ofText_of_isIdentifier h
  | literal l => simp [ofText, text]

theorem isAtomText_text {a : Atom} (h : a.token.Written) : IsAtomText a.text := by
  cases a with
  | name n => exact .inl h
  | literal l => exact .inr l.isInt32_text

theorem written_ofText {text : String} (h : IsAtomText text) : (ofText text).token.Written := by
  rcases h with h | h
  · rw [ofText_of_isIdentifier h]
    exact h
  · rcases ofText_of_isInt32 h with ⟨l, -, heq⟩
    rw [heq]
    trivial

end Atom

def Param.shape : Param → Shape
  | fixed value => ⟨.literal (.ofInt32 value), false, []⟩
  | free name => ⟨.name name, false, []⟩

namespace TypeExpr

mutual

/-- The shape of the text of a type. -/
def shape : TypeExpr → Shape
  | ⟨name, nullable, args⟩ => ⟨.ofText name, nullable, shapes args⟩

def shapes : List (Arg TypeExpr) → List Shape
  | [] => []
  | arg :: args => shapeOfArg arg :: shapes args

def shapeOfArg : Arg TypeExpr → Shape
  | .type inner => inner.shape
  | .param value => value.shape

end

theorem shapes_ne_nil {args : List (Arg TypeExpr)} (h : args ≠ []) : shapes args ≠ [] := by
  cases args with
  | nil => exact absurd rfl h
  | cons arg args => simp [shapes]

end TypeExpr

def Signature.shape : Signature → Shape
  | number text => ⟨.ofText text, false, []⟩
  | type expr => expr.shape

namespace Shape

theorem arg_of_marked_or_listed (known : String → Bool) (a : Atom) {nullable : Bool}
    {args : List Shape} (h : nullable = true ∨ args ≠ []) :
    arg known ⟨a, nullable, args⟩ = .type ⟨a.text, nullable, argsOf known args⟩ := by
  unfold arg
  split
  · simp at h
  · simp at h
  · rfl

theorem signature_of_listed (known : String → Bool) (a : Atom) (nullable : Bool) {args : List Shape}
    (h : args ≠ []) :
    signature known ⟨a, nullable, args⟩ = .type ⟨a.text, nullable, argsOf known args⟩ := by
  unfold signature
  split
  · next heq =>
    cases heq
    exact absurd rfl h
  · next heq =>
    cases heq
    rfl

section Meaning

variable {known : String → Bool}

mutual

/-- A shape whose names are identifiers is a well-formed argument. -/
theorem wellFormed_arg : (shape : Shape) → (∀ token ∈ shape.tokens, token.Written) →
    TypeExpr.WellFormedArg known (shape.arg known)
  | ⟨a, true, []⟩, h => by
    rw [arg_of_marked_or_listed known a (.inl rfl), argsOf, TypeExpr.WellFormedArg, TypeExpr.WellFormed]
    exact ⟨Atom.isAtomText_text (h _ (by simp [tokens])), nofun, trivial⟩
  | ⟨.literal l, false, []⟩, h => by
    rw [arg, TypeExpr.WellFormedArg]
    trivial
  | ⟨.name n, false, []⟩, h => by
    have hname : isIdentifier n.toList = true := h (.ident n) (by simp [tokens, Atom.token])
    rw [arg]
    split
    · next hknown => exact ⟨.inl hname, fun _ _ => hknown, trivial⟩
    · next hknown => exact ⟨hname, eq_false_of_ne_true hknown⟩
  | ⟨a, nullable, first :: shapes⟩, h => by
    rw [arg_of_marked_or_listed known a (.inr (List.cons_ne_nil _ _)), argsOf,
      TypeExpr.WellFormedArg, TypeExpr.WellFormed, TypeExpr.WellFormedArgs]
    rw [tokens, listTokens] at h
    refine ⟨Atom.isAtomText_text (h _ (by simp)), fun _ hnil => absurd hnil (List.cons_ne_nil _ _), ?_, ?_⟩
    · exact wellFormed_arg first fun token hmem => h token (by simp [hmem])
    · exact wellFormedArgs_argsOf shapes fun token hmem => h token (by simp [hmem])

theorem wellFormedArgs_argsOf : (shapes : List Shape) →
    (∀ token ∈ moreTokens shapes, token.Written) → TypeExpr.WellFormedArgs known (argsOf known shapes)
  | [], h => by
    rw [argsOf]
    trivial
  | shape :: shapes, h => by
    rw [moreTokens] at h
    rw [argsOf, TypeExpr.WellFormedArgs]
    constructor
    · exact wellFormed_arg shape fun token hmem => h token (by simp [hmem])
    · exact wellFormedArgs_argsOf shapes fun token hmem => h token (by simp [hmem])

end

theorem wellFormed_signature {shape : Shape} (halone : shape.standsAlone = true)
    (h : ∀ token ∈ shape.tokens, token.Written) : (shape.signature known).WellFormed known := by
  rcases shape with ⟨a, nullable, args⟩
  have ha : a.token.Written := h _ (by simp [tokens])
  cases args with
  | cons first shapes =>
    rw [signature_of_listed known a nullable (List.cons_ne_nil _ _), argsOf, Signature.WellFormed,
      TypeExpr.WellFormedArgs]
    rw [tokens, listTokens] at h
    refine ⟨?_, ?_, ?_⟩
    · rcases Atom.isAtomText_text ha with hname | hint
      · exact .inl hname
      · exact .inr ⟨hint, List.cons_ne_nil _ _⟩
    · exact wellFormed_arg first fun token hmem => h token (by simp [hmem])
    · exact wellFormedArgs_argsOf shapes fun token hmem => h token (by simp [hmem])
  | nil =>
    cases a with
    | name n => exact ⟨.inl ha, trivial⟩
    | literal l =>
      cases nullable with
      | false => exact l.isInt32_text
      | true => cases halone

/-- Names that are known as types are identifiers. -/
def NamesAreIdentifiers (known : String → Bool) : Prop :=
  ∀ name, known name = true → isIdentifier name.toList = true

theorem arg_param_shape {value : Param} (h : value.WellFormed known) :
    value.shape.arg known = .param value := by
  cases value with
  | fixed value => rw [Param.shape, arg, Literal.ofInt32]
  | free name => rw [Param.shape, arg, if_neg (ne_true_of_eq_false h.2)]

mutual

theorem arg_shape (hknown : NamesAreIdentifiers known) : (expr : TypeExpr) → expr.WellFormed known →
    expr.shape.arg known = .type expr
  | ⟨name, nullable, []⟩, h => by
    rw [TypeExpr.WellFormed] at h
    rw [TypeExpr.shape, TypeExpr.shapes]
    cases nullable with
    | true => rw [arg_of_marked_or_listed known _ (.inl rfl), Atom.text_ofText, argsOf]
    | false =>
      -- A bare name is read back as a type because it is known, and known names are no integers.
      have hname := h.2.1 rfl rfl
      rw [Atom.ofText_of_isIdentifier (hknown name hname), arg, if_pos hname]
      rfl
  | ⟨name, nullable, first :: args⟩, h => by
    rw [TypeExpr.WellFormed] at h
    rw [TypeExpr.shape, arg_of_marked_or_listed known _ (.inr ?_), Atom.text_ofText,
      argsOf_shapes hknown (first :: args) h.2.2]
    exact TypeExpr.shapes_ne_nil (List.cons_ne_nil _ _)

theorem argsOf_shapes (hknown : NamesAreIdentifiers known) : (args : List (Arg TypeExpr)) →
    TypeExpr.WellFormedArgs known args → argsOf known (TypeExpr.shapes args) = args
  | [], h => by rw [TypeExpr.shapes, argsOf]
  | arg :: args, h => by
    rw [TypeExpr.WellFormedArgs] at h
    rw [TypeExpr.shapes, argsOf, arg_shapeOfArg hknown arg h.1, argsOf_shapes hknown args h.2]

theorem arg_shapeOfArg (hknown : NamesAreIdentifiers known) : (arg : Arg TypeExpr) →
    TypeExpr.WellFormedArg known arg → (TypeExpr.shapeOfArg arg).arg known = arg
  | .type inner, h => by
    rw [TypeExpr.WellFormedArg] at h
    rw [TypeExpr.shapeOfArg, arg_shape hknown inner h]
  | .param value, h => by
    rw [TypeExpr.WellFormedArg] at h
    rw [TypeExpr.shapeOfArg, arg_param_shape h]

end

theorem signature_shape (hknown : NamesAreIdentifiers known) {s : Signature} (h : s.WellFormed known) :
    s.shape.signature known = s := by
  cases s with
  | number text =>
    rcases Atom.ofText_of_isInt32 h with ⟨l, rfl, heq⟩
    rw [Signature.shape, heq]
    rfl
  | type expr =>
    rcases expr with ⟨name, nullable, args⟩
    rcases h with ⟨hname, hargs⟩
    rw [Signature.shape, TypeExpr.shape]
    cases args with
    | cons first args =>
      rw [signature_of_listed known _ nullable (TypeExpr.shapes_ne_nil (List.cons_ne_nil _ _)),
        Atom.text_ofText, argsOf_shapes hknown _ hargs]
    | nil =>
      rcases hname with hname | ⟨-, hne⟩
      · rw [Atom.ofText_of_isIdentifier hname]
        rfl
      · exact absurd rfl hne

theorem standsAlone_shape {s : Signature} (h : s.WellFormed known) : s.shape.standsAlone = true := by
  cases s with
  | number text => exact standsAlone_iff.mpr (.inl rfl)
  | type expr =>
    rcases expr with ⟨name, nullable, args⟩
    rw [Signature.shape, TypeExpr.shape, standsAlone_iff]
    rcases h.1 with hname | ⟨-, hne⟩
    · exact .inr (.inr ⟨name, Atom.ofText_of_isIdentifier hname⟩)
    · exact .inr (.inl (TypeExpr.shapes_ne_nil hne))

end Meaning

end Shape

end Signatures
