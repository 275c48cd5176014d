import Signatures.Proofs.Shape.Basic

/-!
# The grammar of signatures

The grammar is a family of sets of token sequences. An argument is a name or literal with an optional
mark and an optional list; a signature is the same, but a literal without a list stands alone. The
token sequences of the grammar are exactly those that shapes are written with, and a shape can be read
off its tokens in one way only.
-/

namespace Signatures

def markTokens (nullable : Bool) : List Token :=
  if nullable then [.question] else []

namespace Grammar

mutual

/-- `Arg ::= (Ident | Int) ['?'] [List]`. -/
inductive IsArg : List Token → Prop where
  | bare (atom : Atom) (nullable : Bool) : IsArg (atom.token :: markTokens nullable)
  | listed (atom : Atom) (nullable : Bool) {list : List Token} (h : IsList list) :
      IsArg (atom.token :: (markTokens nullable ++ list))

/-- `List ::= '<' Args '>'`. -/
inductive IsList : List Token → Prop where
  | brackets {args : List Token} (h : IsArgs args) : IsList (.lt :: (args ++ [.gt]))

/-- `Args ::= Arg (',' Arg)*`. -/
inductive IsArgs : List Token → Prop where
  | last {arg : List Token} (h : IsArg arg) : IsArgs arg
  | more {arg args : List Token} (h : IsArg arg) (hs : IsArgs args) : IsArgs (arg ++ .comma :: args)

end

/-- `Sig ::= Int | Ident ['?'] | (Ident | Int) ['?'] List`. -/
inductive IsSignature : List Token → Prop where
  | number (l : Literal) : IsSignature [.int l]
  | name (n : String) (nullable : Bool) : IsSignature (.ident n :: markTokens nullable)
  | listed (atom : Atom) (nullable : Bool) {list : List Token} (h : IsList list) :
      IsSignature (atom.token :: (markTokens nullable ++ list))

end Grammar

namespace Shape

mutual

def tokens : Shape → List Token
  | ⟨atom, nullable, args⟩ => atom.token :: (markTokens nullable ++ listTokens args)

/-- The tokens of a list of arguments with its brackets; no argument, no brackets. -/
def listTokens : List Shape → List Token
  | [] => []
  | shape :: shapes => .lt :: (shape.tokens ++ moreTokens shapes)

/-- The tokens of the arguments after the first one, up to the closing bracket. -/
def moreTokens : List Shape → List Token
  | [] => [.gt]
  | shape :: shapes => .comma :: (shape.tokens ++ moreTokens shapes)

end

/-- Whether a shape may stand alone: a literal with a mark and no list may not. -/
def standsAlone : Shape → Bool
  | ⟨.literal _, true, []⟩ => false
  | _ => true

theorem standsAlone_iff {a : Atom} {nullable : Bool} {args : List Shape} :
    standsAlone ⟨a, nullable, args⟩ = true ↔ nullable = false ∨ args ≠ [] ∨ ∃ n, a = .name n := by
  cases a <;> cases nullable <;> cases args <;> simp [standsAlone]

theorem tokens_append_moreTokens (first last : Shape) (shapes : List Shape) :
    first.tokens ++ moreTokens (shapes ++ [last]) =
      (first :: shapes).flatMap (fun shape => shape.tokens ++ [.comma]) ++ (last.tokens ++ [.gt]) := by
  induction shapes generalizing first with
  | nil => simp [moreTokens]
  | cons shape shapes ih =>
    have hmore := ih shape
    simp only [List.cons_append, moreTokens, List.flatMap_cons, List.append_assoc] at hmore ⊢
    rw [hmore]
    simp

theorem listTokens_concat (shapes : List Shape) (last : Shape) :
    listTokens (shapes ++ [last]) =
      .lt :: (shapes.flatMap (fun shape => shape.tokens ++ [.comma]) ++ (last.tokens ++ [.gt])) := by
  cases shapes with
  | nil => simp [listTokens, moreTokens]
  | cons first shapes => rw [List.cons_append, listTokens, tokens_append_moreTokens]

end Shape

namespace Grammar

open Shape

mutual

theorem IsArg.exists_shape {ts : List Token} : IsArg ts → ∃ shape : Shape, shape.tokens = ts
  | .bare atom nullable => ⟨⟨atom, nullable, []⟩, by simp [tokens, listTokens]⟩
  | .listed atom nullable h => by
    obtain ⟨first, shapes, rfl⟩ := h.exists_shapes
    exact ⟨⟨atom, nullable, first :: shapes⟩, by rw [tokens]⟩

theorem IsList.exists_shapes {ts : List Token} :
    IsList ts → ∃ first shapes, listTokens (first :: shapes) = ts
  | .brackets h => by
    obtain ⟨first, shapes, heq⟩ := h.exists_shapes
    exact ⟨first, shapes, by rw [listTokens, heq]⟩

theorem IsArgs.exists_shapes {ts : List Token} :
    IsArgs ts → ∃ (first : Shape) (shapes : List Shape), first.tokens ++ moreTokens shapes = ts ++ [.gt]
  | .last h => by
    obtain ⟨shape, rfl⟩ := h.exists_shape
    exact ⟨shape, [], by rw [moreTokens]⟩
  | .more h hs => by
    obtain ⟨shape, rfl⟩ := h.exists_shape
    obtain ⟨first, shapes, heq⟩ := hs.exists_shapes
    exact ⟨shape, first :: shapes, by rw [moreTokens, heq]; simp⟩

end

mutual

theorem isArg_tokens : (shape : Shape) → IsArg shape.tokens
  | ⟨atom, nullable, []⟩ => by
    rw [tokens, listTokens, List.append_nil]
    exact .bare atom nullable
  | ⟨atom, nullable, first :: shapes⟩ => by
    obtain ⟨args, hargs, heq⟩ := isArgs_append_moreTokens shapes (isArg_tokens first)
    rw [tokens, listTokens, heq]
    exact .listed atom nullable (.brackets hargs)

theorem isArgs_append_moreTokens : (shapes : List Shape) → {arg : List Token} → IsArg arg →
    ∃ args, IsArgs args ∧ arg ++ moreTokens shapes = args ++ [.gt]
  | [], arg, h => ⟨arg, .last h, by rw [moreTokens]⟩
  | shape :: shapes, arg, h => by
    obtain ⟨args, hargs, heq⟩ := isArgs_append_moreTokens shapes (isArg_tokens shape)
    refine ⟨arg ++ .comma :: args, .more h hargs, ?_⟩
    rw [moreTokens, heq]
    simp

end

theorem isList_listTokens (first : Shape) (shapes : List Shape) :
    IsList (listTokens (first :: shapes)) := by
  obtain ⟨args, hargs, heq⟩ := isArgs_append_moreTokens shapes (isArg_tokens first)
  rw [listTokens, heq]
  exact .brackets hargs

/-- The signatures of the grammar are the tokens of the shapes that may stand alone. -/
theorem isSignature_iff_exists_shape {ts : List Token} :
    IsSignature ts ↔ ∃ shape : Shape, shape.standsAlone = true ∧ shape.tokens = ts := by
  constructor
  · intro h
    cases h with
    | number l => exact ⟨⟨.literal l, false, []⟩, rfl, by simp [tokens, listTokens, markTokens, Atom.token]⟩
    | name n nullable =>
      exact ⟨⟨.name n, nullable, []⟩, rfl, by simp [tokens, listTokens, Atom.token]⟩
    | listed atom nullable h =>
      obtain ⟨first, shapes, rfl⟩ := h.exists_shapes
      exact ⟨⟨atom, nullable, first :: shapes⟩, standsAlone_iff.mpr (.inr (.inl nofun)), by rw [tokens]⟩
  · rintro ⟨⟨atom, nullable, args⟩, halone, rfl⟩
    cases args with
    | cons first shapes =>
      rw [tokens]
      exact .listed atom nullable (isList_listTokens first shapes)
    | nil =>
      rw [tokens, listTokens, List.append_nil]
      cases atom with
      | name n => exact .name n nullable
      | literal l =>
        cases nullable with
        | false => exact .number l
        | true => simp [standsAlone] at halone

end Grammar

end Signatures
