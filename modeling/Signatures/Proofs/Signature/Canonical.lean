import Signatures.Proofs.Signature.WellFormed

/-!
# Canonical tokens

The canonical text of a signature has the tokens that the signature was read from, except that the
integers that stand bare as arguments lose their leading zeros. The values of these integers are the
fixed parameters of the signature, in the same order.
-/

namespace Signatures

namespace Token

def canonical : Token → Token
  | int l => int (.ofInt32 l.value)
  | token => token

def literal? : Token → Option Literal
  | int l => some l
  | _ => none

/-- An argument starts after an opening bracket and after a comma. -/
def startsArgument : Token → Bool
  | lt | comma => true
  | _ => false

end Token

/-- Whether what comes next is a mark or a list, which go on with the item before. -/
def goesOn : List Token → Bool
  | .question :: _ | .lt :: _ => true
  | _ => false

/-- The tokens with the integers that stand bare as arguments in canonical form. The flag tells whether
an argument starts here. -/
def canonicalTokens : (argument : Bool) → List Token → List Token
  | _, [] => []
  | argument, token :: ts =>
    (if argument && !goesOn ts then token.canonical else token) ::
      canonicalTokens token.startsArgument ts

/-- The integers that stand bare as arguments. The flag tells whether an argument starts here. -/
def bareIntegers : (argument : Bool) → List Token → List Literal
  | _, [] => []
  | argument, token :: ts =>
    (if argument && !goesOn ts then token.literal?.toList else []) ++
      bareIntegers token.startsArgument ts

theorem startsArgument_token (a : Atom) : a.token.startsArgument = false := by cases a <;> rfl

theorem goesOn_moreTokens (shapes : List Shape) (rest : List Token) :
    goesOn (Shape.moreTokens shapes ++ rest) = false := by
  cases shapes with
  | nil => rw [Shape.moreTokens]; rfl
  | cons shape shapes => rw [Shape.moreTokens]; rfl

theorem goesOn_of_marked_or_listed {nullable : Bool} {shapes : List Shape}
    (h : nullable = true ∨ shapes ≠ []) (rest : List Token) :
    goesOn (markTokens nullable ++ (Shape.listTokens shapes ++ rest)) = true := by
  cases nullable with
  | true => rfl
  | false =>
    cases shapes with
    | nil => simp at h
    | cons shape shapes => rw [Shape.listTokens]; rfl

section Head

variable (a : Atom) {nullable : Bool} {shapes : List Shape} (rest : List Token) {argument : Bool}

theorem not_bare (h : argument = false ∨ nullable = true ∨ shapes ≠ []) :
    ¬ (argument && !goesOn (markTokens nullable ++ (Shape.listTokens shapes ++ rest))) = true := by
  rcases h with rfl | h
  · simp
  · simp [goesOn_of_marked_or_listed h rest]

/-- An atom that is no bare argument stays as it is, and its list is all that changes. -/
theorem canonicalTokens_head (h : argument = false ∨ nullable = true ∨ shapes ≠ []) :
    canonicalTokens argument (Shape.tokens ⟨a, nullable, shapes⟩ ++ rest) =
      a.token :: (markTokens nullable ++ canonicalTokens false (Shape.listTokens shapes ++ rest)) := by
  rw [Shape.tokens, List.cons_append, List.append_assoc, canonicalTokens, startsArgument_token,
    if_neg (not_bare rest h)]
  cases nullable <;> rfl

theorem bareIntegers_head (h : argument = false ∨ nullable = true ∨ shapes ≠ []) :
    bareIntegers argument (Shape.tokens ⟨a, nullable, shapes⟩ ++ rest) =
      bareIntegers false (Shape.listTokens shapes ++ rest) := by
  rw [Shape.tokens, List.cons_append, List.append_assoc, bareIntegers, startsArgument_token,
    if_neg (not_bare rest h), List.nil_append]
  cases nullable <;> rfl

end Head

namespace TypeExpr

mutual

/-- The fixed parameters of a type in the order of its text. -/
def fixedParams : TypeExpr → List Int32
  | ⟨_, _, args⟩ => fixedParamsOfArgs args

def fixedParamsOfArgs : List (Arg TypeExpr) → List Int32
  | [] => []
  | arg :: args => fixedParamsOfArg arg ++ fixedParamsOfArgs args

def fixedParamsOfArg : Arg TypeExpr → List Int32
  | .type inner => inner.fixedParams
  | .param value => value.value?.toList

end

end TypeExpr

def Signature.fixedParams : Signature → List Int32
  | number _ => []
  | type expr => expr.fixedParams

namespace Shape

variable {known : String → Bool}

mutual

/-- What an argument is written with is the canonical form of its tokens. -/
theorem canonicalTokens_tokens : (shape : Shape) → (∀ token ∈ shape.tokens, token.Written) →
    {rest : List Token} → goesOn rest = false →
    canonicalTokens true (shape.tokens ++ rest) =
      (TypeExpr.shapeOfArg (shape.arg known)).tokens ++ canonicalTokens false rest
  | ⟨a, nullable, args⟩, h, rest, hrest => by
    have ha := Atom.ofText_text (h a.token (by simp [tokens]))
    by_cases hbare : nullable = true ∨ args ≠ []
    · have hargs := canonicalTokens_listTokens args (fun token hmem => h token (by simp [tokens, hmem])) rest
      rw [canonicalTokens_head a rest (.inr hbare), hargs, arg_of_marked_or_listed known a hbare,
        TypeExpr.shapeOfArg, TypeExpr.shape, ha, tokens, List.cons_append, List.append_assoc]
    · simp only [not_or, ne_eq, Classical.not_not, Bool.not_eq_true] at hbare
      rcases hbare with ⟨rfl, rfl⟩
      cases a with
      | literal l =>
        simp [tokens, listTokens, markTokens, Atom.token, arg, TypeExpr.shapeOfArg, Param.shape,
          canonicalTokens, hrest, Token.canonical, Token.startsArgument]
      | name n =>
        rw [Atom.text] at ha
        rw [arg]
        split <;> simp [tokens, listTokens, markTokens, Atom.token, TypeExpr.shapeOfArg, Param.shape,
          TypeExpr.bare, TypeExpr.shape, TypeExpr.shapes, ha, canonicalTokens, Token.canonical,
          Token.startsArgument]

theorem canonicalTokens_listTokens : (shapes : List Shape) →
    (∀ token ∈ listTokens shapes, token.Written) → (rest : List Token) →
    canonicalTokens false (listTokens shapes ++ rest) =
      listTokens (TypeExpr.shapes (argsOf known shapes)) ++ canonicalTokens false rest
  | [], _, rest => by rw [argsOf, TypeExpr.shapes, listTokens, List.nil_append, List.nil_append]
  | first :: shapes, h, rest => by
    rw [listTokens] at h
    have hfirst := canonicalTokens_tokens first (fun token hmem => h token (by simp [hmem]))
      (goesOn_moreTokens shapes rest)
    have hmore := canonicalTokens_moreTokens shapes (fun token hmem => h token (by simp [hmem])) rest
    rw [argsOf, TypeExpr.shapes, listTokens, listTokens, List.cons_append, List.append_assoc,
      canonicalTokens, Token.startsArgument, hfirst, hmore, List.cons_append, List.append_assoc]
    rfl

theorem canonicalTokens_moreTokens : (shapes : List Shape) →
    (∀ token ∈ moreTokens shapes, token.Written) → (rest : List Token) →
    canonicalTokens false (moreTokens shapes ++ rest) =
      moreTokens (TypeExpr.shapes (argsOf known shapes)) ++ canonicalTokens false rest
  | [], _, rest => by
    rw [argsOf, TypeExpr.shapes, moreTokens]
    rfl
  | shape :: shapes, h, rest => by
    rw [moreTokens] at h
    have hshape := canonicalTokens_tokens shape (fun token hmem => h token (by simp [hmem]))
      (goesOn_moreTokens shapes rest)
    have hmore := canonicalTokens_moreTokens shapes (fun token hmem => h token (by simp [hmem])) rest
    rw [argsOf, TypeExpr.shapes, moreTokens, moreTokens, List.cons_append, List.append_assoc,
      canonicalTokens, Token.startsArgument, hshape, hmore, List.cons_append, List.append_assoc]
    rfl

end

mutual

theorem bareIntegers_tokens : (shape : Shape) → {rest : List Token} → goesOn rest = false →
    (bareIntegers true (shape.tokens ++ rest)).map Literal.value =
      TypeExpr.fixedParamsOfArg (shape.arg known) ++ (bareIntegers false rest).map Literal.value
  | ⟨a, nullable, args⟩, rest, hrest => by
    by_cases hbare : nullable = true ∨ args ≠ []
    · rw [bareIntegers_head a rest (.inr hbare), bareIntegers_listTokens args rest,
        arg_of_marked_or_listed known a hbare, TypeExpr.fixedParamsOfArg, TypeExpr.fixedParams]
    · simp only [not_or, ne_eq, Classical.not_not, Bool.not_eq_true] at hbare
      rcases hbare with ⟨rfl, rfl⟩
      cases a with
      | literal l =>
        simp [tokens, listTokens, markTokens, Atom.token, arg, TypeExpr.fixedParamsOfArg, Param.value?,
          bareIntegers, hrest, Token.literal?, Token.startsArgument]
      | name n =>
        rw [arg]
        split <;> simp [tokens, listTokens, markTokens, Atom.token, TypeExpr.fixedParamsOfArg,
          TypeExpr.bare, TypeExpr.fixedParams, TypeExpr.fixedParamsOfArgs, Param.value?, bareIntegers,
          Token.literal?, Token.startsArgument]

theorem bareIntegers_listTokens : (shapes : List Shape) → (rest : List Token) →
    (bareIntegers false (listTokens shapes ++ rest)).map Literal.value =
      TypeExpr.fixedParamsOfArgs (argsOf known shapes) ++ (bareIntegers false rest).map Literal.value
  | [], rest => by rw [argsOf, TypeExpr.fixedParamsOfArgs, listTokens, List.nil_append, List.nil_append]
  | first :: shapes, rest => by
    have hfirst := bareIntegers_tokens first (goesOn_moreTokens shapes rest)
    rw [bareIntegers_moreTokens shapes rest] at hfirst
    rw [argsOf, TypeExpr.fixedParamsOfArgs, listTokens, List.cons_append, List.append_assoc,
      List.append_assoc, ← hfirst]
    rfl

theorem bareIntegers_moreTokens : (shapes : List Shape) → (rest : List Token) →
    (bareIntegers false (moreTokens shapes ++ rest)).map Literal.value =
      TypeExpr.fixedParamsOfArgs (argsOf known shapes) ++ (bareIntegers false rest).map Literal.value
  | [], rest => by
    rw [argsOf, TypeExpr.fixedParamsOfArgs, moreTokens]
    rfl
  | shape :: shapes, rest => by
    have hshape := bareIntegers_tokens shape (goesOn_moreTokens shapes rest)
    rw [bareIntegers_moreTokens shapes rest] at hshape
    rw [argsOf, TypeExpr.fixedParamsOfArgs, moreTokens, List.cons_append, List.append_assoc,
      List.append_assoc, ← hshape]
    rfl

end

theorem shape_signature (a : Atom) (nullable : Bool) (args : List Shape) :
    (signature known ⟨a, nullable, args⟩).shape =
      ⟨.ofText a.text, nullable, TypeExpr.shapes (argsOf known args)⟩ := by
  unfold signature
  split
  · next heq =>
    cases heq
    rw [Signature.shape, argsOf, TypeExpr.shapes, Atom.text]
  · next heq =>
    cases heq
    rw [Signature.shape, TypeExpr.shape]

theorem fixedParams_signature (a : Atom) (nullable : Bool) (args : List Shape) :
    (signature known ⟨a, nullable, args⟩).fixedParams =
      TypeExpr.fixedParamsOfArgs (argsOf known args) := by
  unfold signature
  split
  · next heq =>
    cases heq
    rw [Signature.fixedParams, argsOf, TypeExpr.fixedParamsOfArgs]
  · next heq =>
    cases heq
    rw [Signature.fixedParams, TypeExpr.fixedParams]

theorem canonicalTokens_eq_tokens_shape {shape : Shape} (h : ∀ token ∈ shape.tokens, token.Written) :
    canonicalTokens false shape.tokens = (shape.signature known).shape.tokens := by
  rcases shape with ⟨a, nullable, args⟩
  have ha := Atom.ofText_text (h a.token (by simp [tokens]))
  have hhead := @canonicalTokens_head a nullable args [] false (.inl rfl)
  have hargs := @canonicalTokens_listTokens known args (fun token hmem => h token (by simp [tokens, hmem])) []
  rw [hargs, canonicalTokens, List.append_nil, List.append_nil] at hhead
  rw [hhead, shape_signature, ha, tokens]

theorem bareIntegers_eq_fixedParams (shape : Shape) :
    (bareIntegers false shape.tokens).map Literal.value = (shape.signature known).fixedParams := by
  rcases shape with ⟨a, nullable, args⟩
  have hhead := @bareIntegers_head a nullable args [] false (.inl rfl)
  have hargs := @bareIntegers_listTokens known args []
  rw [← hhead, List.append_nil, bareIntegers, List.map_nil, List.append_nil] at hargs
  rw [hargs, fixedParams_signature]

end Shape

end Signatures
