import Signatures.Proofs.Signature.WellFormed

/-!
# Canonical texts spell the tokens of their shapes

The canonical text of a well-formed signature spells the tokens of its shape: the separator of a list
is a comma with or without a blank, and every word in a list ends before a mark of punctuation.
-/

namespace Signatures

open Text Lexeme

namespace Atom

theorem text_token (a : Atom) : a.token.text = a.text := by cases a <;> rfl

/-- A written atom is spelled by its text before anything that does not continue the word. -/
theorem spells {a : Atom} (h : a.token.Written) {rest : List Char} (hrest : NoWord rest) :
    SpellsTokens a.text.toList [a.token] rest := by
  have hends : a.token.EndsBefore rest := by
    cases a with
    | name n => exact hrest
    | literal l => exact hrest
  rw [← text_token]
  exact spellsTokens_token h hends

end Atom

theorem spells_headed {name : String} (h : IsAtomText name) (nullable : Bool) {rest : List Char}
    (hrest : NoWord rest) :
    SpellsTokens (headed name nullable).toList ((Atom.ofText name).token :: markTokens nullable) rest := by
  have hatom {rest : List Char} (hrest : NoWord rest) :
      SpellsTokens name.toList [(Atom.ofText name).token] rest := by
    have hspells := Atom.spells (Atom.written_ofText h) hrest
    rwa [Atom.text_ofText] at hspells
  cases nullable with
  | false => exact hatom hrest
  | true =>
    rw [headed, if_pos rfl, String.toList_append]
    have hmark : SpellsTokens "?".toList [.question] rest :=
      @spellsTokens_token .question rest trivial trivial
    exact (hatom (noWord_cons (by decide) rest)).append hmark

theorem Param.spells {known : String → Bool} {value : Param} (h : value.WellFormed known)
    {rest : List Char} (hrest : NoWord rest) :
    SpellsTokens value.render.toList value.shape.tokens rest := by
  cases value with
  | fixed value => exact @Atom.spells (.literal (.ofInt32 value)) trivial rest hrest
  | free name => exact @Atom.spells (.name name) h.1 rest hrest

theorem spells_separator (args : List (Arg TypeExpr)) (rest : List Char) :
    SpellsTokens (Arg.separator args).toList [.comma] rest := by
  rw [Arg.separator]
  split
  · exact @spellsTokens_token .comma rest trivial trivial
  · exact (@spellsTokens_token .comma (' ' :: rest) trivial trivial).append (spellsTokens_blank rfl rest)

theorem noWord_separator (args : List (Arg TypeExpr)) (rest : List Char) :
    NoWord ((Arg.separator args).toList ++ rest) := by
  rw [Arg.separator]
  split <;> exact noWord_cons (by decide) _

/-- Each text spells the tokens of a shape, wherever no letter, digit or `_` comes next. -/
inductive SpellShapes : List String → List Shape → Prop where
  | nil : SpellShapes [] []
  | cons {text : String} {shape : Shape} {texts : List String} {shapes : List Shape}
      (h : ∀ rest, NoWord rest → SpellsTokens text.toList shape.tokens rest)
      (hs : SpellShapes texts shapes) : SpellShapes (text :: texts) (shape :: shapes)

section

variable {separator : String} {texts : List String} {shapes : List Shape}

theorem SpellShapes.spells_more (hsep : ∀ rest, SpellsTokens separator.toList [.comma] rest)
    (hword : ∀ rest, NoWord (separator.toList ++ rest)) (hs : SpellShapes texts shapes) {text : String}
    {ts : List Token} (h : ∀ rest, NoWord rest → SpellsTokens text.toList ts rest) (rest : List Char) :
    SpellsTokens (separator.intercalate (text :: texts) ++ ">").toList (ts ++ Shape.moreTokens shapes)
      rest := by
  induction hs generalizing text ts with
  | nil =>
    rw [String.intercalate_singleton, String.toList_append, Shape.moreTokens]
    exact (h _ (noWord_cons (by decide) rest)).append (@spellsTokens_token .gt rest trivial trivial)
  | cons hnext hs ih =>
    have htail := (hsep _).append (ih hnext)
    rw [String.intercalate_cons_cons, String.append_assoc, String.append_assoc, String.toList_append,
      String.toList_append, Shape.moreTokens]
    refine (h _ ?_).append htail
    rw [List.append_assoc]
    exact hword _

/-- A name with its mark and the texts of shapes between brackets spell the tokens of a shape. -/
theorem SpellShapes.spells_listed (hsep : ∀ rest, SpellsTokens separator.toList [.comma] rest)
    (hword : ∀ rest, NoWord (separator.toList ++ rest)) (hs : SpellShapes texts shapes) (hne : texts ≠ [])
    {name : String} (hname : IsAtomText name) (nullable : Bool) (rest : List Char) :
    SpellsTokens (headed name nullable ++ bracketed separator texts).toList
      (Shape.tokens ⟨.ofText name, nullable, shapes⟩) rest := by
  cases hs with
  | nil => exact absurd rfl hne
  | cons h hs =>
    have hlist := (@spellsTokens_token .lt _ trivial trivial).append (hs.spells_more hsep hword h rest)
    rw [Shape.tokens, Shape.listTokens, bracketed, String.append_assoc, String.toList_append,
      String.toList_append]
    exact (spells_headed hname nullable (noWord_cons (by decide) _)).append hlist

end

namespace TypeExpr

variable {known : String → Bool}

mutual

theorem spells : (expr : TypeExpr) → IsAtomText expr.name → WellFormedArgs known expr.args →
    {rest : List Char} → NoWord rest → SpellsTokens expr.render.toList expr.shape.tokens rest
  | ⟨name, nullable, []⟩, hname, _, rest, hrest => by
    rw [render, shape, shapes, Shape.tokens, Shape.listTokens, List.append_nil]
    exact spells_headed hname nullable hrest
  | ⟨name, nullable, first :: args⟩, hname, hargs, rest, _ => by
    have hshapes := spellShapes_args (first :: args) hargs
    rw [render, shape]
    exact hshapes.spells_listed (spells_separator _) (noWord_separator _) (by simp [renderArgs]) hname
      nullable rest

theorem spellShapes_args : (args : List (Arg TypeExpr)) → WellFormedArgs known args →
    SpellShapes (renderArgs args) (shapes args)
  | [], _ => by
    rw [renderArgs, shapes]
    exact .nil
  | arg :: args, h => by
    rw [WellFormedArgs] at h
    rw [renderArgs, shapes]
    exact .cons (spells_arg arg h.1) (spellShapes_args args h.2)

theorem spells_arg : (arg : Arg TypeExpr) → WellFormedArg known arg → (rest : List Char) →
    NoWord rest → SpellsTokens (renderArg arg).toList (shapeOfArg arg).tokens rest
  | .type inner, h, rest, hrest => by
    rw [WellFormedArg] at h
    rw [renderArg, shapeOfArg]
    rcases inner with ⟨name, nullable, args⟩
    rw [WellFormed] at h
    exact spells ⟨name, nullable, args⟩ h.1 h.2.2 hrest
  | .param value, h, rest, hrest => by
    rw [WellFormedArg] at h
    rw [renderArg, shapeOfArg]
    exact value.spells h hrest

end

end TypeExpr

/-- The text of a well-formed signature spells the tokens of its shape. -/
theorem Signature.spells_render {known : String → Bool} {s : Signature} (h : s.WellFormed known) :
    SpellsTokens s.render.toList s.shape.tokens [] := by
  cases s with
  | number text =>
    have hatom := Atom.spells (Atom.written_ofText (.inr h)) noWord_nil
    rwa [Atom.text_ofText] at hatom
  | type expr =>
    rcases h with ⟨hname, hargs⟩
    refine expr.spells ?_ hargs noWord_nil
    rcases hname with hname | ⟨hint, -⟩
    · exact .inl hname
    · exact .inr hint

end Signatures
