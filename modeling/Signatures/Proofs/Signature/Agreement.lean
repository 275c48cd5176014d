import Signatures.Proofs.Catalog.Reachable
import Signatures.Proofs.Signature.Parsing
import Signatures.Proofs.Signature.WellFormed

/-!
# What parsing owes to the catalog

Whether a text has a signature, and which error it has otherwise, is the same under every catalog. Two
catalogs give a text signatures that differ at most in the names that stand bare as arguments, which are
types where they are known and variables elsewhere, and in the blanks of their canonical texts.
-/

namespace Signatures

def Text.withoutSpaces (text : String) : List Char := text.toList.filter (· ≠ ' ')

namespace TypeExpr

section Agreement

variable (known other : String → Bool)

mutual

/-- Arguments that are the same, except that a bare name known on one side only is a type there and a
variable on the other side. -/
inductive AgreeArg : Arg TypeExpr → Arg TypeExpr → Prop where
  | fixed (value : Int32) : AgreeArg (.param (.fixed value)) (.param (.fixed value))
  | knownToNone (n : String) (h : known n = false) (h' : other n = false) :
      AgreeArg (.param (.free n)) (.param (.free n))
  | knownToBoth (n : String) (h : known n = true) (h' : other n = true) :
      AgreeArg (.type ⟨n, false, []⟩) (.type ⟨n, false, []⟩)
  | knownToFirst (n : String) (h : known n = true) (h' : other n = false) :
      AgreeArg (.type ⟨n, false, []⟩) (.param (.free n))
  | knownToSecond (n : String) (h : known n = false) (h' : other n = true) :
      AgreeArg (.param (.free n)) (.type ⟨n, false, []⟩)
  | type (name : String) {nullable : Bool} {args args' : List (Arg TypeExpr)}
      (h : nullable = true ∨ args ≠ []) (hargs : AgreeArgs args args') :
      AgreeArg (.type ⟨name, nullable, args⟩) (.type ⟨name, nullable, args'⟩)

inductive AgreeArgs : List (Arg TypeExpr) → List (Arg TypeExpr) → Prop where
  | nil : AgreeArgs [] []
  | cons {arg arg' : Arg TypeExpr} {args args' : List (Arg TypeExpr)} (h : AgreeArg arg arg')
      (hs : AgreeArgs args args') : AgreeArgs (arg :: args) (arg' :: args')

end

end Agreement

end TypeExpr

/-- Signatures that are the same up to bare names among arguments. -/
inductive Signature.Agree (known other : String → Bool) : Signature → Signature → Prop where
  | number (text : String) : Agree known other (.number text) (.number text)
  | type (name : String) (nullable : Bool) {args args' : List (Arg TypeExpr)}
      (h : TypeExpr.AgreeArgs known other args args') :
      Agree known other (.type ⟨name, nullable, args⟩) (.type ⟨name, nullable, args'⟩)

namespace Shape

variable (known other : String → Bool)

theorem argsOf_ne_nil {shapes : List Shape} (h : shapes ≠ []) : argsOf known shapes ≠ [] := by
  cases shapes with
  | nil => exact absurd rfl h
  | cons shape shapes => simp [argsOf]

mutual

theorem agreeArg : (shape : Shape) → TypeExpr.AgreeArg known other (shape.arg known) (shape.arg other)
  | ⟨.literal l, false, []⟩ => by
    rw [arg, arg]
    exact .fixed l.value
  | ⟨.name n, false, []⟩ => by
    rw [arg, arg]
    cases hknown : known n <;> cases hother : other n
    · exact .knownToNone n hknown hother
    · exact .knownToSecond n hknown hother
    · exact .knownToFirst n hknown hother
    · exact .knownToBoth n hknown hother
  | ⟨a, true, shapes⟩ => by
    rw [arg_of_marked_or_listed known a (.inl rfl), arg_of_marked_or_listed other a (.inl rfl)]
    exact .type a.text (.inl rfl) (agreeArgs shapes)
  | ⟨a, nullable, first :: shapes⟩ => by
    have hlisted : first :: shapes ≠ [] := List.cons_ne_nil _ _
    rw [arg_of_marked_or_listed known a (.inr hlisted), arg_of_marked_or_listed other a (.inr hlisted)]
    exact .type a.text (.inr (argsOf_ne_nil known hlisted)) (agreeArgs (first :: shapes))

theorem agreeArgs : (shapes : List Shape) →
    TypeExpr.AgreeArgs known other (argsOf known shapes) (argsOf other shapes)
  | [] => by
    rw [argsOf, argsOf]
    exact .nil
  | shape :: shapes => by
    rw [argsOf, argsOf]
    exact .cons (agreeArg shape) (agreeArgs shapes)

end

theorem agree_signature (shape : Shape) :
    (shape.signature known).Agree known other (shape.signature other) := by
  unfold signature
  split
  · exact .number _
  · exact .type _ _ (agreeArgs known other _)

end Shape

namespace TypeExpr

open Text

theorem withoutSpaces_append (s t : String) :
    withoutSpaces (s ++ t) = withoutSpaces s ++ withoutSpaces t := by
  rw [withoutSpaces, String.toList_append, List.filter_append]
  rfl

theorem withoutSpaces_separator (args : List (Arg TypeExpr)) :
    withoutSpaces (Arg.separator args) = [','] := by
  rw [Arg.separator]
  split <;> decide

theorem withoutSpaces_bracketed (args : List (Arg TypeExpr)) (items : List String) :
    withoutSpaces (bracketed (Arg.separator args) items) =
      '<' :: ([','].intercalate (items.map withoutSpaces) ++ ['>']) := by
  have hitems : withoutSpaces ((Arg.separator args).intercalate items) =
      [','].intercalate (items.map withoutSpaces) := by
    rw [← withoutSpaces_separator args]
    induction items with
    | nil => rfl
    | cons item items ih =>
      cases items with
      | nil => simp
      | cons next items =>
        rw [String.intercalate_cons_cons, withoutSpaces_append, withoutSpaces_append, ih]
        simp
  rw [bracketed, withoutSpaces_append, withoutSpaces_append, hitems]
  rfl

variable {known other : String → Bool}

mutual

theorem AgreeArg.withoutSpaces_render : {arg arg' : Arg TypeExpr} → AgreeArg known other arg arg' →
    withoutSpaces (renderArg arg) = withoutSpaces (renderArg arg')
  | _, _, .fixed value => rfl
  | _, _, .knownToNone n _ _ => rfl
  | _, _, .knownToBoth n _ _ => rfl
  | _, _, .knownToFirst n _ _ => by rw [renderArg, renderArg, render, headed]; rfl
  | _, _, .knownToSecond n _ _ => by rw [renderArg, renderArg, render, headed]; rfl
  | _, _, .type name _ hargs => by
    rw [renderArg, renderArg]
    exact hargs.withoutSpaces_render name _

theorem AgreeArgs.withoutSpaces_render : {args args' : List (Arg TypeExpr)} →
    AgreeArgs known other args args' → (name : String) → (nullable : Bool) →
    withoutSpaces (render ⟨name, nullable, args⟩) = withoutSpaces (render ⟨name, nullable, args'⟩)
  | _, _, .nil, name, nullable => rfl
  | _, _, .cons h hs, name, nullable => by
    rw [render, render, withoutSpaces_append, withoutSpaces_append, withoutSpaces_bracketed,
      withoutSpaces_bracketed, (AgreeArgs.cons h hs).map_withoutSpaces]

theorem AgreeArgs.map_withoutSpaces : {args args' : List (Arg TypeExpr)} →
    AgreeArgs known other args args' →
    (renderArgs args).map withoutSpaces = (renderArgs args').map withoutSpaces
  | _, _, .nil => rfl
  | _, _, .cons h hs => by
    rw [renderArgs, renderArgs, List.map_cons, List.map_cons, h.withoutSpaces_render, hs.map_withoutSpaces]

end

end TypeExpr

theorem Signature.Agree.withoutSpaces_render {known other : String → Bool} {s t : Signature}
    (h : s.Agree known other t) : Text.withoutSpaces s.render = Text.withoutSpaces t.render := by
  cases h with
  | number text => rfl
  | type name nullable h => exact h.withoutSpaces_render name nullable

namespace Catalog

/-- Under two catalogs a text has a signature or the same error. Its signatures agree up to the bare names
that one of the catalogs knows and the other does not, and so do their texts up to spaces. -/
theorem parse_agrees (catalog other : Catalog) (source : String) :
    (∀ error, catalog.parse source = .error error ↔ other.parse source = .error error) ∧
      ∀ s t, catalog.parse source = .ok s → other.parse source = .ok t →
        s.Agree catalog.knows other.knows t ∧ Text.withoutSpaces s.render = Text.withoutSpaces t.render := by
  constructor
  · intro error
    rw [parse_eq, parse_eq]
    cases Shape.parse source <;> simp [Except.map]
  · intro s t hs ht
    rcases parse_eq_ok_iff.mp hs with ⟨shape, hshape, rfl⟩
    rcases parse_eq_ok_iff.mp ht with ⟨shape', hshape', rfl⟩
    rw [hshape] at hshape'
    cases hshape'
    have hagree := Shape.agree_signature catalog.knows other.knows shape
    exact ⟨hagree, hagree.withoutSpaces_render⟩

/-- A name that one of two catalogs knows is a type there and a variable under the other. -/
example : (points.parse "list<point>").toOption =
      some (.type ⟨"list", false, [.type ⟨"point", false, []⟩]⟩) ∧
    (builtin.parse "list<point>").toOption =
      some (.type ⟨"list", false, [.param (.free "point")]⟩) := by
  decide +kernel

end Catalog

end Signatures
