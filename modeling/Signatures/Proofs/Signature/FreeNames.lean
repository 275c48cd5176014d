import Signatures.Proofs.ArgType.Resolving
import Signatures.Proofs.Catalog.Reachable
import Signatures.Proofs.Signature.Canonical
import Signatures.Proofs.Signature.Parsing
import Signatures.Proofs.Signature.Variables

/-!
# Variables and the tokens that they come from

A name stands bare as an argument if the token before it starts an argument and the token after it ends
one. The variables of a signature are its bare names that are not known, in the order of the tokens, and
resolving a type keeps its variables and their order.
-/

namespace Signatures

namespace Token

/-- An argument ends before a comma and before a closing bracket. -/
def endsArgument : Token → Bool
  | comma | gt => true
  | _ => false

def name? : Token → Option String
  | ident name => some name
  | _ => none

end Token

/-- The names that stand directly behind an opening bracket or a comma, and directly before a comma or a
closing bracket. -/
def bareNames : List Token → List String
  | before :: token :: after :: ts =>
    (if before.startsArgument && after.endsArgument then token.name?.toList else []) ++
      bareNames (token :: after :: ts)
  | _ => []

def freeNames (known : String → Bool) (ts : List Token) : List String :=
  (bareNames ts).filter fun name => !known name

section Tokens

variable {before token after : Token} {ts : List Token}

theorem bareNames_cons (h : token.startsArgument = false) (ts : List Token) :
    bareNames (token :: ts) = bareNames ts := by
  match ts with
  | [] | [_] => rfl
  | next :: after :: ts => simp [bareNames, h]

theorem bareNames_lt (ts : List Token) : bareNames (.lt :: ts) = bareNames (.comma :: ts) := by
  match ts with
  | [] | [_] | _ :: _ :: _ => rfl

theorem bareNames_of_goesOn (h : goesOn ts = true) :
    bareNames (before :: token :: ts) = bareNames (token :: ts) := by
  match ts with
  | .question :: ts | .lt :: ts => simp [bareNames, Token.endsArgument]

theorem bareNames_bare (hbefore : before.startsArgument = true) (hafter : after.endsArgument = true)
    (htoken : token.startsArgument = false) (ts : List Token) :
    bareNames (before :: token :: after :: ts) = token.name?.toList ++ bareNames (after :: ts) := by
  rw [bareNames, hbefore, hafter, bareNames_cons htoken]
  rfl

theorem bareNames_head (a : Atom) (nullable : Bool) (ts : List Token) :
    bareNames (a.token :: (markTokens nullable ++ ts)) = bareNames ts := by
  rw [bareNames_cons (startsArgument_token a)]
  cases nullable with
  | false => rfl
  | true => exact bareNames_cons rfl ts

theorem exists_endsArgument (shapes : List Shape) (rest : List Token) :
    ∃ after more, Shape.moreTokens shapes ++ rest = after :: more ∧ after.endsArgument = true := by
  cases shapes with
  | nil => exact ⟨.gt, rest, by rw [Shape.moreTokens]; rfl, rfl⟩
  | cons shape shapes => exact ⟨.comma, _, by rw [Shape.moreTokens, List.cons_append], rfl⟩

end Tokens

namespace Shape

open TypeExpr (varsOfArg varsOfArgs)

variable {known : String → Bool}

/-- A shape that is a name or a literal alone is a variable exactly if it is a name that is not known. -/
theorem varsOfArg_bare (a : Atom) :
    varsOfArg (arg known ⟨a, false, []⟩) = a.token.name?.toList.filter fun name => !known name := by
  cases a with
  | literal l => simp [arg, varsOfArg, Param.vars, Atom.token, Token.name?]
  | name n =>
    by_cases hknown : known n = true
    · simp [arg, hknown, varsOfArg, TypeExpr.bare, TypeExpr.vars, varsOfArgs, Atom.token, Token.name?]
    · simp [arg, hknown, varsOfArg, Param.vars, Atom.token, Token.name?]

/-- The arguments of a list stand behind its opening bracket as others do behind a comma. -/
theorem freeNames_listTokens {shapes : List Shape} {rest : List Token}
    (h : freeNames known (moreTokens shapes ++ rest) =
      varsOfArgs (argsOf known shapes) ++ freeNames known rest) :
    freeNames known (listTokens shapes ++ rest) =
      varsOfArgs (argsOf known shapes) ++ freeNames known rest := by
  cases shapes with
  | nil => rw [argsOf, varsOfArgs, listTokens, List.nil_append, List.nil_append]
  | cons first shapes =>
    rw [← h, listTokens, moreTokens, List.cons_append, List.cons_append, freeNames, bareNames_lt, freeNames]

mutual

/-- The free names of an argument are its variables. -/
theorem freeNames_tokens : (shape : Shape) → {before after : Token} → before.startsArgument = true →
    after.endsArgument = true → (more : List Token) →
    freeNames known (before :: (shape.tokens ++ after :: more)) =
      varsOfArg (shape.arg known) ++ freeNames known (after :: more)
  | ⟨a, nullable, args⟩, before, after, hbefore, hafter, more => by
    rw [tokens, List.cons_append, List.append_assoc]
    by_cases hbare : nullable = true ∨ args ≠ []
    · have hlist := freeNames_listTokens (freeNames_moreTokens args (after :: more))
      rw [freeNames, bareNames_of_goesOn (goesOn_of_marked_or_listed hbare (after :: more)), bareNames_head,
        ← freeNames, hlist, arg_of_marked_or_listed known a hbare, varsOfArg, TypeExpr.vars]
    · simp only [not_or, ne_eq, Classical.not_not, Bool.not_eq_true] at hbare
      rcases hbare with ⟨rfl, rfl⟩
      rw [listTokens, freeNames, markTokens, if_neg Bool.false_ne_true, List.nil_append, List.nil_append,
        bareNames_bare hbefore hafter (startsArgument_token a), List.filter_append, varsOfArg_bare, freeNames]

theorem freeNames_moreTokens : (shapes : List Shape) → (rest : List Token) →
    freeNames known (moreTokens shapes ++ rest) =
      varsOfArgs (argsOf known shapes) ++ freeNames known rest
  | [], rest => by
    rw [argsOf, varsOfArgs, moreTokens, List.singleton_append, freeNames, bareNames_cons rfl]
    rfl
  | shape :: shapes, rest => by
    rcases exists_endsArgument shapes rest with ⟨after, more, hmore, hafter⟩
    have hrest := freeNames_moreTokens shapes rest
    rw [hmore] at hrest
    rw [argsOf, varsOfArgs, moreTokens, List.cons_append, List.append_assoc, hmore,
      freeNames_tokens shape rfl hafter more, hrest, List.append_assoc]

end

/-- The free names of a signature are its variables. -/
theorem freeNames_eq_vars (shape : Shape) :
    freeNames known shape.tokens = (shape.signature known).vars := by
  rcases shape with ⟨a, nullable, args⟩
  have hargs := freeNames_listTokens (@freeNames_moreTokens known args [])
  have hnone : freeNames known [] = [] := rfl
  have hvars : (signature known ⟨a, nullable, args⟩).vars = varsOfArgs (argsOf known args) := by
    unfold signature
    split
    · next heq =>
      cases heq
      rw [Signature.vars, argsOf, varsOfArgs]
    · next heq =>
      cases heq
      rw [Signature.vars, TypeExpr.vars]
  rw [List.append_nil, hnone, List.append_nil] at hargs
  rw [hvars, ← hargs, tokens, freeNames, bareNames_head, freeNames]

end Shape

theorem ArgType.argVars_map_type (types : List ArgType) : argVars (types.map .type) = fieldVars types := by
  induction types with
  | nil => simp [argVars, fieldVars]
  | cons t types ih => simp [argVars, fieldVars, ih]

theorem TypeKind.vars_assemble {kind : TypeKind} {args : List (Arg ArgType)}
    (h : kind = .extension ∨ kind.Takes args) (name : String) (n : Nullability) :
    (kind.assemble name args n).vars = ArgType.argVars args := by
  rcases h with rfl | htakes
  · rw [assemble_extension, ArgType.vars]
  cases htakes with
  | scalar | sized | decimal | list | map | any => simp [assemble, ArgType.vars, ArgType.argVars]
  | struct fields hne => rw [assemble, typesOf_map_type, ArgType.vars, ArgType.argVars_map_type]

namespace Catalog

variable {catalog : Catalog} {source : String} {t : ArgType}

mutual

/-- A resolved type has the variables of its type expression. -/
theorem vars_of_resolve : (expr : TypeExpr) → {t : ArgType} → catalog.resolve expr = .ok t →
    t.vars = expr.vars
  | ⟨name, nullable, args⟩, t, h => by
    rcases resolve_eq_ok_iff.mp h with ⟨entry, resolved, hlookup, hholds, hresolved, rfl⟩
    rw [TypeKind.vars_assemble (takes_of_resolveArgs hlookup hholds hresolved), TypeExpr.vars,
      argVars_of_resolveArgs args hresolved]

theorem argVars_of_resolveArgs : (args : List (Arg TypeExpr)) → {resolved : List (Arg ArgType)} →
    catalog.resolveArgs args = .ok resolved → ArgType.argVars resolved = TypeExpr.varsOfArgs args
  | [], resolved, h => by
    rw [resolveArgs_nil] at h
    cases h
    rw [ArgType.argVars, TypeExpr.varsOfArgs]
  | .param value :: args, resolved, h => by
    rcases resolveArgs_param_eq_ok_iff.mp h with ⟨tail, htail, rfl⟩
    rw [ArgType.argVars, TypeExpr.varsOfArgs, TypeExpr.varsOfArg, argVars_of_resolveArgs args htail]
  | .type inner :: args, resolved, h => by
    rcases resolveArgs_type_eq_ok_iff.mp h with ⟨s, tail, hs, htail, rfl⟩
    rw [ArgType.argVars, TypeExpr.varsOfArgs, TypeExpr.varsOfArg, vars_of_resolve inner hs,
      argVars_of_resolveArgs args htail]

end

/-- The variables of the type that a text is resolved to are the names that stand bare as arguments in the
text and are not known, in the order of the text and each as often as it stands there. -/
theorem vars_of_parse_resolve {expr : TypeExpr} (hparse : catalog.parse source = .ok (.type expr))
    (hresolve : catalog.resolve expr = .ok t) :
    ∃ lexemes, Lexeme.scan source = .ok lexemes ∧
      t.vars = freeNames catalog.knows (lexemes.map Lexeme.token) := by
  rcases parse_eq_ok_iff.mp hparse with ⟨shape, hshape, hsignature⟩
  rcases Shape.parse_eq_ok_iff.mp hshape with ⟨lexemes, hscan, -, htokens⟩
  refine ⟨lexemes, hscan, ?_⟩
  rw [vars_of_resolve expr hresolve, ← htokens, Shape.freeNames_eq_vars, hsignature, Signature.vars]

/-- Variables at several depths, one of them twice, beside a bare name that is known. -/
theorem vars_of_parse_resolve_points : ∃ expr t,
    points.parse "struct<point< y,x>, map<i8, decimal?<P,y>>>" = .ok (.type expr) ∧
      points.resolve expr = .ok t ∧ t.vars = ["y", "x", "P", "y"] := by
  have hparse : points.parse "struct<point< y,x>, map<i8, decimal?<P,y>>>" = .ok (.type
      ⟨"struct", false, [.type ⟨"point", false, [.param (.free "y"), .param (.free "x")]⟩,
        .type ⟨"map", false, [.type ⟨"i8", false, []⟩,
          .type ⟨"decimal", true, [.param (.free "P"), .param (.free "y")]⟩]⟩]⟩) :=
    eq_ok_of_toOption (by decide +kernel)
  have hnames : (Lexeme.scan "struct<point< y,x>, map<i8, decimal?<P,y>>>").toOption.map
      (fun lexemes => freeNames points.knows (lexemes.map Lexeme.token)) = some ["y", "x", "P", "y"] := by
    decide +kernel
  rcases vars_of_parse_resolve hparse rfl with ⟨lexemes, hscan, hvars⟩
  rw [hscan] at hnames
  exact ⟨_, _, hparse, rfl, hvars.trans (Option.some.inj hnames)⟩

end Catalog

end Signatures
