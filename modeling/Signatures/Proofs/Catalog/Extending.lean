import Signatures.Proofs.ArgType.Resolving
import Signatures.Proofs.Catalog.Reachable
import Signatures.Proofs.Signature.Parsing
import Signatures.Proofs.Signature.Variables

/-!
# What adding an extension changes

An extension is only accepted under a name that the catalog does not know, so the names that it knows keep
their meaning. Whatever resolved before resolves to the same type, and a text keeps its signature unless the
name of the extension is a variable of it.
-/

namespace Signatures.Catalog

variable {catalog next : Catalog} {ext : Extension}

/-- The catalog says the same about all names that another one knows. -/
def Extends (next catalog : Catalog) : Prop :=
  ∀ name entry, catalog.lookup? name = some entry → next.lookup? name = some entry

namespace Extends

theorem refl (catalog : Catalog) : catalog.Extends catalog := fun _ _ h => h

theorem knows (h : next.Extends catalog) (name : String) (hknown : catalog.knows name = true) :
    next.knows name = true := by
  rcases Option.isSome_iff_exists.mp hknown with ⟨entry, hentry⟩
  exact Option.isSome_of_eq_some (h name entry hentry)

mutual

theorem resolve (h : next.Extends catalog) : (expr : TypeExpr) → (t : ArgType) →
    catalog.resolve expr = .ok t → next.resolve expr = .ok t
  | ⟨name, nullable, args⟩, t, hresolve => by
    rcases resolve_eq_ok_iff.mp hresolve with ⟨entry, resolved, hlookup, hholds, hresolved, ht⟩
    exact resolve_eq_ok_iff.mpr
      ⟨entry, resolved, h name entry hlookup, hholds, h.resolveArgs args resolved hresolved, ht⟩

theorem resolveArgs (h : next.Extends catalog) : (args : List (Arg TypeExpr)) →
    (resolved : List (Arg ArgType)) → catalog.resolveArgs args = .ok resolved →
    next.resolveArgs args = .ok resolved
  | [], resolved, hresolve => by
    rw [resolveArgs_nil] at hresolve
    rw [resolveArgs_nil, hresolve]
  | .param value :: args, resolved, hresolve => by
    rcases resolveArgs_param_eq_ok_iff.mp hresolve with ⟨tail, htail, hresolved⟩
    exact resolveArgs_param_eq_ok_iff.mpr ⟨tail, h.resolveArgs args tail htail, hresolved⟩
  | .type inner :: args, resolved, hresolve => by
    rcases resolveArgs_type_eq_ok_iff.mp hresolve with ⟨t, tail, hinner, htail, hresolved⟩
    exact resolveArgs_type_eq_ok_iff.mpr
      ⟨t, tail, h.resolve inner t hinner, h.resolveArgs args tail htail, hresolved⟩

end

/-- A text keeps its signature exactly if none of the variables in it becomes known. -/
theorem parse_eq_ok_iff (h : next.Extends catalog) {source : String} {s : Signature}
    (hparse : catalog.parse source = .ok s) :
    next.parse source = .ok s ↔ ∀ name ∈ s.vars, next.knows name = false := by
  rcases Catalog.parse_eq_ok_iff.mp hparse with ⟨shape, hshape, rfl⟩
  rw [← Shape.signature_eq_iff h.knows shape, Catalog.parse_eq, hshape, Except.map, Except.ok.injEq]

end Extends

theorem lookup?_name_of_add (h : catalog.add ext = .ok next) : catalog.lookup? ext.name = none := by
  rcases add_eq_ok_iff.mp h with ⟨hvalid, hnew, -⟩
  rw [lookup?, hvalid.not_builtin, extension?_eq_none_iff.mpr hnew, hvalid.not_wildcard]
  rfl

theorem lookup?_of_add (h : catalog.add ext = .ok next) (name : String) :
    next.lookup? name = if name = ext.name then some ext.entry else catalog.lookup? name := by
  rcases add_eq_ok_iff.mp h with ⟨hvalid, hnew, rfl⟩
  have hfind : extension? ⟨catalog.extensions ++ [ext]⟩ name =
      (catalog.extension? name).or (if ext.name = name then some ext else none) := by
    rw [extension?, List.find?_append, List.find?_singleton, ← extension?]
    simp only [beq_iff_eq]
  rw [lookup?, hfind]
  by_cases hname : name = ext.name
  · subst hname
    rw [hvalid.not_builtin, extension?_eq_none_iff.mpr hnew, Option.none_or, if_pos rfl, if_pos rfl]
  · rw [if_neg (Ne.symm hname), Option.or_none, if_neg hname, lookup?]

theorem extends_of_add (h : catalog.add ext = .ok next) : next.Extends catalog := by
  intro name entry hentry
  have hname : name ≠ ext.name := by
    rintro rfl
    rw [lookup?_name_of_add h] at hentry
    cases hentry
  rw [lookup?_of_add h, if_neg hname, hentry]

theorem knows_eq_false_iff_of_add (h : catalog.add ext = .ok next) {name : String}
    (hunknown : catalog.knows name = false) : next.knows name = false ↔ name ≠ ext.name := by
  rw [Catalog.knows, lookup?_of_add h]
  split
  · next hname => simp [hname]
  · next hname => simpa [Catalog.knows, hname] using hunknown

/-- The variables of a signature are unknown to the catalog that it is parsed with. -/
theorem knows_eq_false_of_mem_vars {source name : String} {s : Signature}
    (h : catalog.parse source = .ok s) (hname : name ∈ s.vars) : catalog.knows name = false :=
  ((Extends.refl catalog).parse_eq_ok_iff h).mp h name hname

theorem parse_eq_ok_iff_of_add (hadd : catalog.add ext = .ok next) {source : String} {s : Signature}
    (h : catalog.parse source = .ok s) : next.parse source = .ok s ↔ ext.name ∉ s.vars := by
  rw [(extends_of_add hadd).parse_eq_ok_iff h]
  constructor
  · intro hunknown hmem
    have hne := (knows_eq_false_iff_of_add hadd (knows_eq_false_of_mem_vars h hmem)).mp (hunknown _ hmem)
    exact hne rfl
  · intro hfree name hmem
    have hunknown := knows_eq_false_of_mem_vars h hmem
    exact (knows_eq_false_iff_of_add hadd hunknown).mpr fun heq => hfree (heq ▸ hmem)

/-- Adding an extension is conservative: its name was unknown, every other name means what it meant, every
type expression that resolved resolves to the same type, and exactly the texts that have its name as a
variable change their signatures. So a signature without this variable still resolves to the same type. -/
theorem add_conservative (h : catalog.add ext = .ok next) :
    catalog.lookup? ext.name = none ∧
      (∀ name, name ≠ ext.name → next.lookup? name = catalog.lookup? name ∧
        next.shortName name = catalog.shortName name ∧ next.ruleOf name = catalog.ruleOf name) ∧
      (∀ expr t, catalog.resolve expr = .ok t → next.resolve expr = .ok t) ∧
      (∀ source s, catalog.parse source = .ok s → (next.parse source = .ok s ↔ ext.name ∉ s.vars)) ∧
      ∀ source expr t, catalog.parse source = .ok (.type expr) → catalog.resolve expr = .ok t →
        ext.name ∉ expr.vars → next.parse source = .ok (.type expr) ∧ next.resolve expr = .ok t := by
  have hextends := extends_of_add h
  refine ⟨lookup?_name_of_add h, ?_, hextends.resolve, fun source s => parse_eq_ok_iff_of_add h, ?_⟩
  · intro name hname
    have hlookup : next.lookup? name = catalog.lookup? name := by rw [lookup?_of_add h, if_neg hname]
    exact ⟨hlookup, by rw [shortName, shortName, hlookup], by rw [ruleOf, ruleOf, hlookup]⟩
  · intro source expr t hparse hresolve hfree
    exact ⟨(parse_eq_ok_iff_of_add h hparse).mpr hfree, hextends.resolve expr t hresolve⟩

/-- Of a text with two variables and a text with one, the addition of points changes the one in which it
is the variable. -/
theorem add_conservative_points :
    builtin.add ⟨"point", "pt", 2, some 2, .integer⟩ = .ok points ∧
      points.parse "decimal?<P,S>" = .ok (.type ⟨"decimal", true, [.param (.free "P"), .param (.free "S")]⟩) ∧
      points.parse "list<point>" ≠ .ok (.type ⟨"list", false, [.param (.free "point")]⟩) := by
  have hadd : builtin.add ⟨"point", "pt", 2, some 2, .integer⟩ = .ok points := rfl
  have hparse := (add_conservative hadd).2.2.2.1
  refine ⟨hadd, (hparse _ _ ?_).mpr (by decide), fun h => (hparse _ _ ?_).mp h (by decide)⟩
  · exact eq_ok_of_toOption (by decide +kernel)
  · exact eq_ok_of_toOption (by decide +kernel)

end Signatures.Catalog
