import Signatures.Proofs.Codec.Decoding
import Signatures.Proofs.CommandLine.Batch
import Signatures.Proofs.Json.Printing

/-!
# Printed trees

With `--json` a run prints the tree of each signature that it accepts, or of the type that the signature denotes.
A tree is read from its JSON value as it was written and different values are printed differently, so the output of
the run tells the trees and their order.
-/

namespace Signatures.CommandLine

section Encoding

theorem injective_of_decode {α : Type} {encode : α → Json} {decode : Json → Option α}
    (h : ∀ value, decode (encode value) = some value) : Function.Injective encode := by
  intro value other heq
  have hdecode := congrArg decode heq
  rw [h, h] at hdecode
  exact Option.some.inj hdecode

/-- Trees that are printed one after the other can be told by the whole text. -/
theorem join_print_eq_iff {α : Type} {encode : α → Json} (h : Function.Injective encode) {trees others : List α} :
    String.join (trees.map fun tree => (encode tree).print ++ "\n") =
      String.join (others.map fun tree => (encode tree).print ++ "\n") ↔ others = trees := by
  have hjson (trees : List α) : (trees.map fun tree => (encode tree).print ++ "\n") =
      (trees.map encode).map fun json => json.print ++ "\n" := by
    rw [List.map_map]
    rfl
  rw [hjson, hjson, Json.join_print_injective.eq_iff, List.map_inj_right (fun _ _ heq => h heq)]
  exact eq_comm

end Encoding

def trees (sources : Sources) (path : Option String) (signatures : List String) : List Signature :=
  match loadCatalog sources path with
  | .error _ => []
  | .ok catalog => signatures.filterMap fun source => (catalog.parse source).toOption

def type? (catalog : Catalog) (source : String) : Option ArgType :=
  match catalog.parse source with
  | .ok (.type expr) => (catalog.resolve expr).toOption
  | _ => none

def types (sources : Sources) (path : Option String) (signatures : List String) : List ArgType :=
  match loadCatalog sources path with
  | .error _ => []
  | .ok catalog => signatures.filterMap (type? catalog)

theorem stdout_runEach {α : Type} {result : String → Except Diagnostic String} {value? : String → Option α}
    {line : α → String} (h : ∀ source, (result source).toOption = (value? source).map line) (sources : List String) :
    (runEach result sources).stdout = String.join ((sources.filterMap value?).map fun value => line value ++ "\n") := by
  rw [(texts_runEach result sources).1]
  induction sources with
  | nil => rfl
  | cons source sources ih =>
    have hsource := h source
    rw [List.map_cons, String.join_cons, ih]
    rcases runEach_singleton result source with ⟨text, hok, hrun⟩ | ⟨d, herror, hrun⟩
    · rw [hok] at hsource
      rcases Option.map_eq_some_iff.mp hsource.symm with ⟨value, hvalue, rfl⟩
      rw [hrun, List.filterMap_cons_some hvalue, List.map_cons, String.join_cons]
    · rw [herror] at hsource
      rw [hrun, List.filterMap_cons_none (Option.map_eq_none_iff.mp hsource.symm), String.empty_append]

theorem toOption_parseOne (catalog : Catalog) (source : String) :
    (parseOne catalog true source).toOption = (catalog.parse source).toOption.map fun tree => tree.toJson.print := by
  rw [parseOne]
  cases catalog.parse source <;> rfl

theorem toOption_resolveOne (catalog : Catalog) (source : String) :
    (resolveOne catalog true source).toOption = (type? catalog source).map fun t => t.toJson.print := by
  rw [resolveOne, typeOne, type?]
  cases catalog.parse source with
  | error error => rfl
  | ok signature =>
    cases signature with
    | number text => rfl
    | type expr =>
      change (diagnose source ((catalog.resolve expr).mapError Error.ofResolve) >>= fun t =>
        return t.toJson.print).toOption = (catalog.resolve expr).toOption.map fun t => t.toJson.print
      cases catalog.resolve expr <;> rfl

theorem stdout_parse (sources : Sources) (path : Option String) (signatures : List String) :
    (run sources ⟨path, .parse signatures true⟩).stdout =
      String.join ((trees sources path signatures).map fun tree => tree.toJson.print ++ "\n") := by
  cases hload : loadCatalog sources path with
  | error line =>
    simp only [run, withCatalog, trees, hload]
    rfl
  | ok catalog =>
    simp only [run, withCatalog, trees, hload]
    exact stdout_runEach (toOption_parseOne catalog) signatures

theorem stdout_resolve (sources : Sources) (path : Option String) (signatures : List String) :
    (run sources ⟨path, .resolve signatures true⟩).stdout =
      String.join ((types sources path signatures).map fun t => t.toJson.print ++ "\n") := by
  cases hload : loadCatalog sources path with
  | error line =>
    simp only [run, withCatalog, types, hload]
    rfl
  | ok catalog =>
    simp only [run, withCatalog, types, hload]
    exact stdout_runEach (toOption_resolveOne catalog) signatures

/-- A signature, a type expression, an argument type and an extension are read from JSON as they were written, and
so are written differently if they are different; the arguments of a type expression are left out exactly where
there are none. With `--json` the output of a run is that of some trees exactly if they are the trees of the
signatures that are accepted, or the types that the signatures denote, in order. -/
theorem decode_encode :
    (∀ signature : Signature, Signature.ofJson? signature.toJson = some signature) ∧
    (∀ expr : TypeExpr, TypeExpr.ofJson? expr.toJson = some expr) ∧
    (∀ t : ArgType, ArgType.ofJson? t.toJson = some t) ∧
    (∀ ext : Extension, Extension.ofJson? ext.toJson = some ext) ∧
    (Function.Injective Signature.toJson ∧ Function.Injective TypeExpr.toJson ∧
      Function.Injective ArgType.toJson ∧ Function.Injective Extension.toJson) ∧
    (∀ expr : TypeExpr, ∃ fields, expr.toJson = .object fields ∧
      (Json.field? fields "args" = none ↔ expr.args = [])) ∧
    ∀ sources path signatures,
      (∀ others, (run sources ⟨path, .parse signatures true⟩).stdout =
        String.join (others.map fun tree => tree.toJson.print ++ "\n") ↔ others = trees sources path signatures) ∧
      ∀ others, (run sources ⟨path, .resolve signatures true⟩).stdout =
        String.join (others.map fun t => t.toJson.print ++ "\n") ↔ others = types sources path signatures := by
  have hsignature := injective_of_decode Signature.ofJson?_toJson
  have htype := injective_of_decode ArgType.ofJson?_toJson
  refine ⟨Signature.ofJson?_toJson, TypeExpr.ofJson?_toJson, ArgType.ofJson?_toJson, Extension.ofJson?_toJson,
    ⟨hsignature, injective_of_decode TypeExpr.ofJson?_toJson, htype,
      injective_of_decode Extension.ofJson?_toJson⟩, ?_, ?_⟩
  · intro expr
    rcases expr.exists_toJson with ⟨fields, hfields, -, -, hargs⟩
    exact ⟨fields, hfields, by simp [hargs]⟩
  · intro sources path signatures
    rw [stdout_parse, stdout_resolve]
    exact ⟨fun _ => join_print_eq_iff hsignature, fun _ => join_print_eq_iff htype⟩

end Signatures.CommandLine
