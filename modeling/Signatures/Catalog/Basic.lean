import Signatures.Catalog.Builtin
import Signatures.Text.Identifier

/-!
# Catalogs

A catalog knows the built-in types, the extension types added to it, and the wildcards: `any` followed
by ASCII letters and digits. `Catalog.add` accepts an extension only if its name is an identifier that
the catalog does not know and its rule can be met; `Catalog.lookup?` says what a name means.
-/

namespace Signatures

/-- A type that a catalog knows besides the built-in ones. -/
structure Extension where
  name : String
  shortName : String
  minArgs : UInt64
  maxArgs : Option UInt64
  argKind : ArgKind
  deriving DecidableEq, Repr

namespace Extension

def rule (ext : Extension) : ArgRule := ⟨ext.minArgs, ext.maxArgs, ext.argKind⟩

def entry (ext : Extension) : Entry := ⟨ext.shortName, .extension, ext.rule⟩

end Extension

/-- Why an extension cannot be added to a catalog; each fault holds the name of the extension. -/
inductive CatalogFault where
  | invalidName (name : String)
  | emptyShortName (name : String)
  | shadowsBuiltin (name : String)
  | definedTwice (name : String)
  | maxBelowMin (name : String)
  | countWithoutArgs (name : String)
  deriving DecidableEq, Repr

namespace CatalogFault

def message : CatalogFault → String
  | invalidName name => s!"'{name}' is not a valid type name"
  | emptyShortName name => s!"extension type '{name}' has an empty short name"
  | shadowsBuiltin name => s!"extension type '{name}' shadows a built-in type"
  | definedTwice name => s!"extension type '{name}' is defined twice"
  | maxBelowMin name => s!"extension type '{name}' has max_args below min_args"
  | countWithoutArgs name => s!"extension type '{name}' takes no arguments but allows some"

end CatalogFault

/-- Whether a name is a wildcard: `any` and a label of ASCII letters and digits. -/
def isWildcard (name : String) : Bool :=
  match name.toList with
  | 'a' :: 'n' :: 'y' :: label => label.all Char.isAlphanum
  | _ => false

/-- The extension types that are known besides the built-in ones, in the order of their addition. -/
structure Catalog where
  extensions : List Extension
  deriving DecidableEq, Repr

namespace Catalog

def builtin : Catalog := ⟨[]⟩

def extension? (catalog : Catalog) (name : String) : Option Extension :=
  catalog.extensions.find? fun ext => ext.name == name

/-- What a catalog says about a name: built-in types first, then extensions, then wildcards. -/
def lookup? (catalog : Catalog) (name : String) : Option Entry :=
  match Builtin.find? name with
  | some type => some type.entry
  | none =>
    match catalog.extension? name with
    | some ext => some ext.entry
    | none => if isWildcard name then some ⟨"any", .any, TypeKind.any.rule⟩ else none

def knows (catalog : Catalog) (name : String) : Bool := (catalog.lookup? name).isSome

/-- The names of a catalog, wildcards apart. -/
def names (catalog : Catalog) : List String :=
  Builtin.table.map Builtin.name ++ catalog.extensions.map Extension.name

/-- The fault that keeps an extension out of a catalog whose extensions have the `taken` names. A
clash with one of them is found after faults of the name and before faults of the counts. -/
def fault? (taken : String → Bool) (ext : Extension) : Option CatalogFault :=
  if !Text.isIdentifier ext.name.toList then some (.invalidName ext.name)
  else if ext.shortName.isEmpty then some (.emptyShortName ext.name)
  else if isWildcard ext.name || (Builtin.find? ext.name).isSome then some (.shadowsBuiltin ext.name)
  else if taken ext.name then some (.definedTwice ext.name)
  else if ext.maxArgs.any (· < ext.minArgs) then some (.maxBelowMin ext.name)
  else if ext.argKind = .empty ∧ ext.maxArgs ≠ some 0 then some (.countWithoutArgs ext.name)
  else none

def add (catalog : Catalog) (ext : Extension) : Except CatalogFault Catalog :=
  match fault? (fun name => (catalog.extension? name).isSome) ext with
  | some fault => .error fault
  | none => .ok ⟨catalog.extensions ++ [ext]⟩

/-- Adds extensions one after the other; the first that cannot be added is the fault. -/
def addAll (catalog : Catalog) : List Extension → Except CatalogFault Catalog
  | [] => .ok catalog
  | ext :: exts =>
    match catalog.add ext with
    | .error fault => .error fault
    | .ok catalog => catalog.addAll exts

def ofExtensions (exts : List Extension) : Except CatalogFault Catalog := builtin.addAll exts

end Catalog

end Signatures
