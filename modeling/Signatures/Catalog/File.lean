import Signatures.Catalog.Basic
import Signatures.Ron.Value

/-!
# Catalog files

A catalog file is a RON structure with a list of extension types. An extension has a name, a short
name and a kind of arguments, and may have a least and a greatest number of them. Fields may come in
any order, none twice, and unknown ones are left aside.
-/

namespace Signatures

open Ron (Reader Fault)

inductive FileFault where
  | unreadable (fault : Ron.Fault)
  | extension (fault : CatalogFault)
  deriving DecidableEq, Repr

namespace FileFault

def message : FileFault → String
  | unreadable fault => s!"invalid catalog file: {fault.message}"
  | extension fault => fault.message

end FileFault

namespace ArgKind

def ofName? : String → Option ArgKind
  | "Empty" => some empty
  | "Integer" => some integer
  | "Type" => some type
  | "Mixed" => some mixed
  | _ => none

def read : Reader ArgKind := do
  let name ← Ron.identifier
  match ofName? name with
  | some kind => return kind
  | none => throw (.unknownCase name)

end ArgKind

namespace Extension

/-- The fields of an extension that have been read. -/
structure Draft where
  name : Option String
  shortName : Option String
  minArgs : Option UInt64
  maxArgs : Option (Option UInt64)
  argKind : Option ArgKind

def Draft.empty : Draft := ⟨none, none, none, none, none⟩

def readCount : Reader UInt64 := do return .ofNat (← Ron.natural (UInt64.size - 1))

def readField (implicitSome : Bool) (draft : Draft) (field : String) : Reader Draft := do
  match field with
  | "name" => return { draft with name := ← Ron.once field draft.name Ron.text }
  | "short_name" => return { draft with shortName := ← Ron.once field draft.shortName Ron.text }
  | "min_args" => return { draft with minArgs := ← Ron.once field draft.minArgs readCount }
  | "max_args" =>
    let value := Ron.option implicitSome readCount
    return { draft with maxArgs := ← Ron.once field draft.maxArgs value }
  | "arg_kind" => return { draft with argKind := ← Ron.once field draft.argKind ArgKind.read }
  | _ =>
    Ron.skip implicitSome (Ron.maxDepth - 6)
    return draft

def read (implicitSome : Bool) : Reader Extension := do
  let draft ← Ron.structure? "ExtensionType" (readField implicitSome) .empty
  return {
    name := ← Ron.required "name" draft.name
    shortName := ← Ron.required "short_name" draft.shortName
    minArgs := draft.minArgs.getD 0
    maxArgs := draft.maxArgs.getD none
    argKind := ← Ron.required "arg_kind" draft.argKind }

end Extension

namespace Catalog

def readField (implicitSome : Bool) (types : Option (List Extension)) (field : String) :
    Reader (Option (List Extension)) := do
  match field with
  | "types" => Ron.once field types (Ron.list (Extension.read implicitSome))
  | _ =>
    Ron.skip implicitSome (Ron.maxDepth - 2)
    return types

/-- Reads the extensions of a catalog file, and all the text there is. -/
def readFile : Reader (List Extension) := do
  let features ← Ron.features
  let types ← Ron.structure? "CatalogFile" (readField (features.contains .implicitSome)) none
  Ron.space
  if !(← get).isEmpty then throw .trailingText
  return types.getD []

def ofFile (source : String) : Except FileFault Catalog :=
  match readFile.run source.toList with
  | .error fault => .error (.unreadable fault)
  | .ok (exts, _) =>
    match ofExtensions exts with
    | .error fault => .error (.extension fault)
    | .ok catalog => .ok catalog

end Catalog

end Signatures
