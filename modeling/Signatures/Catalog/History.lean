import Signatures.Catalog.File

/-!
# Histories of a catalog

A catalog is changed by operations: an extension is added to it, or the catalog of some extensions or of a
file takes its place. An operation that is rejected answers why and leaves the catalog as it was.
-/

namespace Signatures.Catalog

inductive Operation where
  | add (ext : Extension)
  /-- The catalog of the given extensions takes its place. -/
  | replace (exts : List Extension)
  /-- The catalog of a file takes its place. -/
  | load (source : String)

/-- The catalog that an operation makes of another, or why it is rejected. -/
def Operation.result (catalog : Catalog) : Operation → Except FileFault Catalog
  | add ext => (catalog.add ext).mapError .extension
  | replace exts => (ofExtensions exts).mapError .extension
  | load source => ofFile source

/-- Why an operation is rejected, if it is, and the catalog after it. -/
def perform (catalog : Catalog) (operation : Operation) : Option FileFault × Catalog :=
  match operation.result catalog with
  | .ok next => (none, next)
  | .error fault => (some fault, catalog)

def run (catalog : Catalog) : List Operation → Catalog
  | [] => catalog
  | operation :: operations => (catalog.perform operation).2.run operations

end Signatures.Catalog
