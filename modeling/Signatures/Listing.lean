import Signatures.Parse
import Signatures.Text.Blank

/-!
# Listings

A listing is a text with a signature on each line. Blank lines and lines whose first visible character
is `#` are skipped. Every other line must parse and, if it is a type, resolve; a line whose canonical
text is that of an earlier line is reported as its duplicate.
-/

namespace Signatures

namespace Catalog

/-- The canonical text of a signature that parses and, if it is a type, resolves. -/
def canonical (catalog : Catalog) (source : String) : Except Error String :=
  match catalog.parse source with
  | .error error => .error error
  | .ok signature =>
    match signature with
    | .number text => .ok text
    | .type expr =>
      match catalog.resolve expr with
      | .error fault => .error (.ofResolve fault)
      | .ok _ => .ok expr.render

end Catalog

namespace Listing

open Text

/-- What is known of the lines read so far: their number, their bytes, and the canonical texts with
the numbers of the lines that had them first. -/
structure Progress where
  lines : Nat
  offset : Nat
  seen : List (String × Nat)
  deriving Repr

def Progress.start : Progress := ⟨0, 0, []⟩

def content (line : List Char) : List Char := dropRight (fun c => c == '\n' || c == '\r') line

/-- Whether the text of a line holds no signature: it is blank or a comment. -/
def isSkipped (text : List Char) : Bool :=
  match trimLeft text with
  | [] => true
  | c :: _ => c == '#'

/-- The span of the text of a line without the blanks around it, where the line stands at `offset`. -/
def trimmedSpan (offset : Nat) (text : List Char) : Span :=
  ⟨offset + (byteSize text - byteSize (trimLeft text)), offset + byteSize (dropRight isBlank text)⟩

/-- The warning about a line whose canonical text an earlier line had first. -/
def duplicate (filename canonical : String) (first : Nat) (span : Span) : Diagnostic :=
  { kind := .duplicate
    severity := .warning
    message := s!"duplicate signature `{canonical}`"
    span
    filename
    notes := [s!"first listed on line {first}"]
    help := none }

/-- The diagnostics of one line, and what is known after it. -/
def checkLine (catalog : Catalog) (filename : String) (progress : Progress) (line : List Char) :
    List Diagnostic × Progress :=
  let text := content line
  let number := progress.lines + 1
  let next := { progress with lines := number, offset := progress.offset + byteSize line }
  if isSkipped text then ([], next)
  else
    match catalog.canonical (String.ofList text) with
    | .error error =>
      ([(error.diagnostic filename (String.ofList text)).shift progress.offset], next)
    | .ok canonical =>
      match progress.seen.lookup canonical with
      | some first =>
        ([duplicate filename canonical first (trimmedSpan progress.offset text)], next)
      | none => ([], { next with seen := (canonical, number) :: next.seen })

def checkLines (catalog : Catalog) (filename : String) (progress : Progress) :
    List (List Char) → List Diagnostic
  | [] => []
  | line :: rest =>
    let (diagnostics, next) := checkLine catalog filename progress line
    diagnostics ++ checkLines catalog filename next rest

def check (catalog : Catalog) (source filename : String) : List Diagnostic :=
  checkLines catalog filename .start (lines source.toList)

end Listing

end Signatures
