import Signatures.LineIndex
import Signatures.Span
import Signatures.Text.Bytes

/-!
# Diagnostics

A diagnostic is a message about a span of a text. `Diagnostic.format` prints it with the lines that
the span touches: each has its number before a bar and a row of marks below it, a caret and waves.
-/

namespace Signatures

/-- Whether a diagnostic stops the use of its text. -/
inductive Severity where
  | error
  | warning
  deriving DecidableEq, Repr

def Severity.word : Severity → String
  | error => "error"
  | warning => "warning"

/-- The part of the work that a diagnostic comes from. -/
inductive DiagnosticKind where
  | lex
  | grammar
  | resolve
  | catalog
  | duplicate
  deriving DecidableEq, Repr

namespace DiagnosticKind

def word : DiagnosticKind → String
  | lex => "lex"
  | grammar => "syntax"
  | resolve => "resolve"
  | catalog => "catalog"
  | duplicate => "duplicate"

def all : List DiagnosticKind := [lex, grammar, resolve, catalog, duplicate]

end DiagnosticKind

structure Diagnostic where
  kind : DiagnosticKind
  severity : Severity
  message : String
  span : Span
  filename : String
  notes : List String
  help : Option String
  deriving DecidableEq, Repr

namespace Diagnostic

def summary (d : Diagnostic) : String :=
  s!"{d.severity.word}: {d.message} at {d.filename}:{d.span.render}"

/-- The same diagnostic for a text that starts further on. -/
def shift (d : Diagnostic) (distance : Nat) : Diagnostic := { d with span := d.span.shift distance }

def repeated (count : Nat) (c : Char) : String := String.ofList (List.replicate count c)

/-- A row of a snippet: a label of the given width to the right, a bar, and a text. -/
def row (width : Nat) (label text : String) : String :=
  repeated (width - label.length) ' ' ++ label ++ " |" ++ text ++ "\n"

/-- The marks below a line, from one column to another, at least one; columns count from zero. -/
def marks (first last : Nat) : String :=
  repeated first ' ' ++ "^" ++ repeated (last - first - 1) '~'

/-- The text of a line and the columns of it that lie between two positions, if there is such a
line. -/
def lineMarks? (source : List Char) (index : LineIndex) (first last : Position) (line : Nat) :
    Option (String × Nat × Nat) :=
  match index.range? line with
  | none => none
  | some (start, stop?) =>
    let length := Text.byteSize source
    let stop := match stop? with
      | some stop => min stop length
      | none => length
    let text := (Text.slice? source start stop).getD []
    let firstMark := if line = first.line then first.column - 1 else 0
    let lastMark := if line = last.line then last.column - 1 else text.length
    some (String.ofList text, firstMark, lastMark)

def lineRows (source : List Char) (index : LineIndex) (first last : Position) (width line : Nat) :
    String :=
  match lineMarks? source index first last line with
  | none => ""
  | some (text, firstMark, lastMark) =>
    row width (toString line) (" " ++ text) ++ row width "" (" " ++ marks firstMark lastMark)

/-- The lines of a text that a span touches, with their marks. -/
def snippet (source : List Char) (span : Span) : String :=
  let index := LineIndex.ofText source
  let first := index.position span.start
  let last := index.position span.stop
  let width := (toString last.line).length
  let lines := List.range' first.line (last.line + 1 - first.line)
  row width "" "" ++ String.join (lines.map (lineRows source index first last width)) ++
    row width "" ""

def format (d : Diagnostic) (source : String) : String :=
  let position := (LineIndex.ofText source.toList).position d.span.start
  s!"{d.severity.word}: {d.message}\n" ++
    s!"  --> {d.filename}:{position.line}:{position.column}\n" ++
    snippet source.toList d.span ++
    String.join (d.notes.map fun note => s!"note: {note}\n") ++
    match d.help with
    | some help => s!"help: {help}\n"
    | none => ""

end Diagnostic

end Signatures
