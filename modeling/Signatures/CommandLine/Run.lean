import Signatures.Codec.ArgType
import Signatures.CommandLine.Invocation
import Signatures.Json.Printer
import Signatures.Listing

/-!
# Running commands

A command reads its sources, each of which is a file or the standard input, and leaves an exit code
and two texts. A run over signatures goes through all of them: each writes to one of the two texts, its
result to the output or its diagnostic to the errors, and the run fails at its end if one of them has.
-/

namespace Signatures.CommandLine

/-- The texts that a command can read: the standard input, which is empty once it has been read, and
files, which may be unreadable for some reason. -/
structure Sources where
  stdin : String
  file : String → Except String String

/-- The text of a source, and the sources after it has been read; `-` is the standard input. -/
def Sources.read (sources : Sources) (name : String) : Except String String × Sources :=
  if name = "-" then (.ok sources.stdin, { sources with stdin := "" })
  else (sources.file name, sources)

structure Outcome where
  code : Nat
  stdout : String
  stderr : String
  deriving DecidableEq, Repr

def Outcome.failed (text : String) : Outcome := ⟨1, "", text⟩

def argumentName : String := "<arg>"

/-- The catalog of a file, or the line that says why there is none. -/
def loadCatalog (sources : Sources) : Option String → Except String Catalog
  | none => .ok .builtin
  | some path =>
    match (sources.read path).1 with
    | .error reason => .error s!"Error reading catalog '{path}': {reason}"
    | .ok text =>
      match Catalog.ofFile text with
      | .error fault => .error s!"{path}: {(Error.ofFile fault).describe}"
      | .ok catalog => .ok catalog

def diagnose {α : Type} (source : String) : Except Error α → Except Diagnostic α
  | .error error => .error (error.diagnostic argumentName source)
  | .ok value => .ok value

/-- The result of `parse`: the canonical text or the tree of a signature. -/
def parseOne (catalog : Catalog) (json : Bool) (source : String) : Except Diagnostic String := do
  let signature ← diagnose source (catalog.parse source)
  return if json then signature.toJson.print else signature.render

def typeOne (catalog : Catalog) (source : String) : Except Diagnostic TypeExpr := do
  let signature ← diagnose source (catalog.parse source)
  signature.expectType source argumentName

/-- The result of `short`: the short name of a type. -/
def shortOne (catalog : Catalog) (source : String) : Except Diagnostic String := do
  let expr ← typeOne catalog source
  diagnose source ((catalog.shortName expr.name).mapError Error.ofResolve)

/-- The result of `resolve`: the text and the kind of an argument type, or its tree. -/
def resolveOne (catalog : Catalog) (json : Bool) (source : String) : Except Diagnostic String := do
  let expr ← typeOne catalog source
  let type ← diagnose source ((catalog.resolve expr).mapError Error.ofResolve)
  return if json then type.toJson.print else s!"{type.render} ({type.kind.label})"

/-- What a run over signatures has left so far: whether one of them has failed, and the two texts. -/
structure Batch where
  failed : Bool
  stdout : String
  stderr : String
  deriving DecidableEq, Repr

namespace Batch

def start : Batch := ⟨false, "", ""⟩

/-- The run goes on with a signature, which prints its result or fails with a diagnostic. -/
def step (result : String → Except Diagnostic String) (batch : Batch) (source : String) : Batch :=
  match result source with
  | .ok line => { batch with stdout := batch.stdout ++ (line ++ "\n") }
  | .error diagnostic => { batch with failed := true, stderr := batch.stderr ++ diagnostic.format source }

def outcome (batch : Batch) : Outcome := ⟨if batch.failed then 1 else 0, batch.stdout, batch.stderr⟩

end Batch

def runEach (result : String → Except Diagnostic String) (sources : List String) : Outcome :=
  (sources.foldl (Batch.step result) .start).outcome

def runCheck (catalog : Catalog) (source file : String) : Outcome :=
  let diagnostics := Listing.check catalog source file
  let report := String.join (diagnostics.map fun d => d.format source)
  let errors := diagnostics.countP fun d => d.severity == .error
  if errors = 0 then ⟨0, "Check: OK\n", report⟩
  else ⟨1, "", report ++ s!"{errors} signature(s) failed\n"⟩

/-- Goes on with the catalog of a file, or fails where there is none. -/
def withCatalog (sources : Sources) (path : Option String) (next : Catalog → Outcome) : Outcome :=
  match loadCatalog sources path with
  | .error line => .failed (line ++ "\n")
  | .ok catalog => next catalog

/-- The run of an invocation. The listing of `check` is read before the catalog. -/
def run (sources : Sources) (invocation : Invocation) : Outcome :=
  match invocation.command with
  | .parse signatures json =>
    withCatalog sources invocation.catalog fun catalog => runEach (parseOne catalog json) signatures
  | .short signatures =>
    withCatalog sources invocation.catalog fun catalog => runEach (shortOne catalog) signatures
  | .resolve signatures json =>
    withCatalog sources invocation.catalog fun catalog =>
      runEach (resolveOne catalog json) signatures
  | .check file =>
    let (text, sources) := sources.read file
    match text with
    | .error reason => .failed s!"Error reading file '{file}': {reason}\n"
    | .ok text =>
      withCatalog sources invocation.catalog fun catalog => runCheck catalog text file

end Signatures.CommandLine
