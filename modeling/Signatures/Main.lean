import Signatures.CommandLine.Run

/-!
# The program

Reads the files and the standard input that an invocation names, runs it, and prints what it leaves.
-/

open Signatures.CommandLine

def helpText : String :=
  "Inspect function-signature type expressions\n\n" ++
  "Usage: signatures [--catalog <FILE>] <COMMAND>\n\n" ++
  "Commands:\n" ++
  "  parse [--json] <SIGNATURES>...    Print signatures in canonical form\n" ++
  "  short <SIGNATURES>...             Print the short names of types\n" ++
  "  resolve [--json] <SIGNATURES>...  Print the argument types that signatures denote\n" ++
  "  check <FILE>                      Check a file with one signature per line\n\n" ++
  "Options:\n" ++
  "      --catalog <FILE>  A file with extension types\n" ++
  "  -h, --help            Print help\n"

/-- The reason why a file cannot be read, with the number that the system gives it. -/
def reasonOf : IO.Error → String
  | .noFileOrDirectory .. => "No such file or directory (os error 2)"
  | .permissionDenied .. => "Permission denied (os error 13)"
  | .inappropriateType .. => "Is a directory (os error 21)"
  | error => toString error

def readFile (path : String) : IO (Except String String) := do
  try
    return .ok (← IO.FS.readFile path)
  catch error => return .error (reasonOf error)

/-- The sources that an invocation may read, by their names. -/
def sourceNames (invocation : Invocation) : List String :=
  (match invocation.command with
    | .check file => [file]
    | _ => []) ++ invocation.catalog.toList

def readSources (invocation : Invocation) : IO Sources := do
  let names := sourceNames invocation
  let stdin ← if names.contains "-" then (← IO.getStdin).readToEnd else pure ""
  let files ← (names.filter (· != "-")).mapM fun name => return (name, ← readFile name)
  return ⟨stdin, fun name => (files.lookup name).getD (.error "not read")⟩

def main (args : List String) : IO UInt32 := do
  match Request.ofArgs args with
  | .error fault =>
    IO.eprintln s!"error: {fault.message}\n\nFor more information, try '--help'."
    return 2
  | .ok .help =>
    IO.println helpText
    return 0
  | .ok (.run invocation) =>
    let outcome := run (← readSources invocation) invocation
    IO.print outcome.stdout
    IO.eprint outcome.stderr
    return .ofNat outcome.code
