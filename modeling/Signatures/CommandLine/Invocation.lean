/-!
# Invocations

What the arguments of the command line ask for. An argument that starts with `-` is an option, unless
it is `-` alone or comes after `--`. `--catalog` may stand before or after the command, and the one
after it counts; `--json` belongs to the commands that print trees.
-/

namespace Signatures.CommandLine

inductive Command where
  | parse (signatures : List String) (json : Bool)
  | short (signatures : List String)
  | resolve (signatures : List String) (json : Bool)
  | check (file : String)
  deriving DecidableEq, Repr

/-- A command, and the catalog file that it uses, if any. -/
structure Invocation where
  catalog : Option String
  command : Command
  deriving DecidableEq, Repr

/-- Why arguments ask for nothing that can be done. -/
inductive UsageFault where
  | unexpected (argument : String)
  | missingValue (option : String)
  | repeated (option : String)
  | missing (what : String)
  deriving DecidableEq, Repr

def UsageFault.message : UsageFault → String
  | unexpected argument => s!"unexpected argument '{argument}'"
  | missingValue option => s!"a value is required for '{option}'"
  | repeated option => s!"'{option}' cannot be used more than once"
  | missing what => s!"{what} is missing"

inductive Request where
  | help
  | run (invocation : Invocation)
  deriving DecidableEq, Repr

inductive CommandName where
  | parse
  | short
  | resolve
  | check
  deriving DecidableEq, Repr

namespace CommandName

def ofName? : String → Option CommandName
  | "parse" => some parse
  | "short" => some short
  | "resolve" => some resolve
  | "check" => some check
  | _ => none

def takesJson : CommandName → Bool
  | parse | resolve => true
  | short | check => false

end CommandName

def isOption (argument : String) : Bool :=
  match argument.toList with
  | ['-'] => false
  | '-' :: _ => true
  | _ => false

/-- Whether an argument asks for help: the word, or the letter, which answers before anything
written behind it in the same argument is read. -/
def isHelp (argument : String) : Bool :=
  argument == "--help" || "-h".toList.isPrefixOf argument.toList

def catalogValue? (argument : String) : Option String :=
  let option := "--catalog=".toList
  if option.isPrefixOf argument.toList then
    some (String.ofList (argument.toList.drop option.length))
  else none

/-- The arguments of a command that have been read. -/
structure Draft where
  name : CommandName
  outerCatalog : Option String
  catalog : Option String
  json : Bool
  values : List String
  deriving Repr

namespace Draft

def addCatalog (draft : Draft) (value : String) : Except UsageFault Draft :=
  if draft.catalog.isSome then .error (.repeated "--catalog")
  else .ok { draft with catalog := some value }

def addValue (draft : Draft) (value : String) : Except UsageFault Draft :=
  match draft.name, draft.values with
  | .check, _ :: _ => .error (.unexpected value)
  | _, _ => .ok { draft with values := draft.values ++ [value] }

def addValues (draft : Draft) (values : List String) : Except UsageFault Draft :=
  values.foldlM addValue draft

def finish (draft : Draft) : Except UsageFault Request :=
  let run (command : Command) : Except UsageFault Request :=
    .ok (.run ⟨draft.catalog <|> draft.outerCatalog, command⟩)
  match draft.name, draft.values with
  | .check, file :: _ => run (.check file)
  | .check, [] => .error (.missing "a file")
  | _, [] => .error (.missing "a signature")
  | .parse, signatures => run (.parse signatures draft.json)
  | .short, signatures => run (.short signatures)
  | .resolve, signatures => run (.resolve signatures draft.json)

def read (draft : Draft) : List String → Except UsageFault Request
  | [] => draft.finish
  | "--" :: values => do (← draft.addValues values).finish
  | ["--catalog"] => .error (.missingValue "--catalog")
  | "--catalog" :: value :: rest =>
    if isOption value then .error (.missingValue "--catalog")
    else
      match draft.addCatalog value with
      | .error fault => .error fault
      | .ok draft => draft.read rest
  | argument :: rest =>
    if isHelp argument then .ok .help
    else if argument = "--json" ∧ draft.name.takesJson then
      if draft.json then .error (.repeated "--json") else { draft with json := true }.read rest
    else
      match catalogValue? argument with
      | some value =>
        match draft.addCatalog value with
        | .error fault => .error fault
        | .ok draft => draft.read rest
      | none =>
        if isOption argument then .error (.unexpected argument)
        else
          match draft.addValue argument with
          | .error fault => .error fault
          | .ok draft => draft.read rest

end Draft

namespace Request

/-- Reads arguments up to the name of the command; `catalog` has been read before. -/
def read (catalog : Option String) : List String → Except UsageFault Request
  | [] => .ok .help
  | ["--"] => .ok .help
  | "--" :: argument :: _ => .error (.unexpected argument)
  | ["--catalog"] => .error (.missingValue "--catalog")
  | "--catalog" :: value :: rest =>
    if isOption value then .error (.missingValue "--catalog")
    else if catalog.isSome then .error (.repeated "--catalog")
    else read (some value) rest
  | argument :: rest =>
    if isHelp argument then .ok .help
    else
      match catalogValue? argument with
      | some value => if catalog.isSome then .error (.repeated "--catalog") else read (some value) rest
      | none =>
        match CommandName.ofName? argument with
        | some name => Draft.read ⟨name, catalog, none, false, []⟩ rest
        | none => .error (.unexpected argument)

/-- What the arguments of the command line ask for. -/
def ofArgs (args : List String) : Except UsageFault Request := read none args

end Request

end Signatures.CommandLine
