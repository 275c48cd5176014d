import Signatures.Catalog.File
import Signatures.Diagnostic
import Signatures.Lexeme
import Signatures.Resolve
import Signatures.SignatureReading

/-!
# Errors

An error is what a user is told when a signature or a catalog is not usable: the wording of a fault
and, for faults of the text itself, its span.
-/

namespace Signatures

/-- What a user is told. -/
inductive Error where
  | lex (message : String) (span : Span)
  | grammar (message : String) (span : Span)
  | arity (name message : String)
  | unknownType (name : String)
  | catalog (message : String)
  deriving DecidableEq, Repr

/-- The span of the lexeme with the given index. Behind the last one it is the end of a text of the given
length. -/
def Lexeme.spanAt (lexemes : List Lexeme) (length index : Nat) : Span :=
  match lexemes[index]? with
  | some lexeme => lexeme.span
  | none => .point length

def GrammarFault.span (lexemes : List Lexeme) (length : Nat) : GrammarFault → Span
  | markedNumber =>
    match lexemes with
    | number :: mark :: _ => ⟨number.span.start, mark.span.stop⟩
    | _ => .point length
  | unexpected _ _ index => Lexeme.spanAt lexemes length index

namespace Error

def ofLex (fault : LexFault) : Error := lex fault.message fault.span

def ofGrammar (lexemes : List Lexeme) (length : Nat) (fault : GrammarFault) : Error :=
  grammar fault.message (fault.span lexemes length)

def ofRead (lexemes : List Lexeme) (length : Nat) : ReadFault → Error
  | .grammar fault => ofGrammar lexemes length fault
  | .invalidParameter text index =>
    grammar s!"invalid integer parameter '{text}'" (Lexeme.spanAt lexemes length index)

def ofResolve : ResolveFault → Error
  | .unknown name => unknownType name
  | .arity name fault => arity name fault.message

def ofCatalog (fault : CatalogFault) : Error := catalog fault.message

def ofFile (fault : FileFault) : Error := catalog fault.message

def span? : Error → Option Span
  | lex _ span | grammar _ span => some span
  | _ => none

def kind : Error → DiagnosticKind
  | lex .. => .lex
  | grammar .. => .grammar
  | arity .. | unknownType _ => .resolve
  | catalog _ => .catalog

/-- An error in one line, with its place. -/
def describe : Error → String
  | lex message span => s!"lex error at offset {span.start}: {message}"
  | grammar message span => s!"syntax error at offset {span.start}: {message}"
  | arity name message => s!"type '{name}' {message}"
  | unknownType name => s!"unknown type '{name}'"
  | catalog message => s!"catalog error: {message}"

/-- An error in one line, without its place. -/
def message : Error → String
  | lex message _ | grammar message _ => message
  | error => error.describe

def mentionsEnd (message : String) : Bool :=
  Text.contains "end of input".toList message.toList

/-- The diagnostic of an error in the text of a signature. An error without a place is one of the
whole text. -/
def diagnostic (error : Error) (filename : String) (source : String) : Diagnostic :=
  { kind := error.kind
    severity := .error
    message := error.message
    span := error.span?.getD ⟨0, Text.byteSize source.toList⟩
    filename
    notes :=
      match error with
      | grammar message _ =>
        if mentionsEnd message then ["the signature may be missing a closing '>'"] else []
      | _ => []
    help :=
      match error with
      | arity .. => some "check the number and kind of arguments between '<' and '>'"
      | _ => none }

end Error

end Signatures
