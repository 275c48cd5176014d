import Signatures.Error

/-!
# Parsing signatures

A text is cut into lexemes and their tokens are read into a signature. While they are read, a catalog tells
which of the bare names among arguments are types.
-/

namespace Signatures

def Catalog.parse (catalog : Catalog) (source : String) : Except Error Signature :=
  match Lexeme.scan source with
  | .error fault => .error (.ofLex fault)
  | .ok lexemes =>
    match Signature.ofTokens catalog.knows (lexemes.map Lexeme.token) with
    | .error fault => .error (.ofRead lexemes (Text.byteSize source.toList) fault)
    | .ok s => .ok s

/-- The type expression of a signature. A number has none, which is an error of its whole text. -/
def Signature.expectType (source filename : String) : Signature → Except Diagnostic TypeExpr
  | .type expr => .ok expr
  | .number text =>
    .error {
      kind := .resolve
      severity := .error
      message := s!"'{text}' is a number literal, not a type"
      span := ⟨0, Text.byteSize source.toList⟩
      filename
      notes := []
      help := none }

end Signatures
