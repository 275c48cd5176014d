import Signatures.Span
import Signatures.Text.Blank
import Signatures.Text.Bytes
import Signatures.Text.Escape
import Signatures.Text.Identifier
import Signatures.Token

/-!
# Lexemes

A lexeme is a token at its place in a text. `Lexeme.scan` cuts a text into lexemes: blanks are
skipped, names and literals are as long as they can be, and the first place where no token stands
is the fault of the whole text.
-/

namespace Signatures

inductive LexFault where
  | loneMinus (offset : Nat)
  /-- A character that starts no token, or that a number cannot be followed by. -/
  | unrecognized (found : Char) (span : Span)
  /-- Digits whose number needs more than 32 bits. -/
  | outOfRange (digits : String) (offset : Nat)
  deriving DecidableEq, Repr

namespace LexFault

def message : LexFault → String
  | loneMinus _ => "'-' must be followed by digits"
  | unrecognized found _ => "unrecognized character '" ++ String.ofList (Text.shown found) ++ "'"
  | outOfRange digits _ => s!"integer literal '{digits}' does not fit in 32 bits"

/-- The place of a fault. Digits out of range are marked at the first one. -/
def span : LexFault → Span
  | loneMinus offset => ⟨offset, offset + 1⟩
  | unrecognized _ span => span
  | outOfRange _ offset => ⟨offset, offset + 1⟩

end LexFault

/-- A token and the bytes it takes up. -/
structure Lexeme where
  token : Token
  span : Span
  deriving DecidableEq, Repr

namespace Lexeme

open Text

/-- The literal at the front of a text, and the text after it. `sign` holds the minus sign read
before, and `offset` is the place of the first digit. A literal that is too large is marked at its
first digit when it has no sign, and from its first digit to its end when it has one. -/
def readLiteral (sign : List Char) (offset : Nat) (cs : List Char) :
    Except LexFault (Token × List Char) :=
  let digits := cs.takeWhile Char.isDigit
  let rest := cs.dropWhile Char.isDigit
  let stop := offset + byteSize digits
  match rest.head?.filter isIdentRest with
  | some c => .error (.unrecognized c ⟨stop, stop + c.utf8Size⟩)
  | none =>
    match Literal.ofText? (String.ofList (sign ++ digits)) with
    | some literal => .ok (.int literal, rest)
    | none =>
      match sign, digits with
      | _ :: _, d :: _ => .error (.unrecognized d ⟨offset, stop⟩)
      | _, _ => .error (.outOfRange (String.ofList digits) offset)

/-- The token at the front of the text `c :: cs`, which stands at `offset`, and the text after it. -/
def readToken (offset : Nat) (c : Char) (cs : List Char) : Except LexFault (Token × List Char) :=
  if c.isDigit then readLiteral [] offset (c :: cs)
  else if c = '-' then
    if (cs.head?.any Char.isDigit) then readLiteral ['-'] (offset + 1) cs
    else .error (.loneMinus offset)
  else if isIdentStart c then
    .ok (.ident (String.ofList (c :: cs.takeWhile isIdentRest)), cs.dropWhile isIdentRest)
  else if c = '<' then .ok (.lt, cs)
  else if c = '>' then .ok (.gt, cs)
  else if c = ',' then .ok (.comma, cs)
  else if c = '?' then .ok (.question, cs)
  else .error (.unrecognized c ⟨offset, offset + c.utf8Size⟩)

theorem readLiteral_rest {sign cs rest : List Char} {offset : Nat} {token : Token}
    (h : readLiteral sign offset cs = .ok (token, rest)) : rest = cs.dropWhile Char.isDigit := by
  simp only [readLiteral] at h
  split at h
  · cases h
  · split at h
    · cases h; rfl
    · split at h <;> cases h

theorem readToken_length {offset : Nat} {c : Char} {cs rest : List Char} {token : Token}
    (h : readToken offset c cs = .ok (token, rest)) : rest.length ≤ cs.length := by
  have drop (p : Char → Bool) : (cs.dropWhile p).length ≤ cs.length :=
    (List.dropWhile_suffix p).length_le
  unfold readToken at h
  split at h
  · next hc =>
    rw [readLiteral_rest h, List.dropWhile_cons_of_pos hc]
    exact drop _
  split at h
  · split at h
    · rw [readLiteral_rest h]
      exact drop _
    · cases h
  split at h
  · cases h
    exact drop _
  repeat (split at h; · cases h; exact Nat.le_refl _)
  cases h

/-- The lexemes of a text that stands at `offset`. -/
def scanFrom (offset : Nat) (cs : List Char) : Except LexFault (List Lexeme) :=
  match cs with
  | [] => .ok []
  | c :: cs =>
    if isBlank c then scanFrom (offset + c.utf8Size) cs
    else
      match _h : readToken offset c cs with
      | .error fault => .error fault
      | .ok (token, rest) =>
        let stop := offset + byteSize token.text.toList
        match scanFrom stop rest with
        | .error fault => .error fault
        | .ok lexemes => .ok (⟨token, ⟨offset, stop⟩⟩ :: lexemes)
termination_by cs.length
decreasing_by
  · simp
  · exact Nat.lt_succ_of_le (readToken_length _h)

def scan (source : String) : Except LexFault (List Lexeme) :=
  scanFrom 0 source.toList

end Lexeme

end Signatures
