import Signatures.Text.Identifier

/-!
# Words of RON

RON is a notation for data: structures with named fields in parentheses, lists in brackets, maps in
braces, options `Some(…)` and `None`, and names of cases. This module reads its words: what may stand
between two words, identifiers, whole numbers, texts and characters.

A reader takes a text from the front and leaves the rest.
-/

namespace Signatures.Ron

inductive Fault where
  | unexpectedEnd
  | unclosedComment
  | expected (what : String)
  | unknownFeature (name : String)
  | invalidEscape
  | invalidInteger
  | invalidFloat
  | unknownCase (name : String)
  | duplicateField (name : String)
  | missingField (name : String)
  | tooDeep
  | trailingText
  deriving DecidableEq, Repr

def Fault.message : Fault → String
  | unexpectedEnd => "unexpected end of file"
  | unclosedComment => "unclosed block comment"
  | expected what => s!"expected {what}"
  | unknownFeature name => s!"no feature named {name}"
  | invalidEscape => "invalid escape sequence"
  | invalidInteger => "invalid integer"
  | invalidFloat => "invalid float"
  | unknownCase name => s!"unexpected case {name}"
  | duplicateField name => s!"duplicate field {name}"
  | missingField name => s!"missing field {name}"
  | tooDeep => "nesting too deep"
  | trailingText => "text after the end of the value"

/-- A reader of the front of a text. -/
abbrev Reader (α : Type) := StateT (List Char) (Except Fault) α

def isSpace (c : Char) : Bool := c == ' ' || c == '\t' || c == '\n' || c == '\r'

/-- The text after block comments of which `depth` are open; a block comment may hold others. -/
def afterBlock : Nat → List Char → Except Fault (List Char)
  | 0, cs => .ok cs
  | _ + 1, [] => .error .unclosedComment
  | depth + 1, '/' :: '*' :: cs => afterBlock (depth + 2) cs
  | depth + 1, '*' :: '/' :: cs => afterBlock depth cs
  | depth + 1, _ :: cs => afterBlock (depth + 1) cs

theorem afterBlock_length {depth : Nat} {cs rest : List Char} (h : afterBlock depth cs = .ok rest) :
    rest.length ≤ cs.length := by
  fun_induction afterBlock depth cs with
  | case1 => cases h; exact Nat.le_refl _
  | case2 => cases h
  | case3 _ _ ih => exact Nat.le_trans (ih h) (by simp only [List.length_cons]; omega)
  | case4 _ _ ih => exact Nat.le_trans (ih h) (by simp only [List.length_cons]; omega)
  | case5 _ _ _ _ _ ih => exact Nat.le_trans (ih h) (by simp only [List.length_cons]; omega)

def afterSpace (cs : List Char) : Except Fault (List Char) :=
  match cs with
  | '/' :: '/' :: rest => afterSpace (rest.dropWhile (· != '\n'))
  | '/' :: '*' :: rest =>
    match _h : afterBlock 1 rest with
    | .ok rest => afterSpace rest
    | .error fault => .error fault
  | '/' :: _ => .error (.expected "a comment")
  | c :: rest => if isSpace c then afterSpace rest else .ok (c :: rest)
  | [] => .ok []
termination_by cs.length
decreasing_by
  · have := (List.dropWhile_suffix (· != '\n') (l := rest)).length_le
    simp only [List.length_cons]
    omega
  · have := afterBlock_length _h
    simp only [List.length_cons]
    omega
  · simp

def space : Reader Unit := do set (← afterSpace (← get))

/-- Takes a given word if the text starts with it. -/
def accept (word : String) : Reader Bool := do
  let cs ← get
  if word.toList.isPrefixOf cs then
    set (cs.drop word.length)
    return true
  else return false

/-- Takes a given word, with which the text must start. -/
def expect (word : String) : Reader Unit := do
  if !(← accept word) then throw (.expected s!"'{word}'")

/-- Takes a comma and the spaces around it, if the next word is a comma. -/
def comma : Reader Bool := do
  space
  if ← accept "," then
    space
    return true
  else return false

/-- Takes the longest front whose characters satisfy `p`. -/
def run (p : Char → Bool) : Reader (List Char) := do
  let cs ← get
  set (cs.dropWhile p)
  return cs.takeWhile p

/-- The characters of a raw identifier, which is written after `r#`. -/
def isRawIdent (c : Char) : Bool :=
  Text.isIdentRest c || c == '.' || c == '+' || c == '-'

/-- Reads an identifier. One that goes on with characters of a raw identifier must be written as one,
unless it starts with `r`; `r` before a text is no identifier. -/
def identifier : Reader String := do
  match ← get with
  | ['r'] => throw .unexpectedEnd
  | 'r' :: '"' :: _ => throw (.expected "an identifier")
  | 'r' :: '#' :: cs =>
    if cs.head?.any isRawIdent then
      set cs
      return String.ofList (← run isRawIdent)
    else throw (.expected "an identifier")
  | c :: _ =>
    if Text.isIdentStart c then
      let word ← run Text.isIdentRest
      if c != 'r' && (← get).head?.any isRawIdent then throw (.expected "a raw identifier")
      return String.ofList word
    else throw (.expected "an identifier")
  | [] => throw .unexpectedEnd

/-- Whether a text starts with a given word that does not go on. -/
def startsWithKeyword (word : String) (cs : List Char) : Bool :=
  word.toList.isPrefixOf cs && !(cs.drop word.length).head?.any Text.isIdentRest

def keyword (word : String) : Reader Bool := do
  if startsWithKeyword word (← get) then accept word else return false

def hexDigit? (c : Char) : Option Nat :=
  if c.isDigit then some (c.toNat - '0'.toNat)
  else if 'a' ≤ c && c ≤ 'f' then some (c.toNat - 'a'.toNat + 10)
  else if 'A' ≤ c && c ≤ 'F' then some (c.toNat - 'A'.toNat + 10)
  else none

def isIntegerChar (c : Char) : Bool := (hexDigit? c).isSome || c == '_'

/-- The number that digits of a base denote; underscores between them do not count. -/
def digitsValue? (base : Nat) (digits : List Char) : Option Nat :=
  digits.foldl (fun value c =>
    if c == '_' then value
    else do
      let digit ← hexDigit? c
      if digit < base then some (base * (← value) + digit) else none) (some 0)

/-- Reads a whole number without a sign, up to a limit. It is hexadecimal, binary or octal after `0x`,
`0b` or `0o`, and decimal otherwise. -/
def natural (limit : Nat) : Reader Nat := do
  let base ←
    if ← accept "0x" then pure 16
    else if ← accept "0b" then pure 2
    else if ← accept "0o" then pure 8
    else pure 10
  let digits ← run isIntegerChar
  if digits.head?.all (· == '_') then throw .invalidInteger
  match digitsValue? base digits with
  | some value => if value ≤ limit then return value else throw .invalidInteger
  | none => throw .invalidInteger

def hexValue? (digits : List Char) : Option Nat :=
  if digits.all fun c => (hexDigit? c).isSome then digitsValue? 16 digits else none

def charOf? (n : Nat) : Option Char := if n.isValidChar then some (Char.ofNat n) else none

/-- Reads the rest of an escape sequence, after its backslash. -/
def escape : Reader Char := do
  match ← get with
  | [] => throw .unexpectedEnd
  | c :: cs =>
    set cs
    match c with
    | '\'' => return '\''
    | '"' => return '"'
    | '\\' => return '\\'
    | 'n' => return '\n'
    | 'r' => return '\r'
    | 't' => return '\t'
    | '0' => return '\x00'
    | 'x' =>
      set (cs.drop 2)
      match cs.take 2 with
      | [a, b] =>
        match (hexValue? [a, b]).bind charOf? with
        | some c => return c
        | none => throw .invalidEscape
      | _ => throw .unexpectedEnd
    | 'u' =>
      expect "\x7b"
      let digits ← run (· != '\x7d')
      expect "\x7d"
      if digits.isEmpty || 6 < digits.length then throw .invalidEscape
      match (hexValue? digits).bind charOf? with
      | some c => return c
      | none => throw .invalidEscape
    | _ => throw .invalidEscape

/-- Reads the rest of a text, after its opening quote; each turn reads one character, and there are
fewer characters than `turns`. -/
def textRest : Nat → List Char → Reader String
  | 0, _ => throw .unexpectedEnd
  | turns + 1, before => do
    match ← get with
    | [] => throw .unexpectedEnd
    | '"' :: cs =>
      set cs
      return String.ofList before.reverse
    | '\\' :: cs =>
      set cs
      textRest turns ((← escape) :: before)
    | c :: cs =>
      set cs
      textRest turns (c :: before)

def splitAtMark? (mark : List Char) : List Char → Option (List Char × List Char)
  | [] => if mark.isEmpty then some ([], []) else none
  | c :: cs =>
    if mark.isPrefixOf (c :: cs) then some ([], (c :: cs).drop mark.length)
    else (splitAtMark? mark cs).map fun (before, after) => (c :: before, after)

/-- Reads the rest of a raw text, after its `r`: it ends at a quote with as many `#` after it as it
has before its first quote, and nothing in it is an escape sequence. -/
def rawText : Reader String := do
  let hashes ← run (· == '#')
  expect "\""
  match splitAtMark? ('"' :: hashes) (← get) with
  | some (value, rest) =>
    set rest
    return String.ofList value
  | none => throw .unexpectedEnd

def text : Reader String := do
  if ← accept "\"" then textRest ((← get).length + 1) []
  else if ← accept "r" then rawText
  else throw (.expected "a text")

def character : Reader Char := do
  expect "'"
  let c ←
    match ← get with
    | [] => throw .unexpectedEnd
    | '\\' :: cs =>
      set cs
      escape
    | '\'' :: _ => throw (.expected "a character")
    | c :: cs =>
      set cs
      pure c
  expect "'"
  return c

end Signatures.Ron
