import Signatures.Ron.Lexical

/-!
# Values of RON

Readers for the ways in which RON puts values together, and `skip`, which reads any value and forgets
it. Values may be nested up to a limit: a container and each of its items take one level.
-/

namespace Signatures.Ron

/-- How deep values may be nested in a file. -/
def maxDepth : Nat := 128

/-- The features that a file can turn on in its first lines. -/
inductive Feature where
  | unwrapNewtypes
  | implicitSome
  | unwrapVariantNewtypes
  deriving DecidableEq, Repr

def Feature.ofName? : String → Option Feature
  | "unwrap_newtypes" => some unwrapNewtypes
  | "implicit_some" => some implicitSome
  | "unwrap_variant_newtypes" => some unwrapVariantNewtypes
  | _ => none

/-- Reads names of features, separated by commas, a trailing one allowed. There are at most `turns`
of them. -/
def featureNames : Nat → List Feature → Reader (List Feature)
  | 0, _ => throw .unexpectedEnd
  | turns + 1, features => do
    let name ← identifier
    match Feature.ofName? name with
    | none => throw (.unknownFeature name)
    | some feature =>
      let more ← comma
      let startsName := (← get).head?.any Text.isIdentRest
      if !more && startsName then throw (.expected "a comma")
      if more && startsName then featureNames turns (feature :: features)
      else return feature :: features

/-- Takes words one after the other, with spaces after each. -/
def expectAll : List String → Reader Unit
  | [] => return
  | word :: words => do
    expect word
    space
    expectAll words

/-- Reads the features that the first lines turn on. There are at most `turns` such lines. -/
def featureLines : Nat → List Feature → Reader (List Feature)
  | 0, _ => throw .unexpectedEnd
  | turns + 1, features => do
    if (← get).head? == some '#' then
      expectAll ["#", "!", "[", "enable", "("]
      let features ← featureNames ((← get).length + 1) features
      space
      expectAll [")", "]"]
      featureLines turns features
    else return features

def features : Reader (List Feature) := do
  space
  featureLines ((← get).length + 1) []

/-- Reads items up to a closing bracket. Commas stand between items, and one may stand after the last;
`mayGoOn` tells whether one came before. An item has at least one character, and there are fewer than
`turns` characters. -/
def itemsRest {σ : Type} (closing : Char) (item : σ → Reader σ) : Nat → Bool → σ → Reader σ
  | 0, _, _ => throw .unexpectedEnd
  | turns + 1, mayGoOn, state => do
    space
    match ← get with
    | [] => throw .unexpectedEnd
    | c :: cs =>
      if c == closing then
        set cs
        return state
      else if mayGoOn then
        let state ← item state
        itemsRest closing item turns (← comma) state
      else throw (.expected "a comma")

/-- Reads items up to a closing bracket, each of which changes a state. -/
def items {σ : Type} (closing : Char) (item : σ → Reader σ) (initial : σ) : Reader σ := do
  itemsRest closing item ((← get).length + 1) true initial

/-- Reads the fields of a structure, after its opening bracket: names and values, a colon between
them. -/
def fields {σ : Type} (value : σ → String → Reader σ) (initial : σ) : Reader σ :=
  items ')' (fun state => do
    let name ← identifier
    space
    expect ":"
    space
    value state name) initial

/-- Reads a structure with the given name, which may be left out. -/
def structure? {σ : Type} (name : String) (value : σ → String → Reader σ) (initial : σ) :
    Reader σ := do
  if (← get).head?.any Text.isIdentRest then
    if (← identifier) != name then throw (.expected s!"a structure {name}")
  space
  expect "("
  fields value initial

/-- Reads the value of a field that has not been read before. -/
def once {α : Type} (name : String) (earlier : Option α) (value : Reader α) : Reader (Option α) := do
  if earlier.isSome then throw (.duplicateField name)
  return some (← value)

def required {α : Type} (name : String) : Option α → Reader α
  | some value => return value
  | none => throw (.missingField name)

def list {α : Type} (item : Reader α) : Reader (List α) := do
  expect "["
  let reversed ← items ']' (fun before => do return (← item) :: before) []
  return reversed.reverse

/-- Reads an option. Where `implicitSome` is turned on, a value alone is one that is present. -/
def option {α : Type} (implicitSome : Bool) (value : Reader α) : Reader (Option α) := do
  if ← accept "None" then return none
  let wrapped ←
    if ← accept "Some" then
      space
      accept "("
    else pure false
  if wrapped then
    space
    let value ← value
    let _ ← comma
    expect ")"
    return some value
  else if implicitSome then return some (← value)
  else throw (.expected "an option")

def isFloatChar (c : Char) : Bool :=
  c.isDigit || c == 'e' || c == 'E' || c == '.' || c == '+' || c == '-' || c == '_'

def unsigned : List Char → List Char
  | '+' :: cs | '-' :: cs => cs
  | cs => cs

def isExponent : List Char → Bool
  | [] => true
  | c :: cs =>
    let digits := unsigned cs
    (c == 'e' || c == 'E') && !digits.isEmpty && digits.all Char.isDigit

def isFloat (cs : List Char) : Bool :=
  let cs := unsigned cs
  let whole := cs.takeWhile Char.isDigit
  match cs.dropWhile Char.isDigit with
  | '.' :: rest =>
    let part := rest.takeWhile Char.isDigit
    !(whole.isEmpty && part.isEmpty) && isExponent (rest.dropWhile Char.isDigit)
  | rest => !whole.isEmpty && isExponent rest

/-- Takes the first of the given words that is the next one. -/
def keywordAmong : List String → Reader Bool
  | [] => return false
  | word :: words => do
    if ← keyword word then return true else keywordAmong words

def float : Reader Unit := do
  if ← keywordAmong ["inf", "+inf", "-inf", "NaN", "+NaN", "-NaN"] then return
  if !isFloat (← run isFloatChar) then throw .invalidFloat

/-- Reads a whole number with an optional sign, in 64 bits. -/
def integer : Reader Unit := do
  if ← accept "+" then let _ ← natural (UInt64.size / 2 - 1)
  else if ← accept "-" then let _ ← natural (UInt64.size / 2)
  else let _ ← natural (UInt64.size - 1)

def number : Reader Unit := do
  let cs := unsigned (← get)
  let floatLength := (cs.takeWhile isFloatChar).length
  let integerLength := (cs.takeWhile isIntegerChar).length
  if integerLength < floatLength then float
  else tryCatch integer fun _ => float

/-- Whether what follows an opening parenthesis is a list of values without names. -/
def hasNoNames (cs : List Char) : Except Fault Bool :=
  match (do let _ ← identifier; space : Reader Unit).run cs with
  | .ok (_, []) => .error .unexpectedEnd
  | .ok (_, c :: _) => .ok (c != ':')
  | .error _ => .ok true

/-- Reads the rest of values in parentheses, with names or without, after the opening one. -/
def parenthesized (value : Reader Unit) : Reader Unit := do
  space
  if ← hasNoNames (← get) then items ')' (fun _ => value) ()
  else fields (fun _ _ => value) ()

def map (value : Reader Unit) : Reader Unit :=
  items '\x7d' (fun _ => do
    value
    space
    expect ":"
    space
    value) ()

def sequence (value : Reader Unit) : Reader Unit := items ']' (fun _ => value) ()

/-- Reads any value, whose nesting may take up to `depth` levels. -/
def skip (implicitSome : Bool) (depth : Nat) : Reader Unit := do
  if ← keywordAmong ["true", "false"] then return
  if startsWithKeyword "Some" (← get) then
    let _ ← option implicitSome (within depth)
    return
  if ← keyword "None" then return
  if ← accept "()" then return
  if ← keywordAmong ["inf", "NaN"] then return
  match identifier.run (← get) with
  | .ok (_, rest) =>
    set rest
    space
    if ← accept "(" then inside depth parenthesized
  | .error _ =>
    match ← get with
    | [] => throw .unexpectedEnd
    | '(' :: cs =>
      set cs
      inside depth parenthesized
    | '[' :: cs =>
      set cs
      inside depth sequence
    | '\x7b' :: cs =>
      set cs
      inside depth map
    | '"' :: _ | 'r' :: _ => let _ ← text
    | '\'' :: _ => let _ ← character
    | c :: _ =>
      if c.isDigit || c == '+' || c == '-' || c == '.' then number
      else throw (.expected "a value")
where
  /-- Reads a value one level further in. -/
  within : Nat → Reader Unit
    | 0 => throw .tooDeep
    | depth + 1 => skip implicitSome depth
  /-- Reads a container, given a reader of its items. -/
  inside : Nat → (Reader Unit → Reader Unit) → Reader Unit
    | 0, _ => throw .tooDeep
    | 1, container => container (throw .tooDeep)
    | depth + 2, container => container (skip implicitSome depth)

end Signatures.Ron
