import Signatures.Json.Basic

/-!
# Printing JSON

The text of a JSON value over several lines: two spaces for each level, every item and field on a line
of its own, and empty arrays and objects closed at once.
-/

namespace Signatures.Json

/-- The characters of a control character in a text: its number in four hexadecimal digits. -/
def controlText (c : Char) : List Char :=
  let digits := Nat.toDigits 16 c.toNat
  ['\\', 'u'] ++ List.replicate (4 - digits.length) '0' ++ digits

def charText (c : Char) : List Char :=
  match c with
  | '"' => ['\\', '"']
  | '\\' => ['\\', '\\']
  | '\n' => ['\\', 'n']
  | '\r' => ['\\', 'r']
  | '\t' => ['\\', 't']
  | '\x08' => ['\\', 'b']
  | '\x0c' => ['\\', 'f']
  | c => if c.toNat < 0x20 then controlText c else [c]

def quoted (value : String) : String :=
  "\"" ++ String.ofList (value.toList.flatMap charText) ++ "\""

def numberText (mantissa : Int) (places : Nat) : String :=
  if places = 0 then toString mantissa
  else
    let digits := Nat.toDigits 10 mantissa.natAbs
    let padded := List.replicate (places + 1 - digits.length) '0' ++ digits
    let whole := padded.length - places
    (if mantissa < 0 then "-" else "") ++ String.ofList (padded.take whole) ++ "." ++
      String.ofList (padded.drop whole)

def indent (level : Nat) : String := String.ofList (List.replicate (2 * level) ' ')

/-- Lines between brackets, which stand at a level. -/
def block (opening closing : String) (level : Nat) (lines : List String) : String :=
  match lines with
  | [] => opening ++ closing
  | lines =>
    opening ++ "\n" ++ ",\n".intercalate (lines.map (indent (level + 1) ++ ·)) ++ "\n" ++
      indent level ++ closing

mutual

/-- The text of a value whose first line stands at a level. -/
def printAt (level : Nat) : Json → String
  | null => "null"
  | bool true => "true"
  | bool false => "false"
  | number mantissa places => numberText mantissa places
  | text value => quoted value
  | array items => block "[" "]" level (printItems (level + 1) items)
  | object fields => block "\x7b" "\x7d" level (printFields (level + 1) fields)

def printItems (level : Nat) : List Json → List String
  | [] => []
  | item :: items => item.printAt level :: printItems level items

def printFields (level : Nat) : List (String × Json) → List String
  | [] => []
  | (name, value) :: fields =>
    (quoted name ++ ": " ++ value.printAt level) :: printFields level fields

end

def print (json : Json) : String := json.printAt 0

end Signatures.Json
