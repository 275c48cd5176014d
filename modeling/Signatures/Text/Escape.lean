import Signatures.Text.Invisible

/-!
# Characters in messages

How a message shows one character: quotes, the backslash and the usual controls by a letter after a
backslash, invisible characters by their number, and every other character as it is.
-/

namespace Signatures.Text

def numbered (c : Char) : List Char :=
  ['\\', 'u', '\x7b'] ++ Nat.toDigits 16 c.toNat ++ ['\x7d']

def shown (c : Char) : List Char :=
  match c with
  | '\x00' => ['\\', '0']
  | '\t' => ['\\', 't']
  | '\r' => ['\\', 'r']
  | '\n' => ['\\', 'n']
  | '\'' => ['\\', '\'']
  | '"' => ['\\', '"']
  | '\\' => ['\\', '\\']
  | c => if isInvisible c then numbered c else [c]

end Signatures.Text
