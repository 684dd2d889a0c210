-- Quoted texts. How a name is shown inside a message: in double quotes, with
-- the usual escapes, and with the code point of every character that has no
-- visible form of its own.
import ReplicaLoad.Text.Printable

namespace ReplicaLoad.Text

def showChar (c : Char) : List Char :=
  match c with
  | '\x00' => ['\\', '0']
  | '\t' => ['\\', 't']
  | '\r' => ['\\', 'r']
  | '\n' => ['\\', 'n']
  | '\x22' => ['\\', '\x22']
  | '\\' => ['\\', '\\']
  | _ =>
    if isPrintable c then [c]
    else ['\\', 'u', '\x7b'] ++ Nat.toDigits 16 c.toNat ++ ['\x7d']

def quoted (s : String) : String := "\"" ++ String.ofList (s.toList.flatMap showChar) ++ "\""

end ReplicaLoad.Text
