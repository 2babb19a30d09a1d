/-
# Quoted texts

A text between quotation marks, as it is shown to people: what would end the text or cannot be seen
is escaped.
-/
import Chatflow.Command.Invisible

namespace Chatflow

/-- A character within quotation marks. -/
def Quoted.escape (c : Char) : List Char :=
  match c with
  | '"' => ['\\', '"']
  | '\'' => ['\\', '\'']
  | '\\' => ['\\', '\\']
  | '\n' => ['\\', 'n']
  | '\r' => ['\\', 'r']
  | '\t' => ['\\', 't']
  | _ =>
    if c.toNat = 0 then ['\\', '0']
    else if Invisible.isInvisible c then
      ['\\', 'u', '\x7b'] ++ Nat.toDigits 16 c.toNat ++ ['\x7d']
    else [c]

/-- A text between quotation marks. -/
def quoted (s : String) : String :=
  "\"" ++ String.ofList (s.toList.flatMap Quoted.escape) ++ "\""

end Chatflow
