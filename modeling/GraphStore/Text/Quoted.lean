import GraphStore.Text.Extender
import GraphStore.Text.Hex
import GraphStore.Text.Unprintable

/-!
A text in double quotes, safe to put into a message: marks that would be lost or would run into the
quotes are written as escapes. A single quote stands for itself.
-/
namespace GraphStore.Quoted

def char (c : Char) : List Char :=
  if c = '\x00' then ['\\', '0']
  else if c = '\t' then ['\\', 't']
  else if c = '\r' then ['\\', 'r']
  else if c = '\n' then ['\\', 'n']
  else if c = '\\' then ['\\', '\\']
  else if c = '"' then ['\\', '"']
  else if isExtender c || !isPrintable c then
    ['\\', 'u', '\x7b'] ++ Nat.toDigits 16 c.toNat ++ ['\x7d']
  else [c]

def text (s : String) : String := String.ofList ('"' :: s.toList.flatMap char ++ ['"'])

end GraphStore.Quoted
