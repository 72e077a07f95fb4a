import Highlight.Unicode.Class
import Highlight.Text.Digits

/-! Text as error messages show it: between quotation marks, with escapes for what would not be
seen. -/

namespace Highlight.Shown

def hex (n : Nat) : List Char := Nat.toDigits 16 n

def escape (c : Char) : List Char :=
  match c with
  | '\x00' => ['\\', '0']
  | '\t' => ['\\', 't']
  | '\n' => ['\\', 'n']
  | '\r' => ['\\', 'r']
  | '"' => ['\\', '"']
  | '\\' => ['\\', '\\']
  | _ =>
    if Unicode.isGraphemeExtend c || !Unicode.isVisible c then
      ['\\', 'u', '\x7b'] ++ hex c.toNat ++ ['\x7d']
    else [c]

def text (s : String) : String := String.ofList ('"' :: (s.toList.flatMap escape ++ ['"']))

end Highlight.Shown
