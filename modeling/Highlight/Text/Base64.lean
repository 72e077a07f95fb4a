import Highlight.Text.Bytes

/-! Bytes written in base 64, with padding and with nothing else. -/

namespace Highlight.Base64

def sextet? (c : Char) : Option Nat :=
  if 'A' ≤ c ∧ c ≤ 'Z' then some (c.toNat - 'A'.toNat)
  else if 'a' ≤ c ∧ c ≤ 'z' then some (c.toNat - 'a'.toNat + 26)
  else if '0' ≤ c ∧ c ≤ '9' then some (c.toNat - '0'.toNat + 52)
  else if c = '+' then some 62
  else if c = '/' then some 63
  else none

def lastGroup? (a b c d : Char) : Option Bytes :=
  match sextet? a, sextet? b, sextet? c, sextet? d with
  | some a, some b, some c, some d =>
    let n := ((a * 64 + b) * 64 + c) * 64 + d
    some [UInt8.ofNat (n / 65536), UInt8.ofNat (n / 256), UInt8.ofNat n]
  | some a, some b, some c, none =>
    if d = '=' ∧ c % 4 = 0 then
      let n := (a * 64 + b) * 16 + c / 4
      some [UInt8.ofNat (n / 256), UInt8.ofNat n]
    else none
  | some a, some b, none, none =>
    if c = '=' ∧ d = '=' ∧ b % 16 = 0 then some [UInt8.ofNat (a * 4 + b / 16)] else none
  | _, _, _, _ => none

def decode? : List Char → Option Bytes
  | [] => some []
  | [a, b, c, d] => lastGroup? a b c d
  | a :: b :: c :: d :: rest =>
    match sextet? a, sextet? b, sextet? c, sextet? d with
    | some _, some _, some _, some _ =>
      match lastGroup? a b c d, decode? rest with
      | some x, some y => some (x ++ y)
      | _, _ => none
    | _, _, _, _ => none
  | _ => none

end Highlight.Base64
