/-! Text in UTF-16. -/

namespace Highlight.Utf16

def isLeading (n : Nat) : Bool := 0xD800 ≤ n && n ≤ 0xDBFF

def isTrailing (n : Nat) : Bool := 0xDC00 ≤ n && n ≤ 0xDFFF

def pair (high low : Nat) : Char := Char.ofNat (0x10000 + (high - 0xD800) * 0x400 + (low - 0xDC00))

def decode? : List Nat → Option (List Char)
  | [] => some []
  | [n] => if isLeading n || isTrailing n then none else some [Char.ofNat n]
  | n :: m :: rest =>
    if isLeading n then
      if isTrailing m then (decode? rest).map (pair n m :: ·) else none
    else if isTrailing n then none
    else (decode? (m :: rest)).map (Char.ofNat n :: ·)

end Highlight.Utf16
