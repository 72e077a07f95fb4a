/-! Digits and numerals in base ten and sixteen. -/

namespace Highlight.Digits

def hexValue? (c : Char) : Option Nat :=
  if '0' ≤ c ∧ c ≤ '9' then some (c.toNat - '0'.toNat)
  else if 'a' ≤ c ∧ c ≤ 'f' then some (c.toNat - 'a'.toNat + 10)
  else if 'A' ≤ c ∧ c ≤ 'F' then some (c.toNat - 'A'.toNat + 10)
  else none

def hexDigit (n : Nat) : Char := Nat.digitChar (n % 16)

def hexPair (n : Nat) : List Char := [hexDigit (n / 16), hexDigit n]

def decimal (n : Nat) : List Char := Nat.toDigits 10 n

def ofDigits (base : Nat) (ds : List Nat) : Nat := ds.foldl (fun n d => n * base + d) 0

def wordEnd : Nat := 0x10000000000000000

def signedEnd : Nat := 0x8000000000000000

end Highlight.Digits
