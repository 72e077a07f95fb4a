import Highlight.Text.Digits

/-! Numbers in patterns. -/

namespace Highlight.Pattern.Number

def limit : Nat := 2147483647

def digit? (base : Nat) (c : Char) : Option Nat := (Digits.hexValue? c).filter (· < base)

def digits (base : Nat) : (most : Nat) → List Char → List Nat × List Char
  | 0, cs => ([], cs)
  | _ + 1, [] => ([], [])
  | most + 1, c :: cs =>
    match digit? base c with
    | some d =>
      let (ds, rest) := digits base most cs
      (d :: ds, rest)
    | none => ([], c :: cs)

def value (base : Nat) (ds : List Nat) : Nat := Digits.ofDigits base ds

def decimal? (cs : List Char) : Option (Nat × List Char) :=
  let (ds, rest) := digits 10 cs.length cs
  if value 10 ds ≤ limit then some (value 10 ds, rest) else none

end Highlight.Pattern.Number
