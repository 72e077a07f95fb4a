import Highlight.Json.Literal
import Highlight.Json.Number

/-! Reading values that hold no others, and saying what stands in a wrong place. -/

namespace Highlight.Json

def word (letters : List UInt8) (s : Bytes) : Except Fault { r : Bytes // r.length ≤ s.length } :=
  match letters, s with
  | [], s => .ok ⟨s, Nat.le_refl _⟩
  | _ :: _, [] => .error (.before .endInValue [])
  | l :: ls, b :: rest =>
    if b = l then (word ls rest).map fun r => ⟨r.1, Nat.le_succ_of_le r.2⟩
    else .error (.before .expectedIdent rest)

inductive Scalar
  | null
  | boolean (b : Bool)
  | number (n : Number)
  | text (s : String)

def Scalar.found : Scalar → Found
  | .null => .null
  | .boolean b => .boolean b
  | .number n => n.found
  | .text s => .text s

def wordOf? (b : UInt8) : Option (List UInt8 × Scalar) :=
  if b = 0x6e then some ([0x75, 0x6c, 0x6c], .null)
  else if b = 0x74 then some ([0x72, 0x75, 0x65], .boolean true)
  else if b = 0x66 then some ([0x61, 0x6c, 0x73, 0x65], .boolean false)
  else none

def minus : UInt8 := 0x2d

def scalar : Reader Scalar
  | [] => .error (.inFirst .endInValue [])
  | b :: rest =>
    match wordOf? b with
    | some (letters, v) => (word letters rest).map fun ⟨r, h⟩ => ⟨v, r, length_lt_cons_of_le b h⟩
    | none =>
      if b = minus then (Result.map .number (Number.unsigned true rest)).widen (length_le_cons b rest)
      else if Number.isDigit b then Result.map .number (Number.unsigned false (b :: rest))
      else if b = quote then (Result.map .text (literal rest)).widen (length_le_cons b rest)
      else .error (.inFirst .expectedValue (b :: rest))

def openBracket : UInt8 := 0x5b

def closeBracket : UInt8 := 0x5d

def openBrace : UInt8 := 0x7b

def closeBrace : UInt8 := 0x7d

def mismatch (expected : String) (s : Bytes) : Fault :=
  match s with
  | [] => .inFirst .endInValue []
  | b :: rest =>
    if b = openBracket then .before (.misfit (.invalidType .sequence expected)) (b :: rest)
    else if b = openBrace then .before (.misfit (.invalidType .map expected)) (b :: rest)
    else
      -- A fault in a scalar counts before its kind does.
      match scalar (b :: rest) with
      | .ok p => .before (.misfit (.invalidType p.value.found expected)) p.rest
      | .error e => e

def opened {α : Type} (first : UInt8) (expected : String) (inner : Reader α) : Reader α :=
  Reader.afterSpace fun s =>
    match s with
    | [] => .error (mismatch expected [])
    | b :: rest =>
      if b = first then (inner rest).widen (length_le_cons b rest)
      else .error (mismatch expected (b :: rest))

def text : Reader String := opened quote "a string" literal

end Highlight.Json
