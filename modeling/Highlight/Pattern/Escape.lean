import Highlight.Pattern.Number
import Highlight.Pattern.Source
import Highlight.Text.Bytes

/-! Characters that a pattern writes with a backslash. -/

namespace Highlight.Pattern

inductive Escaped
  | code (n : Nat)
  | byte (n base : Nat)
  | char (c : Char)

namespace Escaped

open Reader

def letterCode (c : Char) : Nat :=
  match c with
  | 'n' => 0x0a
  | 't' => 0x09
  | 'r' => 0x0d
  | 'f' => 0x0c
  | 'a' => 0x07
  | 'b' => 0x08
  | 'e' => 0x1b
  | 'v' => 0x0b
  | c => c.toNat

mutual

def keyCode (fuel : Nat) : Reader Nat :=
  match fuel with
  | 0 => refuse .endAtEscape
  | fuel + 1 => do
    let c ← nextOr .endAtEscape
    if c = 'M' then
      if (← nextOr .endAtMeta) ≠ '-' then refuse .invalidMeta
      let c ← nextOr .endAtMeta
      let n ← if c = '\\' then keyCode fuel else pure c.toNat
      return n % 0x100 ||| 0x80
    else if c = 'C' then
      if (← nextOr .endAtControl) ≠ '-' then refuse .invalidControl
      controlCode fuel
    else if c = 'c' then controlCode fuel
    else return letterCode c

def controlCode (fuel : Nat) : Reader Nat := do
  let c ← nextOr .endAtControl
  if c = '?' then return 0x7f
  else if c = '\\' then
    match fuel with
    | 0 => refuse .endAtEscape
    | fuel + 1 => return (← keyCode fuel) &&& 0x9f
  else return c.toNat &&& 0x9f

end

def plain : Reader Escaped := do
  let cs ← rest
  let n ← keyCode cs.length
  match cs with
  | c :: _ => return if n = c.toNat then .char c else .code n
  | [] => return .code n

def isSeparator (c : Char) : Bool := c == ' ' || c == '\n'

/-- The code points of a sequence after the first one, up to its brace. They are separated by spaces
and newlines, and in a bracket by hyphens too; `separated` says whether that has been done. -/
def sequence (base most : Nat) (inBracket separated : Bool) (fuel : Nat) (cs : List Char) :
    Option (List (Option Nat) × List Char) :=
  match fuel with
  | 0 => none
  | fuel + 1 =>
    match cs with
    | [] => none
    | c :: rest =>
      if c = '\x7d' then some ([], rest)
      else if isSeparator c then sequence base most inBracket true fuel rest
      else if c = '-' ∧ inBracket then
        (sequence base most inBracket true fuel rest).map fun (ns, r) => (none :: ns, r)
      else if separated then
        match Number.digits base most cs with
        | ([], _) => none
        | (ds, r) => (sequence base most inBracket false fuel r).map fun (ns, r) =>
            (some (Number.value base ds) :: ns, r)
      else none

def braced (base most : Nat) (inBracket : Bool) (letter : Char) (cs : List Char) :
    Reader Escaped := do
  let (ds, r) := Number.digits base most cs
  if ds.isEmpty then return .char letter
  if r.head?.any fun c => (Number.digit? base c).isSome then refuse .tooLongCode
  match sequence base most inBracket false (r.length + 1) r with
  | some (ns, r) =>
    modify ({ · with pending := ns, rest := r })
    return .code (Number.value base ds)
  | none => return .char letter

def hexadecimal (inBracket : Bool) : Reader Escaped := do
  match ← rest with
  | [] => return .char 'x'
  | '\x7b' :: cs => braced 16 8 inBracket 'x' cs
  | cs =>
    let (ds, r) := Number.digits 16 2 cs
    setRest r
    return .byte (Number.value 16 ds) 16

def octalInBraces (inBracket : Bool) : Reader Escaped := do
  match ← rest with
  | '\x7b' :: cs => braced 8 11 inBracket 'o' cs
  | _ => return .char 'o'

def fourDigits : Reader Escaped := do
  match ← rest with
  | [] => return .char 'u'
  | cs =>
    let (ds, r) := Number.digits 16 4 cs
    if ds.length < 4 then refuse .invalidCode
    setRest r
    return .code (Number.value 16 ds)

def octal (most : Nat) : Reader Escaped := do
  let (ds, r) := Number.digits 8 most (← rest)
  if 0xff < Number.value 8 ds then refuse .tooBigNumber
  setRest r
  return .byte (Number.value 8 ds) 8

end Escaped

def codeLimit : Nat := 0x7fffffff

def byteCount (first : Nat) : Nat :=
  if 0xc2 ≤ first ∧ first ≤ 0xdf then 2
  else if 0xe0 ≤ first ∧ first ≤ 0xef then 3
  else if 0xf0 ≤ first ∧ first ≤ 0xf7 then 4
  else if 0xf8 ≤ first ∧ first ≤ 0xfb then 5
  else if 0xfc ≤ first ∧ first ≤ 0xfd then 6
  else 1

def charOfBytes? (bytes : List Nat) : Option Char :=
  match (Bytes.text? (bytes.map UInt8.ofNat)).map (·.toList) with
  | some [c] => some c
  | _ => none

end Highlight.Pattern
