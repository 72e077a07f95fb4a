import Highlight.Pattern.Bracket
import Highlight.Pattern.Name
import Highlight.Pattern.Repetition

/-! The smallest parts of a pattern outside of brackets. -/

namespace Highlight.Pattern

inductive Token
  | finish
  | char (c : Char)
  | code (n : Nat)
  | byte (n : Nat)
  | anyChar
  | set (s : CharSet)
  | property (negated : Bool)
  | anchor (a : Anchor)
  | keep
  | newlines
  | cluster
  | reference (r : Reference)
  | call (n : Node)
  | quantifier (q : Quantifier) (possessive : Bool)
  | bar
  | opening
  | closing
  | bracket

namespace Token

open Reader

def afterComment? : List Char → Option (List Char)
  | [] => none
  | ')' :: cs => some cs
  | '\\' :: _ :: cs => afterComment? cs
  | _ :: cs => afterComment? cs

def isIgnorable (c : Char) : Bool := c == ' ' || c == '\t' || c == '\n' || c == '\r' || c == '\x0c'

def skipIgnored (extended : Bool) (fuel : Nat) (cs : List Char) : Except Fault (List Char) :=
  match fuel with
  | 0 => .ok cs
  | fuel + 1 =>
    match cs with
    | '(' :: '?' :: '#' :: rest =>
      match afterComment? rest with
      | some r => skipIgnored extended fuel r
      | none => .error .endInGroup
    | c :: rest =>
      if extended ∧ isIgnorable c then skipIgnored extended fuel rest
      else if extended ∧ c = '#' then
        skipIgnored extended fuel ((rest.dropWhile (· != '\n')).drop 1)
      else .ok (c :: rest)
    | [] => .ok []

def anchor? (o : Options) : Char → Option Anchor
  | 'b' => some (.wordBoundary (o.asciiWord || o.asciiPosix))
  | 'B' => some (.noWordBoundary (o.asciiWord || o.asciiPosix))
  | 'y' => some .clusterBoundary
  | 'Y' => some .noClusterBoundary
  | 'A' => some .textStart
  | 'Z' => some .textEndOrFinalNewline
  | 'z' => some .textEnd
  | 'G' => some .searchStart
  | _ => none

def ofEscaped : Escaped → Token
  | .code n => .code n
  | .byte n _ => .byte n
  | .char c => .char c

def digitToken (c : Char) (cs : List Char) : Reader Token := do
  match Number.decimal? (c :: cs) with
  | some (n, r) =>
    -- A number of several digits is no reference unless so many groups have begun.
    if n ≤ (← get).groups ∨ n ≤ 9 then
      setRest r
      return .reference (← referByNumber n none)
    else octalOr c cs
  | none => octalOr c cs
where
  octalOr (c : Char) (cs : List Char) : Reader Token := do
    if c = '8' ∨ c = '9' then
      setRest cs
      return .char c
    else return ofEscaped (← Escaped.octal 3)

def propertyToken (letter : Char) : Reader Token := do
  if ← skipIf '\x7b' then
    return .property ((letter == 'P') != (← skipIf '^'))
  else return .char letter

def named (letter : Char) (token : Char → Reader Token) : Reader Token := do
  match ← rest with
  | c :: cs =>
    if c = '<' ∨ c = '\'' then
      setRest cs
      token (Name.closing c)
    else return .char letter
  | [] => return .char letter

def escapeToken (o : Options) : Reader Token := do
  match ← rest with
  | [] => refuse .endAtEscape
  | c :: cs =>
    match Property.letterSet? o c with
    | some s => setRest cs; return .set s
    | none =>
      match anchor? o c with
      | some a => setRest cs; return .anchor a
      | none =>
        if c = 'K' then setRest cs; return .keep
        else if c = 'R' then setRest cs; return .newlines
        else if c = 'X' then setRest cs; return .cluster
        else if c = 'k' then
          setRest cs
          named 'k' fun close => return .reference (← Name.reference close)
        else if c = 'g' then
          setRest cs
          named 'g' fun close => return .call (← Name.call close)
        else if c = 'p' ∨ c = 'P' then setRest cs; propertyToken c
        else if c = 'o' then setRest cs; return ofEscaped (← Escaped.octalInBraces false)
        else if c = 'x' then setRest cs; return ofEscaped (← Escaped.hexadecimal false)
        else if c = 'u' then setRest cs; return ofEscaped (← Escaped.fourDigits)
        else if c = '0' then setRest cs; return ofEscaped (← Escaped.octal 2)
        else if '1' ≤ c ∧ c ≤ '9' then digitToken c cs
        else return ofEscaped (← Escaped.plain)

def quantifierEnd (least : Nat) (most : Option Nat) (mayBeLazy mayBePossessive : Bool) :
    Reader Token := do
  if mayBeLazy then
    if ← skipIf '?' then return .quantifier ⟨least, most, false⟩ false
  if mayBePossessive then
    if ← skipIf '+' then return .quantifier ⟨least, most, true⟩ true
  return .quantifier ⟨least, most, true⟩ false

inductive Interval
  | exactly (n : Nat)
  | between (least : Nat) (most : Option Nat)

def intervalNumber (cs : List Char) : Except Fault (Option Nat × List Char) :=
  match Number.decimal? cs with
  | none => .error .tooBigRepeat
  | some (n, r) =>
    if Quantifier.limit < n then .error .tooBigRepeat
    else .ok (if r.length < cs.length then some n else none, r)

def interval? (cs : List Char) : Except Fault (Option (Interval × List Char)) :=
  match intervalNumber cs with
  | .error f => .error f
  | .ok (some n, '\x7d' :: r) => .ok (some (.exactly n, r))
  | .ok (least, ',' :: r) =>
    match intervalNumber r with
    | .error f => .error f
    | .ok (most, '\x7d' :: r) =>
      .ok (if least.isSome || most.isSome then some (.between (least.getD 0) most, r) else none)
    | .ok _ => .ok none
  | .ok _ => .ok none

def braceToken (cs : List Char) : Reader Token := do
  match interval? cs with
  | .error f => refuse f
  | .ok none => setRest cs; return .char '\x7b'
  | .ok (some (.exactly n, r)) => setRest r; quantifierEnd n (some n) false false
  | .ok (some (.between least none, r)) => setRest r; quantifierEnd least none true false
  | .ok (some (.between least (some most), r)) =>
    setRest r
    -- Numbers in the wrong order are exchanged, and the quantifier is then possessive.
    if most < least then return .quantifier ⟨most, some least, true⟩ true
    else quantifierEnd least (some most) true false

def token (o : Options) : Reader Token := do
  let s ← get
  match s.pending with
  | p :: ps =>
    modify ({ · with pending := ps })
    return .code (p.getD 0)
  | [] =>
    match skipIgnored o.extended (s.rest.length + 1) s.rest with
    | .error f => refuse f
    | .ok [] => setRest []; return .finish
    | .ok (c :: cs) =>
      if c = '\x7b' then braceToken cs
      else
        setRest cs
        match c with
        | '\\' => escapeToken o
        | '.' => return .anyChar
        | '*' => quantifierEnd 0 none true true
        | '+' => quantifierEnd 1 none true true
        | '?' => quantifierEnd 0 (some 1) true true
        | '|' => return .bar
        | '(' => return .opening
        | ')' => return .closing
        | '^' => return .anchor .lineStart
        | '$' => return .anchor .lineEnd
        | '[' => return .bracket
        | c => return .char c

end Token

end Highlight.Pattern
