import Highlight.Pattern.Escape
import Highlight.Pattern.Property

/-! Sets of characters between square brackets. -/

namespace Highlight.Pattern

def depthLimit : Nat := 4096

namespace Bracket

open Reader

inductive Token
  | finish
  | close
  | char (c : Char) (escaped : Bool)
  | code (n : Nat)
  | byte (n base : Nat)
  | hyphen
  | set (s : CharSet)
  | property (negated : Bool)
  | posix
  | bracket
  | and

def startsPosix (cs : List Char) : Bool :=
  match cs with
  | ':' :: cs =>
    let cs := match cs with
      | '^' :: cs => cs
      | cs => cs
    match cs.dropWhile Unicode.isAlphabetic with
    | ':' :: ']' :: _ => true
    | _ => false
  | _ => false

def propertyToken (letter : Char) : Reader Token := do
  if ← skipIf '\x7b' then
    return .property ((letter == 'P') != (← skipIf '^'))
  else return .char letter true

def ofEscaped : Escaped → Token
  | .code n => .code n
  | .byte n base => .byte n base
  | .char c => .char c true

def escapeToken (o : Options) : Reader Token := do
  match ← rest with
  | [] => refuse .endAtEscape
  | c :: cs =>
    match Property.letterSet? o c with
    | some s => setRest cs; return .set s
    | none =>
      if c = 'p' ∨ c = 'P' then setRest cs; propertyToken c
      else if c = 'o' then setRest cs; return ofEscaped (← Escaped.octalInBraces true)
      else if c = 'x' then setRest cs; return ofEscaped (← Escaped.hexadecimal true)
      else if c = 'u' then setRest cs; return ofEscaped (← Escaped.fourDigits)
      else if '0' ≤ c ∧ c ≤ '7' then return ofEscaped (← Escaped.octal 3)
      else return ofEscaped (← Escaped.plain)

def token (o : Options) : Reader Token := do
  let s ← get
  match s.pending with
  | p :: ps =>
    set { s with pending := ps }
    match p with
    | some n => return .code n
    | none => return .hyphen
  | [] =>
    match s.rest with
    | [] => return .finish
    | c :: cs =>
      setRest cs
      if c = ']' then return .close
      else if c = '-' then return .hyphen
      else if c = '\\' then escapeToken o
      else if c = '[' then
        if startsPosix cs then return .posix else return .bracket
      else if c = '&' ∧ cs.head? = some '&' then
        setRest cs.tail
        return .and
      else return .char c false

structure Value where
  code : Nat
  isByte : Bool

def Value.isSmall (v : Value) : Bool := v.isByte || v.code < 0x80

def Value.set (v : Value) : CharSet := if v.isByte then .empty else .code v.code

def rangeSet (first last : Value) : Except Fault CharSet :=
  if last.code < first.code then .error .emptyRange
  else if first.isSmall && last.isSmall then .ok (.range first.code (min last.code 0x7f))
  else .ok (.range first.code last.code)

inductive Phase
  | start
  | value (v : Value)
  | set
  | range (first : Value)
  | complete

/-- The items so far, the last one first, and the sets that have to be intersected with them. -/
structure Contents where
  items : List CharSet := []
  phase : Phase := .start
  earlier : Option CharSet := none

namespace Contents

def unionOf : List CharSet → CharSet
  | [] => .empty
  | [s] => s
  | s :: ss => .union s (unionOf ss)

def settled (c : Contents) : Contents :=
  match c.phase with
  | .value v => { c with items := v.set :: c.items }
  | _ => c

def addValue (c : Contents) (v : Value) : Except Fault Contents :=
  match c.phase with
  | .range first => (rangeSet first v).map fun s =>
      { c with items := s :: c.items, phase := .complete }
  | _ => .ok { c.settled with phase := .value v }

def addSet (c : Contents) (s : CharSet) : Except Fault Contents :=
  match c.phase with
  | .range _ => .error .classAtEndOfRange
  | _ => .ok { c.settled with items := s :: c.settled.items, phase := .set }

def addBracket (c : Contents) (s : CharSet) : Contents :=
  { c with items := s :: c.items, phase := .complete }

def whole (c : Contents) : CharSet :=
  let s := unionOf c.settled.items.reverse
  match c.earlier with
  | some e => .inter e s
  | none => s

def intersect (c : Contents) : Contents := { earlier := some c.whole }

end Contents

def posixNames : List String :=
  ["alnum", "alpha", "blank", "cntrl", "digit", "graph", "lower", "print", "punct", "space",
    "upper", "xdigit", "ascii", "word"]

def posixSet (o : Options) : Reader CharSet := do
  let _ ← skipIf ':'
  let negated ← skipIf '^'
  let cs ← rest
  let name := String.ofList (cs.takeWhile (· != ':'))
  if cs.length < 7 then refuse .invalidBracketType
  match if posixNames.contains name then Unicode.Property.posix? name else none with
  | some p =>
    setRest ((cs.dropWhile (· != ':')).drop 2)
    return CharSet.negatedIf negated (Property.posixSet o name p)
  | none => refuse .invalidBracketType

def moreBytes (o : Options) (base : Nat) : (count : Nat) → Reader (List Nat)
  | 0 => return []
  | count + 1 => do
    match ← token o with
    | .byte n b =>
      if b = base then return n :: (← moreBytes o base count) else refuse .shortByteSequence
    | _ => refuse .shortByteSequence

def byteValue (o : Options) (n base : Nat) : Reader Value := do
  if byteCount n = 1 then return ⟨n, 0x80 ≤ n⟩
  else
    match charOfBytes? (n :: (← moreBytes o base (byteCount n - 1))) with
    | some c => return ⟨c.toNat, false⟩
    | none => refuse .invalidCode

def lift {α : Type} (e : Except Fault α) : Reader α :=
  match e with
  | .ok a => return a
  | .error f => refuse f

structure Members where
  negated : Bool
  listed : CharSet

def Members.set (m : Members) : CharSet := CharSet.negatedIf m.negated m.listed

def Members.expansions (m : Members) : List (List Char) :=
  if m.negated then []
  else (Unicode.CaseFolding.expansions.filter fun e => m.listed.contains (Char.ofNat e.1)).map
    fun e => e.2.map Char.ofNat

def foldedOneByOne (text : List Char) : Node :=
  Node.sequenceOf (text.map fun c => .one (.folded (.single c)))

def Members.foldedNode (m : Members) : Node :=
  (m.expansions.map foldedOneByOne).foldl .choice
    (.one (CharSet.negatedIf m.negated (.folded m.listed)))

def Members.node (m : Members) (fold : Bool) : Node :=
  if fold then m.foldedNode else .one m.set

mutual

def contents (fuel : Nat) (o : Options) (depth : Nat) (c : Contents) (t : Token) :
    Reader CharSet :=
  match fuel with
  | 0 => refuse .unclosedClass
  | fuel + 1 => do
    match t with
    | .close => return c.whole
    | .finish => refuse .unclosedClass
    | .char d _ => contents fuel o depth (← lift (c.addValue ⟨d.toNat, false⟩)) (← token o)
    | .code n =>
      if codeLimit < n then refuse .tooBigCode
      contents fuel o depth (← lift (c.addValue ⟨n, false⟩)) (← token o)
    | .byte n base =>
      let v ← byteValue o n base
      contents fuel o depth (← lift (c.addValue v)) (← token o)
    | .set s => contents fuel o depth (← lift (c.addSet s)) (← token o)
    | .property negated =>
      let s ← Property.name o negated
      contents fuel o depth (← lift (c.addSet s)) (← token o)
    | .posix =>
      let s ← posixSet o
      contents fuel o depth (← lift (c.addSet s)) (← token o)
    | .bracket =>
      let m ← bracket fuel o depth
      contents fuel o depth (c.settled.addBracket m.set) (← token o)
    | .and => contents fuel o depth c.intersect (← token o)
    | .hyphen =>
      let hyphen : Value := ⟨'-'.toNat, false⟩
      match c.phase with
      | .start => contents fuel o depth (← lift (c.addValue hyphen)) (← token o)
      | .range _ => contents fuel o depth (← lift (c.addValue hyphen)) (← token o)
      | .complete => contents fuel o depth (← lift (c.addValue hyphen)) (← token o)
      | .value v =>
        match ← token o with
        | .close => contents fuel o depth (← lift (c.addValue hyphen)) .close
        | .and => contents fuel o depth (← lift (c.addValue hyphen)) .and
        | t => contents fuel o depth { c with phase := .range v } t
      | .set =>
        match ← token o with
        | .close => contents fuel o depth (← lift (c.addValue hyphen)) .close
        | .and => contents fuel o depth (← lift (c.addValue hyphen)) .and
        | _ => refuse .unmatchedRange

def bracket (fuel : Nat) (o : Options) (depth : Nat) : Reader Members :=
  match fuel with
  | 0 => refuse .unclosedClass
  | fuel + 1 => do
    if depthLimit < depth + 1 then refuse .depthLimit
    let t ← token o
    let negated := match t with
      | .char '^' false => true
      | _ => false
    let t ← if negated then token o else pure t
    -- A closing bracket that comes first stands for itself if there is another one.
    let t ← match t with
      | .close => do
        if !(← rest).contains ']' then refuse .emptyClass
        pure (.char ']' false)
      | t => pure t
    return ⟨negated, ← contents fuel o (depth + 1) {} t⟩

end

end Bracket

end Highlight.Pattern
