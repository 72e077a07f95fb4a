import Highlight.Pattern.Token

/-! Reading a pattern. -/

namespace Highlight.Pattern

open Reader

/-- What a group is: a node, which is repeated as a whole if it is `grouped`; or options for all that
follows in the group around it. -/
inductive Group
  | node (n : Node) (grouped : Bool)
  | options (o : Options)

namespace Node

def ofCode (fold : Bool) (n : Nat) : Reader Node :=
  if codeLimit < n then refuse .tooBigCode
  else if n.isValidChar then return character fold (Char.ofNat n)
  else return .one .empty

def newlines : Node := .atomic (.choice (.literal ['\r', '\n']) (.one .newline))

def cluster : Node :=
  .atomic (.sequence (.one .any)
    (.repetition .star (.sequence (.anchor .noClusterBoundary) (.one .any))))

end Node

namespace Read

def moreBytes (o : Options) : (count : Nat) → Reader (List Nat)
  | 0 => return []
  | count + 1 => do
    match ← Token.token o with
    | .byte n => return n :: (← moreBytes o count)
    | _ => refuse .shortByteSequence

def byteNode (o : Options) (n : Nat) : Reader Node := do
  match charOfBytes? (n :: (← moreBytes o (byteCount n - 1))) with
  | some c => return .literal [c]
  | none => refuse .invalidCode

def characters (fuel : Nat) (o : Options) (t : Token) : Reader (List Char × Token) :=
  match fuel, t with
  | fuel + 1, .char c => do
    let (cs, t) ← characters fuel o (← Token.token o)
    return (c :: cs, t)
  | _, t => return ([], t)

def endsBranch (inGroup : Bool) : Token → Bool
  | .finish | .bar => true
  | .closing => inGroup
  | _ => false

def options (fuel : Nat) (o : Options) (negated : Bool) (c : Char) : Reader (Options × Bool) :=
  match fuel with
  | 0 => refuse .endInGroup
  | fuel + 1 => do
    let more (o : Options) (negated : Bool) : Reader (Options × Bool) := do
      options fuel o negated (← nextOr .endInGroup)
    match c with
    | ')' => return (o, false)
    | ':' => return (o, true)
    | '-' => more o true
    | 'i' => more { o with ignoreCase := !negated } negated
    | 'm' => more { o with multiline := !negated } negated
    | 'x' => more { o with extended := !negated } negated
    | 'W' => more { o with asciiWord := !negated } negated
    | 'D' => more { o with asciiDigit := !negated } negated
    | 'S' => more { o with asciiSpace := !negated } negated
    | 'P' => more { o with asciiPosix := !negated } negated
    | _ => refuse .undefinedOption

def capturedCondition : Reader (Option Node) := do
  let s ← get
  match s.rest with
  | c :: cs =>
    if c = '<' ∨ c = '\'' then
      setRest cs
      let r ← Name.reference (Name.closing c)
      if (← nextOr .endInGroup) ≠ ')' then refuse .endInGroup
      return some (.captured r)
    else if Name.isDigit c ∨ Name.isSign c then
      match (Name.referred ')').run s with
      | .error _ => return none
      | .ok _ => return some (.captured (← Name.reference ')'))
    else return none
  | [] => refuse .endInGroup

def splitLast (grouped : Bool) (q : Quantifier) (n : Node) : Option (Node × Node) :=
  if grouped || (q.least == 1 && q.most == some 1) then none
  else
    match n with
    | .literal (a :: b :: cs) =>
      some (.literal (a :: b :: cs).dropLast, .literal ((a :: b :: cs).getLast?.toList))
    | .folded (a :: b :: cs) =>
      some (.folded (a :: b :: cs).dropLast, .folded ((a :: b :: cs).getLast?.toList))
    | _ => none

/-- A repeated node. A repetition once at least and once at most leaves it as it is. -/
def repeated (q : Quantifier) (possessive : Bool) (n : Node) : Except Fault Node :=
  (q.apply n).map fun m =>
    if possessive && !(q.least == 1 && q.most == some 1) then .atomic m else m

def quantified (fuel : Nat) (o : Options) (depth : Nat) (front : List Node) (n : Node)
    (grouped : Bool) (t : Token) : Reader (Node × Token) :=
  match fuel, t with
  | fuel + 1, .quantifier q possessive => do
    if n.isUnrepeatable then refuse .repeatOfInvalidTarget
    if depthLimit < depth + 1 then refuse .depthLimit
    let (front, n) := match splitLast grouped q n with
      | some (before, last) => (front ++ [before], last)
      | none => (front, n)
    match repeated q possessive n with
    | .error f => refuse f
    | .ok n => quantified fuel o (depth + 1) front n false (← Token.token o)
  | _, t => return (Node.sequenceOf (front ++ [n]), t)

mutual

def alternatives (fuel : Nat) (o : Options) (inGroup : Bool) (depth : Nat) (t : Token) :
    Reader (Node × Token) :=
  match fuel with
  | 0 => refuse .depthLimit
  | fuel + 1 => do
    if depthLimit < depth + 1 then refuse .depthLimit
    let (n, t) ← branch fuel o inGroup (depth + 1) t
    let (ns, t) ← moreAlternatives fuel o inGroup (depth + 1) t
    match t with
    | .finish => if inGroup then refuse .unmatchedOpen
    | _ => pure ()
    return (Node.choiceOf n ns, t)

def moreAlternatives (fuel : Nat) (o : Options) (inGroup : Bool) (depth : Nat) (t : Token) :
    Reader (List Node × Token) :=
  match fuel, t with
  | fuel + 1, .bar => do
    let (n, t) ← branch fuel o inGroup depth (← Token.token o)
    let (ns, t) ← moreAlternatives fuel o inGroup depth t
    return (n :: ns, t)
  | _, t => return ([], t)

def branch (fuel : Nat) (o : Options) (inGroup : Bool) (depth : Nat) (t : Token) :
    Reader (Node × Token) :=
  match fuel with
  | 0 => refuse .depthLimit
  | fuel + 1 => do
    if depthLimit < depth + 1 then refuse .depthLimit
    let (n, t) ← item fuel o inGroup (depth + 1) t
    let (ns, t) ← moreItems fuel o inGroup (depth + 1) t
    return (Node.sequenceOf (n :: ns), t)

def moreItems (fuel : Nat) (o : Options) (inGroup : Bool) (depth : Nat) (t : Token) :
    Reader (List Node × Token) :=
  match fuel with
  | 0 => return ([], t)
  | fuel + 1 => do
    if endsBranch inGroup t then return ([], t)
    let (n, t) ← item fuel o inGroup depth t
    let (ns, t) ← moreItems fuel o inGroup depth t
    return (n :: ns, t)

def item (fuel : Nat) (o : Options) (inGroup : Bool) (depth : Nat) (t : Token) :
    Reader (Node × Token) :=
  match fuel with
  | 0 => refuse .depthLimit
  | fuel + 1 => do
    let simple (n : Node) : Reader (Node × Token) := do
      quantified fuel o depth [] n false (← Token.token o)
    match t with
    | .finish | .bar => return (.empty, t)
    | .closing => if inGroup then return (.empty, t) else refuse .unmatchedClose
    | .quantifier .. => refuse .repeatWithoutTarget
    | .char _ =>
      let (cs, t) ← characters fuel o t
      quantified fuel o depth [] (.text o.ignoreCase cs) false t
    | .code n => simple (← Node.ofCode o.ignoreCase n)
    | .byte n => simple (← byteNode o n)
    | .anyChar => simple (.one (if o.multiline then .any else .notNewline))
    | .set s => simple (.one s)
    | .property negated => simple (.one (← Property.name o negated))
    | .anchor a => simple (.anchor a)
    | .keep => simple .keep
    | .newlines => simple .newlines
    | .cluster => simple .cluster
    | .reference r => simple (.reference r o.ignoreCase)
    | .call n => simple n
    | .bracket => simple ((← Bracket.bracket fuel o depth).node o.ignoreCase)
    | .opening =>
      match ← group fuel o depth with
      | .node n grouped => quantified fuel o depth [] n grouped (← Token.token o)
      | .options o =>
        let (n, t) ← alternatives fuel o inGroup depth (← Token.token o)
        return (.scoped n, t)

def inside (fuel : Nat) (o : Options) (depth : Nat) : Reader Node :=
  match fuel with
  | 0 => refuse .depthLimit
  | fuel + 1 => return (← alternatives fuel o true depth (← Token.token o)).1

def group (fuel : Nat) (o : Options) (depth : Nat) : Reader Group :=
  match fuel with
  | 0 => refuse .depthLimit
  | fuel + 1 => do
    let plain (n : Node) : Group := .node n false
    if ← atEnd then refuse .unmatchedOpen
    if !(← skipIf '?') then
      let g ← newGroup
      return plain (.capture g (← inside fuel o depth))
    match ← nextOr .endInGroup with
    | ':' => return .node (← inside fuel o depth) true
    | '=' => return plain (.lookAhead true (← inside fuel o depth))
    | '!' => return plain (.lookAhead false (← inside fuel o depth))
    | '>' => return plain (.atomic (← inside fuel o depth))
    | '~' => return plain (← absent fuel o depth)
    | '(' => return plain (← conditional fuel o depth)
    | '\'' => return plain (← named fuel o depth '\'')
    | '<' =>
      if ← atEnd then refuse .endInGroup
      if ← skipIf '=' then return plain (.lookBehind true 0 none (← inside fuel o depth))
      if ← skipIf '!' then return plain (.lookBehind false 0 none (← inside fuel o depth))
      return plain (← named fuel o depth '>')
    | c =>
      match ← options fuel o false c with
      | (o, true) => return plain (.scoped (← inside fuel o depth))
      | (o, false) => return .options o

def named (fuel : Nat) (o : Options) (depth : Nat) (close : Char) : Reader Node :=
  match fuel with
  | 0 => refuse .depthLimit
  | fuel + 1 => do
    let name ← Name.definition close
    let g ← newNamedGroup name
    return .capture g (← inside fuel o depth)

def absent (fuel : Nat) (o : Options) (depth : Nat) : Reader Node :=
  match fuel with
  | 0 => refuse .depthLimit
  | fuel + 1 => do
    if ← atEnd then refuse .endInGroup
    if ← skipIf '|' then
      if ← atEnd then refuse .endInGroup
      if ← skipIf ')' then return .uncut
      match ← inside fuel o depth with
      | .choice forbidden body => return .absent forbidden body
      | forbidden => return .cutBefore forbidden
    else return .absent (← inside fuel o depth) (.repetition .star (.one .any))

def conditional (fuel : Nat) (o : Options) (depth : Nat) : Reader Node :=
  match fuel with
  | 0 => refuse .depthLimit
  | fuel + 1 => do
    if (← rest).length < 2 then refuse .endInGroup
    let checked ← capturedCondition
    let condition ← match checked with
      | some n => pure n
      | none => inside fuel o depth
    if ← atEnd then refuse .endInGroup
    if ← skipIf ')' then
      if checked.isNone then refuse .invalidConditional
      return condition
    if ← skipIf '|' then
      return .conditional condition .empty (← inside fuel o depth)
    match ← inside fuel o depth with
    | .choice yes no => return .conditional condition yes no
    | yes => return .conditional condition yes .empty

end

def pattern (cs : List Char) : Except Fault (Node × Source) :=
  let reader : Reader Node := do
    return (← alternatives (8 * (cs.length + 2)) {} false 0 (← Token.token {})).1
  reader.run { rest := cs }

end Read

end Highlight.Pattern
