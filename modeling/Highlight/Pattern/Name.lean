import Highlight.Pattern.Number
import Highlight.Pattern.Source
import Highlight.Unicode.Class

/-! Names and numbers of groups between `<` and `>`, quotation marks or parentheses. -/

namespace Highlight.Pattern.Name

open Reader

def closing (c : Char) : Char := if c = '<' then '>' else if c = '(' then ')' else c

def isDigit (c : Char) : Bool := c.isDigit

def isSign (c : Char) : Bool := c == '-' || c == '+'

structure Span where
  name : List Char
  rest : List Char

def span (isEnd : Char → Bool) (first : Char) (cs : List Char) : Span :=
  ⟨first :: cs.takeWhile (!isEnd ·), cs.dropWhile (!isEnd ·)⟩

def Span.unclosed (s : Span) : String :=
  String.ofList (if s.rest.isEmpty ∧ s.name.length ≠ 1 then s.name.dropLast else s.name)

def faulty (close : Char) (before : List Char) (cs : List Char) : String :=
  let isEnd (c : Char) : Bool := c == close || c == ')'
  let inside := cs.takeWhile (!isEnd ·)
  let after := cs.dropWhile (!isEnd ·)
  String.ofList (before ++ if after.length ≤ 1 then cs else inside)

def definition (close : Char) : Reader String := do
  match ← rest with
  | [] => refuse .emptyName
  | c :: cs =>
    if c = close then refuse .emptyName
    else if isDigit c || isSign c then refuse (.invalidName (faulty close [c] cs))
    else if !Unicode.isWord c then refuse (.invalidCharacterInName (faulty close [c] cs))
    else
      let s := span (fun d => d == close || d == ')') c cs
      match s.rest with
      | d :: r =>
        if d = close then
          setRest r
          return String.ofList s.name
        else refuse (.invalidName s.unclosed)
      | [] => refuse (.invalidName s.unclosed)

inductive Written
  | number (n : Nat)
  | relative (n : Int)
  | name (s : String)

def sign : Char → Int
  | '-' => -1
  | _ => 1

def written (cs : List Char) (zero : Fault) : Reader Written :=
  match cs with
  | [] => return .name ""
  | c :: ds =>
    if isSign c && !ds.isEmpty && ds.all isDigit then
      match Number.decimal? ds with
      | none => refuse .tooBigNumber
      | some (n, _) => if n = 0 then refuse zero else return .relative (sign c * n)
    else if isDigit c && ds.all isDigit then
      match Number.decimal? cs with
      | none => refuse .tooBigNumber
      | some (n, _) => return .number n
    else return .name (String.ofList cs)

def called (close : Char) : Reader (Written × String) := do
  match ← rest with
  | [] => refuse .emptyName
  | c :: cs =>
    if c = close then refuse .emptyName
    else if !(isDigit c || isSign c || Unicode.isWord c) then
      refuse (.invalidCharacterInName (faulty close [c] cs))
    else
      let s := span (fun d => d == close || d == ')') c cs
      match s.rest with
      | d :: r =>
        if isSign c && cs.head? == some d then
          refuse (.invalidName (faulty close [c, d] r))
        else if d = close then
          let w ← written s.name (.invalidName (String.ofList s.name))
          setRest r
          return (w, String.ofList s.name)
        else refuse (.invalidName (String.ofList s.name))
      | [] => refuse (.invalidName s.unclosed)

def level? (close sign : Char) (cs : List Char) : Except Fault (Option (Int × List Char)) :=
  match cs with
  | c :: _ =>
    if isDigit c then
      match Number.decimal? cs with
      | none => .error .tooBigNumber
      | some (n, d :: r) => .ok (if d = close then some (Name.sign sign * n, r) else none)
      | some (_, []) => .ok none
    else .ok none
  | [] => .ok none

def flaw? (s : Span) (first : Char) : Option (String → Fault) :=
  let others := s.name.tail
  let numeric := isDigit first || isSign first
  if isSign first && others.isEmpty && !s.rest.isEmpty then some .invalidName
  else
    let named := if numeric then (others.dropWhile isDigit).drop 1 else others
    if named.any (!Unicode.isWord ·) then some .invalidCharacterInName
    else if !numeric && !Unicode.isWord first then some .invalidName
    else none

def referred (close : Char) : Reader (Written × Option Int × String) := do
  match ← rest with
  | [] => refuse .emptyName
  | c :: cs =>
    if c = close then refuse .emptyName
    else
      let s := span (fun d => d == close || d == ')' || isSign d) c cs
      let all := Fault.invalidName (String.ofList (c :: cs))
      match flaw? s c with
      | some f => refuse (f s.unclosed)
      | none =>
        match s.rest with
        | [] => refuse all
        | d :: r =>
          if d = close then
            let w ← written s.name all
            setRest r
            return (w, none, String.ofList s.name)
          else if isSign d then
            if r.isEmpty then refuse (.invalidCharacterInName (String.ofList s.name))
            match level? close d r with
            | .error f => refuse f
            | .ok none => refuse all
            | .ok (some (level, r)) =>
              let w ← written s.name all
              setRest r
              return (w, some level, String.ofList s.name)
          else refuse all

def absolute (groups : Nat) (n : Int) : Int := if 0 < n then groups + n else groups + 1 + n

def reference (close : Char) : Reader Reference := do
  match ← referred close with
  | (.name name, level, _) => referByName name level
  | (.number n, level, _) => if n = 0 then refuse .invalidReference else referByNumber n level
  | (.relative n, level, _) =>
    let n := absolute (← get).groups n
    if n ≤ 0 then refuse .invalidReference else referByNumber n.toNat level

def call (close : Char) : Reader Node := do
  match ← called close with
  | (.name name, _) => newCall (.name name)
  | (.number n, shown) => newCall (.group n shown)
  | (.relative n, shown) =>
    let n := absolute (← get).groups n
    if n < 0 then refuse (.undefinedGroup shown) else newCall (.group n.toNat shown)

end Highlight.Pattern.Name
