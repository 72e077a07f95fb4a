import Highlight.Pattern.Fault
import Highlight.Pattern.Node

/-! A pattern while it is read: what is left of its text, and what is known of its groups. -/

namespace Highlight.Pattern

structure Options where
  ignoreCase : Bool := false
  extended : Bool := false
  multiline : Bool := false
  asciiWord : Bool := false
  asciiDigit : Bool := false
  asciiSpace : Bool := false
  asciiPosix : Bool := false

inductive Callee
  | group (number : Nat) (shown : String)
  | name (name : String)

structure Source where
  rest : List Char
  groups : Nat := 0
  names : List (String × List Nat) := []
  calls : List Callee := []
  numbered : Nat := 0
  pending : List (Option Nat) := []

abbrev Reader := StateT Source (Except Fault)

namespace Reader

def refuse {α : Type} (f : Fault) : Reader α := throw f

def rest : Reader (List Char) := return (← get).rest

def setRest (cs : List Char) : Reader Unit := modify ({ · with rest := cs })

def nextOr (f : Fault) : Reader Char := do
  match ← rest with
  | [] => refuse f
  | c :: cs => setRest cs; return c

def skipIf (c : Char) : Reader Bool := do
  match ← rest with
  | d :: cs => if c = d then setRest cs; return true else return false
  | [] => return false

def atEnd : Reader Bool := return (← rest).isEmpty

def newGroup : Reader Nat := do
  let s ← get
  set { s with groups := s.groups + 1 }
  return s.groups + 1

def addName (name : String) (group : Nat) (names : List (String × List Nat)) :
    List (String × List Nat) :=
  match names with
  | [] => [(name, [group])]
  | (n, gs) :: rest =>
    if n = name then (n, gs ++ [group]) :: rest else (n, gs) :: addName name group rest

def newNamedGroup (name : String) : Reader Nat := do
  let g ← newGroup
  modify fun s => { s with names := addName name g s.names }
  return g

def referByNumber (n : Nat) (level : Option Int) : Reader Reference := do
  modify fun s => { s with numbered := max s.numbered n }
  return ⟨[n], level⟩

def referByName (name : String) (level : Option Int) : Reader Reference := do
  match (← get).names.lookup name with
  | some gs => return ⟨gs, level⟩
  | none => refuse (.undefinedName name)

def newCall (c : Callee) : Reader Node := do
  let s ← get
  set { s with calls := s.calls ++ [c] }
  return .call s.calls.length

end Reader

end Highlight.Pattern
