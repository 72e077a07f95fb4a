import Highlight.Pattern.CharSet

/-! The parts of a pattern. -/

namespace Highlight.Pattern

inductive Anchor
  | textStart
  | textEnd
  | textEndOrFinalNewline
  | lineStart
  | lineEnd
  | searchStart
  | wordBoundary (ascii : Bool)
  | noWordBoundary (ascii : Bool)
  | clusterBoundary
  | noClusterBoundary
  deriving DecidableEq

structure Quantifier where
  least : Nat
  most : Option Nat
  greedy : Bool
  deriving DecidableEq

/-- The capture groups that a reference means. With a level, what counts is what they captured that
many calls further out. -/
structure Reference where
  groups : List Nat
  level : Option Int
  deriving DecidableEq

/-- How a repetition that may take no text is carried out. An iteration without text ends it: the
optional ones always, and those that are required if the repetition is counted. It does not end if one
of the watched groups captures something else in that iteration. -/
structure LoopPlan where
  counted : Bool := false
  watched : List Nat := []
  deriving DecidableEq

inductive Node
  | empty
  | never
  | literal (text : List Char)
  | folded (text : List Char)
  | one (s : CharSet)
  | anchor (a : Anchor)
  | keep
  | sequence (first second : Node)
  | choice (first second : Node)
  | loop (q : Quantifier) (plan : LoopPlan) (body : Node)
  | capture (group : Nat) (body : Node)
  | scoped (body : Node)
  | atomic (body : Node)
  | lookAhead (positive : Bool) (body : Node)
  | lookBehind (positive : Bool) (least : Nat) (most : Option Nat) (body : Node)
  | reference (r : Reference) (fold : Bool)
  | captured (r : Reference)
  | call (target : Nat)
  | conditional (condition yes no : Node)
  | absent (forbidden body : Node)
  | cutBefore (forbidden : Node)
  | uncut
  deriving DecidableEq

namespace Node

def sequenceOf : List Node → Node
  | [] => .empty
  | [n] => n
  | n :: ns => .sequence n (sequenceOf ns)

def choiceOf (n : Node) : List Node → Node
  | [] => n
  | m :: ms => .choice n (choiceOf m ms)

def repetition (q : Quantifier) (body : Node) : Node := .loop q {} body

def character (fold : Bool) (c : Char) : Node := if fold then .folded [c] else .literal [c]

def text (fold : Bool) (cs : List Char) : Node := if fold then .folded cs else .literal cs

def isUnrepeatable : Node → Bool
  | .anchor _ | .keep | .lookAhead .. | .lookBehind .. | .uncut => true
  | .choice a b => a.isUnrepeatable || b.isUnrepeatable
  | _ => false

end Node

end Highlight.Pattern
