import Highlight.Grammar.Backreference
import Highlight.Grammar.Basic
import Highlight.Log
import Highlight.Pattern.Compile

/-! Whether all patterns of a grammar can be understood, each on its own. They are looked at from the
first rule to the last, those of a region before those of the rules inside it, up to the first that
cannot. -/

namespace Highlight.Grammar

inductive Field
  | single
  | opening
  | closing
  deriving DecidableEq

def Field.name : Field → String
  | .single => "match"
  | .opening => "begin"
  | .closing => "end"

structure Site where
  indices : List Nat
  field : Field
  deriving DecidableEq

def pathText (indices : List Nat) : String :=
  ".".intercalate (indices.map fun i => s!"patterns[{i}]")

def Site.path (s : Site) : String := pathText s.indices

def Site.text (s : Site) : String := s.path ++ "." ++ s.field.name

structure Invalid where
  site : Site
  pattern : String
  fault : Pattern.Fault
  deriving DecidableEq

def Invalid.message (i : Invalid) : String :=
  i.site.text ++ " does not compile: \"" ++ i.pattern ++ "\""

def compiling (s : Site) (pattern : String) : Log.Record :=
  ⟨.debug, Log.validation, "compiling " ++ s.text ++ ": " ++ pattern⟩

def skipped (s : Site) : Log.Record :=
  ⟨.debug, Log.validation, s.text ++ " refers to begin captures, skipped"⟩

abbrev Verdict := Except Invalid Unit × List Log.Record

def Verdict.andThen (v : Verdict) (next : Unit → Verdict) : Verdict :=
  match v with
  | (.error i, log) => (.error i, log)
  | (.ok (), log) => ((next ()).1, log ++ (next ()).2)

def check (s : Site) (pattern : String) : Verdict :=
  match Pattern.compile pattern.toList with
  | .error f => (.error ⟨s, pattern, f⟩, [compiling s pattern])
  | .ok _ => (.ok (), [compiling s pattern])

/-- A closing pattern that refers to captures of the opening one has no meaning of its own. -/
def checkClosing (s : Site) (pattern : String) : Verdict :=
  if hasBackreference pattern.toList then (.ok (), [skipped s]) else check s pattern

mutual

def validateRule (indices : List Nat) : Rule → Verdict
  | .single _ pattern _ => check ⟨indices, .single⟩ pattern
  | .region _ opening closing nested _ _ =>
    (check ⟨indices, .opening⟩ opening).andThen fun _ =>
    (checkClosing ⟨indices, .closing⟩ closing).andThen fun _ =>
    validateNested indices nested

def validateNested (indices : List Nat) : Option (List Rule) → Verdict
  | none => (.ok (), [])
  | some rules => validateRules indices 0 rules

def validateRules (indices : List Nat) (i : Nat) : List Rule → Verdict
  | [] => (.ok (), [])
  | r :: rs => (validateRule (indices ++ [i]) r).andThen fun _ => validateRules indices (i + 1) rs

end

def accepted (g : Grammar) : Log.Record :=
  ⟨.debug, Log.validation, s!"{g.patterns.length} top-level rules compiled"⟩

def validate (g : Grammar) : Verdict :=
  (validateRules [] 0 g.patterns).andThen fun _ => (.ok (), [g.accepted])

/-- A pattern in its place, and whether it refers to captures of another. -/
structure Entry where
  site : Site
  pattern : String
  refersToOpening : Bool := false

mutual

def ruleEntries (indices : List Nat) : Rule → List Entry
  | .single _ pattern _ => [⟨⟨indices, .single⟩, pattern, false⟩]
  | .region _ opening closing nested _ _ =>
    ⟨⟨indices, .opening⟩, opening, false⟩ ::
      ⟨⟨indices, .closing⟩, closing, hasBackreference closing.toList⟩ :: nestedEntries indices nested

def nestedEntries (indices : List Nat) : Option (List Rule) → List Entry
  | none => []
  | some rules => rulesEntries indices 0 rules

def rulesEntries (indices : List Nat) (i : Nat) : List Rule → List Entry
  | [] => []
  | r :: rs => ruleEntries (indices ++ [i]) r ++ rulesEntries indices (i + 1) rs

end

def entries (g : Grammar) : List Entry := rulesEntries [] 0 g.patterns

end Highlight.Grammar
