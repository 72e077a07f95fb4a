import Highlight.Tree
import Highlight.Grammar.Basic

/-! Rules from values. A record names its fields, in any order and with others among them; an array
lists the fields in order. A value that fits both kinds of rule is a single match. -/

namespace Highlight

namespace Captures

def scopeMembers (name : Option String) : List (Tree × Tree) → Option String
  | [] => name
  | (k, v) :: ms =>
    match k.field? ["name"] with
    | some (some _) => if name.isSome then none else v.text?.bind fun s => scopeMembers (some s) ms
    | some none => scopeMembers name ms
    | none => none

def scope? : Tree → Option String
  | .record ms => scopeMembers none ms
  | .array [v] => v.text?
  | _ => none

def ofMembers (c : Captures) : List (Tree × Tree) → Option Captures
  | [] => some c
  | (k, v) :: ms =>
    match k.text?, scope? v with
    | some key, some scope => ofMembers (c.insert key scope) ms
    | _, _ => none

def ofTree? : Tree → Option Captures
  | .record ms => ofMembers .empty ms
  | _ => none

def optional? : Tree → Option (Option Captures)
  | .null => some none
  | t => (ofTree? t).map some

end Captures

namespace Rule

/-- The fields of a single match as far as they are known. A field that has been given, be it as
null, cannot be given again. -/
structure SingleFields where
  name : Option String := none
  pattern : Option String := none
  captures : Option (Option Captures) := none

namespace SingleFields

def names : List String := ["name", "match", "captures"]

def fill {α : Type} (field : Option α) (value : Option α) : Option (Option α) :=
  match field with
  | some _ => none
  | none => value.map some

def set (f : SingleFields) (v : Tree) : Nat → Option SingleFields
  | 0 => (fill f.name v.text?).map ({ f with name := · })
  | 1 => (fill f.pattern v.text?).map ({ f with pattern := · })
  | 2 => (fill f.captures (Captures.optional? v)).map ({ f with captures := · })
  | _ => none

def setAll (f : SingleFields) : List (Tree × Tree) → Option SingleFields
  | [] => some f
  | (k, v) :: ms =>
    match k.field? names with
    | some (some i) => (f.set v i).bind fun f => setAll f ms
    | some none => setAll f ms
    | none => none

def setItems (f : SingleFields) (i : Nat) : List Tree → Option SingleFields
  | [] => some f
  | v :: vs => (f.set v i).bind fun f => setItems f (i + 1) vs

def rule? (f : SingleFields) : Option Rule :=
  match f.name, f.pattern with
  | some name, some pattern => some (.single name pattern f.captures.join)
  | _, _ => none

end SingleFields

def single? : Tree → Option Rule
  | .record ms => (SingleFields.setAll {} ms).bind (·.rule?)
  | .array vs => (SingleFields.setItems {} 0 vs).bind (·.rule?)
  | _ => none

structure RegionFields where
  name : Option String := none
  opening : Option String := none
  closing : Option String := none
  patterns : Option (Option (List Rule)) := none
  openingCaptures : Option (Option Captures) := none
  closingCaptures : Option (Option Captures) := none

namespace RegionFields

open SingleFields (fill)

def names : List String := ["name", "begin", "end", "patterns", "beginCaptures", "endCaptures"]

def set (f : RegionFields) (v : Tree) (nested : Option (Option (List Rule))) :
    Nat → Option RegionFields
  | 0 => (fill f.name v.text?).map ({ f with name := · })
  | 1 => (fill f.opening v.text?).map ({ f with opening := · })
  | 2 => (fill f.closing v.text?).map ({ f with closing := · })
  | 3 => (fill f.patterns nested).map ({ f with patterns := · })
  | 4 => (fill f.openingCaptures (Captures.optional? v)).map ({ f with openingCaptures := · })
  | 5 => (fill f.closingCaptures (Captures.optional? v)).map ({ f with closingCaptures := · })
  | _ => none

def rule? (f : RegionFields) : Option Rule :=
  match f.name, f.opening, f.closing with
  | some name, some opening, some closing =>
    some (.region name opening closing f.patterns.join f.openingCaptures.join f.closingCaptures.join)
  | _, _, _ => none

end RegionFields

mutual

def ofTree? : Tree → Option Rule
  | .record ms => single? (.record ms) <|> (regionMembers {} ms).bind (·.rule?)
  | .array vs => single? (.array vs) <|> (regionItems {} 0 vs).bind (·.rule?)
  | _ => none

def regionMembers (f : RegionFields) : List (Tree × Tree) → Option RegionFields
  | [] => some f
  | (k, v) :: ms =>
    match k.field? RegionFields.names with
    | some (some i) => (f.set v (nested? v) i).bind fun f => regionMembers f ms
    | some none => regionMembers f ms
    | none => none

def regionItems (f : RegionFields) (i : Nat) : List Tree → Option RegionFields
  | [] => some f
  | v :: vs => (f.set v (nested? v) i).bind fun f => regionItems f (i + 1) vs

def nested? : Tree → Option (Option (List Rule))
  | .null => some none
  | .array vs => (ofTrees? vs).map some
  | _ => none

def ofTrees? : List Tree → Option (List Rule)
  | [] => some []
  | v :: vs =>
    match ofTree? v with
    | some r => (ofTrees? vs).map (r :: ·)
    | none => none

end

end Rule

end Highlight
