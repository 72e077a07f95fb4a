import Highlight.Log
import Highlight.Pattern.Search
import Highlight.Text.Pieces
import Highlight.Unicode.Class

/-! Which records are shown. A setting is a list of directives with commas between them, and after a
slash possibly a pattern that is searched for in the messages. A directive is a level, an origin, or an
origin, an equals sign and a level.

The pattern after the slash is read as the patterns of grammars are, so a setting that was written for
patterns of another kind may be understood in another way, or not at all. -/

namespace Highlight.Log

structure Directive where
  origin : Option String
  limit : Nat
  deriving DecidableEq

def Directive.covers (d : Directive) (origin : String) : Bool :=
  match d.origin with
  | none => true
  | some o => o.toList.isPrefixOf origin.toList

def Directive.weight (d : Directive) : Nat :=
  match d.origin with
  | none => 0
  | some o => o.utf8ByteSize

structure Filter where
  directives : List Directive
  pattern : Option Pattern

namespace Filter

def deciding? (f : Filter) (origin : String) : Option Directive :=
  -- The longest origin decides, and of several directives for it the last.
  (f.directives.mergeSort fun a b => decide (a.weight ≤ b.weight)).reverse.find? (·.covers origin)

def shows (f : Filter) (r : Record) : Bool :=
  match f.deciding? r.origin with
  | none => false
  | some d =>
    decide (r.level.rank ≤ d.limit) &&
      match f.pattern with
      | none => true
      | some p => (p.search? [] r.message.toList).isSome

def rank? (name : List Char) : Option Nat :=
  match String.ofList (name.map Char.toLower) with
  | "off" => some 0
  | "error" => some Level.error.rank
  | "warn" => some Level.warn.rank
  | "info" => some Level.info.rank
  | "debug" => some Level.debug.rank
  | "trace" => some Level.trace.rank
  | _ => none

def trimmed (cs : List Char) : List Char :=
  ((cs.dropWhile Unicode.isSpace).reverse.dropWhile Unicode.isSpace).reverse

def directive (cs : List Char) : Except (List Char) Directive :=
  match pieces '=' cs with
  | [name] =>
    match rank? name with
    | some limit => .ok ⟨none, limit⟩
    | none => .ok ⟨some (String.ofList name), Level.trace.rank⟩
  | [name, level] =>
    if trimmed level = [] then .ok ⟨some (String.ofList name), Level.trace.rank⟩
    else
      match rank? (trimmed level) with
      | some limit => .ok ⟨some (String.ofList name), limit⟩
      | none => .error (trimmed level)
  | _ => .error cs

def insert (d : Directive) : List Directive → List Directive
  | [] => [d]
  | e :: es => if e.origin = d.origin then d :: es else e :: insert d es

def warning (reason : String) : String := "warning: " ++ reason ++ ", ignoring it"

def notUnderstood (cs : List Char) : String := "invalid logging spec '" ++ String.ofList cs ++ "'"

def collected (texts : List (List Char)) : List Directive × List String :=
  texts.foldl (fun (ds, warnings) cs =>
    match directive cs with
    | .ok d => (insert d ds, warnings)
    | .error part => (ds, warnings ++ [warning (notUnderstood part)])) ([], [])

def orErrors (ds : List Directive) : List Directive :=
  if ds.isEmpty then [⟨none, Level.error.rank⟩] else ds

def read (setting : String) : Filter × List String :=
  match pieces '/' setting.toList with
  | levels :: patterns =>
    if 1 < patterns.length then
      (⟨orErrors [], none⟩, [warning (notUnderstood setting.toList ++ " (too many '/'s)")])
    else
      let (ds, warnings) := collected (((pieces ',' levels).map trimmed).filter (· ≠ []))
      match patterns with
      | text :: _ =>
        match Pattern.compile text with
        | .ok p => (⟨orErrors ds, some p⟩, warnings)
        | .error f => (⟨orErrors ds, none⟩, warnings ++ [warning ("invalid regex filter - " ++ f.message)])
      | [] => (⟨orErrors ds, none⟩, warnings)
  | [] => (⟨orErrors [], none⟩, [])

end Filter

end Highlight.Log
