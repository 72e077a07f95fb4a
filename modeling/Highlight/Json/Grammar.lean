import Highlight.Grammar.Fields
import Highlight.Grammar.Tree
import Highlight.Json.Tree
import Highlight.Json.Skip

/-! Reading a grammar from JSON. Its own fields are read as they come, so that the first fault in the
text is the one reported; each rule is read whole before it is decided what kind it is. What follows
the grammar is not looked at. -/

namespace Highlight.Json

def depthLimit : Nat := 127

def array {α : Type} (item : Reader α) : Reader (List α) :=
  opened openBracket "a sequence" (items item 0)

def rule (depth : Nat) : Reader Rule := fun s => (tree depth s).check fun t rest =>
  match Rule.ofTree? t with
  | some r => .ok r
  | none => .error (.before (.misfit .noKindOfRule) (afterArray rest))

def fileTypes : Reader (List String) := array text

def patterns : Reader (List Rule) := array (rule (depthLimit - 2))

namespace Fields

def field {α : Type} (key : String) (known : Option α) (value : Reader α)
    (put : α → Grammar.Fields) : Reader Grammar.Fields := fun s =>
  match known with
  | some _ => .error (.before (.misfit (.duplicateField key)) (afterObject s))
  | none => Result.map put (memberValue key value s)

def member (f : Grammar.Fields) (key : String) : Reader Grammar.Fields :=
  if key = "name" then field key f.name text ({ f with name := some · })
  else if key = "scopeName" then field key f.scopeName text ({ f with scopeName := some · })
  else if key = "fileTypes" then field key f.fileTypes Json.fileTypes ({ f with fileTypes := some · })
  else if key = "patterns" then field key f.patterns Json.patterns ({ f with patterns := some · })
  else fun s => Result.map (fun _ => f) (memberValue key skip s)

def grammar (f : Grammar.Fields) (rest : Bytes) : Except Fault Grammar :=
  match f.grammar with
  | .ok g => .ok g
  | .error name => .error (.before (.misfit (.missingField name)) rest)

end Fields

def requiredItem {α : Type} (i : Nat) (item : Reader α) : Reader α := fun s =>
  match nextItem i s with
  | .error e => .error e
  | .ok (.closed rest _) =>
    .error (.before (.misfit (.invalidLength i "struct Grammar with 4 elements")) rest)
  | .ok (.part t ht) => ((item t).within (.index i)).widen ht

def grammarItems : Reader Grammar := fun s =>
  (requiredItem 0 text s).andThen fun name s _ =>
  (requiredItem 1 text s).andThen fun scopeName s _ =>
  (requiredItem 2 fileTypes s).andThen fun fileTypes s _ =>
  (requiredItem 3 patterns s).andThen fun patterns s _ =>
  (endArray s).map fun rest => ⟨⟨name, scopeName, fileTypes, patterns⟩, rest.1, rest.2⟩

def grammar : Reader Grammar := Reader.afterSpace fun s =>
  match s with
  | [] => .error (mismatch "struct Grammar" [])
  | b :: rest =>
    if b = openBracket then (grammarItems rest).widen (length_le_cons b rest)
    else if b = openBrace then
      Result.widen (length_le_cons b rest) <| Result.check (members Fields.member {} true rest)
        Fields.grammar
    else .error (mismatch "struct Grammar" (b :: rest))

end Highlight.Json

namespace Highlight

def Grammar.ofJson (document : Bytes) : Except Json.Fault Grammar :=
  match Json.grammar document with
  | .ok p => .ok p.value
  | .error e => .error e

end Highlight
