import Highlight.Grammar.Basic

/-! Grammars put together field by field. -/

namespace Highlight.Grammar

structure Fields where
  name : Option String := none
  scopeName : Option String := none
  fileTypes : Option (List String) := none
  patterns : Option (List Rule) := none

namespace Fields

def names : List String := ["name", "scopeName", "fileTypes", "patterns"]

def grammar (f : Fields) : Except String Grammar :=
  match f.name, f.scopeName, f.fileTypes, f.patterns with
  | some name, some scopeName, some fileTypes, some patterns =>
    .ok ⟨name, scopeName, fileTypes, patterns⟩
  | none, _, _, _ => .error "name"
  | some _, none, _, _ => .error "scopeName"
  | some _, some _, none, _ => .error "fileTypes"
  | some _, some _, some _, none => .error "patterns"

end Fields

end Highlight.Grammar
