import Highlight.Document
import Highlight.Grammar.Basic

/-! A grammar as a document. A field that a rule does not have is left out. -/

namespace Highlight

open Document

def Captures.toDocument (c : Captures) : Document :=
  .record (c.entries.map fun e => (e.1, .record [("name", .text e.2)]))

namespace Rule

def optionalMember {α : Type} (key : String) (f : α → Document) : Option α → List (String × Document)
  | none => []
  | some a => [(key, f a)]

mutual

def toDocument : Rule → Document
  | .single name pattern captures => .record
    ([("name", .text name), ("match", .text pattern)] ++
      optionalMember "captures" Captures.toDocument captures)
  | .region name opening closing patterns openingCaptures closingCaptures => .record
    ([("name", .text name), ("begin", .text opening), ("end", .text closing)] ++
      nestedMember patterns ++
      optionalMember "beginCaptures" Captures.toDocument openingCaptures ++
      optionalMember "endCaptures" Captures.toDocument closingCaptures)

def nestedMember : Option (List Rule) → List (String × Document)
  | none => []
  | some rules => [("patterns", .list (toDocuments rules))]

def toDocuments : List Rule → List Document
  | [] => []
  | r :: rs => r.toDocument :: toDocuments rs

end

end Rule

def Grammar.toDocument (g : Grammar) : Document := .record
  [("name", .text g.name), ("scopeName", .text g.scopeName),
    ("fileTypes", .list (g.fileTypes.map .text)), ("patterns", .list (Rule.toDocuments g.patterns))]

end Highlight
