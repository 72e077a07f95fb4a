/-! Documents of texts, lists and records: what a grammar is written as in either format. -/

namespace Highlight

inductive Document
  | text (s : String)
  | list (items : List Document)
  | record (members : List (String × Document))

end Highlight
