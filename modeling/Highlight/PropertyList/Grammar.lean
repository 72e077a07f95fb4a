import Highlight.Grammar.Fields
import Highlight.Grammar.Tree
import Highlight.PropertyList.Binary
import Highlight.PropertyList.OldStyle
import Highlight.PropertyList.Tree
import Highlight.PropertyList.Xml

/-! Reading a grammar from a property list. Its own fields are read as they come, so that the first
fault among them is the one reported; each rule is read whole before it is decided what kind it is.
What follows the grammar is not looked at. -/

namespace Highlight.PropertyList

/-- The events of a document in the way of writing that it begins like: binary, in XML, or in the
style of programs older than both. -/
def Trace.ofBytes (document : Bytes) : Trace :=
  if document.length < Binary.magic.length then .fail ⟨.tooShort, some 0⟩
  else if document.take Binary.magic.length = Binary.magic then Binary.read document
  else (Xml.read? document).getD (OldStyle.read document)

def misfit {α : Type} (m : Misfit) : Except Fault α := .error ⟨.misfit m, none⟩

def mismatch {α : Type} (expected : String) (e : Event) : Except Fault α :=
  match e with
  | .endCollection => .error (unexpected .valueOrStartCollection .endCollection)
  | .startArray => misfit (.invalidType .sequence expected)
  | .startDictionary => misfit (.invalidType .map expected)
  | .boolean b => misfit (.invalidType (.boolean b) expected)
  | .data _ => misfit (.invalidType .bytes expected)
  | .date s | .text s => misfit (.invalidType (.text s) expected)
  | .integer n => misfit (.invalidType (.integer n) expected)
  | .real x => misfit (.invalidType (.real x) expected)
  | .uid n => misfit (.invalidType (.integer n) expected)

abbrev Reader (α : Type) := (ending : Fault) → (es : List Event) → Except Fault (Taken α es)

def text : Reader String
  | ending, [] => .error ending
  | _, e :: es =>
    match e with
    | .date s | .text s => .ok (s, ⟨es, length_lt_cons e es⟩)
    | .data b =>
      match Bytes.text? b with
      | some s => .ok (s, ⟨es, length_lt_cons e es⟩)
      | none => misfit (.invalidValue .bytes "a string")
    | e => mismatch "a string" e

def items {α : Type} (item : Reader α) (ending : Fault) (es : List Event) :
    Except Fault (Taken (List α) es) :=
  match es with
  | [] => .error ending
  | .endCollection :: rest => .ok ([], ⟨rest, length_lt_cons .endCollection rest⟩)
  | e :: rest =>
    match item ending (e :: rest) with
    | .error f => .error f
    | .ok (a, ⟨r, hr⟩) =>
      (items item ending r).map fun t => (a :: t.1, ⟨t.2.1, Nat.lt_trans t.2.2 hr⟩)
termination_by es.length
decreasing_by all_goals (simp only [List.length_cons] at *; omega)

def array {α : Type} (item : Reader α) : Reader (List α)
  | ending, [] => .error ending
  | ending, e :: es =>
    match e with
    | .startArray => (items item ending es).map (Taken.widen (length_le_cons e es))
    | e => mismatch "a sequence" e

def rule : Reader Rule := fun ending es =>
  match tree ending es with
  | .error f => .error f
  | .ok (t, r) =>
    match Rule.ofTree? t with
    | some rule => .ok (rule, r)
    | none => misfit .noKindOfRule

def field? (e : Event) : Except Fault (Option Nat) :=
  match e.tree.field? Grammar.Fields.names with
  | some i => .ok i
  | none => mismatch "field identifier" e

namespace Fields

def fill {α : Type} (i : Nat) (known : Option α) (value : Reader α) (put : α → Grammar.Fields) :
    Reader Grammar.Fields := fun ending es =>
  match known with
  | some _ => misfit (.duplicateField (Grammar.Fields.names.getD i ""))
  | none => (value ending es).map fun t => (put t.1, t.2)

def member (f : Grammar.Fields) (i : Option Nat) : Reader Grammar.Fields :=
  match i with
  | some 0 => fill 0 f.name text ({ f with name := some · })
  | some 1 => fill 1 f.scopeName text ({ f with scopeName := some · })
  | some 2 => fill 2 f.fileTypes (array text) ({ f with fileTypes := some · })
  | some 3 => fill 3 f.patterns (array rule) ({ f with patterns := some · })
  | _ => fun ending es => (tree ending es).map fun t => (f, t.2)

def members (f : Grammar.Fields) (ending : Fault) (es : List Event) :
    Except Fault Grammar.Fields :=
  match es with
  | [] => .error ending
  | .endCollection :: _ => .ok f
  | e :: rest =>
    match field? e with
    | .error fault => .error fault
    | .ok i =>
      match member f i ending rest with
      | .error fault => .error fault
      | .ok (f, ⟨r, _⟩) => members f ending r
termination_by es.length
decreasing_by all_goals (simp only [List.length_cons] at *; omega)

end Fields

def Trace.grammar (t : Trace) : Except Fault Grammar :=
  let ending := t.fault.getD ⟨.unexpectedEndOfEventStream, none⟩
  match t.events with
  | [] => .error ending
  | .startDictionary :: es =>
    match Fields.members {} ending es with
    | .error f => .error f
    | .ok fields =>
      match fields.grammar with
      | .ok g => .ok g
      | .error name => misfit (.missingField name)
  | e :: _ => .error (unexpected .startDictionary e)

end Highlight.PropertyList

namespace Highlight

def Grammar.ofPropertyList (document : Bytes) : Except PropertyList.Fault Grammar :=
  (PropertyList.Trace.ofBytes document).grammar

end Highlight
