import Highlight.Text.Bytes

/-! Files in directories. A place in a tree is the list of the names that lead to it. -/

namespace Highlight

inductive FileTree
  | file (content : Bytes)
  | directory (members : List (String × FileTree))

namespace FileTree

def empty : FileTree := .directory []

def at? : FileTree → List String → Option FileTree
  | t, [] => some t
  | .file _, _ :: _ => none
  | .directory ms, n :: ns =>
    match ms.lookup n with
    | some t => t.at? ns
    | none => none

def setMember (name : String) (t : FileTree) : List (String × FileTree) → List (String × FileTree)
  | [] => [(name, t)]
  | (n, u) :: ms => if name = n then (n, t) :: ms else (n, u) :: setMember name t ms

def put : FileTree → List String → FileTree → FileTree
  | _, [], new => new
  | .file content, _ :: _, _ => .file content
  | .directory ms, [n], new => .directory (setMember n new ms)
  | .directory ms, n :: m :: ns, new =>
    match ms.lookup n with
    | some t => .directory (setMember n (t.put (m :: ns) new) ms)
    | none => .directory ms

theorem lookup_setMember (name other : String) (t : FileTree) (ms : List (String × FileTree)) :
    (setMember name t ms).lookup other = if other = name then some t else ms.lookup other := by
  induction ms with
  | nil => by_cases h : other = name <;> simp [setMember, List.lookup_cons, h, beq_false_of_ne]
  | cons m ms ih =>
    obtain ⟨n, u⟩ := m
    by_cases h : name = n
    · subst h
      by_cases ho : other = name <;> simp [setMember, List.lookup_cons, ho, beq_false_of_ne]
    · by_cases ho : other = n
      · subst ho
        simp [setMember, h, Ne.symm h]
      · simp [setMember, h, List.lookup_cons, beq_false_of_ne ho, ih]

end FileTree

end Highlight
