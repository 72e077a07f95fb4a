/-! Scope names of capture groups, and the two ways to write them down. -/

namespace Highlight

structure Captures where
  entries : List (String × String)
  sorted : entries.Pairwise (·.1 < ·.1)
  deriving DecidableEq

namespace Captures

def insertEntry (key scope : String) : List (String × String) → List (String × String)
  | [] => [(key, scope)]
  | (k, s) :: rest =>
    if key < k then (key, scope) :: (k, s) :: rest
    else if key = k then (key, scope) :: rest
    else (k, s) :: insertEntry key scope rest

theorem mem_insertEntry {key scope : String} {e : String × String} {l : List (String × String)}
    (h : e ∈ insertEntry key scope l) : e = (key, scope) ∨ e ∈ l := by
  induction l with
  | nil => simpa [insertEntry] using h
  | cons hd tl ih =>
    obtain ⟨k, s⟩ := hd
    rw [insertEntry] at h
    grind

theorem sorted_insertEntry (key scope : String) {l : List (String × String)}
    (h : l.Pairwise (·.1 < ·.1)) : (insertEntry key scope l).Pairwise (·.1 < ·.1) := by
  induction l with
  | nil => simp [insertEntry]
  | cons hd tl ih =>
    obtain ⟨k, s⟩ := hd
    obtain ⟨hk, ht⟩ := List.pairwise_cons.1 h
    rw [insertEntry]
    split
    · next hlt =>
      refine List.pairwise_cons.2 ⟨fun e he => ?_, h⟩
      rcases List.mem_cons.1 he with rfl | he
      · exact hlt
      · exact String.lt_trans hlt (hk e he)
    · split
      · next heq => exact List.pairwise_cons.2 ⟨fun e he => heq ▸ hk e he, ht⟩
      · next hlt hne =>
        refine List.pairwise_cons.2 ⟨fun e he => ?_, ih ht⟩
        rcases mem_insertEntry he with rfl | he
        · exact Std.lt_of_le_of_ne (String.not_lt.1 hlt) (Ne.symm hne)
        · exact hk e he

def empty : Captures := ⟨[], .nil⟩

def insert (c : Captures) (key scope : String) : Captures :=
  ⟨insertEntry key scope c.entries, sorted_insertEntry key scope c.sorted⟩

def ofList (labels : List (String × String)) : Captures :=
  labels.foldl (fun c l => c.insert l.1 l.2) empty

def get? (c : Captures) (key : String) : Option String := c.entries.lookup key

end Captures

/-- How a rule labels its capture groups: with a scope name for group 1 alone, or with one for
each of several keys. -/
inductive CaptureSpec
  | single (label : String)
  | indexed (labels : Captures)
  deriving DecidableEq

namespace CaptureSpec

inductive Key
  | text (s : String)
  | number (n : Int)
  deriving DecidableEq

def Key.spelling : Key → String
  | .text s => s
  | .number n => n.repr

def ofLabels (labels : List (String × String)) : CaptureSpec := .indexed (.ofList labels)

def ofPairs (pairs : List (Key × String)) : CaptureSpec :=
  .ofLabels (pairs.map fun p => (p.1.spelling, p.2))

def captures : CaptureSpec → Captures
  | .single label => .ofList [("1", label)]
  | .indexed labels => .ofList labels.entries

def ofCaptures (c : Captures) : CaptureSpec := .ofLabels c.entries

end CaptureSpec

end Highlight
