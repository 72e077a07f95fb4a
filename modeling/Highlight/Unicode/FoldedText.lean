import Highlight.Unicode.CaseFolding

/-! Texts that differ by case only. A character may differ by case from a text of several. -/

namespace Highlight.Unicode.CaseFolding

def length? (word text : List Char) : Option Nat :=
  match word, text with
  | [], _ => some 0
  | _ :: _, [] => none
  | w :: ws, t :: ts =>
    if fold t = fold w ∨ fullFold t = fullFold w then (length? ws ts).map (· + 1)
    else if 1 < (fullFold w).length ∧ ((t :: ts).take (fullFold w).length).map fold = fullFold w then
      (length? ws ((t :: ts).drop (fullFold w).length)).map (· + (fullFold w).length)
    else if h : 1 < (fullFold t).length ∧
        ((w :: ws).take (fullFold t).length).map fold = fullFold t then
      (length? ((w :: ws).drop (fullFold t).length) ts).map (· + 1)
    else none
termination_by word.length
decreasing_by all_goals simp_all <;> omega

def parallelWithin? (room : Nat) : (word text : List Char) → Option Nat
  | [], _ => some 0
  | _ :: _, [] => none
  | w :: ws, t :: ts =>
    if room = 0 then none
    else if fullFold w = fullFold t then
      (parallelWithin? (room - t.utf8Size) ws ts).map (· + 1)
    else none

def bytes (cs : List Char) : Nat := cs.foldl (fun n c => n + c.utf8Size) 0

def parallel? (word text : List Char) : Option Nat := parallelWithin? (bytes word) word text

def lengthBounds : List Char → Nat × Nat
  | [] => (0, 0)
  | a :: rest =>
    let (least, most) := lengthBounds rest
    let contracts (n : Nat) : Bool :=
      !(contractions (((a :: rest).take n).map fold)).isEmpty && n ≤ (a :: rest).length
    let least :=
      if contracts 3 then min (least + 1) ((lengthBounds (rest.drop 2)).1 + 1)
      else if contracts 2 then min (least + 1) ((lengthBounds (rest.drop 1)).1 + 1)
      else least + 1
    (least, most + (fullFold a).length)
termination_by w => w.length

end Highlight.Unicode.CaseFolding
