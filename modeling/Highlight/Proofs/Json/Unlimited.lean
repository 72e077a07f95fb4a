import Highlight.Json.Tree
import Highlight.Proofs.Json.Outcome
import Mathlib.Tactic.Common

/-! Reading JSON of any depth: as many brackets may be open at once as there are bytes, and to allow for more
of them makes no difference. -/

namespace Highlight.Json

open Bytes

variable {α : Type} {n : ℕ}

lemma items_congr {p q : Reader α} (h : ∀ t, t.length ≤ n → p t = q t) {s : Bytes} (hs : s.length ≤ n) (i : ℕ) :
    items p i s = items q i s := by
  rw [items, items]
  cases nextItem i s with
  | error => rfl
  | ok next =>
    cases next with
    | closed => rfl
    | part t ht =>
      have hrest : (fun a u (_ : u.length < t.length) => (items p (i + 1) u).map (a :: ·)) =
          fun a u _ => (items q (i + 1) u).map (a :: ·) := by
        funext a u hu
        rw [items_congr h (by omega)]
      simp only [h t (by omega), hrest]
termination_by s.length

lemma members_congr {p q : α → String → Reader α} (h : ∀ a key t, t.length ≤ n → p a key t = q a key t)
    {s : Bytes} (hs : s.length ≤ n) (a : α) (first : Bool) : members p a first s = members q a first s := by
  rw [members, members]
  cases nextKey first s with
  | error => rfl
  | ok next =>
    cases next with
    | closed => rfl
    | part t ht =>
      have hrest : (fun key u (_ : u.length < t.length) =>
          (p a key u).andThen fun b v (_ : v.length < u.length) => members p b false v) =
            fun key u _ => (q a key u).andThen fun b v _ => members q b false v := by
        funext key u hu
        rw [h a key u (by omega)]
        congr 1
        funext b v hv
        rw [members_congr h (by omega)]
      simp only [hrest]
termination_by s.length

lemma treeWith_congr {p q : Reader Tree} {s : Bytes} (h : ∀ t, t.length < s.length → p t = q t) :
    treeWith (some p) s = treeWith (some q) s := by
  have hspace := length_skipSpace s
  rw [treeWith, Reader.afterSpace, treeWith, Reader.afterSpace]
  congr 1
  cases hs : skipSpace s with
  | nil => rfl
  | cons b rest =>
    rw [hs, List.length_cons] at hspace
    have hmember (ms : List (Tree × Tree)) (key : String) (t : Bytes) (ht : t.length ≤ rest.length) :
        (memberValue key p t).map (fun v => (.text key, v) :: ms) =
          (memberValue key q t).map (fun v => (.text key, v) :: ms) := by
      rw [memberValue, memberValue]
      congr 2
      funext _ u hu
      rw [h u (by omega)]
    have hitems := items_congr (fun t ht => h t (Nat.lt_of_le_of_lt ht hspace)) (Nat.le_refl rest.length) 0
    have hmembers := members_congr hmember (Nat.le_refl rest.length) [] true
    simp only [hitems, hmembers]

lemma tree_of_length_le {s : Bytes} {m n : ℕ} (hm : s.length ≤ m) (hn : s.length ≤ n) : tree m s = tree n s := by
  induction m generalizing n s with
  | zero =>
    obtain rfl := List.eq_nil_of_length_eq_zero (Nat.le_zero.mp hm)
    cases n <;> rfl
  | succ m ih =>
    cases n with
    | zero =>
      obtain rfl := List.eq_nil_of_length_eq_zero (Nat.le_zero.mp hn)
      rfl
    | succ n =>
      rw [tree, tree]
      exact treeWith_congr fun t ht => ih (by omega) (by omega)

def value? (document : Bytes) : Option Tree :=
  match (tree document.length document).outcome with
  | .ok (t, rest) => if rest.all isSpace then some t else none
  | .error _ => none

lemma value?_of_outcome {document : Bytes} {t : Tree} (hn : document.length ≤ n)
    (h : (tree n document).outcome = .ok (t, [])) : value? document = some t := by
  rw [tree_of_length_le hn (Nat.le_refl document.length)] at h
  rw [value?, h]
  rfl

end Highlight.Json
