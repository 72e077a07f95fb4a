import Highlight.Files.Tree
import Mathlib.Tactic.Common
import Mathlib.Data.List.Infix

/-! What is in the places of a tree, and how that changes as something is put into one place. -/

namespace Highlight.FileTree

inductive Node
  | file (content : Bytes)
  | directory
  deriving DecidableEq

def node : FileTree → Node
  | .file content => .file content
  | .directory _ => .directory

def node? (t : FileTree) (place : List String) : Option Node := (t.at? place).map node

variable {t u v : FileTree} {p q : List String} {content : Bytes}

lemma at?_nil (t : FileTree) : t.at? [] = some t := by
  cases t <;> rfl

lemma at?_append (t : FileTree) (p q : List String) : t.at? (p ++ q) = (t.at? p).bind (·.at? q) := by
  induction p generalizing t with
  | nil => rw [List.nil_append, at?_nil, Option.bind_some]
  | cons n p ih =>
    cases t with
    | file content => rfl
    | directory ms =>
      rw [List.cons_append, at?, at?]
      cases ms.lookup n with
      | none => rfl
      | some u => exact ih u

lemma exists_at? (h : t.node? p = some .directory) : ∃ ms, t.at? p = some (.directory ms) := by
  obtain ⟨u, hu, hn⟩ := Option.map_eq_some_iff.mp h
  cases u with
  | file content => cases hn
  | directory ms => exact ⟨ms, hu⟩

lemma at?_file (h : t.node? p = some (.file content)) : t.at? p = some (.file content) := by
  obtain ⟨u, hu, hn⟩ := Option.map_eq_some_iff.mp h
  cases u with
  | file c =>
    cases hn
    exact hu
  | directory ms => cases hn

lemma directory_of_node? {n : String} (h : t.node? (p ++ n :: q) ≠ none) : t.node? p = some .directory := by
  rw [node?, at?_append] at h
  cases hp : t.at? p with
  | none => simp [hp] at h
  | some u =>
    cases u with
    | file content => simp [hp, at?] at h
    | directory ms => simp [node?, hp, node]

lemma directory_around {n : String} {x : Node} (h : t.node? (p ++ [n]) = some x) :
    t.node? p = some .directory :=
  directory_of_node? (by rw [h]; simp)

lemma node?_append_none (h : t.node? p = none) (q : List String) : t.node? (p ++ q) = none := by
  rw [node?, Option.map_eq_none_iff] at h
  rw [node?, at?_append, h]
  rfl

lemma exists_root (h : t.node? p = some .directory) : ∃ ms, t = .directory ms := by
  have hroot : t.node? [] = some .directory := by
    cases p with
    | nil => exact h
    | cons n q => exact directory_of_node? (n := n) (q := q) (by simp [h])
  obtain ⟨ms, hms⟩ := exists_at? hroot
  rw [at?_nil] at hms
  exact ⟨ms, Option.some.inj hms⟩

lemma directory_above (h : p <+: q) (hne : p ≠ q) (hq : t.node? q ≠ none) :
    t.node? p = some .directory := by
  obtain ⟨r, rfl⟩ := h
  cases r with
  | nil => simp at hne
  | cons n r => exact directory_of_node? hq

lemma directory_along (h : p <+: q) (hq : t.node? q = some .directory) : t.node? p = some .directory := by
  by_cases he : p = q
  · rwa [he]
  · exact directory_above h he (by simp [hq])

/-! ### Putting something into a place -/

lemma put_cons (ms : List (String × FileTree)) {n : String} (hp : p ≠ []) (h : ms.lookup n = some u)
    (new : FileTree) : (FileTree.directory ms).put (n :: p) new = .directory (setMember n (u.put p new) ms) := by
  cases p with
  | nil => exact absurd rfl hp
  | cons m p => simp only [put, h]

lemma node?_directory_cons (ms : List (String × FileTree)) (n : String) (p : List String) :
    (FileTree.directory ms).node? (n :: p) = (ms.lookup n).bind (·.node? p) := by
  rw [node?, at?]
  cases ms.lookup n <;> rfl

lemma node?_put {here : List String} (h : t.node? here = some .directory) (name : String) (new : FileTree)
    (place : List String) : (t.put (here ++ [name]) new).node? place =
      if here ++ [name] <+: place then new.node? (place.drop (here.length + 1)) else t.node? place := by
  induction here generalizing t place with
  | nil =>
    obtain ⟨ms, rfl⟩ := exists_root h
    cases place with
    | nil => simp [put, node?, at?_nil, node]
    | cons m place =>
      rw [List.nil_append, put, node?_directory_cons, node?_directory_cons, lookup_setMember]
      by_cases hm : m = name
      · simp [hm]
      · simp [hm, Ne.symm hm]
  | cons n here ih =>
    obtain ⟨ms, rfl⟩ := exists_root h
    rw [node?_directory_cons] at h
    obtain ⟨u, hu, hhere⟩ := Option.bind_eq_some_iff.mp h
    rw [List.cons_append, put_cons ms (by simp) hu]
    cases place with
    | nil => simp [node?, at?_nil, node]
    | cons m place =>
      rw [node?_directory_cons, node?_directory_cons, lookup_setMember]
      by_cases hm : m = n
      · subst hm
        simp [hu, ih hhere]
      · simp [hm, Ne.symm hm]

def IsLeaf (t : FileTree) : Prop := ∀ n p, t.node? (n :: p) = none

lemma isLeaf_empty : empty.IsLeaf := fun _ _ => rfl

lemma isLeaf_file (content : Bytes) : (FileTree.file content).IsLeaf := fun _ _ => rfl

lemma node?_put_leaf {here : List String} {name : String} {new : FileTree}
    (h : t.node? here = some .directory) (hl : new.IsLeaf)
    (hn : t.node? (here ++ [name]) ≠ some .directory) (place : List String) :
    (t.put (here ++ [name]) new).node? place =
      if place = here ++ [name] then some new.node else t.node? place := by
  rw [node?_put h]
  by_cases hp : here ++ [name] <+: place
  · rw [if_pos hp]
    by_cases he : place = here ++ [name]
    · subst he
      simp [node?, at?_nil]
    · have hnone : t.node? place = none := by
        by_contra hs
        exact hn (directory_above hp (Ne.symm he) hs)
      obtain ⟨r, rfl⟩ := hp
      rw [if_neg he, hnone]
      cases r with
      | nil => simp at he
      | cons m r => simpa using hl m r
  · rw [if_neg hp, if_neg]
    rintro rfl
    exact hp (List.prefix_refl _)

lemma setMember_of_lookup {n : String} {ms : List (String × FileTree)} (h : ms.lookup n = some u) :
    setMember n u ms = ms := by
  induction ms with
  | nil => cases h
  | cons m ms ih =>
    obtain ⟨k, v⟩ := m
    by_cases hk : n = k
    · subst hk
      simp_all [setMember]
    · rw [List.lookup_cons, beq_false_of_ne hk] at h
      rw [setMember, if_neg hk, ih h]

lemma put_of_at? (h : t.at? p = some u) : t.put p u = t := by
  induction p generalizing t with
  | nil =>
    rw [at?_nil] at h
    simp_all [put]
  | cons n p ih =>
    cases t with
    | file content => cases h
    | directory ms =>
      rw [at?] at h
      cases hn : ms.lookup n with
      | none => simp [hn] at h
      | some v =>
        simp only [hn] at h
        cases p with
        | nil =>
          obtain rfl : v = u := by simpa [at?_nil] using h
          rw [put, setMember_of_lookup hn]
        | cons m p => rw [put_cons ms (by simp) hn, ih h, setMember_of_lookup hn]

/-! ### Trees with more in them -/

/-- Whatever is in a tree is in the other one too, and no file has changed. -/
def Extends (t u : FileTree) : Prop := ∀ place node, t.node? place = some node → u.node? place = some node

lemma Extends.refl (t : FileTree) : Extends t t := fun _ _ h => h

lemma Extends.trans (h : Extends t u) (h' : Extends u v) : Extends t v :=
  fun place node hn => h' place node (h place node hn)

lemma extends_of_node?_eq {node : Option Node} (hp : t.node? p = none)
    (h : ∀ q, u.node? q = if q = p then node else t.node? q) : Extends t u := by
  intro q node hq
  rw [h, if_neg, hq]
  rintro rfl
  rw [hp] at hq
  cases hq

end Highlight.FileTree
