import Highlight.Files.Access
import Highlight.Proofs.Files.Path
import Highlight.Proofs.Files.Tree

/-! What making directories, writing files and reading them does to the places of a tree. -/

namespace Highlight.FileTree

open Files

variable {t u v : FileTree} {here place ns : List String} {n path : String} {content : Bytes}

/-! ### Walking -/

lemma enter_name (hi : Path.isIdle n = false) (hd : n ≠ "..") (t : FileTree) (here ns : List String) :
    t.enter here (n :: ns) =
      if longestName < n.utf8ByteSize then .error .nameTooLong
      else
        match t.node? (here ++ [n]) with
        | none => .error .notFound
        | some (.file _) => .error .notDirectory
        | some .directory => t.enter (here ++ [n]) ns := by
  rw [enter, hi, if_neg (by simp), if_neg hd, member?]
  by_cases hl : longestName < n.utf8ByteSize
  · rw [if_pos hl, if_pos hl]
  · rw [if_neg hl, if_neg hl, node?]
    rcases t.at? (here ++ [n]) with _ | (_ | _) <;> rfl

lemma enter_cons_eq_ok (h : t.enter here (n :: ns) = .ok place) :
    (Path.isIdle n = true ∧ t.enter here ns = .ok place) ∨
      (n = ".." ∧ t.enter here.dropLast ns = .ok place) ∨
      (Path.isIdle n = false ∧ n ≠ ".." ∧ n.utf8ByteSize ≤ longestName ∧
        t.node? (here ++ [n]) = some .directory ∧ t.enter (here ++ [n]) ns = .ok place) := by
  cases hi : Path.isIdle n with
  | true =>
    rw [enter, if_pos hi] at h
    exact .inl ⟨rfl, h⟩
  | false =>
    by_cases hd : n = ".."
    · rw [enter, hi, if_neg (by simp), if_pos hd] at h
      exact .inr (.inl ⟨hd, h⟩)
    · rw [enter_name hi hd] at h
      split_ifs at h with hl
      split at h
      · cases h
      · cases h
      · next hnode => exact .inr (.inr ⟨rfl, hd, Nat.le_of_not_lt hl, hnode, h⟩)

lemma enter_append_extends (hu : Extends t u) (h : t.enter here ns = .ok place) (ms : List String) :
    u.enter here (ns ++ ms) = u.enter place ms := by
  induction ns generalizing here with
  | nil =>
    cases h
    rfl
  | cons n ns ih =>
    rw [List.cons_append]
    rcases enter_cons_eq_ok h with ⟨hi, h⟩ | ⟨rfl, h⟩ | ⟨hi, hd, hl, hn, h⟩
    · rw [enter, if_pos hi, ih h]
    · rw [enter, if_neg (by decide), if_pos rfl, ih h]
    · rw [enter_name hi hd, if_neg (Nat.not_lt.mpr hl), hu _ _ hn]
      exact ih h

lemma enter_extends (hu : Extends t u) (h : t.enter here ns = .ok place) : u.enter here ns = .ok place := by
  have he := enter_append_extends hu h []
  rwa [List.append_nil] at he

lemma enter_append (h : t.enter here ns = .ok place) (ms : List String) :
    t.enter here (ns ++ ms) = t.enter place ms :=
  enter_append_extends (.refl t) h ms

lemma directory_of_enter (hh : t.node? here = some .directory) (h : t.enter here ns = .ok place) :
    t.node? place = some .directory := by
  induction ns generalizing here with
  | nil =>
    cases h
    exact hh
  | cons n ns ih =>
    rcases enter_cons_eq_ok h with ⟨-, h⟩ | ⟨-, h⟩ | ⟨-, -, -, hn, h⟩
    · exact ih hh h
    · exact ih (directory_along (List.dropLast_prefix here) hh) h
    · exact ih hn h

/-! ### Directories in a tree -/

lemma locate_eq_member (h : t.locate path = .ok (.member here n)) :
    ∃ before rest, Path.names path = before ++ n :: rest ∧ (∀ m ∈ rest, m = "") ∧
      t.enter [] before = .ok here ∧ Path.isIdle n = false ∧ n ≠ ".." := by
  rw [locate] at h
  split at h
  · cases h
  split at h
  · cases h
  next before last ht =>
  split at h
  · cases h
  next place he =>
  by_cases hl : last = "." ∨ last = ".."
  · rw [if_pos hl] at h
    cases h
  rw [if_neg hl] at h
  cases h
  obtain ⟨rest, hn, hrest, hne⟩ := Path.names_of_target? ht
  rw [not_or] at hl
  exact ⟨before, rest, hn, hrest, he, by simp [Path.isIdle, hne, hl.1], hl.2⟩

lemma enter_idle (hns : ∀ m ∈ ns, m = "") (t : FileTree) (here : List String) :
    t.enter here ns = .ok here := by
  induction ns with
  | nil => rfl
  | cons m ns ih =>
    obtain rfl := hns m (by simp)
    rw [enter, if_pos (by decide), ih fun m hm => hns m (by simp [hm])]

structure Makes (t : FileTree) (path : String) (place : List String) (u : FileTree) : Prop where
  absent : t.node? place = none
  named : u.enter [] (Path.names path) = .ok place
  node?_eq : ∀ p, u.node? p = if p = place then some .directory else t.node? p

lemma makeDirectory_makes (hroot : t.node? [] = some .directory) (h : t.makeDirectory path = .ok u) :
    ∃ place, Makes t path place u := by
  rw [makeDirectory] at h
  split at h
  · cases h
  · cases h
  next here name hl =>
  split at h
  · cases h
  · cases h
  next hm =>
  obtain ⟨before, rest, hnames, hrest, he, hi, hd⟩ := locate_eq_member hl
  obtain rfl : t.put (here ++ [name]) empty = u := Except.ok.inj h
  rw [member?] at hm
  split_ifs at hm with hlong
  have habsent : t.node? (here ++ [name]) = none := by
    rw [node?, Except.ok.inj hm, Option.map_none]
  have hdir : t.node? (here ++ [name]) ≠ some .directory := by simp [habsent]
  have hnode := node?_put_leaf (directory_of_enter hroot he) isLeaf_empty hdir
  have hself : (t.put (here ++ [name]) empty).node? (here ++ [name]) = some .directory := by
    rw [hnode, if_pos rfl]
    rfl
  refine ⟨here ++ [name], habsent, ?_, hnode⟩
  have hext := extends_of_node?_eq habsent hnode
  rw [hnames, enter_append (enter_extends hext he), enter_name hi hd, if_neg hlong, hself]
  exact enter_idle hrest _ _

/-- A tree with more directories, each in the place to which one of the paths leads. -/
structure Adds (paths : List String) (t u : FileTree) : Prop where
  kept : Extends t u
  added : ∀ place, u.node? place = t.node? place ∨
    t.node? place = none ∧ u.node? place = some .directory ∧
      ∃ path ∈ paths, u.enter [] (Path.names path) = .ok place

namespace Adds

variable {paths : List String}

lemma refl (paths : List String) (t : FileTree) : Adds paths t t := ⟨.refl t, fun _ => .inl rfl⟩

lemma mono {paths' : List String} (h : Adds paths t u) (hp : ∀ path ∈ paths, path ∈ paths') :
    Adds paths' t u := by
  refine ⟨h.kept, fun place => ?_⟩
  rcases h.added place with he | ⟨hn, hd, path, hm, he⟩
  · exact .inl he
  · exact .inr ⟨hn, hd, path, hp path hm, he⟩

lemma trans (h : Adds paths t u) (h' : Adds paths u v) : Adds paths t v := by
  refine ⟨h.kept.trans h'.kept, fun place => ?_⟩
  rcases h'.added place with he' | ⟨hn', hd', hp'⟩
  · rw [he']
    rcases h.added place with he | ⟨hn, hd, path, hm, he⟩
    · exact .inl he
    · exact .inr ⟨hn, hd, path, hm, enter_extends h'.kept he⟩
  · have hn : t.node? place = none := by
      cases ht : t.node? place with
      | none => rfl
      | some node =>
        rw [h.kept place node ht] at hn'
        cases hn'
    exact .inr ⟨hn, hd', hp'⟩

lemma of_makes {place : List String} (h : Makes t path place u) (hp : path ∈ paths) : Adds paths t u := by
  refine ⟨extends_of_node?_eq h.absent h.node?_eq, fun p => ?_⟩
  rw [h.node?_eq]
  by_cases he : p = place
  · subst he
    rw [if_pos rfl]
    exact .inr ⟨h.absent, rfl, path, hp, h.named⟩
  · rw [if_neg he]
    exact .inl rfl

end Adds

lemma ensureDirectory_adds (hroot : t.node? [] = some .directory) {paths : List String}
    (hp : path ∈ paths) : Adds paths t (t.ensureDirectory path).1 := by
  rw [ensureDirectory]
  cases hm : t.makeDirectory path with
  | error o => exact .refl paths t
  | ok u =>
    obtain ⟨place, h⟩ := makeDirectory_makes hroot hm
    exact .of_makes h hp

lemma makeDirectories_adds (hroot : t.node? [] = some .directory) (paths : List String) :
    Adds paths t (t.makeDirectories paths).1 := by
  induction paths with
  | nil => exact .refl [] t
  | cons path around ih =>
    have haround := ih.mono fun p hp => List.mem_cons_of_mem path hp
    have hhere : Adds (path :: around) t (t.ensureDirectory path).1 :=
      ensureDirectory_adds hroot List.mem_cons_self
    rw [makeDirectories]
    split
    · split
      · next u hm =>
        rw [hm] at haround
        exact haround.trans (ensureDirectory_adds (haround.kept _ _ hroot) List.mem_cons_self)
      · next u o hm =>
        rw [hm] at haround
        exact haround
    · exact hhere

end Highlight.FileTree
