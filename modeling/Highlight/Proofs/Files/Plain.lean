import Highlight.Proofs.Files.Access

/-! Plain paths: whether the directories around one can be made and its file written depends on the files
that stand in its way. -/

namespace Highlight.FileTree

open Files Path

variable {t u : FileTree} {here ns : List String} {n : String} {content : Bytes}

lemma not_prefix_of_concat (ns : List String) (n : String) : ¬ ns ++ [n] <+: ns := by
  intro h
  have hl := h.length_le
  rw [List.length_append, List.length_singleton] at hl
  omega

def Blocked (t : FileTree) (here ns : List String) : Prop :=
  ∃ q content, q <+: ns ∧ t.node? (here ++ q) = some (.file content)

lemma Blocked.of_file (h : t.node? (here ++ ns) = some (.file content)) : Blocked t here ns :=
  ⟨ns, content, List.prefix_refl ns, h⟩

lemma Blocked.not_directory (h : Blocked t here ns) : t.node? (here ++ ns) ≠ some .directory := by
  obtain ⟨q, content, ⟨r, rfl⟩, hf⟩ := h
  intro hd
  cases r with
  | nil => simp_all
  | cons n r =>
    have hq : t.node? (here ++ q) = some .directory := by
      apply directory_of_node? (n := n) (q := r)
      simp [hd]
    simp [hq] at hf

lemma not_blocked_nil (hh : t.node? here = some .directory) : ¬ Blocked t here [] := by
  rintro ⟨q, content, hq, hf⟩
  obtain rfl := List.prefix_nil.mp hq
  simp [hh] at hf

lemma blocked_cons_iff (hh : t.node? here = some .directory) : Blocked t here (n :: ns) ↔
    (∃ content, t.node? (here ++ [n]) = some (.file content)) ∨ Blocked t (here ++ [n]) ns := by
  constructor
  · rintro ⟨q, content, hq, hf⟩
    cases q with
    | nil => simp [hh] at hf
    | cons m q =>
      obtain ⟨rfl, hqs⟩ := List.cons_prefix_cons.mp hq
      exact .inr ⟨q, content, hqs, by simpa using hf⟩
  · rintro (⟨content, hf⟩ | ⟨q, content, hq, hf⟩)
    · exact ⟨[n], content, by simp, hf⟩
    · exact ⟨n :: q, content, by simpa using hq, by simpa using hf⟩

lemma enter_plain (hplain : ∀ m ∈ ns, IsPlain m) (hfits : ∀ m ∈ ns, m.utf8ByteSize ≤ longestName)
    (hh : t.node? here = some .directory) :
    t.enter here ns = .ok (here ++ ns) ∧ t.node? (here ++ ns) = some .directory ∨
      t.enter here ns = .error .notDirectory ∧ Blocked t here ns ∨
      t.enter here ns = .error .notFound ∧ t.node? (here ++ ns) = none ∧ ¬ Blocked t here ns := by
  induction ns generalizing here with
  | nil => exact .inl (by simpa [enter] using hh)
  | cons n ns ih =>
    have hn := hplain n (by simp)
    have hi : Path.isIdle n = false := by simp [Path.isIdle, hn.ne_empty, hn.ne_dot]
    have hs : here ++ n :: ns = here ++ [n] ++ ns := by simp
    rw [enter_name hi hn.ne_dots, if_neg (Nat.not_lt.mpr (hfits n (by simp))), blocked_cons_iff hh, hs]
    cases hnode : t.node? (here ++ [n]) with
    | none =>
      have hb : ¬ Blocked t (here ++ [n]) ns := by
        rintro ⟨q, content, -, hf⟩
        rw [node?_append_none hnode] at hf
        cases hf
      exact .inr (.inr ⟨rfl, node?_append_none hnode ns, by simpa using hb⟩)
    | some node =>
      cases node with
      | file content => exact .inr (.inl ⟨rfl, .inl ⟨content, rfl⟩⟩)
      | directory =>
        have hns := ih (fun m hm => hplain m (by simp [hm])) (fun m hm => hfits m (by simp [hm])) hnode
        simpa using hns

lemma blocked_append_iff : Blocked t [] (ns ++ [n]) ↔
    Blocked t [] ns ∨ ∃ content, t.node? (ns ++ [n]) = some (.file content) := by
  constructor
  · rintro ⟨q, content, hq, hf⟩
    rcases List.prefix_concat_iff.mp hq with rfl | hq
    · exact .inr ⟨content, hf⟩
    · exact .inl ⟨q, content, hq, hf⟩
  · rintro (⟨q, content, hq, hf⟩ | ⟨content, hf⟩)
    · exact ⟨q, content, hq.trans (List.prefix_append ns [n]), hf⟩
    · exact .of_file hf

lemma enter_directory (hplain : ∀ m ∈ ns, IsPlain m) (hfits : Fits ns) (h : t.node? ns = some .directory) :
    t.enter [] ns = .ok ns := by
  have hroot : t.node? [] = some .directory := directory_along ns.nil_prefix h
  rcases enter_plain hplain hfits.name hroot with ⟨he, -⟩ | ⟨-, hb⟩ | ⟨-, hn, -⟩
  · exact he
  · exact absurd h hb.not_directory
  · rw [List.nil_append, h] at hn
    cases hn

/-! ### The last name -/

lemma locate_plain (hplain : ∀ m ∈ ns ++ [n], IsPlain m) (ho : objection? (ofNames (ns ++ [n])) = none) :
    t.locate (ofNames (ns ++ [n])) = (t.enter [] ns).map (Place.member · n) := by
  have hn := plain_last hplain
  rw [locate, ho, target?_ofNames hplain]
  simp only [hn.ne_dot, hn.ne_dots, or_self, if_false]
  cases t.enter [] ns <;> rfl

section Last

variable (hroot : t.node? [] = some .directory) (hplain : ∀ m ∈ ns ++ [n], IsPlain m)
  (hfits : Fits (ns ++ [n]))

include hfits

lemma member?_plain (here : List String) : t.member? here n = .ok (t.at? (here ++ [n])) := by
  rw [member?, if_neg (Nat.not_lt.mpr (hfits.name n (by simp)))]

include hplain

lemma objection?_plain : objection? (ofNames (ns ++ [n])) = none :=
  ((Fits.iff_objection? (by simp) hplain).mp hfits).1

lemma makeDirectory_plain : t.makeDirectory (ofNames (ns ++ [n])) = (t.enter [] ns).bind fun here =>
    if t.node? (here ++ [n]) = none then .ok (t.put (here ++ [n]) empty) else .error .exists := by
  rw [makeDirectory, locate_plain hplain (objection?_plain hplain hfits)]
  cases t.enter [] ns with
  | error o => rfl
  | ok here =>
    simp only [Except.map, Except.bind, member?_plain hfits, node?]
    obtain ha | ⟨u, ha⟩ := Option.eq_none_or_eq_some (t.at? (here ++ [n])) <;> simp [ha]

lemma store_plain (content : Bytes) : t.store (ofNames (ns ++ [n])) content =
    (t.enter [] ns).bind fun here =>
      if t.node? (here ++ [n]) = some .directory then .error .isDirectory
      else .ok (t.put (here ++ [n]) (.file content)) := by
  rw [store, locate_plain hplain (objection?_plain hplain hfits), endsInSlash_ofNames hplain]
  cases t.enter [] ns with
  | error o => rfl
  | ok here =>
    simp only [Except.map, Except.bind, member?_plain hfits, node?]
    obtain ha | ⟨u, ha⟩ := Option.eq_none_or_eq_some (t.at? (here ++ [n]))
    · simp [ha]
    · cases u <;> simp [ha, node]

lemma load_plain (h : t.node? (ns ++ [n]) = some (.file content)) :
    t.load (ofNames (ns ++ [n])) = .ok content := by
  have hd : t.node? ns = some .directory := directory_around h
  rw [load, locate_plain hplain (objection?_plain hplain hfits),
    enter_directory (plain_init hplain) hfits.init hd]
  simp only [Except.map, member?_plain hfits, at?_file h]
  rw [endsInSlash_ofNames hplain]
  rfl

include hroot

lemma isDirectory_plain :
    t.isDirectory (ofNames (ns ++ [n])) = true ↔ t.node? (ns ++ [n]) = some .directory := by
  rw [isDirectory, objection?_plain hplain hfits, names_ofNames (by simp) hplain]
  rcases enter_plain hplain hfits.name hroot with ⟨he, hd⟩ | ⟨he, hb⟩ | ⟨he, hd, hb⟩
  · rw [List.nil_append] at hd
    rw [he, hd]
    simp [Except.isOk, Except.toBool]
  · have hd := hb.not_directory
    rw [List.nil_append] at hd
    rw [he]
    simp [Except.isOk, Except.toBool, hd]
  · rw [List.nil_append] at hd
    rw [he, hd]
    simp [Except.isOk, Except.toBool]

end Last

/-! ### Directories -/

/-- Directories stand all along some names, where there was nothing before; or nothing has changed, because a
file stands there. -/
inductive Cleared (t : FileTree) (ns : List String) : FileTree × Except Obstacle Unit → Prop
  | blocked {o : Obstacle} (h : Blocked t [] ns) : Cleared t ns (t, .error o)
  | made {u : FileTree} (h : ¬ Blocked t [] ns)
      (node?_eq : ∀ p, u.node? p = if p <+: ns then some .directory else t.node? p) :
      Cleared t ns (u, .ok ())

lemma Cleared.there (h : t.node? ns = some .directory) : Cleared t ns (t, .ok ()) := by
  refine .made (fun hb => ?_) fun p => ?_
  · exact hb.not_directory h
  · by_cases hp : p <+: ns
    · rw [if_pos hp, directory_along hp h]
    · rw [if_neg hp]

lemma Cleared.of_made {r : FileTree × Except Obstacle Unit} (h : Cleared u (ns ++ [n]) r)
    (hb : ¬ Blocked t [] ns) (hn : t.node? (ns ++ [n]) = none)
    (hu : ∀ p, u.node? p = if p <+: ns then some .directory else t.node? p) : Cleared t (ns ++ [n]) r := by
  have hd : u.node? ns = some .directory := (hu ns).trans (if_pos (List.prefix_refl ns))
  have hfree : u.node? (ns ++ [n]) = none := by
    rw [hu, if_neg (not_prefix_of_concat ns n), hn]
  cases h with
  | blocked h =>
    rcases blocked_append_iff.mp h with h | ⟨content, hf⟩
    · exact absurd hd h.not_directory
    · simp [hfree] at hf
  | made h hv =>
    refine .made (by simp [blocked_append_iff, hn, hb]) fun p => ?_
    rw [hv, hu]
    by_cases hp : p <+: ns
    · rw [if_pos hp, ite_self, if_pos (hp.trans (List.prefix_append ns [n]))]
    · rw [if_neg hp]

lemma makeDirectories_cons {path : String} {around : List String}
    (h : t.makeDirectory path ≠ .error .notFound) :
    t.makeDirectories (path :: around) = t.ensureDirectory path := by
  rw [makeDirectories]
  split
  · next hm => exact absurd hm h
  · rfl

section Directories

variable (hplain : ∀ m ∈ ns ++ [n], IsPlain m) (hfits : Fits (ns ++ [n]))

include hplain hfits

lemma makeDirectory_inside (h : t.node? ns = some .directory) : t.makeDirectory (ofNames (ns ++ [n])) =
    if t.node? (ns ++ [n]) = none then .ok (t.put (ns ++ [n]) empty) else .error .exists := by
  rw [makeDirectory_plain hplain hfits, enter_directory (plain_init hplain) hfits.init h]
  rfl

lemma ensureDirectory_there (h : t.node? (ns ++ [n]) = some .directory) :
    t.ensureDirectory (ofNames (ns ++ [n])) = (t, .ok ()) := by
  have hns : t.node? ns = some .directory := directory_around h
  obtain ⟨ms, rfl⟩ := exists_root h
  rw [ensureDirectory, makeDirectory_inside hplain hfits hns, if_neg (by simp [h])]
  exact congrArg (Prod.mk _) (if_pos ((isDirectory_plain rfl hplain hfits).mpr h))

lemma ensureDirectory_inside (h : t.node? ns = some .directory) :
    Cleared t (ns ++ [n]) (t.ensureDirectory (ofNames (ns ++ [n]))) := by
  have hns : ¬ Blocked t [] ns := fun hb => hb.not_directory h
  cases hn : t.node? (ns ++ [n]) with
  | none =>
    rw [ensureDirectory, makeDirectory_inside hplain hfits h, if_pos hn]
    refine .made (by simp [blocked_append_iff, hns, hn]) fun p => ?_
    rw [node?_put_leaf h isLeaf_empty (by simp [hn])]
    by_cases hp : p = ns ++ [n]
    · subst hp
      simp [node, empty]
    · rw [if_neg hp]
      by_cases hpn : p <+: ns ++ [n]
      · rw [if_pos hpn, directory_along ((List.prefix_concat_iff.mp hpn).resolve_left hp) h]
      · rw [if_neg hpn]
  | some node =>
    cases node with
    | directory =>
      rw [ensureDirectory_there hplain hfits hn]
      exact .there hn
    | file content =>
      obtain ⟨ms, rfl⟩ := exists_root h
      rw [ensureDirectory, makeDirectory_inside hplain hfits h, if_neg (by simp [hn])]
      have hd : (FileTree.directory ms).isDirectory (ofNames (ns ++ [n])) ≠ true := by
        rw [Ne, isDirectory_plain rfl hplain hfits, hn]
        simp
      simp only [if_neg hd]
      exact .blocked (.of_file hn)

end Directories

lemma makeDirectories_there (hplain : ∀ m ∈ ns, IsPlain m) (hfits : Fits ns)
    (h : t.node? ns = some .directory) : t.makeDirectories (prefixes ns) = (t, .ok ()) := by
  obtain rfl | ⟨ns, n, rfl⟩ := ns.eq_nil_or_concat'
  · rfl
  · have hns : t.node? ns = some .directory := directory_around h
    have hm := makeDirectory_inside hplain hfits hns
    rw [if_neg (by simp [h])] at hm
    rw [prefixes_append (plain_last hplain), makeDirectories_cons (by simp [hm])]
    exact ensureDirectory_there hplain hfits h

lemma makeDirectories_cleared (hroot : t.node? [] = some .directory) (hplain : ∀ m ∈ ns, IsPlain m)
    (hfits : Fits ns) : Cleared t ns (t.makeDirectories (prefixes ns)) := by
  induction ns using List.reverseRecOn with
  | nil => exact .there hroot
  | append_singleton ns n ih =>
    have hinit := plain_init hplain
    have hmake := makeDirectory_plain hplain hfits (t := t)
    rw [prefixes_append (plain_last hplain)]
    rcases enter_plain hinit hfits.init.name hroot with ⟨he, hd⟩ | ⟨he, hb⟩ | ⟨he, hn, hb⟩
    · -- The directory around is there.
      have hfound : t.makeDirectory (ofNames (ns ++ [n])) ≠ .error .notFound := by
        rw [makeDirectory_inside hplain hfits hd]
        split <;> simp
      rw [makeDirectories_cons hfound]
      exact ensureDirectory_inside hplain hfits hd
    · -- A file stands in the way.
      rw [he] at hmake
      have hall : Blocked t [] (ns ++ [n]) := blocked_append_iff.mpr (.inl hb)
      have hdir : t.isDirectory (ofNames (ns ++ [n])) ≠ true := by
        rw [Ne, isDirectory_plain hroot hplain hfits]
        exact hall.not_directory
      rw [makeDirectories_cons (by simp [hmake, Except.bind]), ensureDirectory, hmake]
      simp only [Except.bind, if_neg hdir]
      exact .blocked hall
    · -- The directory around is made first, and what was missing in it is missing still.
      rw [he] at hmake
      rw [List.nil_append] at hn
      have hmissing : t.node? (ns ++ [n]) = none := node?_append_none hn [n]
      rw [makeDirectories, hmake]
      simp only [Except.bind]
      have haround := ih hinit hfits.init
      generalize t.makeDirectories (prefixes ns) = r at haround
      cases haround with
      | blocked h => exact absurd h hb
      | made h hu =>
        have hd := (hu ns).trans (if_pos (List.prefix_refl ns))
        exact (ensureDirectory_inside hplain hfits hd).of_made hb hmissing hu

/-! ### Files -/

lemma objection?_of_store {path : String} (h : t.store path content = .ok u) : objection? path = none := by
  cases ho : objection? path with
  | none => rfl
  | some o =>
    rw [store, locate, ho] at h
    cases h

lemma name_le_of_enter {place : List String} (hplain : ∀ m ∈ ns, IsPlain m)
    (h : t.enter here ns = .ok place) : ∀ m ∈ ns, m.utf8ByteSize ≤ longestName := by
  induction ns generalizing here with
  | nil => simp
  | cons n ns ih =>
    have hn := hplain n (by simp)
    have hns : ∀ m ∈ ns, IsPlain m := fun m hm => hplain m (by simp [hm])
    rcases enter_cons_eq_ok h with ⟨hi, -⟩ | ⟨hd, -⟩ | ⟨-, -, hl, -, h⟩
    · simp [isIdle, hn.ne_empty, hn.ne_dot] at hi
    · exact absurd hd hn.ne_dots
    · exact List.forall_mem_cons.mpr ⟨hl, ih hns h⟩

lemma fits_of_store (hplain : ∀ m ∈ ns ++ [n], IsPlain m)
    (h : t.store (ofNames (ns ++ [n])) content = .ok u) : Fits (ns ++ [n]) := by
  have ho := objection?_of_store h
  rw [store, locate_plain hplain ho] at h
  cases he : t.enter [] ns with
  | error o =>
    rw [he] at h
    cases h
  | ok here =>
    have hns := name_le_of_enter (plain_init hplain) he
    rw [he, endsInSlash_ofNames hplain] at h
    simp only [Except.map, Bool.false_eq_true, if_false, member?] at h
    split_ifs at h with hlong
    refine (Fits.iff_objection? (by simp) hplain).mpr ⟨ho, fun m hm => ?_⟩
    rcases List.mem_append.mp hm with hm | hm
    · exact hns m hm
    · rw [List.mem_singleton.mp hm]
      exact Nat.le_of_not_lt hlong

lemma store_inside (hplain : ∀ m ∈ ns ++ [n], IsPlain m) (hfits : Fits (ns ++ [n]))
    (h : t.node? ns = some .directory) (content : Bytes) : t.store (ofNames (ns ++ [n])) content =
      if t.node? (ns ++ [n]) = some .directory then .error .isDirectory
      else .ok (t.put (ns ++ [n]) (.file content)) := by
  rw [store_plain hplain hfits, enter_directory (plain_init hplain) hfits.init h]
  rfl

end Highlight.FileTree
