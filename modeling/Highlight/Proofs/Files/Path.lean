import Highlight.Files.Path
import Highlight.Proofs.Text.Pieces
import Mathlib.Data.List.TakeWhile

/-! Paths made of plain names, with one slash between any two of them. -/

namespace Highlight.Files

structure IsPlain (name : String) : Prop where
  ne_empty : name ≠ ""
  ne_dot : name ≠ "."
  ne_dots : name ≠ ".."
  no_slash : '/' ∉ name.toList

instance (name : String) : Decidable (IsPlain name) :=
  decidable_of_iff (name ≠ "" ∧ name ≠ "." ∧ name ≠ ".." ∧ '/' ∉ name.toList)
    ⟨fun ⟨h₁, h₂, h₃, h₄⟩ => ⟨h₁, h₂, h₃, h₄⟩, fun ⟨h₁, h₂, h₃, h₄⟩ => ⟨h₁, h₂, h₃, h₄⟩⟩

@[ext]
structure PlainPath where
  names : List String
  ne_nil : names ≠ []
  plain : ∀ n ∈ names, IsPlain n
  deriving DecidableEq

def PlainPath.text (p : PlainPath) : String := Path.ofNames p.names

lemma PlainPath.exists_eq (p : PlainPath) : ∃ ns n h, p = ⟨ns ++ [n], by simp, h⟩ := by
  obtain ⟨names, hne, hplain⟩ := p
  obtain rfl | ⟨ns, n, rfl⟩ := names.eq_nil_or_concat'
  · exact absurd rfl hne
  · exact ⟨ns, n, hplain, rfl⟩

structure Fits (ns : List String) : Prop where
  nul : ∀ n ∈ ns, '\x00' ∉ n.toList
  name : ∀ n ∈ ns, n.utf8ByteSize ≤ longestName
  path : (Path.ofNames ns).utf8ByteSize ≤ longestPath

instance (ns : List String) : Decidable (Fits ns) :=
  decidable_of_iff ((∀ n ∈ ns, '\x00' ∉ n.toList) ∧ (∀ n ∈ ns, n.utf8ByteSize ≤ longestName) ∧
      (Path.ofNames ns).utf8ByteSize ≤ longestPath)
    ⟨fun ⟨h₁, h₂, h₃⟩ => ⟨h₁, h₂, h₃⟩, fun ⟨h₁, h₂, h₃⟩ => ⟨h₁, h₂, h₃⟩⟩

namespace Path

lemma ofNames_append {ns : List String} (h : ns ≠ []) (n : String) :
    ofNames (ns ++ [n]) = ofNames ns ++ "/" ++ n := by
  rw [ofNames, String.intercalate_append_of_ne_nil h (by simp), String.intercalate_singleton, ofNames]

lemma toList_ofNames (ns : List String) :
    (ofNames ns).toList = ['/'].intercalate (ns.map String.toList) := by
  rw [ofNames, String.toList_intercalate]
  rfl

lemma names_ofNames {ns : List String} (hne : ns ≠ []) (h : ∀ n ∈ ns, IsPlain n) :
    names (ofNames ns) = ns := by
  rw [names, stringPieces, toList_ofNames, pieces_intercalate (by simpa using hne)]
  · simp
  · intro w hw
    obtain ⟨n, hn, rfl⟩ := List.mem_map.mp hw
    exact (h n hn).no_slash

lemma names_of_target? {path last : String} {before : List String}
    (h : target? path = some (before, last)) :
    ∃ rest, names path = before ++ last :: rest ∧ (∀ n ∈ rest, n = "") ∧ last ≠ "" := by
  rw [target?] at h
  have hsplit := List.takeWhile_append_dropWhile (p := (· == "")) (l := (names path).reverse)
  cases hd : (names path).reverse.dropWhile (· == "") with
  | nil => simp [hd] at h
  | cons n ns =>
    obtain ⟨rfl, rfl⟩ : ns.reverse = before ∧ n = last := by simpa [hd] using h
    refine ⟨((names path).reverse.takeWhile (· == "")).reverse, ?_, ?_, ?_⟩
    · rw [hd] at hsplit
      have hr := congrArg List.reverse hsplit
      simpa using hr.symm
    · intro m hm
      simpa using List.mem_takeWhile_imp (List.mem_reverse.mp hm)
    · rintro rfl
      have hhead := List.head?_dropWhile_not (· == "") (names path).reverse
      simp [hd] at hhead

section Target

variable {ns : List String} {n : String} (h : ∀ m ∈ ns ++ [n], IsPlain m)

include h

lemma plain_last : IsPlain n := h n (by simp)

lemma plain_init : ∀ m ∈ ns, IsPlain m := fun m hm => h m (by simp [hm])

lemma target?_ofNames : target? (ofNames (ns ++ [n])) = some (ns, n) := by
  have hn : (n == "") = false := by simpa using (plain_last h).ne_empty
  rw [target?, names_ofNames (by simp) h, List.reverse_append, List.reverse_singleton,
    List.singleton_append, List.dropWhile_cons_of_neg (by simp [hn])]
  simp

lemma endsInSlash_ofNames : endsInSlash (ofNames (ns ++ [n])) = false := by
  rw [endsInSlash, names_ofNames (by simp) h]
  simpa using (plain_last h).ne_empty

end Target

/-! ### The directories around a path -/

lemma shortenings_cons {n : String} (hn : IsPlain n) (ns : List String) :
    shortenings (n :: ns) = (n :: ns) :: shortenings ns := by
  cases ns with
  | nil => simp [shortenings, hn.ne_empty]
  | cons m ns => simp [shortenings, isIdle, hn.ne_empty, hn.ne_dot]

def prefixes (ns : List String) : List String :=
  (shortenings ns.reverse).map fun ms => ofNames ms.reverse

lemma prefixes_append {n : String} (hn : IsPlain n) (ns : List String) :
    prefixes (ns ++ [n]) = ofNames (ns ++ [n]) :: prefixes ns := by
  simp [prefixes, shortenings_cons hn]

lemma directories_ofNames {ns : List String} {n : String} (h : ∀ m ∈ ns ++ [n], IsPlain m) :
    directories (ofNames (ns ++ [n])) = prefixes ns := by
  rw [directories, names_ofNames (by simp) h, prefixes]
  simp [shortenings_cons (plain_last h)]

lemma ofNames_names (path : String) : ofNames (names path) = path := by
  apply String.toList_injective
  rw [toList_ofNames, names, stringPieces]
  simpa [Function.comp_def] using intercalate_pieces '/' path.toList

lemma intercalate_prefix {α : Type} (separator : List α) (ws xs : List (List α)) :
    separator.intercalate ws <+: separator.intercalate (ws ++ xs) := by
  induction ws with
  | nil => simp
  | cons w ws ih =>
    cases ws with
    | nil => cases xs <;> simp [List.intercalate_cons_cons]
    | cons x ws => simpa [List.intercalate_cons_cons] using ih

lemma shortenings_suffix {ns ms : List String} (h : ms ∈ shortenings ns) : ms <:+ ns := by
  fun_induction shortenings ns with
  | case1 => simp at h
  | case2 => simp at h
  | case3 n hn => simp_all
  | case4 n m ns hi ih => exact (ih h).trans (List.suffix_cons n _)
  | case5 n m ns hi ih =>
    rcases List.mem_cons.mp h with rfl | h
    · exact List.suffix_refl _
    · exact (ih h).trans (List.suffix_cons n _)

lemma directories_cut {path around : String} (h : around ∈ directories path) :
    around.toList <+: path.toList := by
  obtain ⟨ns, hns, rfl⟩ := List.mem_map.mp h
  have hs := (shortenings_suffix (List.mem_of_mem_tail hns)).reverse
  rw [List.reverse_reverse] at hs
  obtain ⟨rest, hr⟩ := hs
  have hp := intercalate_prefix ['/'] (ns.reverse.map String.toList) (rest.map String.toList)
  rw [← List.map_append, hr, ← toList_ofNames, ← toList_ofNames, ofNames_names] at hp
  exact hp

/-! ### What can be said against a path -/

lemma mem_intercalate {c separator : Char} (hc : c ≠ separator) (ws : List (List Char)) :
    c ∈ [separator].intercalate ws ↔ ∃ w ∈ ws, c ∈ w := by
  induction ws with
  | nil => simp
  | cons w ws ih =>
    cases ws with
    | nil => simp
    | cons x ws =>
      rw [List.intercalate_cons_cons, List.mem_append, List.mem_append, ih]
      simp [hc]

lemma objection?_ofNames {ns : List String} (hne : ns ≠ []) (h : ∀ n ∈ ns, IsPlain n) :
    objection? (ofNames ns) = none ↔
      (∀ n ∈ ns, '\x00' ∉ n.toList) ∧ (ofNames ns).utf8ByteSize ≤ longestPath := by
  have hempty : ofNames ns ≠ "" := by
    intro he
    have hnames := names_ofNames hne h
    rw [he] at hnames
    exact (h "" (hnames ▸ List.mem_singleton.mpr rfl)).ne_empty rfl
  have hnul : (ofNames ns).toList.contains '\x00' = true ↔ ∃ n ∈ ns, '\x00' ∈ n.toList := by
    rw [List.contains_iff_mem, toList_ofNames, mem_intercalate (by decide)]
    simp
  rw [objection?]
  split
  · next hc =>
    obtain ⟨n, hn, hm⟩ := hnul.mp hc
    simp only [reduceCtorEq, false_iff, not_and]
    exact fun hall => absurd hm (hall n hn)
  · next hc =>
    have hall : ∀ n ∈ ns, '\x00' ∉ n.toList := fun n hn hm => hc (hnul.mpr ⟨n, hn, hm⟩)
    have hfalse : (ofNames ns).isEmpty = false := by simpa using hempty
    simp only [hfalse, Bool.false_eq_true, if_false, ite_eq_right_iff, reduceCtorEq, imp_false,
      Nat.not_lt]
    exact ⟨fun hl => ⟨hall, hl⟩, fun hl => hl.2⟩

end Path

namespace Fits

variable {ns : List String} {n : String}

lemma iff_objection? (hne : ns ≠ []) (h : ∀ n ∈ ns, IsPlain n) :
    Fits ns ↔ Path.objection? (Path.ofNames ns) = none ∧ ∀ n ∈ ns, n.utf8ByteSize ≤ longestName := by
  rw [Path.objection?_ofNames hne h]
  constructor
  · intro hf
    exact ⟨⟨hf.nul, hf.path⟩, hf.name⟩
  · rintro ⟨⟨hnul, hpath⟩, hname⟩
    exact ⟨hnul, hname, hpath⟩

lemma init (h : Fits (ns ++ [n])) : Fits ns where
  nul m hm := h.nul m (by simp [hm])
  name m hm := h.name m (by simp [hm])
  path := by
    by_cases hne : ns = []
    · subst hne
      simp [Path.ofNames]
    · have hp := h.path
      rw [Path.ofNames_append hne, String.utf8ByteSize_append, String.utf8ByteSize_append] at hp
      omega

end Fits

end Highlight.Files
