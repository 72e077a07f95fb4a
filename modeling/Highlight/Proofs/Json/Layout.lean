import Highlight.Proofs.Json.Printer

/-! The layout of printed JSON. -/

namespace Highlight

namespace Document

mutual

def emptied : Document → Document
  | .text _ => .text ""
  | .list ds => .list (emptiedItems ds)
  | .record ms => .record (emptiedMembers ms)

def emptiedItems : List Document → List Document
  | [] => []
  | d :: ds => emptied d :: emptiedItems ds

def emptiedMembers : List (String × Document) → List (String × Document)
  | [] => []
  | (_, d) :: ms => ("", emptied d) :: emptiedMembers ms

end

end Document

namespace Json

open Document

/-! ### Control characters -/

lemma le_of_mem_escape {c d : Char} (h : d ∈ escape c) : 0x20 ≤ d.toNat := by
  rcases escape_cases c with ⟨hc, hp⟩ | ⟨e, es, hc, he, hes⟩
  · rw [hc, List.mem_singleton] at h
    exact h ▸ hp.2.2
  · rw [hc, List.mem_cons, List.mem_cons] at h
    rcases h with rfl | rfl | h
    · decide
    · exact he
    · exact (hes d h).2.2

lemma le_of_mem_quoted {s : String} {c : Char} (h : c ∈ quoted s) : 0x20 ≤ c.toNat := by
  rw [quoted, List.mem_cons, List.mem_append, List.mem_singleton] at h
  rcases h with rfl | h | rfl
  · decide
  · obtain ⟨d, -, hd⟩ := List.mem_flatMap.mp h
    exact le_of_mem_escape hd
  · decide

/-! ### White space outside strings -/

def Place.isOutside : Place → Bool
  | .outside => true
  | .inside | .escaped => false

lemma Place.isOutside_iff {p : Place} : p.isOutside = true ↔ p = .outside := by
  cases p <;> simp [isOutside]

def Place.next (p : Place) (c : Char) : Place := (Nesting.next ⟨p, 0, 0⟩ c).place

def squeezed (p : Place) : List Char → List Char
  | [] => []
  | c :: cs =>
    if p.isOutside && c.isWhitespace then squeezed p cs else c :: squeezed (p.next c) cs

lemma squeezed_verbatim {cs : List Char} (h : ∀ c ∈ cs, IsVerbatim c) (rest : List Char) :
    squeezed .inside (cs ++ rest) = cs ++ squeezed .inside rest := by
  induction cs with
  | nil => rfl
  | cons c cs ih =>
    obtain ⟨hq, hb, -⟩ := h c (by simp)
    have hc : Place.next .inside c = .inside := by simp [Place.next, Nesting.next, hq, hb]
    rw [List.cons_append, squeezed, hc, ih fun d hd => h d (by simp [hd])]
    rfl

lemma squeezed_escape (c : Char) (rest : List Char) :
    squeezed .inside (escape c ++ rest) = escape c ++ squeezed .inside rest := by
  rcases escape_cases c with ⟨hc, hp⟩ | ⟨d, ds, hc, -, hds⟩
  · rw [hc, squeezed_verbatim (by simpa using hp)]
  · have hb : squeezed .inside ('\\' :: d :: (ds ++ rest)) = '\\' :: d :: squeezed .inside (ds ++ rest) := rfl
    rw [hc, List.cons_append, List.cons_append, hb, squeezed_verbatim hds]
    rfl

lemma squeezed_quoted (s : String) (rest : List Char) :
    squeezed .outside (quoted s ++ rest) = quoted s ++ squeezed .outside rest := by
  have hs (cs : List Char) (rest : List Char) :
      squeezed .inside (cs.flatMap escape ++ rest) = cs.flatMap escape ++ squeezed .inside rest := by
    induction cs with
    | nil => rfl
    | cons c cs ih => rw [List.flatMap_cons, List.append_assoc, squeezed_escape, ih, List.append_assoc]
  have hq (cs : List Char) : squeezed .outside ('"' :: cs) = '"' :: squeezed .inside cs := rfl
  have he : squeezed .inside ('"' :: rest) = '"' :: squeezed .outside rest := rfl
  rw [quoted, List.cons_append, hq, List.append_assoc, hs, List.singleton_append, he]
  simp

lemma squeezed_newline (n : ℕ) (rest : List Char) :
    squeezed .outside (newline n ++ rest) = squeezed .outside rest := by
  have ht : squeezed .outside (List.replicate n '\t' ++ rest) = squeezed .outside rest := by
    induction n with
    | zero => rfl
    | succ n ih => exact ih
  exact ht

lemma squeezed_member (k : String) (cs : List Char) :
    squeezed .outside (quoted k ++ ':' :: ' ' :: cs) = quoted k ++ ':' :: squeezed .outside cs :=
  squeezed_quoted k _

mutual

theorem squeezed_indented (d : Document) (n : ℕ) (rest : List Char) :
    squeezed .outside (indented n d ++ rest) = compact d ++ squeezed .outside rest := by
  have hmark {c : Char} (hc : c ∈ ['[', ']', '\x7b', '\x7d']) (cs : List Char) :
      squeezed .outside (c :: cs) = c :: squeezed .outside cs := by
    simp only [List.mem_cons, List.not_mem_nil, or_false] at hc
    rcases hc with rfl | rfl | rfl | rfl <;> rfl
  cases d with
  | text s => exact squeezed_quoted s rest
  | list ds =>
    cases ds with
    | nil => rfl
    | cons d ds =>
      rw [indented, List.cons_append, hmark (by simp), List.append_assoc, List.append_assoc,
        squeezed_items (d :: ds) (n + 1), squeezed_newline, List.singleton_append, hmark (by simp), compact,
        List.cons_append, List.append_assoc]
      rfl
  | record ms =>
    cases ms with
    | nil => rfl
    | cons m ms =>
      rw [indented, List.cons_append, hmark (by simp), List.append_assoc, List.append_assoc,
        squeezed_members (m :: ms) (n + 1), squeezed_newline, List.singleton_append, hmark (by simp), compact,
        List.cons_append, List.append_assoc]
      rfl

theorem squeezed_items (ds : List Document) (n : ℕ) (rest : List Char) :
    squeezed .outside (indentedItems n ds ++ rest) = compactItems ds ++ squeezed .outside rest := by
  match ds with
  | [] => rfl
  | [d] => rw [indentedItems, List.append_assoc, squeezed_newline, squeezed_indented d n, compactItems]
  | d :: e :: ds =>
    have hc (cs : List Char) : squeezed .outside (',' :: cs) = ',' :: squeezed .outside cs := rfl
    rw [indentedItems, List.append_assoc, squeezed_newline, List.append_assoc, squeezed_indented d n,
      List.cons_append, hc, squeezed_items (e :: ds) n, compactItems, List.append_assoc, List.cons_append]

theorem squeezed_members (ms : List (String × Document)) (n : ℕ) (rest : List Char) :
    squeezed .outside (indentedMembers n ms ++ rest) = compactMembers ms ++ squeezed .outside rest := by
  match ms with
  | [] => rfl
  | [(k, d)] =>
    rw [indentedMembers, List.append_assoc, squeezed_newline, List.append_assoc, List.cons_append,
      List.cons_append, squeezed_member, squeezed_indented d n, compactMembers, List.append_assoc,
      List.cons_append]
  | (k, d) :: m :: ms =>
    have hc (cs : List Char) : squeezed .outside (',' :: cs) = ',' :: squeezed .outside cs := rfl
    rw [indentedMembers, List.append_assoc, squeezed_newline, List.append_assoc, List.cons_append,
      List.cons_append, squeezed_member, List.append_assoc, squeezed_indented d n, List.cons_append, hc,
      squeezed_members (m :: ms) n, compactMembers]
    simp

end

/-! ### Lines -/

def isClosing (c : Char) : Bool := c = ']' ∨ c = '\x7d'

/-- A text that begins with a tab for each of so many open brackets, less one before a closing bracket, and goes on
with something else than white space. -/
def Aligned (opened : ℕ) (cs : List Char) : Prop :=
  ∃ tabs c rest, cs = List.replicate tabs '\t' ++ c :: rest ∧ c.isWhitespace = false ∧
    opened = tabs + if isClosing c then 1 else 0

/-- Line breaks stand outside strings and behind something else than white space, and what follows them is aligned.
`blank` tells whether white space stands before the text. -/
def LaidOut (s : Nesting) (blank : Bool) : List Char → Prop
  | [] => blank = false
  | c :: cs => (c = '\n' → s.place.isOutside ∧ blank = false ∧ Aligned s.opened cs) ∧
      LaidOut (s.next c) c.isWhitespace cs

lemma LaidOut.cons {s : Nesting} {b : Bool} {c : Char} {cs : List Char} (hc : c ≠ '\n')
    (h : LaidOut (s.next c) c.isWhitespace cs) : LaidOut s b (c :: cs) :=
  ⟨fun hn => absurd hn hc, h⟩

lemma LaidOut.append {s : Nesting} {b : Bool} {cs : List Char} {c : Char} {rest : List Char}
    (hcs : ∀ d ∈ cs ++ [c], d ≠ '\n') (h : LaidOut ((cs ++ [c]).foldl Nesting.next s) c.isWhitespace rest) :
    LaidOut s b ((cs ++ [c]) ++ rest) := by
  induction cs generalizing s b with
  | nil => exact .cons (hcs c (by simp)) h
  | cons d cs ih => exact .cons (hcs d (by simp)) (ih (fun e he => hcs e (by simp [he])) h)

def LaidOutAt (k : ℕ) (blank : Bool) (cs : List Char) : Prop := ∀ m, LaidOut ⟨.outside, k, m⟩ blank cs

variable {k : ℕ} {b : Bool} {rest : List Char}

lemma laidOut_quoted (s : String) (h : LaidOutAt k false rest) :
    LaidOutAt k b (quoted s ++ rest) := by
  intro m
  have hq : quoted s = ('"' :: s.toList.flatMap escape) ++ ['"'] := rfl
  have hn : ∀ d ∈ quoted s, d ≠ '\n' := by
    rintro d hd rfl
    exact absurd (le_of_mem_quoted hd) (by decide)
  have hf := foldl_quoted s k m
  rw [hq] at hn hf ⊢
  apply LaidOut.append hn
  rw [hf]
  exact h m

lemma laidOut_newline {n : ℕ} {c : Char} (hc : c.isWhitespace = false)
    (hk : k = n + if isClosing c then 1 else 0) (h : LaidOutAt k true (c :: rest)) :
    LaidOutAt k false (newline n ++ c :: rest) := by
  intro m
  have ht (n : ℕ) : LaidOut ⟨.outside, k, m⟩ true (List.replicate n '\t' ++ c :: rest) := by
    induction n with
    | zero => exact h m
    | succ n ih =>
      rw [List.replicate_succ, List.cons_append]
      exact .cons (by decide) ih
  exact ⟨fun _ => ⟨rfl, rfl, n, c, rest, rfl, hc, hk⟩, ht n⟩

lemma laidOut_opening {c : Char} (hc : c = '[' ∨ c = '\x7b') (h : LaidOutAt (k + 1) false rest) :
    LaidOutAt k b (c :: rest) := by
  intro m
  rcases hc with rfl | rfl <;> exact .cons (by decide) (h _)

lemma laidOut_closing {c : Char} (hc : c = ']' ∨ c = '\x7d') (h : LaidOutAt k false rest) :
    LaidOutAt (k + 1) b (c :: rest) := by
  intro m
  rcases hc with rfl | rfl <;> exact .cons (by decide) (h _)

lemma laidOut_comma (h : LaidOutAt k false rest) : LaidOutAt k b (',' :: rest) :=
  fun m => .cons (by decide) (h m)

lemma laidOut_colon (h : LaidOutAt k true rest) : LaidOutAt k b (':' :: ' ' :: rest) :=
  fun m => .cons (by decide) (.cons (by decide) (h m))

lemma exists_indented (d : Document) (n : ℕ) :
    ∃ c cs, indented n d = c :: cs ∧ c.isWhitespace = false ∧ isClosing c = false := by
  cases d with
  | text s => exact ⟨_, _, rfl, rfl, rfl⟩
  | list ds => cases ds <;> exact ⟨_, _, rfl, rfl, rfl⟩
  | record ms => cases ms <;> exact ⟨_, _, rfl, rfl, rfl⟩

lemma laidOut_line {cs : List Char}
    (hcs : ∃ c ds, cs = c :: ds ∧ c.isWhitespace = false ∧ isClosing c = false)
    (h : LaidOutAt k true (cs ++ rest)) : LaidOutAt k false (newline k ++ (cs ++ rest)) := by
  obtain ⟨c, ds, rfl, hc, hb⟩ := hcs
  exact laidOut_newline hc (by simp [hb]) h

lemma laidOut_lastLine {c : Char} (hc : c = ']' ∨ c = '\x7d') (h : LaidOutAt k false rest) :
    LaidOutAt (k + 1) false (newline k ++ c :: rest) := by
  apply laidOut_newline _ _ (laidOut_closing hc h)
  · rcases hc with rfl | rfl <;> rfl
  · rcases hc with rfl | rfl <;> rfl

mutual

theorem laidOut_indented (d : Document) (k : ℕ) {b : Bool} {rest : List Char} (h : LaidOutAt k false rest) :
    LaidOutAt k b (indented k d ++ rest) := by
  cases d with
  | text s => exact laidOut_quoted s h
  | list ds =>
    cases ds with
    | nil => exact laidOut_opening (.inl rfl) (laidOut_closing (.inl rfl) h)
    | cons d ds =>
      rw [indented, List.cons_append, List.append_assoc, List.append_assoc]
      exact laidOut_opening (.inl rfl) (laidOut_items (d :: ds) (k + 1) (laidOut_lastLine (.inl rfl) h))
  | record ms =>
    cases ms with
    | nil => exact laidOut_opening (.inr rfl) (laidOut_closing (.inr rfl) h)
    | cons m ms =>
      rw [indented, List.cons_append, List.append_assoc, List.append_assoc]
      exact laidOut_opening (.inr rfl) (laidOut_members (m :: ms) (k + 1) (laidOut_lastLine (.inr rfl) h))

theorem laidOut_items (ds : List Document) (k : ℕ) {rest : List Char} (h : LaidOutAt k false rest) :
    LaidOutAt k false (indentedItems k ds ++ rest) := by
  match ds with
  | [] => exact h
  | [d] =>
    rw [indentedItems, List.append_assoc]
    exact laidOut_line (exists_indented d k) (laidOut_indented d k h)
  | d :: e :: ds =>
    rw [indentedItems, List.append_assoc, List.append_assoc, List.cons_append]
    exact laidOut_line (exists_indented d k)
      (laidOut_indented d k (laidOut_comma (laidOut_items (e :: ds) k h)))

theorem laidOut_members (ms : List (String × Document)) (k : ℕ) {rest : List Char}
    (h : LaidOutAt k false rest) : LaidOutAt k false (indentedMembers k ms ++ rest) := by
  have hkey (l : String) : ∃ c cs, quoted l = c :: cs ∧ c.isWhitespace = false ∧ isClosing c = false :=
    ⟨_, _, rfl, rfl, rfl⟩
  match ms with
  | [] => exact h
  | [(l, d)] =>
    rw [indentedMembers, List.append_assoc, List.append_assoc, List.cons_append, List.cons_append]
    exact laidOut_line (hkey l) (laidOut_quoted l (laidOut_colon (laidOut_indented d k h)))
  | (l, d) :: m :: ms =>
    rw [indentedMembers, List.append_assoc, List.append_assoc, List.cons_append, List.cons_append,
      List.append_assoc, List.cons_append]
    exact laidOut_line (hkey l) (laidOut_quoted l (laidOut_colon (laidOut_indented d k
      (laidOut_comma (laidOut_members (m :: ms) k h)))))

end

structure IsLine (text before line : List Char) : Prop where
  exists_after : ∃ after, text = before ++ (line ++ after) ∧ ∀ c ∈ after.head?, c = '\n'
  starts : ∀ c ∈ before.getLast?, c = '\n'
  unbroken : '\n' ∉ line

lemma LaidOut.drop {s : Nesting} {b : Bool} {front cs : List Char} (h : LaidOut s b (front ++ cs)) :
    LaidOut (front.foldl Nesting.next s) ((front.getLast?.map Char.isWhitespace).getD b) cs := by
  induction front generalizing s b with
  | nil => exact h
  | cons c front ih =>
    have hc := ih h.2
    rw [List.getLast?_cons]
    cases hl : front.getLast? <;> simpa [hl] using hc

lemma next_newline {s : Nesting} (h : s.place = .outside) : s.next '\n' = s := by
  obtain ⟨place, opened, most⟩ := s
  cases h
  rfl

lemma Aligned.line {opened : ℕ} {line after : List Char} (h : Aligned opened (line ++ after))
    (hl : '\n' ∉ line) (ha : ∀ c ∈ after.head?, c = '\n') : Aligned opened line := by
  obtain ⟨tabs, c, rest, he, hc, ho⟩ := h
  have hne : ∀ d ∈ List.replicate tabs '\t' ++ [c], d ≠ '\n' := by
    intro d hd
    rcases List.mem_append.mp hd with hd | hd
    · exact List.eq_of_mem_replicate hd ▸ by decide
    · rintro rfl
      obtain rfl := List.mem_singleton.mp hd
      cases hc
  have hline : (line ++ after).takeWhile (· ≠ '\n') = line := by
    rw [List.takeWhile_append_of_pos (by simpa using fun d hd => ne_of_mem_of_not_mem hd hl)]
    cases after with
    | nil => simp
    | cons a after => simp [ha a rfl]
  refine ⟨tabs, c, rest.takeWhile (· ≠ '\n'), ?_, hc, ho⟩
  have hs : List.replicate tabs '\t' ++ c :: rest = (List.replicate tabs '\t' ++ [c]) ++ rest := by simp
  rw [he, hs, List.takeWhile_append_of_pos (by simpa using hne)] at hline
  simpa using hline.symm

lemma laidOut_document (d : Document) : LaidOut {} false ('\n' :: indented 0 d) := by
  have hend : LaidOutAt 0 false [] := fun m => rfl
  have hline := laidOut_line (exists_indented d 0) (laidOut_indented d 0 (b := true) hend) 0
  rwa [List.append_nil] at hline

section

variable {text before line : List Char} (h : LaidOut {} false ('\n' :: text)) (hl : IsLine text before line)

include hl

lemma IsLine.exists_front : ∃ front, '\n' :: before = front ++ ['\n'] := by
  apply List.getLast?_eq_some_iff.mp
  rw [List.getLast?_cons]
  cases hb : before.getLast? with
  | none => rfl
  | some c => rw [Option.getD_some, hl.starts c hb]

include h

lemma LaidOut.line_starts : (before.foldl Nesting.next {}).place = .outside ∧
    Aligned (before.foldl Nesting.next {}).opened line := by
  obtain ⟨front, hf⟩ := hl.exists_front
  obtain ⟨⟨after, rfl, ha⟩, -, hn⟩ := hl
  have hbreak : LaidOut {} false (front ++ '\n' :: (line ++ after)) := by
    rwa [← List.cons_append, hf, List.append_assoc] at h
  obtain ⟨hplace, -, haligned⟩ := hbreak.drop.1 rfl
  rw [Place.isOutside_iff] at hplace
  have hstate : before.foldl Nesting.next {} = front.foldl Nesting.next {} := by
    have hfold := congrArg (List.foldl Nesting.next {}) hf
    rwa [List.foldl_append, List.foldl_cons, List.foldl_cons, List.foldl_nil, next_newline hplace,
      next_newline rfl] at hfold
  rw [hstate]
  exact ⟨hplace, haligned.line hn ha⟩

lemma LaidOut.line_ends : ∀ c ∈ line.getLast?, c.isWhitespace = false := by
  intro c hc
  obtain ⟨⟨after, rfl, ha⟩, -, -⟩ := hl
  have hend : LaidOut {} false (('\n' :: before ++ line) ++ after) := by
    rwa [List.append_assoc]
  have hlast : ('\n' :: before ++ line).getLast? = some c := by
    rw [List.getLast?_append, hc, Option.some_or]
  have hafter := hend.drop
  rw [hlast] at hafter
  cases after with
  | nil => exact hafter
  | cons a after => exact (hafter.1 (ha a rfl)).2.1

end

/-! ### What strings do not add -/

lemma count_quoted {c : Char} (hc : c.toNat < 0x20) (s : String) : (quoted s).count c = 0 :=
  List.count_eq_zero_of_not_mem fun h => Nat.not_lt_of_le (le_of_mem_quoted h) hc

mutual

theorem count_emptied {c : Char} (hc : c.toNat < 0x20) (d : Document) (n : ℕ) :
    (indented n d.emptied).count c = (indented n d).count c := by
  cases d with
  | text s => rw [emptied, indented, indented, count_quoted hc, count_quoted hc]
  | list ds =>
    cases ds with
    | nil => rfl
    | cons d ds =>
      have hi := count_emptiedItems hc (d :: ds) (n + 1)
      rw [emptiedItems] at hi
      rw [emptied, emptiedItems, indented, indented]
      simp only [List.count_append, List.count_cons, hi]
  | record ms =>
    cases ms with
    | nil => rfl
    | cons m ms =>
      obtain ⟨k, d⟩ := m
      have hi := count_emptiedMembers hc ((k, d) :: ms) (n + 1)
      rw [emptiedMembers] at hi
      rw [emptied, emptiedMembers, indented, indented]
      simp only [List.count_append, List.count_cons, hi]

theorem count_emptiedItems {c : Char} (hc : c.toNat < 0x20) (ds : List Document) (n : ℕ) :
    (indentedItems n (emptiedItems ds)).count c = (indentedItems n ds).count c := by
  match ds with
  | [] => rfl
  | [d] =>
    rw [emptiedItems, emptiedItems, indentedItems, indentedItems, List.count_append, List.count_append,
      count_emptied hc d n]
  | d :: e :: ds =>
    have hi := count_emptiedItems hc (e :: ds) n
    rw [emptiedItems] at hi
    rw [emptiedItems, emptiedItems, indentedItems, indentedItems]
    simp only [List.count_append, List.count_cons, count_emptied hc d n, hi]

theorem count_emptiedMembers {c : Char} (hc : c.toNat < 0x20) (ms : List (String × Document)) (n : ℕ) :
    (indentedMembers n (emptiedMembers ms)).count c = (indentedMembers n ms).count c := by
  match ms with
  | [] => rfl
  | [(k, d)] =>
    rw [emptiedMembers, emptiedMembers, indentedMembers, indentedMembers]
    simp only [List.count_append, List.count_cons, count_emptied hc d n, count_quoted hc]
  | (k, d) :: (l, e) :: ms =>
    have hi := count_emptiedMembers hc ((l, e) :: ms) n
    rw [emptiedMembers] at hi
    rw [emptiedMembers, emptiedMembers, indentedMembers, indentedMembers]
    simp only [List.count_append, List.count_cons, count_emptied hc d n, count_quoted hc, hi]

end

end Json

end Highlight
