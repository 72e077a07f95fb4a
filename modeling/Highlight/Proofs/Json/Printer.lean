import Highlight.Json.Printer
import Highlight.Proofs.Grammar.Document
import Highlight.Proofs.Json.Tree

/-! The text that a document is printed as: it spells the document as a value, and opens as many brackets
at once as the value has levels. -/

namespace Highlight

namespace Document

open Json (Value)

mutual

def value : Document → Value
  | .text s => .text s
  | .list ds => .array (values ds)
  | .record ms => .object (memberValues ms)

def values : List Document → List Value
  | [] => []
  | d :: ds => value d :: values ds

def memberValues : List (String × Document) → List (String × Value)
  | [] => []
  | (k, d) :: ms => (k, value d) :: memberValues ms

end

mutual

theorem tree_value (d : Document) : d.value.tree = d.tree := by
  cases d with
  | text s => rfl
  | list ds => rw [value, Value.tree, trees_values ds, tree]
  | record ms => rw [value, Value.tree, memberTrees_memberValues ms, tree]

theorem trees_values (ds : List Document) : Value.trees (values ds) = trees ds := by
  cases ds with
  | nil => rfl
  | cons d ds => rw [values, Value.trees, tree_value d, trees_values ds, trees]

theorem memberTrees_memberValues (ms : List (String × Document)) :
    Value.memberTrees (memberValues ms) = textKeys (memberTrees ms) := by
  cases ms with
  | nil => rfl
  | cons m ms =>
    obtain ⟨k, d⟩ := m
    rw [memberValues, Value.memberTrees, tree_value d, memberTrees_memberValues ms]
    rfl

end

end Document

namespace Json

open Bytes Document

/-! ### Strings -/

lemma hexByte?_hexDigit (n : ℕ) : (Digits.hexDigit n).toNat < 0x80 ∧
    hexByte? (UInt8.ofNat (Digits.hexDigit n).toNat) = some (n % 16) := by
  have hm : ∀ m : Fin 16, (Nat.digitChar m).toNat < 0x80 ∧
      hexByte? (UInt8.ofNat (Nat.digitChar m).toNat) = some m.val := by decide
  exact hm ⟨n % 16, Nat.mod_lt n (by decide)⟩

lemma hexQuad_control {n : ℕ} (h : n < 0x20) :
    HexQuad (ofChars (['0', '0'] ++ Digits.hexPair n)) n := by
  obtain ⟨hlt1, h1⟩ := hexByte?_hexDigit (n / 16)
  obtain ⟨hlt2, h2⟩ := hexByte?_hexDigit n
  refine ⟨0x30, 0x30, _, _, 0, 0, n / 16 % 16, n % 16, ?_, rfl, rfl, h1, h2, by omega⟩
  simp [Digits.hexPair, utf8EncodeChar_ascii hlt1, utf8EncodeChar_ascii hlt2]
  rfl

lemma spellsChar_escape (c : Char) : SpellsChar c (ofChars (escape c)) := by
  unfold escape
  split
  · exact .short (b := 0x22) (x := 0x22) rfl
  · exact .short (b := 0x5c) (x := 0x5c) rfl
  · exact .short (b := 0x62) (x := 0x08) rfl
  · exact .short (b := 0x66) (x := 0x0c) rfl
  · exact .short (b := 0x6e) (x := 0x0a) rfl
  · exact .short (b := 0x72) (x := 0x0d) rfl
  · exact .short (b := 0x74) (x := 0x09) rfl
  · next hq hb _ _ _ _ _ =>
    by_cases hc : c.toNat < 0x20
    · rw [if_pos hc]
      exact .unit (hexQuad_control hc)
    · rw [if_neg hc]
      simpa using SpellsChar.plain hq hb (Nat.le_of_not_lt hc)

lemma spellsChars_escape (cs : List Char) : SpellsChars cs (ofChars (cs.flatMap escape)) := by
  induction cs with
  | nil => exact .nil
  | cons c cs ih =>
    rw [List.flatMap_cons, ofChars_append]
    exact .cons (spellsChar_escape c) ih

lemma spellsText_quoted (s : String) : SpellsText s (ofChars (quoted s)) := by
  refine ⟨_, spellsChars_escape s.toList, ?_⟩
  rw [quoted, ofChars_cons, ofChars_append]
  rfl

def IsVerbatim (c : Char) : Prop := c ≠ '"' ∧ c ≠ '\\' ∧ 0x20 ≤ c.toNat

instance : DecidablePred IsVerbatim := fun c => inferInstanceAs (Decidable (c ≠ '"' ∧ _))

lemma isVerbatim_hexDigit (n : ℕ) : IsVerbatim (Digits.hexDigit n) := by
  have hm : ∀ m : Fin 16, IsVerbatim (Nat.digitChar m) := by decide
  exact hm ⟨n % 16, Nat.mod_lt n (by decide)⟩

lemma escape_cases (c : Char) : (escape c = [c] ∧ IsVerbatim c) ∨
    ∃ d ds, escape c = '\\' :: d :: ds ∧ 0x20 ≤ d.toNat ∧ ∀ e ∈ ds, IsVerbatim e := by
  unfold escape
  split
  case h_8 hq hb _ _ _ _ _ =>
    by_cases hc : c.toNat < 0x20
    · rw [if_pos hc]
      refine .inr ⟨'u', ['0', '0'] ++ Digits.hexPair c.toNat, rfl, by decide, ?_⟩
      have hzero : IsVerbatim '0' := by decide
      simp [Digits.hexPair, hzero, isVerbatim_hexDigit]
    · rw [if_neg hc]
      exact .inl ⟨rfl, hq, hb, Nat.le_of_not_lt hc⟩
  all_goals exact .inr ⟨_, [], rfl, by decide, by simp⟩

/-! ### Values -/

lemma blank_newline (depth : ℕ) : Blank (ofChars (newline depth)) := by
  have hc : ∀ c ∈ newline depth, c = '\n' ∨ c = '\t' := by
    intro c hc
    rcases List.mem_cons.mp hc with rfl | hc
    · exact .inl rfl
    · exact .inr (List.eq_of_mem_replicate hc)
  have hlt : ∀ c ∈ newline depth, c.toNat < 0x80 := by
    intro c h
    rcases hc c h with rfl | rfl <;> decide
  intro b hb
  rw [ofChars_ascii hlt, List.mem_map] at hb
  obtain ⟨c, h, rfl⟩ := hb
  rcases hc c h with rfl | rfl <;> rfl

mutual

theorem spells_indented (d : Document) (n : ℕ) : Spells d.value (ofChars (indented n d)) := by
  cases d with
  | text s => exact .text (spellsText_quoted s)
  | list ds =>
    cases ds with
    | nil => exact .emptyArray .nil
    | cons d ds =>
      obtain ⟨w, c, hw, hc, hs⟩ := spells_items d ds (n + 1) (blank_newline n)
      have ht : ofChars (indented n (.list (d :: ds))) = openBracket ::
          (ofChars (indentedItems (n + 1) (d :: ds)) ++ ofChars (newline n) ++ [closeBracket]) := by
        simp only [indented, ofChars_cons, ofChars_append]
        rfl
      rw [ht, hs]
      simpa [value, values] using Spells.array (blank_newline (n + 1)) (spells_indented d (n + 1)) hw hc
  | record ms =>
    cases ms with
    | nil => exact .emptyObject .nil
    | cons m ms =>
      obtain ⟨k, d⟩ := m
      obtain ⟨w, c, hw, hc, hs⟩ := spells_members k d ms (n + 1) (blank_newline n)
      have ht : ofChars (indented n (.record ((k, d) :: ms))) = openBrace ::
          (ofChars (indentedMembers (n + 1) ((k, d) :: ms)) ++ ofChars (newline n) ++
            [closeBrace]) := by
        simp only [indented, ofChars_cons, ofChars_append]
        rfl
      rw [ht, hs]
      simpa [value, memberValues] using Spells.object (blank_newline (n + 1)) (spells_member k d (n + 1)) hw hc
termination_by sizeOf d

theorem spells_items (d : Document) (ds : List Document) (n : ℕ) {u : Bytes} (hu : Blank u) :
    ∃ w c, Blank w ∧ SpellsItems (values ds) c ∧ ofChars (indentedItems n (d :: ds)) ++ u =
      ofChars (newline n) ++ (ofChars (indented n d) ++ (w ++ c)) := by
  cases ds with
  | nil => exact ⟨u, [], hu, .nil, by simp [indentedItems]⟩
  | cons e ds =>
    obtain ⟨w, c, hw, hc, hs⟩ := spells_items e ds n hu
    refine ⟨[], comma :: (ofChars (newline n) ++ (ofChars (indented n e) ++ (w ++ c))), .nil,
      .cons (blank_newline n) (spells_indented e n) hw hc, ?_⟩
    rw [← hs, indentedItems]
    simp
    rfl
termination_by sizeOf ds

theorem spells_member (k : String) (d : Document) (n : ℕ) :
    SpellsMember (k, d.value) (ofChars (quoted k ++ ':' :: ' ' :: indented n d)) := by
  have hs : Blank [0x20] := by simp [Blank, isSpace]
  have ht : ofChars (quoted k ++ ':' :: ' ' :: indented n d) =
      ofChars (quoted k) ++ ([] ++ colon :: ([0x20] ++ ofChars (indented n d))) := by
    rw [ofChars_append]
    rfl
  rw [ht]
  exact .intro (spellsText_quoted k) .nil hs (spells_indented d n)
termination_by sizeOf d + 1

theorem spells_members (k : String) (d : Document) (ms : List (String × Document)) (n : ℕ) {u : Bytes}
    (hu : Blank u) :
    ∃ w c, Blank w ∧ SpellsMembers (memberValues ms) c ∧
      ofChars (indentedMembers n ((k, d) :: ms)) ++ u =
        ofChars (newline n) ++ (ofChars (quoted k ++ ':' :: ' ' :: indented n d) ++ (w ++ c)) := by
  cases ms with
  | nil => exact ⟨u, [], hu, .nil, by simp [indentedMembers]⟩
  | cons m ms =>
    obtain ⟨l, e⟩ := m
    obtain ⟨w, c, hw, hc, hs⟩ := spells_members l e ms n hu
    refine ⟨[], comma :: (ofChars (newline n) ++
      (ofChars (quoted l ++ ':' :: ' ' :: indented n e) ++ (w ++ c))), .nil,
      .cons (blank_newline n) (spells_member l e n) hw hc, ?_⟩
    rw [← hs, indentedMembers]
    simp
    rfl
termination_by sizeOf ms

end

/-! ### Open brackets -/

inductive Place
  | outside
  | inside
  | escaped

structure Nesting where
  place : Place := .outside
  opened : ℕ := 0
  most : ℕ := 0

def Nesting.next (s : Nesting) (c : Char) : Nesting :=
  match s.place with
  | .outside =>
    if c = '[' ∨ c = '\x7b' then { s with opened := s.opened + 1, most := max s.most (s.opened + 1) }
    else if c = ']' ∨ c = '\x7d' then { s with opened := s.opened - 1 }
    else if c = '"' then { s with place := .inside }
    else s
  | .inside =>
    if c = '"' then { s with place := .outside }
    else if c = '\\' then { s with place := .escaped }
    else s
  | .escaped => { s with place := .inside }

/-- The most brackets and braces of a text that are open at once. -/
def deepest (cs : List Char) : ℕ := (cs.foldl Nesting.next {}).most

lemma foldl_verbatim {cs : List Char} (h : ∀ c ∈ cs, IsVerbatim c) (k m : ℕ) :
    cs.foldl Nesting.next ⟨.inside, k, m⟩ = ⟨.inside, k, m⟩ := by
  induction cs with
  | nil => rfl
  | cons c cs ih =>
    obtain ⟨hq, hb, -⟩ := h c (by simp)
    have hc : Nesting.next ⟨.inside, k, m⟩ c = ⟨.inside, k, m⟩ := by simp [Nesting.next, hq, hb]
    rw [List.foldl_cons, hc, ih fun d hd => h d (by simp [hd])]

lemma foldl_escape (c : Char) (k m : ℕ) :
    (escape c).foldl Nesting.next ⟨.inside, k, m⟩ = ⟨.inside, k, m⟩ := by
  rcases escape_cases c with ⟨hc, hp⟩ | ⟨d, ds, hc, -, hds⟩
  · rw [hc]
    exact foldl_verbatim (by simpa using hp) k m
  · rw [hc]
    exact foldl_verbatim hds k m

lemma foldl_quoted (s : String) (k m : ℕ) :
    (quoted s).foldl Nesting.next ⟨.outside, k, m⟩ = ⟨.outside, k, m⟩ := by
  have hs (cs : List Char) :
      (cs.flatMap escape).foldl Nesting.next ⟨.inside, k, m⟩ = ⟨.inside, k, m⟩ := by
    induction cs with
    | nil => rfl
    | cons c cs ih => rw [List.flatMap_cons, List.foldl_append, foldl_escape, ih]
  have hq : Nesting.next ⟨.outside, k, m⟩ '"' = ⟨.inside, k, m⟩ := rfl
  rw [quoted, List.foldl_cons, hq, List.foldl_append, hs]
  rfl

lemma foldl_newline (n k m : ℕ) :
    (newline n).foldl Nesting.next ⟨.outside, k, m⟩ = ⟨.outside, k, m⟩ := by
  have ht : (List.replicate n '\t').foldl Nesting.next ⟨.outside, k, m⟩ = ⟨.outside, k, m⟩ := by
    induction n with
    | zero => rfl
    | succ n ih => exact ih
  exact ht

lemma next_opening (k m : ℕ) :
    Nesting.next ⟨.outside, k, m⟩ '[' = ⟨.outside, k + 1, max m (k + 1)⟩ ∧
      Nesting.next ⟨.outside, k, m⟩ '\x7b' = ⟨.outside, k + 1, max m (k + 1)⟩ := ⟨rfl, rfl⟩

lemma next_closing (k m : ℕ) :
    Nesting.next ⟨.outside, k + 1, m⟩ ']' = ⟨.outside, k, m⟩ ∧
      Nesting.next ⟨.outside, k + 1, m⟩ '\x7d' = ⟨.outside, k, m⟩ := ⟨rfl, rfl⟩

lemma foldl_member (l : String) (cs : List Char) (k m : ℕ) :
    (quoted l ++ ':' :: ' ' :: cs).foldl Nesting.next ⟨.outside, k, m⟩ =
      cs.foldl Nesting.next ⟨.outside, k, m⟩ := by
  rw [List.foldl_append, foldl_quoted]
  rfl

mutual

theorem foldl_indented (d : Document) (n : ℕ) {k m : ℕ} (h : k ≤ m) :
    (indented n d).foldl Nesting.next ⟨.outside, k, m⟩ =
      ⟨.outside, k, max m (k + d.value.depth)⟩ := by
  -- The k brackets around the document are counted in m already, so only a deeper one raises it.
  have hk : k + 1 ≤ max m (k + 1) := Nat.le_max_right _ _
  cases d with
  | text s =>
    rw [indented, foldl_quoted]
    simp [value, Value.depth, h]
  | list ds =>
    cases ds with
    | nil => rfl
    | cons d ds =>
      rw [indented, List.foldl_cons, (next_opening k m).1, List.foldl_append, List.foldl_append,
        foldl_items d ds (n + 1) hk, foldl_newline, List.foldl_cons, (next_closing k _).1]
      simp only [List.foldl_nil, value, Value.depth, Nesting.mk.injEq, true_and]
      omega
  | record ms =>
    cases ms with
    | nil => rfl
    | cons m' ms =>
      obtain ⟨l, d⟩ := m'
      rw [indented, List.foldl_cons, (next_opening k m).2, List.foldl_append, List.foldl_append,
        foldl_members l d ms (n + 1) hk, foldl_newline, List.foldl_cons, (next_closing k _).2]
      simp only [List.foldl_nil, value, Value.depth, Nesting.mk.injEq, true_and]
      omega
termination_by sizeOf d

theorem foldl_items (d : Document) (ds : List Document) (n : ℕ) {k m : ℕ} (h : k ≤ m) :
    (indentedItems n (d :: ds)).foldl Nesting.next ⟨.outside, k, m⟩ =
      ⟨.outside, k, max m (k + Value.itemsDepth (values (d :: ds)))⟩ := by
  cases ds with
  | nil =>
    rw [indentedItems, List.foldl_append, foldl_newline, foldl_indented d n h]
    simp [values, Value.itemsDepth]
  | cons e ds =>
    have hc (m : ℕ) : Nesting.next ⟨.outside, k, m⟩ ',' = ⟨.outside, k, m⟩ := rfl
    have hm : k ≤ max m (k + d.value.depth) := Nat.le_trans h (Nat.le_max_left _ _)
    rw [indentedItems, List.foldl_append, foldl_newline, List.foldl_append, foldl_indented d n h,
      List.foldl_cons, hc, foldl_items e ds n hm]
    simp only [values, Value.itemsDepth, Nesting.mk.injEq, true_and]
    omega
termination_by sizeOf d + sizeOf ds + 1

theorem foldl_members (l : String) (d : Document) (ms : List (String × Document)) (n : ℕ) {k m : ℕ}
    (h : k ≤ m) :
    (indentedMembers n ((l, d) :: ms)).foldl Nesting.next ⟨.outside, k, m⟩ =
      ⟨.outside, k, max m (k + Value.membersDepth (memberValues ((l, d) :: ms)))⟩ := by
  cases ms with
  | nil =>
    rw [indentedMembers, List.foldl_append, foldl_newline, foldl_member, foldl_indented d n h]
    simp [memberValues, Value.membersDepth]
  | cons m' ms =>
    obtain ⟨l', e⟩ := m'
    have hc (m : ℕ) : Nesting.next ⟨.outside, k, m⟩ ',' = ⟨.outside, k, m⟩ := rfl
    have hm : k ≤ max m (k + d.value.depth) := Nat.le_trans h (Nat.le_max_left _ _)
    have hs : indentedMembers n ((l, d) :: (l', e) :: ms) = newline n ++
        ((quoted l ++ ':' :: ' ' :: indented n d) ++ ',' :: indentedMembers n ((l', e) :: ms)) := by
      simp [indentedMembers]
    rw [hs, List.foldl_append, foldl_newline, List.foldl_append, foldl_member, foldl_indented d n h,
      List.foldl_cons, hc, foldl_members l' e ms n hm]
    simp only [memberValues, Value.membersDepth, Nesting.mk.injEq, true_and]
    omega
termination_by sizeOf d + sizeOf ms + 1

end

lemma deepest_indented (d : Document) (n : ℕ) : deepest (indented n d) = d.value.depth := by
  have h := foldl_indented d n (Nat.le_refl 0)
  rw [deepest, h]
  simp

end Json

end Highlight
