import Highlight.Pattern.Compile
import Mathlib.Tactic.Common

/-! Reading a pattern that is made of words: a backslash before each character that is neither a letter nor a
digit nor an underscore makes it stand for itself. -/

namespace Highlight.Pattern

def isPlain (c : Char) : Bool := c.isAlphanum || c == '_'

def escapedChar (c : Char) : List Char := if isPlain c then [c] else ['\\', c]

def escaped (w : List Char) : List Char := w.flatMap escapedChar

def barred (ws : List (List Char)) : List Char := ws.flatMap fun w => '|' :: escaped w

def anyOf (w : List Char) (ws : List (List Char)) : Node := .choiceOf (.literal w) (ws.map .literal)

lemma ne_of_isPlain {c d : Char} (hc : isPlain c = true) (hd : isPlain d = false) : c ≠ d := by
  rintro rfl
  rw [hc] at hd
  cases hd

lemma escaped_cons (c : Char) (w : List Char) : escaped (c :: w) = escapedChar c ++ escaped w := rfl

lemma barred_cons (w : List Char) (ws : List (List Char)) :
    barred (w :: ws) = '|' :: (escaped w ++ barred ws) := rfl

lemma length_le_escaped (w : List Char) : w.length ≤ (escaped w).length := by
  induction w with
  | nil => apply Nat.le_refl
  | cons c w ih =>
    have hc : 1 ≤ (escapedChar c).length := by
      rw [escapedChar]
      split <;> simp
    rw [escaped_cons, List.length_append, List.length_cons]
    omega

lemma escaped_ne_question {w : List Char} (hw : w ≠ []) (r u : List Char) : escaped w ++ r ≠ '?' :: u := by
  obtain ⟨c, w, rfl⟩ := List.exists_cons_of_ne_nil hw
  rw [escaped_cons, escapedChar]
  split
  · next hc =>
    intro h
    apply ne_of_isPlain hc (d := '?') (by decide)
    exact (List.cons.inj h).1
  · simp

open Reader

/-! ### Steps of a reader -/

lemma ok_bind {α β : Type} (a : α) (f : α → Except Fault β) : (.ok a : Except Fault α) >>= f = f a := rfl

lemma run_rest (s : Source) : rest.run s = .ok (s.rest, s) := rfl

lemma run_setRest (cs : List Char) (s : Source) : (setRest cs).run s = .ok ((), { s with rest := cs }) := rfl

lemma run_atEnd (s : Source) : atEnd.run s = .ok (s.rest.isEmpty, s) := rfl

lemma run_newGroup (s : Source) :
    newGroup.run s = .ok (s.groups + 1, { s with groups := s.groups + 1 }) := rfl

lemma run_skipIf {c : Char} {s : Source} (h : ∀ r, s.rest ≠ c :: r) : (skipIf c).run s = .ok (false, s) := by
  simp only [skipIf, StateT.run_bind, run_rest, ok_bind]
  split
  · next d cs hs =>
    have hd : c ≠ d := by
      rintro rfl
      exact h cs hs
    rw [if_neg hd]
    rfl
  · rfl

/-! ### Tokens -/

section Tokens

variable {g : ℕ} {c : Char} (r : List Char)

namespace Token

lemma skipIgnored_cons {r : List Char} (h : ∀ u, c = '(' → r ≠ '?' :: '#' :: u) (fuel : ℕ) :
    skipIgnored false (fuel + 1) (c :: r) = .ok (c :: r) := by
  rw [skipIgnored]
  · simp
  · exact h

lemma token_bar : (token {}).run { rest := '|' :: r, groups := g } = .ok (.bar, { rest := r, groups := g }) := rfl

lemma token_opening {r : List Char} (h : ∀ u, r ≠ '?' :: u) :
    (token {}).run { rest := '(' :: r, groups := g } = .ok (.opening, { rest := r, groups := g }) := by
  have hskip := skipIgnored_cons (c := '(') (fun u _ => h ('#' :: u)) ('(' :: r).length
  simp only [token, StateT.run_bind, StateT.run_get, pure_bind, hskip]
  rfl

lemma token_plain (hc : isPlain c = true) :
    (token {}).run { rest := c :: r, groups := g } = .ok (.char c, { rest := r, groups := g }) := by
  have hne {d : Char} (hd : isPlain d = false) : c ≠ d := ne_of_isPlain hc hd
  have hskip := skipIgnored_cons (r := r) (fun _ h => (hne (d := '(') (by decide) h).elim) (c :: r).length
  have hbrace : c ≠ '\x7b' := hne (by decide)
  simp only [token, StateT.run_bind, StateT.run_get, pure_bind, hskip, if_neg hbrace, run_setRest, ok_bind]
  split <;> first | rfl | exact absurd hc (by decide)

section NotPlain

variable (hc : isPlain c = false)

include hc

lemma letterSet?_of_not_isPlain : Property.letterSet? {} c = none := by
  unfold Property.letterSet?
  split <;> first | rfl | exact absurd hc (by decide)

lemma anchor?_of_not_isPlain : anchor? {} c = none := by
  unfold anchor?
  split <;> first | rfl | exact absurd hc (by decide)

lemma letterCode_of_not_isPlain : Escaped.letterCode c = c.toNat := by
  unfold Escaped.letterCode
  split <;> first | rfl | exact absurd hc (by decide)

lemma not_digit_of_not_isPlain : ¬ ('1' ≤ c ∧ c ≤ '9') := by
  rintro ⟨hle, hge⟩
  have hdigit : c.isDigit = true := by
    simp only [Char.isDigit, Bool.and_eq_true, decide_eq_true_eq]
    exact ⟨UInt32.le_trans (by decide) hle, hge⟩
  simp [isPlain, Char.isAlphanum, hdigit] at hc

lemma plain_of_not_isPlain :
    Escaped.plain.run { rest := c :: r, groups := g } = .ok (.char c, { rest := r, groups := g }) := by
  have hne {d : Char} (hd : isPlain d = true) : c ≠ d := (ne_of_isPlain hd hc).symm
  simp only [Escaped.plain, StateT.run_bind, run_rest, ok_bind, List.length_cons, Escaped.keyCode, nextOr,
    run_setRest, StateT.run_pure, pure_bind, hne (d := 'M') rfl, hne (d := 'C') rfl, hne (d := 'c') rfl,
    if_false, letterCode_of_not_isPlain hc, if_true]
  rfl

lemma token_escape :
    (token {}).run { rest := '\\' :: c :: r, groups := g } = .ok (.char c, { rest := r, groups := g }) := by
  have hne {d : Char} (hd : isPlain d = true) : c ≠ d := (ne_of_isPlain hd hc).symm
  change (escapeToken {}).run { rest := c :: r, groups := g } = _
  simp only [escapeToken, StateT.run_bind, run_rest, ok_bind, letterSet?_of_not_isPlain hc,
    anchor?_of_not_isPlain hc, hne (d := 'K') rfl, hne (d := 'R') rfl, hne (d := 'X') rfl,
    hne (d := 'k') rfl, hne (d := 'g') rfl, hne (d := 'p') rfl, hne (d := 'P') rfl, hne (d := 'o') rfl,
    hne (d := 'x') rfl, hne (d := 'u') rfl, hne (d := '0') rfl, not_digit_of_not_isPlain hc, or_self,
    if_false, plain_of_not_isPlain r hc]
  rfl

end NotPlain

lemma token_escapedChar (c : Char) :
    (token {}).run { rest := escapedChar c ++ r, groups := g } = .ok (.char c, { rest := r, groups := g }) := by
  rw [escapedChar]
  split
  · next hc => exact token_plain r hc
  · next hc => exact token_escape r (by simpa using hc)

end Token

end Tokens

/-! ### Parts of a pattern -/

namespace Read

open Token

section

variable {t u : Token} {s s' s'' : Source} {inGroup : Bool} {fuel depth : ℕ} {n : Node} {ns : List Node}

/-- Neither goes a token on with the characters before it, nor does it repeat what is before it. -/
structure Parts (t : Token) : Prop where
  char : ∀ c, t ≠ .char c
  quantifier : ∀ q possessive, t ≠ .quantifier q possessive

lemma characters_of_parts (ht : Parts t) (fuel : ℕ) (s : Source) :
    (characters fuel {} t).run s = .ok (([], t), s) := by
  rw [characters]
  · rfl
  · intro _ c _ hc
    exact ht.char c hc

lemma quantified_of_parts (ht : Parts t) (fuel depth : ℕ) (n : Node) (grouped : Bool) (s : Source) :
    (quantified fuel {} depth [] n grouped t).run s = .ok ((n, t), s) := by
  rw [quantified]
  · rfl
  · intro _ q possessive _ hq
    exact ht.quantifier q possessive hq

lemma moreItems_of_ends (ht : endsBranch inGroup t = true) (fuel depth : ℕ) (s : Source) :
    (moreItems fuel {} inGroup depth t).run s = .ok (([], t), s) := by
  cases fuel with
  | zero =>
    rw [moreItems]
    rfl
  | succ fuel =>
    rw [moreItems, if_pos ht]
    rfl

lemma moreItems_of_item (ht : endsBranch inGroup t = false)
    (hitem : (item fuel {} inGroup depth t).run s = .ok ((n, u), s')) {v : Token}
    (hmore : (moreItems fuel {} inGroup depth u).run s' = .ok ((ns, v), s'')) :
    (moreItems (fuel + 1) {} inGroup depth t).run s = .ok ((n :: ns, v), s'') := by
  rw [moreItems]
  simp only [ht, Bool.false_eq_true, if_false, StateT.run_bind, hitem, ok_bind, hmore]
  rfl

lemma branch_of_item (hd : depth < depthLimit)
    (hitem : (item fuel {} inGroup (depth + 1) t).run s = .ok ((n, u), s')) {v : Token}
    (hmore : (moreItems fuel {} inGroup (depth + 1) u).run s' = .ok ((ns, v), s'')) :
    (branch (fuel + 1) {} inGroup depth t).run s = .ok ((Node.sequenceOf (n :: ns), v), s'') := by
  rw [branch]
  simp only [Nat.not_lt_of_le hd, if_false, StateT.run_bind, hitem, ok_bind, hmore]
  rfl

lemma item_anchor (a : Anchor) (hu : (token {}).run s = .ok (u, s')) (h : Parts u) :
    (item (fuel + 1) {} inGroup depth (.anchor a)).run s = .ok ((.anchor a, u), s') := by
  rw [item]
  simp only [StateT.run_bind, ok_bind, hu, quantified_of_parts h]

lemma item_opening (hgroup : (group fuel {} depth).run s = .ok (.node n false, s'))
    (hu : (token {}).run s' = .ok (u, s'')) (h : Parts u) :
    (item (fuel + 1) {} inGroup depth .opening).run s = .ok ((n, u), s'') := by
  rw [item]
  simp only [StateT.run_bind, hgroup, ok_bind, hu, quantified_of_parts h]

lemma group_capture (hs : s.rest ≠ []) (h : ∀ r, s.rest ≠ '?' :: r)
    (hinside : (inside fuel {} depth).run { s with groups := s.groups + 1 } = .ok (n, s')) :
    (group (fuel + 1) {} depth).run s = .ok (.node (.capture (s.groups + 1) n) false, s') := by
  have hend : s.rest.isEmpty = false := by simpa using hs
  rw [group]
  simp only [StateT.run_bind, run_atEnd, ok_bind, hend, Bool.false_eq_true, if_false, run_skipIf h,
    Bool.not_false, if_true, run_newGroup, hinside]
  rfl

end

/-! ### Words and alternatives of words -/

section

variable {g : ℕ} {t : Token} {s : Source} {r : List Char} {inGroup : Bool} {fuel depth : ℕ}
  (c : Char) (w : List Char)

lemma characters_escaped (hr : (token {}).run { rest := r, groups := g } = .ok (t, s)) (ht : Parts t)
    (hf : w.length < fuel) :
    (characters fuel {} (.char c)).run { rest := escaped w ++ r, groups := g } =
      .ok ((c :: w, t), s) := by
  induction w generalizing c fuel with
  | nil =>
    obtain ⟨fuel, rfl⟩ := Nat.exists_eq_succ_of_ne_zero (Nat.ne_of_gt hf)
    simp only [characters, StateT.run_bind, escaped, List.flatMap_nil, List.nil_append, hr, ok_bind,
      characters_of_parts ht]
    rfl
  | cons d w ih =>
    obtain ⟨fuel, rfl⟩ := Nat.exists_eq_succ_of_ne_zero (Nat.ne_of_gt (Nat.zero_lt_of_lt hf))
    simp only [characters, StateT.run_bind, escaped_cons, List.append_assoc, token_escapedChar, ok_bind,
      ih d (Nat.lt_of_succ_lt_succ hf)]
    rfl

lemma item_escaped (hr : (token {}).run { rest := r, groups := g } = .ok (t, s)) (ht : Parts t)
    (hf : w.length < fuel) :
    (item (fuel + 1) {} inGroup depth (.char c)).run { rest := escaped w ++ r, groups := g } =
      .ok ((.literal (c :: w), t), s) := by
  simp only [item, StateT.run_bind, characters_escaped c w hr ht hf, ok_bind]
  apply quantified_of_parts ht

lemma branch_escaped (hr : (token {}).run { rest := r, groups := g } = .ok (t, s)) (ht : Parts t)
    (hends : endsBranch inGroup t = true) (hd : depth < depthLimit) (hf : w.length + 2 < fuel) :
    (branch fuel {} inGroup depth (.char c)).run { rest := escaped w ++ r, groups := g } =
      .ok ((.literal (c :: w), t), s) := by
  obtain ⟨fuel, rfl⟩ : ∃ k, fuel = k + 2 := ⟨fuel - 2, by omega⟩
  have hitem : (item (fuel + 1) {} inGroup (depth + 1) (.char c)).run { rest := escaped w ++ r, groups := g } =
      .ok ((.literal (c :: w), t), s) := item_escaped c w hr ht (Nat.lt_of_add_lt_add_right hf)
  have hbranch := branch_of_item hd hitem (moreItems_of_ends hends _ _ _)
  exact hbranch

lemma branches_barred {ws : List (List Char)} (hws : ∀ v ∈ ws, v ≠ []) (hd : depth < depthLimit)
    (hf : w.length + (barred ws).length + 2 < fuel) :
    ∃ t s, (branch fuel {} true depth (.char c)).run
        { rest := escaped w ++ (barred ws ++ ')' :: r), groups := g } = .ok ((.literal (c :: w), t), s) ∧
      (moreAlternatives fuel {} true depth t).run s =
        .ok ((ws.map .literal, .closing), { rest := r, groups := g }) := by
  induction ws generalizing c w fuel with
  | nil =>
    refine ⟨.closing, { rest := r, groups := g }, ?_, ?_⟩
    · exact branch_escaped c w rfl ⟨by simp, by simp⟩ rfl hd hf
    · rw [moreAlternatives]
      · rfl
      · simp
  | cons v ws ih =>
    obtain ⟨d, v, rfl⟩ := List.exists_cons_of_ne_nil (hws v (by simp))
    have hv := length_le_escaped (d :: v)
    rw [barred_cons, List.length_cons, List.length_append] at hf
    rw [List.length_cons] at hv
    obtain ⟨fuel, rfl⟩ := Nat.exists_eq_succ_of_ne_zero (Nat.ne_of_gt (Nat.zero_lt_of_lt hf))
    have hf' : v.length + (barred ws).length + 2 < fuel := by omega
    obtain ⟨t, s, hbranch, hmore⟩ := ih d v (fun u hu => hws u (by simp [hu])) hf'
    refine ⟨.bar, { rest := escaped (d :: v) ++ (barred ws ++ ')' :: r), groups := g }, ?_, ?_⟩
    · rw [barred_cons, List.cons_append, List.append_assoc]
      exact branch_escaped c w (token_bar _) ⟨by simp, by simp⟩ rfl hd (by omega)
    · rw [moreAlternatives]
      simp only [StateT.run_bind, escaped_cons, List.append_assoc, token_escapedChar, ok_bind, hbranch, hmore]
      rfl

lemma inside_barred {ws : List (List Char)} (hws : ∀ v ∈ ws, v ≠ []) (hd : depth + 1 < depthLimit)
    (hf : w.length + (barred ws).length + 4 < fuel) :
    (inside fuel {} depth).run { rest := escaped (c :: w) ++ (barred ws ++ ')' :: r), groups := g } =
      .ok (anyOf (c :: w) ws, { rest := r, groups := g }) := by
  obtain ⟨fuel, rfl⟩ : ∃ k, fuel = k + 2 := ⟨fuel - 2, by omega⟩
  have hf' : w.length + (barred ws).length + 2 < fuel := by omega
  obtain ⟨t, s, hbranch, hmore⟩ := branches_barred (g := g) (r := r) c w hws hd hf'
  rw [inside]
  simp only [StateT.run_bind, escaped_cons, List.append_assoc, token_escapedChar, ok_bind, alternatives,
    Nat.not_lt_of_le (Nat.le_of_lt hd), if_false, hbranch, hmore]
  rfl

lemma item_words {ws : List (List Char)} (hws : ∀ v ∈ ws, v ≠ [])
    (hr : (token {}).run { rest := r, groups := g + 1 } = .ok (t, s)) (ht : Parts t)
    (hd : depth + 1 < depthLimit) (hf : w.length + (barred ws).length + 4 < fuel) :
    (item (fuel + 2) {} inGroup depth .opening).run
        { rest := escaped (c :: w) ++ (barred ws ++ ')' :: r), groups := g } =
      .ok ((.capture (g + 1) (anyOf (c :: w) ws), t), s) := by
  have hgroup : (group (fuel + 1) {} depth).run
      { rest := escaped (c :: w) ++ (barred ws ++ ')' :: r), groups := g } =
      .ok (.node (.capture (g + 1) (anyOf (c :: w) ws)) false, { rest := r, groups := g + 1 }) :=
    group_capture (by simp) (escaped_ne_question (by simp) _) (inside_barred c w hws hd hf)
  exact item_opening hgroup hr ht

lemma pattern_words {ws : List (List Char)} (hws : ∀ v ∈ ws, v ≠ []) :
    pattern ("\\b(".toList ++ (escaped (c :: w) ++ (barred ws ++ ")\\b".toList))) =
      .ok (.sequence (.anchor (.wordBoundary false))
        (.sequence (.capture 1 (anyOf (c :: w) ws)) (.anchor (.wordBoundary false))),
          { rest := [], groups := 1 }) := by
  have hlength := length_le_escaped (c :: w)
  have hboundary : Parts (.anchor (.wordBoundary false)) := ⟨by simp, by simp⟩
  have hne := escaped_ne_question (w := c :: w) (by simp) (barred ws ++ ")\\b".toList)
  rw [pattern]
  generalize hfuel : 8 * (("\\b(".toList ++ (escaped (c :: w) ++ (barred ws ++ ")\\b".toList))).length + 2) = fuel
  simp only [List.length_append, List.length_cons] at hfuel hlength
  obtain ⟨fuel, rfl⟩ : ∃ k, fuel = k + 6 := ⟨fuel - 6, by omega⟩
  have hf : w.length + (barred ws).length + 4 < fuel + 1 := by omega
  have hfirst : (item (fuel + 4) {} false 2 (.anchor (.wordBoundary false))).run
      { rest := '(' :: (escaped (c :: w) ++ (barred ws ++ ")\\b".toList)) } =
        .ok ((.anchor (.wordBoundary false), .opening),
          { rest := escaped (c :: w) ++ (barred ws ++ ")\\b".toList) }) :=
    item_anchor _ (token_opening hne) ⟨by simp, by simp⟩
  have hwords : (item (fuel + 3) {} false 2 .opening).run
      { rest := escaped (c :: w) ++ (barred ws ++ ")\\b".toList) } =
        .ok ((.capture 1 (anyOf (c :: w) ws), .anchor (.wordBoundary false)), { rest := [], groups := 1 }) :=
    item_words c w hws rfl hboundary (by decide) hf
  have hlast : (item (fuel + 2) {} false 2 (.anchor (.wordBoundary false))).run { rest := [], groups := 1 } =
      .ok ((.anchor (.wordBoundary false), .finish), { rest := [], groups := 1 }) :=
    item_anchor _ rfl ⟨by simp, by simp⟩
  have hbranch := branch_of_item (by decide) hfirst
    (moreItems_of_item rfl hwords (moreItems_of_item rfl hlast (moreItems_of_ends rfl _ _ _)))
  have hend : (moreAlternatives (fuel + 5) {} false 1 .finish).run { rest := [], groups := 1 } =
      .ok (([], .finish), { rest := [], groups := 1 }) := by
    rw [moreAlternatives]
    · rfl
    · simp
  have htoken : (token {}).run { rest := "\\b(".toList ++ (escaped (c :: w) ++ (barred ws ++ ")\\b".toList)) } =
      .ok (.anchor (.wordBoundary false), { rest := '(' :: (escaped (c :: w) ++ (barred ws ++ ")\\b".toList)) }) := rfl
  have hd : ¬ depthLimit < 1 := by decide
  simp only [StateT.run_bind, htoken, ok_bind, alternatives, hd, if_false, hbranch, hend]
  rfl

end

end Read

end Highlight.Pattern
