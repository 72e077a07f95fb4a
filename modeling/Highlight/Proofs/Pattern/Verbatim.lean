import Highlight.Proofs.Pattern.Words

/-! A word written so that each of its characters stands for itself matches where the word occurs in a text, from
left to right and without overlap. -/

namespace Highlight.Pattern

def verbatim (w : List Char) : Pattern := ⟨.literal w, 0, []⟩

def occurrences (w text : List Char) : List ℕ := (List.range text.length).filter fun s => w <+: text.drop s

def spaced (k free : ℕ) : List ℕ → List ℕ
  | [] => []
  | s :: ss => if free ≤ s then s :: spaced k (s + k) ss else spaced k free ss

/-! ### Compiling -/

section

open Reader Token

lemma Read.pattern_escaped (c : Char) (w : List Char) :
    pattern (escaped (c :: w)) = .ok (.literal (c :: w), { rest := [] }) := by
  have hlength := length_le_escaped (c :: w)
  rw [pattern]
  generalize hfuel : 8 * ((escaped (c :: w)).length + 2) = fuel
  rw [List.length_cons] at hlength
  obtain ⟨fuel, rfl⟩ : ∃ k, fuel = k + 2 := ⟨fuel - 2, by omega⟩
  have hf : w.length + 2 < fuel + 1 := by omega
  have hbranch : (branch (fuel + 1) {} false 1 (.char c)).run { rest := escaped w ++ [] } =
      .ok ((.literal (c :: w), .finish), { rest := [] }) :=
    branch_escaped c w rfl ⟨by simp, by simp⟩ rfl (by decide) hf
  have hend : (moreAlternatives (fuel + 1) {} false 1 .finish).run { rest := [] } =
      .ok (([], .finish), { rest := [] }) := by
    rw [moreAlternatives]
    · rfl
    · simp
  have hd : ¬ depthLimit < 1 := by decide
  have htoken := token_escapedChar (g := 0) (escaped w ++ []) c
  rw [escaped_cons, ← List.append_nil (escaped w)]
  simp only [StateT.run_bind, htoken, ok_bind, alternatives, hd, if_false, hbranch, hend]
  rfl

end

lemma compile_escaped {w : List Char} (hw : w ≠ []) : compile (escaped w) = .ok (verbatim w) := by
  obtain ⟨c, w, rfl⟩ := List.exists_cons_of_ne_nil hw
  apply compile_of_isSimple (Read.pattern_escaped c w)
  rfl

/-! ### Places -/

section

variable {k n s : ℕ} {l : List ℕ}

lemma spaced_eq_nil (h : ∀ s ∈ l, s < n) : spaced k n l = [] := by
  induction l with
  | nil => rfl
  | cons a l ih =>
    rw [spaced, if_neg (Nat.not_le_of_lt (h a (by simp)))]
    apply ih
    intro s hs
    exact h s (by simp [hs])

lemma spaced_of_isLeast (hk : 0 < k) (hl : l.Pairwise (· < ·)) (hs : IsLeast {s | n ≤ s ∧ s ∈ l} s) :
    spaced k n l = s :: spaced k (s + k) l := by
  induction l with
  | nil => exact absurd hs.1.2 List.not_mem_nil
  | cons a l ih =>
    obtain ⟨hall, hl⟩ := List.pairwise_cons.mp hl
    obtain ⟨⟨hle, hmem⟩, hmin⟩ := hs
    by_cases ha : n ≤ a
    · have hsa : s ≤ a := hmin ⟨ha, by simp⟩
      obtain rfl : s = a := by
        rcases List.mem_cons.mp hmem with rfl | hmem
        · rfl
        · exact absurd (hall s hmem) (Nat.not_lt_of_le hsa)
      rw [spaced, if_pos ha, spaced, if_neg (by omega)]
    · have hne : s ≠ a := by
        rintro rfl
        exact ha hle
      have hs : IsLeast {s | n ≤ s ∧ s ∈ l} s :=
        ⟨⟨hle, List.mem_of_ne_of_mem hne hmem⟩, fun i hi => hmin ⟨hi.1, by simp [hi.2]⟩⟩
      rw [spaced, if_neg ha, spaced, if_neg (by omega)]
      exact ih hl hs

end

/-! ### Matching -/

section

variable {w text : List Char} (hw : w ≠ [])

include hw

lemma mem_occurrences {s : ℕ} : s ∈ occurrences w text ↔ w <+: text.drop s := by
  have hpos := List.length_pos_of_ne_nil hw
  rw [occurrences, List.mem_filter, List.mem_range, decide_eq_true_eq, and_iff_right_iff_imp]
  intro h
  have hle := h.length_le
  rw [List.length_drop] at hle
  omega

lemma covers_verbatim {s : ℕ} (h : w <+: text.drop s) :
    ((verbatim w).found (.place text s) (.place text (s + w.length))).Covers text s (s + w.length) := by
  have hpos := List.length_pos_of_ne_nil hw
  have hle := h.length_le
  rw [List.length_drop] at hle
  apply covers_found rfl
  · omega
  · omega

lemma finds_verbatim (text : List Char) : (verbatim w).Finds text fun s m =>
    w <+: text.drop s ∧ (verbatim w).found (.place text s) (.place text (s + w.length)) = m := by
  have h (origin : List Char) : ((verbatim w).matcher origin).Reads _ _ := Matcher.Reads.literal w
  have hfinds : (verbatim w).Finds text _ := Matcher.Reads.finds h (fun _ => hw) fun _ s => by simp
  simpa [IsLongest] using hfinds

lemma spans_verbatim {n : ℕ} {ms : List Match} (hms : (verbatim w).Successive text n ms) :
    ms.map (·.spans text) = (spaced w.length n (occurrences w text)).map fun s => [some (span text s (s + w.length))] := by
  have hfinds := finds_verbatim hw text
  have hsorted : (occurrences w text).Pairwise (· < ·) := List.pairwise_lt_range.filter _
  induction hms with
  | @done n hnone =>
    have hbefore : ∀ s ∈ occurrences w text, s < n := by
      intro s hs
      apply Nat.lt_of_not_le
      intro hle
      exact hfinds.searchAt?_eq_none_iff.mp hnone s _ hle ⟨(mem_occurrences hw).mp hs, rfl⟩
    rw [spaced_eq_nil hbefore]
    rfl
  | @next n i e m ms hsearch hcovers hms ih =>
    obtain ⟨s, hs, hpre, rfl⟩ := hfinds.searchAt?_eq_some_iff.mp hsearch
    obtain ⟨rfl, rfl⟩ := hcovers.unique (covers_verbatim hw hpre)
    have hleast : IsLeast {s | n ≤ s ∧ s ∈ occurrences w text} i := by
      simpa [mem_occurrences hw] using hs
    rw [spaced_of_isLeast (List.length_pos_of_ne_nil hw) hsorted hleast, List.map_cons, ih, List.map_cons]
    simp [found, Match.spans, verbatim, span]

end

theorem escaped_matches_occurrences (w : List Char) (hw : w ≠ []) : ∃ p, compile (escaped w) = .ok p ∧ p.groups = 0 ∧
    ∀ text, (p.allMatches text).map (·.spans text) =
      (spaced w.length 0 (occurrences w text)).map fun s => [some (span text s (s + w.length))] := by
  refine ⟨_, compile_escaped hw, rfl, fun text => ?_⟩
  exact spans_verbatim hw (finds_verbatim hw text).successive_allMatches

theorem escaped_matches_occurrences_overlapping : "-=-".toList ≠ [] ∧ ∃ p, compile "\\-\\=\\-".toList = .ok p ∧
    p.groups = 0 ∧ (p.allMatches "a-=-=-=-".toList).map (·.spans "a-=-=-=-".toList) = [[some (1, 4)], [some (5, 8)]] := by
  have hne : "-=-".toList ≠ [] := by decide
  obtain ⟨p, hp, hgroups, h⟩ := escaped_matches_occurrences "-=-".toList hne
  refine ⟨hne, p, hp, hgroups, ?_⟩
  rw [h]
  decide

end Highlight.Pattern
