import Highlight.Noze
import Highlight.Proofs.Pattern.Longest
import Highlight.Proofs.Pattern.Successive
import Highlight.Proofs.Text.Backslashes

/-! What the rule for escapes in strings matches. The search takes backslashes in pairs from the left, and yet a
quote is escaped just if an odd number of backslashes stand directly before it. -/

namespace Highlight.Noze

open Pattern

def escapePattern : Pattern := ⟨.sequence (.literal ['\\']) (.one .notNewline), 0, []⟩

lemma compile_stringEscape : compile "\\\\.".toList = .ok escapePattern := by
  decide +kernel

structure EscapeAt (text : List Char) (s : ℕ) : Prop where
  backslash : text[s]? = some '\\'
  next : ∃ c, text[s + 1]? = some c ∧ c ≠ '\n'

/-! ### Matching -/

lemma reads_escape (origin : List Char) : (escapePattern.matcher origin).Reads
    (fun c : {c // CharSet.notNewline.contains c} => ['\\', c.1]) fun _ s => s.advance 2 := by
  have h := (Matcher.Reads.one CharSet.notNewline.contains).literal_seq ['\\']
  exact h.of_surjective (g := id) Function.surjective_id (fun _ => rfl) fun _ => by simp

section

variable {text : List Char} {n s : ℕ}

lemma escapeAt_iff : EscapeAt text s ↔
    ∃ c : {c // CharSet.notNewline.contains c}, ['\\', c.1] <+: text.drop s := by
  have hpre (c : Char) : ['\\', c] <+: text.drop s ↔ text[s]? = some '\\' ∧ text[s + 1]? = some c := by
    rw [← List.head?_drop, ← List.head?_drop, ← List.drop_drop]
    rcases text.drop s with _ | ⟨a, _ | ⟨b, l⟩⟩ <;> simp [eq_comm (a := '\\'), eq_comm (a := c)]
  simp only [hpre, Subtype.exists, CharSet.contains_notNewline, bne_iff_ne]
  constructor
  · rintro ⟨hs, c, hc, hne⟩
    exact ⟨c, hne, hs, hc⟩
  · rintro ⟨c, hne, hs, hc⟩
    exact ⟨hs, c, hc, hne⟩

lemma EscapeAt.lt_length (h : EscapeAt text s) : s + 1 < text.length := by
  obtain ⟨c, hc, -⟩ := h.next
  exact (List.getElem?_eq_some_iff.mp hc).1

lemma EscapeAt.covers (h : EscapeAt text s) :
    (escapePattern.found (.place text s) (.place text (s + 2))).Covers text s (s + 2) :=
  covers_found rfl (by omega) h.lt_length

lemma finds_escape (text : List Char) : escapePattern.Finds text fun s m =>
    EscapeAt text s ∧ escapePattern.found (.place text s) (.place text (s + 2)) = m := by
  have h : escapePattern.Finds text _ := Matcher.Reads.finds reads_escape (by simp) fun _ s => by simp
  have hhit (s : ℕ) (m : Match) : (∃ c : {c // CharSet.notNewline.contains c},
      IsLongest (fun c : {c // CharSet.notNewline.contains c} => ['\\', c.1]) (text.drop s) c ∧
        escapePattern.found (.place text s) ((State.place text s).advance 2) = m) ↔
      EscapeAt text s ∧ escapePattern.found (.place text s) (.place text (s + 2)) = m := by
    rw [escapeAt_iff, ← exists_and_right]
    simp [IsLongest]
  simpa only [hhit] using h

/-! ### Pairs of backslashes -/

lemma take_succ_of_getElem? {c : Char} (h : text[n]? = some c) : text.take (n + 1) = text.take n ++ [c] := by
  rw [List.take_add_one, h, Option.toList_some]

lemma odd_backslashes_inside (h : EscapeAt text s) (heven : Even (backslashes (text.take s))) :
    Odd (backslashes (text.take (s + 1))) := by
  rw [take_succ_of_getElem? h.backslash]
  exact odd_backslashes_concat heven

lemma even_backslashes_behind (h : EscapeAt text s) (heven : Even (backslashes (text.take s))) :
    Even (backslashes (text.take (s + 2))) := by
  obtain ⟨c, hc, -⟩ := h.next
  rw [take_succ_of_getElem? hc, take_succ_of_getElem? h.backslash]
  exact even_backslashes_escape heven c

lemma even_backslashes_next (heven : Even (backslashes (text.take n))) (hs : IsLeast {s | n ≤ s ∧ EscapeAt text s} s) :
    Even (backslashes (text.take s)) := by
  obtain ⟨⟨hle, hescape⟩, hmin⟩ := hs
  obtain rfl | hlt := hle.eq_or_lt
  · exact heven
  obtain ⟨k, rfl⟩ := Nat.exists_eq_add_of_lt hlt
  have hinside : n + k < text.length := by have := hescape.lt_length; omega
  have hne : text[n + k] ≠ '\\' := by
    intro hc
    have hbackslash : text[n + k]? = some '\\' := by rw [List.getElem?_eq_getElem hinside, hc]
    have hbefore : EscapeAt text (n + k) := ⟨hbackslash, '\\', hescape.backslash, by decide⟩
    have hmin := hmin ⟨Nat.le_add_right n k, hbefore⟩
    omega
  rw [take_succ_of_getElem? (List.getElem?_eq_getElem hinside)]
  exact even_backslashes_concat hne

lemma even_backslashes_of_mem {ms : List Match} (hms : escapePattern.Successive text n ms)
    (hn : Even (backslashes (text.take n))) {m : Match} (hm : m ∈ ms) :
    ∃ s, m.Covers text s (s + 2) ∧ EscapeAt text s ∧ Even (backslashes (text.take s)) := by
  induction hms with
  | done => cases hm
  | next hsearch hcovers _ ih =>
    obtain ⟨i, hi, hescape, rfl⟩ := (finds_escape text).searchAt?_eq_some_iff.mp hsearch
    obtain ⟨rfl, rfl⟩ := hcovers.unique hescape.covers
    have heven := even_backslashes_next hn (by simpa using hi)
    rcases List.mem_cons.mp hm with rfl | hm
    · exact ⟨_, hcovers, hescape, heven⟩
    · exact ih (even_backslashes_behind hescape heven) hm

lemma exists_escapeAt_of_odd {q : ℕ} (hq : text[q]? = some '"') (hodd : Odd (backslashes (text.take q))) :
    ∃ k, q = k + 1 ∧ EscapeAt text k := by
  cases q with
  | zero => exact absurd hodd (by simp [backslashes])
  | succ k =>
    have hinside : k < text.length := by
      have := (List.getElem?_eq_some_iff.mp hq).1
      omega
    have hk := List.getElem?_eq_getElem hinside
    refine ⟨k, rfl, ?_, '"', hq, by decide⟩
    by_contra hne
    rw [take_succ_of_getElem? hk] at hodd
    exact Nat.not_even_iff_odd.mpr hodd (even_backslashes_concat (by simpa [hk] using hne))

lemma exists_escape_iff {q : ℕ} (hq : text[q]? = some '"') :
    (∃ m ∈ escapePattern.allMatches text, ∃ s, m.Covers text s (s + 2) ∧ s ≤ q ∧ q < s + 2) ↔
      Odd (backslashes (text.take q)) := by
  have heven {m : Match} (hm : m ∈ escapePattern.allMatches text) :=
    even_backslashes_of_mem (finds_escape text).successive_allMatches Even.zero hm
  constructor
  · rintro ⟨m, hm, i, hi, hle, hlt⟩
    obtain ⟨s, hs, hescape, hs'⟩ := heven hm
    obtain ⟨rfl, -⟩ := hi.unique hs
    obtain rfl | rfl : q = i ∨ q = i + 1 := by omega
    · exact absurd (hescape.backslash.symm.trans hq) (by decide)
    · exact odd_backslashes_inside hescape hs'
  · intro hodd
    obtain ⟨k, rfl, hescape⟩ := exists_escapeAt_of_odd hq hodd
    obtain ⟨m, hm, i, e, ⟨hi, rfl⟩, hcovers, hle, hlt⟩ := (finds_escape text).exists_mem_allMatches ⟨hescape, rfl⟩
    obtain ⟨-, rfl⟩ := hcovers.unique hi.covers
    refine ⟨_, hm, i, hcovers, by omega, ?_⟩
    -- Otherwise the match would end before the quote, and the backslashes before it would be even.
    by_contra hends
    obtain rfl : k = i + 1 := by omega
    obtain ⟨s, hs, -, heven⟩ := heven hm
    obtain ⟨rfl, -⟩ := hcovers.unique hs
    exact Nat.not_even_iff_odd.mpr hodd (even_backslashes_behind hi heven)

end

theorem quote_escaped_iff : ∃ pattern nested p,
    patterns[5]? = some (.region "string.quoted" "\"" "\"" (some (.single "keyword" pattern none :: nested)) none none) ∧
      compile pattern.toList = .ok p ∧ ∀ u v : List Char,
        (∃ m ∈ p.allMatches (u ++ '"' :: v), m.Contains (u ++ '"' :: v) u.length (u.length + 1)) ↔
          Odd (u.rtakeWhile (· == '\\')).length := by
  refine ⟨_, _, escapePattern, rfl, compile_stringEscape, fun u v => ?_⟩
  have hq : (u ++ '"' :: v)[u.length]? = some '"' := by simp
  have hodd := exists_escape_iff hq
  rw [backslashes, List.take_left] at hodd
  rw [← hodd]
  refine exists_congr fun m => and_congr_right fun hm => ?_
  obtain ⟨s, hs, -, -⟩ := even_backslashes_of_mem (finds_escape _).successive_allMatches Even.zero hm
  rw [hs.contains_iff (by simp) (by simp)]
  constructor
  · rintro ⟨hle, hlt⟩
    exact ⟨s, hs, hle, hlt⟩
  · rintro ⟨i, hi, hle, hlt⟩
    obtain ⟨rfl, -⟩ := hi.unique hs
    exact ⟨hle, hlt⟩

end Highlight.Noze
