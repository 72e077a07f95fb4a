import Highlight.Noze
import Highlight.Proofs.Pattern.Longest
import Highlight.Proofs.Pattern.Successive

/-! What the rule for interpolations in strings matches: braces around a single character. It misses longer
expressions. -/

namespace Highlight.Noze

open Pattern

def interpolationPattern : Pattern :=
  ⟨.sequence (.literal ['\x7b']) (.sequence (.capture 1 (.one (.compl (.single '\x7d')))) (.literal ['\x7d'])), 1, []⟩

lemma compile_interpolation : compile "\\\x7b([^\x7d])\\\x7d".toList = .ok interpolationPattern := by
  decide +kernel

def InterpolationAt (text : List Char) (s : ℕ) : Prop := ∃ c, c ≠ '\x7d' ∧ ['\x7b', c, '\x7d'] <+: text.drop s

def interpolated (s : State) : State := (State.capturing 1 (·.advance 1) (s.advance 1)).advance 1

/-! ### Matching -/

lemma reads_interpolation (origin : List Char) : (interpolationPattern.matcher origin).Reads
    (fun c : {c // c != '\x7d'} => ['\x7b', c.1, '\x7d']) fun _ => interpolated := by
  have hone : (Matcher.one (CharSet.compl (.single '\x7d')).contains).Reads (fun c : {c // c != '\x7d'} => [c.1])
      fun _ s => s.advance 1 := by
    rw [CharSet.contains_compl_single]
    exact .one _
  have h := ((hone.capture 1).seq_of_length_eq (Matcher.Reads.literal ['\x7d']) fun _ _ => rfl).literal_seq ['\x7b']
  refine h.of_surjective (g := fun c => (c, ())) ?_ ?_ ?_
  · rintro ⟨c, ⟨⟩⟩
    exact ⟨c, rfl⟩
  · intro c
    rfl
  · intro c
    rfl

lemma finds_interpolation (text : List Char) : interpolationPattern.Finds text fun s m => InterpolationAt text s ∧
    interpolationPattern.found (.place text s) (interpolated (.place text s)) = m := by
  have h : interpolationPattern.Finds text _ :=
    Matcher.Reads.finds reads_interpolation (by simp) fun _ s => by simp [interpolated]
  have hat (s : ℕ) : InterpolationAt text s ↔ ∃ c : {c // c != '\x7d'}, ['\x7b', c.1, '\x7d'] <+: text.drop s := by
    simp [InterpolationAt]
  simp only [hat, ← exists_and_right]
  simpa [IsLongest] using h

section

variable {text : List Char} {s : ℕ}

lemma spans_interpolation (text : List Char) (s : ℕ) :
    (interpolationPattern.found (.place text s) (interpolated (.place text s))).spans text =
      [some (span text s (s + 3)), some (span text (s + 1) (s + 2))] := by
  simp [found, Match.spans, interpolationPattern, interpolated, State.capturing, span]

lemma InterpolationAt.covers (h : InterpolationAt text s) :
    (interpolationPattern.found (.place text s) (interpolated (.place text s))).Covers text s (s + 3) := by
  obtain ⟨c, -, hpre⟩ := h
  obtain ⟨hinside, -⟩ := (extract_eq_iff (by simp)).mpr ⟨hpre, rfl⟩
  exact covers_found (by simp [interpolated]) (by omega) hinside

/-- The first opening brace begins an interpolation if a closing one stands behind the next character. -/
lemma searchAt?_braces {u v : List Char} {c : Char} (hu : '\x7b' ∉ u) (hc : c ≠ '\x7d')
    (htext : text = u ++ '\x7b' :: c :: '\x7d' :: v) : interpolationPattern.searchAt? text 0 =
      some (interpolationPattern.found (.place text u.length) (interpolated (.place text u.length))) := by
  apply (finds_interpolation text).searchAt?_of_first (Nat.zero_le _)
  · refine ⟨⟨c, hc, v, ?_⟩, rfl⟩
    rw [htext, List.drop_left]
    rfl
  · rintro s _ - ⟨⟨d, -, hpre⟩, -⟩
    rw [htext] at hpre
    exact length_le_of_cons hu hpre

end

theorem interpolation_found_iff {text u w v : List Char} (htext : text = u ++ '\x7b' :: (w ++ '\x7d' :: v))
    (hu : '\x7b' ∉ u) (hw : '\x7d' ∉ w) : ∃ pattern spec nested p,
    patterns[5]? = some (.region "string.quoted" "\"" "\"" (some [nested, .single "keyword" pattern spec]) none none) ∧
      compile pattern.toList = .ok p ∧
      (∀ start groups, (p.searchAt? text start).map (·.spans text) = some groups ↔
        ∃ s, IsLeast {s | start ≤ s ∧ InterpolationAt text s} s ∧
          groups = [some (span text s (s + 3)), some (span text (s + 1) (s + 2))]) ∧
      ((p.searchAt? text 0).map (·.spans text) = some [some (span text u.length (u.length + w.length + 2)),
        some (span text (u.length + 1) (u.length + 1 + w.length))] ↔ w.length = 1) := by
  refine ⟨_, _, _, interpolationPattern, rfl, compile_interpolation, fun start groups => ?_, ?_⟩
  · rw [(finds_interpolation text).searchAt?_spans]
    constructor
    · rintro ⟨s, hs, _, ⟨-, rfl⟩, rfl⟩
      exact ⟨s, by simpa using hs, spans_interpolation text s⟩
    · rintro ⟨s, hs, rfl⟩
      exact ⟨s, by simpa using hs, _, ⟨hs.1.2, rfl⟩, spans_interpolation text s⟩
  · constructor
    · intro hspans
      obtain ⟨m, hm, hspans⟩ := Option.map_eq_some_iff.mp hspans
      obtain ⟨s, -, hs, hfound⟩ := (finds_interpolation text).searchAt?_eq_some_iff.mp hm
      have hcovers : m.Covers text s (s + 3) := hfound ▸ hs.covers
      have hwhole : (m.spans text)[0]? = some (some (span text u.length (u.length + w.length + 2))) := by
        rw [hspans]
        rfl
      have hlength : u.length + w.length + 2 ≤ text.length := by
        rw [htext]
        simp
        omega
      obtain ⟨rfl, he⟩ := (hcovers.spans_eq_iff (by omega) hlength).mp hwhole
      omega
    · intro hone
      obtain ⟨c, rfl⟩ := List.length_eq_one_iff.mp hone
      have hc : c ≠ '\x7d' := by simpa [eq_comm] using hw
      rw [searchAt?_braces hu hc htext, Option.map_some, spans_interpolation]
      rfl

theorem interpolation_found_between_words : '\x7b' ∉ "hello ".toList ∧ '\x7d' ∉ "x".toList ∧
    (interpolationPattern.searchAt? "hello \x7bx\x7d!".toList 0).map (·.spans "hello \x7bx\x7d!".toList) =
      some [some (6, 9), some (7, 8)] := by
  have hu : '\x7b' ∉ "hello ".toList := by decide
  have hw : '\x7d' ∉ "x".toList := by decide
  have htext : "hello \x7bx\x7d!".toList = "hello ".toList ++ '\x7b' :: ("x".toList ++ '\x7d' :: "!".toList) := rfl
  obtain ⟨_, _, _, p, hrule, hp, -, h⟩ := interpolation_found_iff htext hu hw
  obtain ⟨⟩ := Option.some.inj hrule
  obtain rfl : p = interpolationPattern := Except.ok.inj (hp.symm.trans compile_interpolation)
  exact ⟨hu, hw, h.mpr rfl⟩

theorem interpolation_missed : ∃ p, compile "\\\x7b([^\x7d])\\\x7d".toList = .ok p ∧
    p.searchAt? "\x7bab\x7d".toList 0 = none ∧ p.allMatches "\x7bab\x7d".toList = [] := by
  refine ⟨_, compile_interpolation, ?_, ?_⟩ <;> decide +kernel

end Highlight.Noze
