import Highlight.Proofs.Noze.Name
import Highlight.Proofs.Pattern.Successive
import Highlight.Proofs.Pattern.Words

/-! What the rule for plain identifiers matches: at the first place where there is any, the longest name that
begins with a small letter and stands between word boundaries. -/

namespace Highlight.Noze

open Pattern

structure IdentifierAt (text : List Char) (s e : ℕ) : Prop where
  inside : e ≤ text.length
  first : (text.extract s e).head?.any Char.isLower
  letters : ∀ c ∈ text.extract s e, isNameChar c
  starts : IsWordBoundary text s
  ends : IsWordBoundary text e

def identifierPattern : Pattern :=
  ⟨.sequence (.anchor (.wordBoundary false)) (.sequence (.one (.range 0x61 0x7a))
    (.sequence (.loop .star {} (.one nameSet)) (.anchor (.wordBoundary false)))), 0, []⟩

lemma compile_identifier : compile "\\b[a-z][a-zA-Z0-9\\-]*\\b".toList = .ok identifierPattern := by
  decide +kernel

section

variable {text : List Char} {s e : ℕ}

lemma identifierAt_iff : IdentifierAt text s e ↔ IsWordBoundary text s ∧
    ∃ n : Name Char.isLower, n.text <+: text.drop s ∧ s + n.text.length = e ∧ IsWordBoundary text e := by
  constructor
  · rintro ⟨hinside, hfirst, hletters, hs, he⟩
    obtain ⟨c, w, hw, hc⟩ : ∃ c w, text.extract s e = c :: w ∧ c.isLower := by
      cases hextract : text.extract s e with
      | nil => simp [hextract] at hfirst
      | cons c w => exact ⟨c, w, rfl, by simpa [hextract] using hfirst⟩
    rw [hw] at hletters
    let n : Name Char.isLower := ⟨c, hc, ⟨w, fun d hd => hletters d (by simp [hd])⟩⟩
    obtain ⟨hpre, hlength⟩ := (extract_eq_iff (w := n.text) (by simp [Name.text])).mp ⟨hinside, hw⟩
    exact ⟨hs, n, hpre, hlength, he⟩
  · rintro ⟨hs, n, hpre, hlength, he⟩
    obtain ⟨hinside, hextract⟩ := (extract_eq_iff (by simp [Name.text])).mpr ⟨hpre, hlength⟩
    refine ⟨hinside, ?_, ?_, hs, he⟩
    · rw [hextract]
      exact n.isFirst
    · rw [hextract]
      exact n.isNameChar_of_mem fun _ => isNameChar_of_isLower

lemma IdentifierAt.lt (h : IdentifierAt text s e) : s < e := by
  obtain ⟨-, n, -, rfl, -⟩ := identifierAt_iff.mp h
  rw [Name.length_text]
  omega

lemma IdentifierAt.exists_greatest (h : IdentifierAt text s e) : ∃ e, IsGreatest {e | IdentifierAt text s e} e :=
  BddAbove.exists_isGreatest_of_nonempty ⟨text.length, fun _ h => h.inside⟩ ⟨e, h⟩

end

lemma prefers_identifier (origin : List Char) : (identifierPattern.matcher origin).Prefers fun s t =>
    s.isWordBoundary false ∧ ∃ n : {n : Name Char.isLower // (s.advance n.text.length).isWordBoundary false},
      IsLongest (fun n : {n : Name Char.isLower // (s.advance n.text.length).isWordBoundary false} => n.1.text)
        s.after n ∧ s.advance n.1.text.length = t :=
  ((reads_nameNode _ origin contains_lower).prefers_seq_check _).check_seq _

lemma finds_identifier (text : List Char) : identifierPattern.Finds text fun s m =>
    ∃ e, IsGreatest {e | IdentifierAt text s e} e ∧ identifierPattern.found (.place text s) (.place text e) = m where
  matchAt? origin s m := by
    have hends (n : Name Char.isLower) : ((State.place text s).advance n.text.length).isWordBoundary false ↔
        IsWordBoundary text (s + n.text.length) := by
      rw [State.place_advance, isWordBoundary_place]
    rw [(prefers_identifier origin).matchAt? (State.hidden_place text s)]
    simp only [State.place_advance, isWordBoundary_place text s]
    constructor
    · rintro ⟨_, ⟨hs, ⟨n, hn⟩, ⟨hpre, hmax⟩, rfl⟩, rfl⟩
      refine ⟨_, ⟨identifierAt_iff.mpr ⟨hs, n, hpre, rfl, (hends n).mp hn⟩, fun e he => ?_⟩, rfl⟩
      obtain ⟨-, n', hpre', rfl, hn'⟩ := identifierAt_iff.mp he
      exact Nat.add_le_add_left (hmax ⟨n', (hends n').mpr hn'⟩ hpre') s
    · rintro ⟨e, ⟨he, hmax⟩, rfl⟩
      obtain ⟨hs, n, hpre, rfl, hn⟩ := identifierAt_iff.mp he
      refine ⟨_, ⟨hs, ⟨n, (hends n).mpr hn⟩, ⟨hpre, fun n' hpre' => ?_⟩, rfl⟩, rfl⟩
      exact Nat.le_of_add_le_add_left (hmax (identifierAt_iff.mpr ⟨hs, n', hpre', rfl, (hends n').mp n'.2⟩))
  covers := by
    rintro s _ ⟨e, he, rfl⟩
    exact ⟨e, covers_found rfl he.1.lt he.1.inside⟩

lemma identifierAt_whole_iff {text : List Char} : IdentifierAt text 0 text.length ↔
    ∃ m, identifierPattern.searchAt? text 0 = some m ∧
      (m.spans text)[0]? = some (some (span text 0 text.length)) := by
  have hcovers {s e : ℕ} (h : IdentifierAt text s e) :
      (identifierPattern.found (.place text s) (.place text e)).Covers text s e := covers_found rfl h.lt h.inside
  constructor
  · intro h
    have hgreatest : IsGreatest {e | IdentifierAt text 0 e} text.length := ⟨h, fun _ he => he.inside⟩
    exact ⟨_, (finds_identifier text).searchAt?_of_first le_rfl ⟨_, hgreatest, rfl⟩ fun _ _ hle _ => hle,
      (hcovers h).spans⟩
  · rintro ⟨_, hm, hspan⟩
    obtain ⟨s, -, e, ⟨h, -⟩, rfl⟩ := (finds_identifier text).searchAt?_eq_some_iff.mp hm
    obtain ⟨rfl, rfl⟩ := ((hcovers h).spans_eq_iff (Nat.zero_le _) le_rfl).mp hspan
    exact h

theorem identifier_longest : ∃ pattern p, patterns[3]? = some (.single "" pattern none) ∧
    compile pattern.toList = .ok p ∧ ∀ text start,
      (∀ groups, (p.searchAt? text start).map (·.spans text) = some groups ↔
        ∃ s e, IsLeast {s | start ≤ s ∧ ∃ e, IdentifierAt text s e} s ∧ IsGreatest {e | IdentifierAt text s e} e ∧
          groups = [some (span text s e)]) ∧
      (p.searchAt? text start = none ↔ ∀ s e, start ≤ s → ¬ IdentifierAt text s e) := by
  refine ⟨_, identifierPattern, rfl, compile_identifier, fun text start => ?_⟩
  have hfinds := finds_identifier text
  have hhit (s : ℕ) : (∃ m e, IsGreatest {e | IdentifierAt text s e} e ∧
      identifierPattern.found (.place text s) (.place text e) = m) ↔ ∃ e, IdentifierAt text s e := by
    constructor
    · rintro ⟨_, e, he, -⟩
      exact ⟨e, he.1⟩
    · rintro ⟨e, he⟩
      obtain ⟨e', he'⟩ := he.exists_greatest
      exact ⟨_, e', he', rfl⟩
  constructor
  · intro groups
    rw [hfinds.searchAt?_spans]
    simp only [hhit]
    constructor
    · rintro ⟨s, hs, _, ⟨e, he, rfl⟩, rfl⟩
      exact ⟨s, e, hs, he, rfl⟩
    · rintro ⟨s, e, hs, he, rfl⟩
      exact ⟨s, hs, _, ⟨e, he, rfl⟩, rfl⟩
  · rw [hfinds.searchAt?_eq_none_iff]
    constructor
    · intro h s e hs he
      obtain ⟨e', he'⟩ := he.exists_greatest
      exact h s _ hs ⟨e', he', rfl⟩
    · rintro h s _ hs ⟨e, he, -⟩
      exact h s e hs he.1

end Highlight.Noze
