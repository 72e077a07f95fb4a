import Highlight.Noze
import Highlight.Proofs.Pattern.Words

/-! What the rule for keywords matches, and that it may list them in any order. -/

namespace Highlight.Noze

open Pattern

def spelling (k : String) : List Char := k.toList.filter (· != '\\')

def words : List (List Char) := keywords.map spelling

section

variable {k : String}

lemma toList_keyword (h : k ∈ keywords) : k.toList = escaped (spelling k) := by
  revert k
  decide

lemma spelling_ne_nil (h : k ∈ keywords) : spelling k ≠ [] := by
  revert k
  decide

lemma isUniform_spelling (h : k ∈ keywords) : IsUniform (spelling k) := by
  have hkinds : ∀ k ∈ keywords,
      (spelling k).all Unicode.isWord ∨ (spelling k).all (!Unicode.isWord ·) := by decide
  simpa [IsUniform] using hkinds k h

end

lemma intercalate_bar (ks : List String) (h : ∀ k ∈ ks, k ∈ keywords) (k : String) :
    ['|'].intercalate ((k :: ks).map String.toList) = k.toList ++ barred (ks.map spelling) := by
  induction ks generalizing k with
  | nil => simp [barred]
  | cons j ks ih =>
    have hj : j.toList = escaped (spelling j) := toList_keyword (h j (by simp))
    rw [List.map_cons, List.map_cons, List.intercalate_cons_cons, ← List.map_cons,
      ih (fun i hi => h i (by simp [hi])) j, List.map_cons, barred_cons, hj]
    simp

lemma toList_wordPattern {k : String} {ks : List String} (h : ∀ j ∈ k :: ks, j ∈ keywords) :
    (wordPattern (k :: ks)).toList =
      "\\b(".toList ++ (escaped (spelling k) ++ (barred (ks.map spelling) ++ ")\\b".toList)) := by
  rw [wordPattern, String.toList_append, String.toList_append, String.toList_intercalate,
    ← toList_keyword (h k (by simp)), List.append_assoc, ← List.append_assoc k.toList,
    ← intercalate_bar ks (fun j hj => h j (by simp [hj])) k]
  rfl

lemma compile_wordPattern {k : String} {ks : List String} (h : ∀ j ∈ k :: ks, j ∈ keywords) :
    compile (wordPattern (k :: ks)).toList = .ok (wordsOf (spelling k) (ks.map spelling)) := by
  rw [toList_wordPattern h]
  apply compile_words
  rintro v (_ | ⟨_, hv⟩)
  · exact spelling_ne_nil (h k (by simp))
  · obtain ⟨j, hj, rfl⟩ := List.mem_map.mp hv
    exact spelling_ne_nil (h j (by simp [hj]))

lemma ne_nil_of_mem_words {w : List Char} (h : w ∈ words) : w ≠ [] := by
  obtain ⟨k, hk, rfl⟩ := List.mem_map.mp h
  exact spelling_ne_nil hk

lemma isUniform_of_mem_words {w : List Char} (h : w ∈ words) : IsUniform w := by
  obtain ⟨k, hk, rfl⟩ := List.mem_map.mp h
  exact isUniform_spelling hk

theorem keyword_first_match : ∃ p, compile keywordPattern.toList = .ok p ∧ ∀ text start,
    (∀ groups, (p.searchAt? text start).map (·.spans text) = some groups ↔
      ∃ s e, IsLeast {s | start ≤ s ∧ ∃ e, WordAt words text s e} s ∧ WordAt words text s e ∧
        groups = [some (span text s e), some (span text s e)]) ∧
    ∀ s, {e | WordAt words text s e}.Subsingleton := by
  refine ⟨_, compile_wordPattern fun _ h => h, fun text start => ⟨fun groups => ?_, fun s e h e' h' => ?_⟩⟩
  · exact searchAt?_spans_wordsOf (fun _ => ne_nil_of_mem_words) (fun _ => isUniform_of_mem_words) text start
      groups
  · exact h.unique (fun _ => ne_nil_of_mem_words) (fun _ => isUniform_of_mem_words) h'

theorem keyword_order_free (ks : List String) (h : ∀ k, k ∈ ks ↔ k ∈ keywords) :
    ∃ p q, compile (wordPattern ks).toList = .ok p ∧ compile keywordPattern.toList = .ok q ∧
      ∀ text, p.allMatches text = q.allMatches text := by
  obtain ⟨k, ks, rfl⟩ : ∃ k js, ks = k :: js := by
    refine List.exists_cons_of_ne_nil ?_
    rintro rfl
    exact List.not_mem_nil ((h "_").mpr (by decide))
  have hwords (w : List Char) : w ∈ spelling k :: ks.map spelling ↔ w ∈ words := by
    rw [← List.map_cons]
    simp only [words, List.mem_map, h]
  refine ⟨_, _, compile_wordPattern fun j hj => (h j).mp hj, compile_wordPattern fun _ hj => hj, fun text => ?_⟩
  apply allMatches_congr
  intro origin s hs
  exact matchAt?_wordsOf_congr (fun _ => ne_nil_of_mem_words) (fun _ => isUniform_of_mem_words) hwords origin hs

theorem keyword_order_free_reverse : ∃ p q,
    compile (wordPattern (keywords.reverse ++ keywords)).toList = .ok p ∧ compile keywordPattern.toList = .ok q ∧
      ∀ text, p.allMatches text = q.allMatches text :=
  keyword_order_free (keywords.reverse ++ keywords) fun k => by simp

/-! ### Where a keyword stands -/

section

variable {u v w : List Char}

lemma any_isWord_of_isUniform (hw : IsUniform w) {o : Option Char} (ho : ∃ c ∈ w, o = some c) :
    o.any Unicode.isWord = w.all Unicode.isWord := by
  obtain ⟨c, hc, rfl⟩ := ho
  rw [Option.any_some]
  rcases hw with hall | hnone
  · rw [hall c hc, List.all_eq_true.mpr hall]
  · rw [hnone c hc, eq_comm, List.all_eq_false]
    exact ⟨c, hc, by simp [hnone c hc]⟩

lemma isWordBoundary_before (hw : IsUniform w) (hne : w ≠ []) : IsWordBoundary (u ++ w ++ v) u.length ↔
    u.getLast?.any Unicode.isWord ≠ w.all Unicode.isWord := by
  have hhead : (w ++ v).head? = some (w.head hne) := by
    rw [List.head?_append, List.head?_eq_some_head hne]
    rfl
  rw [IsWordBoundary, List.append_assoc, List.take_left, List.drop_left,
    any_isWord_of_isUniform hw ⟨_, List.head_mem hne, hhead⟩]

lemma isWordBoundary_behind (hw : IsUniform w) (hne : w ≠ []) :
    IsWordBoundary (u ++ w ++ v) (u.length + w.length) ↔ v.head?.any Unicode.isWord ≠ w.all Unicode.isWord := by
  have hlast : (u ++ w).getLast? = some (w.getLast hne) := by
    rw [List.getLast?_append, List.getLast?_eq_some_getLast hne]
    rfl
  rw [IsWordBoundary, ← List.length_append, List.take_left, List.drop_left,
    any_isWord_of_isUniform hw ⟨_, List.getLast_mem hne, hlast⟩, ne_comm]

lemma wordAt_iff (hmem : w ∈ words) : WordAt words (u ++ w ++ v) u.length (u.length + w.length) ↔
    u.getLast?.any Unicode.isWord ≠ w.all Unicode.isWord ∧ v.head?.any Unicode.isWord ≠ w.all Unicode.isWord := by
  have hw := isUniform_of_mem_words hmem
  have hne := ne_nil_of_mem_words hmem
  rw [← isWordBoundary_before hw hne, ← isWordBoundary_behind hw hne]
  constructor
  · intro h
    exact ⟨h.starts, h.ends⟩
  · rintro ⟨hs, he⟩
    refine ⟨by simp, ?_, hs, he⟩
    have hextract : (u ++ w ++ v).extract u.length (u.length + w.length) = w := by simp [List.extract_eq_take_drop]
    rwa [hextract]

end

theorem keyword_found_iff {k : String} (hk : k ∈ keywords) (u v : List Char) :
    ∃ p, compile keywordPattern.toList = .ok p ∧
      ((∃ m ∈ p.allMatches (u ++ spelling k ++ v), (m.spans (u ++ spelling k ++ v))[0]? =
          some (some (span (u ++ spelling k ++ v) u.length (u.length + (spelling k).length)))) ↔
        u.getLast?.any Unicode.isWord ≠ (spelling k).all Unicode.isWord ∧
          v.head?.any Unicode.isWord ≠ (spelling k).all Unicode.isWord) := by
  refine ⟨_, compile_wordPattern fun _ h => h, ?_⟩
  rw [← wordAt_iff (List.mem_map_of_mem hk)]
  apply exists_match_wordsOf_iff (fun _ => ne_nil_of_mem_words) fun _ => isUniform_of_mem_words
  · simp
  · simp

theorem keyword_found_between_spaces : "if" ∈ keywords ∧ ∃ p, compile keywordPattern.toList = .ok p ∧
    ∃ m ∈ p.allMatches "a if b".toList, (m.spans "a if b".toList)[0]? = some (some (2, 4)) := by
  have hk : "if" ∈ keywords := by decide
  obtain ⟨p, hp, h⟩ := keyword_found_iff hk "a ".toList " b".toList
  exact ⟨hk, p, hp, h.mpr (by decide)⟩

theorem operator_missed_between_spaces : "\\+" ∈ keywords ∧ ∃ p, compile keywordPattern.toList = .ok p ∧
    ¬ ∃ m ∈ p.allMatches "a + b".toList, (m.spans "a + b".toList)[0]? = some (some (2, 3)) := by
  refine ⟨by decide, _, compile_wordPattern fun _ h => h, ?_⟩
  have hnone : ((wordsOf (spelling "_") (keywords.tail.map spelling)).allMatches "a + b".toList).isEmpty := by
    decide +kernel
  rintro ⟨m, hm, -⟩
  exact List.ne_nil_of_mem hm (List.isEmpty_iff.mp hnone)

end Highlight.Noze
