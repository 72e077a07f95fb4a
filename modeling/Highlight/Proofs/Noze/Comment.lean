import Highlight.Proofs.Noze.Header

/-! What the rule for comments matches: a bar, white space, and what is left of a line. That white space may be the end
of a line, as it may be in a header, so neither rule keeps to one line. -/

namespace Highlight.Noze

open Pattern

structure Comment where
  space : {c // Unicode.isSpace c}
  more : Stretch (· != '\n')

namespace Comment

def text (c : Comment) : List Char := '|' :: c.space.1 :: c.more.text

lemma length_text (c : Comment) : c.text.length = 2 + c.more.text.length := by
  rw [text, List.length_cons, List.length_cons]
  omega

lemma text_ne_nil (c : Comment) : c.text ≠ [] := List.cons_ne_nil _ _

lemma newline_mem_text (c : Comment) : '\n' ∈ c.text ↔ c.space.1 = '\n' := by
  have hmore : '\n' ∉ c.more.text := fun h => by simpa using c.more.all _ h
  simp [text, hmore, eq_comm]

end Comment

def commentPattern : Pattern :=
  ⟨.sequence (.literal ['|']) (.sequence (.one (.property .space)) (.loop .star {} (.one .notNewline))), 0, []⟩

lemma compile_comment : compile "\\|\\s.*".toList = .ok commentPattern := by
  decide +kernel

/-! ### Matching -/

lemma reads_lineEnd (call : ℕ → Matcher) (origin : List Char) :
    ((Node.loop .star {} (.one .notNewline)).matcher call origin).Reads
      (fun w : Stretch (· != '\n') => w.text) fun w s => s.advance w.text.length := by
  rw [← CharSet.contains_notNewline]
  exact .star _

lemma reads_comment (origin : List Char) : (commentPattern.matcher origin).Reads Comment.text
    fun c s => s.advance c.text.length := by
  have hline (call) := (Matcher.Reads.one Unicode.isSpace).seq_of_length_eq (reads_lineEnd call origin) fun _ _ => rfl
  have h (call) := (hline call).literal_seq ['|']
  refine (h _).of_surjective (g := fun c : Comment => (c.space, c.more)) ?_ ?_ ?_
  · rintro ⟨space, more⟩
    exact ⟨⟨space, more⟩, rfl⟩
  · intro c
    rfl
  · intro c
    funext s
    rw [State.advance_advance, State.advance_advance, Comment.length_text, ← Nat.add_assoc]
    rfl

lemma finds_comment (text : List Char) : commentPattern.Finds text fun s m =>
    ∃ c, IsLongest Comment.text (text.drop s) c ∧
      commentPattern.found (.place text s) ((State.place text s).advance c.text.length) = m :=
  Matcher.Reads.finds reads_comment Comment.text_ne_nil fun _ _ => State.place_advance ..

section

variable {text : List Char} {s : ℕ} {c : Comment}

lemma Comment.covers (h : c.text <+: text.drop s) :
    (commentPattern.found (.place text s) ((State.place text s).advance c.text.length)).Covers text s
      (s + c.text.length) := by
  have hpos := List.length_pos_of_ne_nil c.text_ne_nil
  obtain ⟨hinside, -⟩ := (extract_eq_iff c.text_ne_nil).mpr ⟨h, rfl⟩
  rw [State.place_advance]
  exact covers_found rfl (by omega) hinside

lemma Comment.ends_of_longest (hc : IsLongest Comment.text (text.drop s) c) :
    text[s + c.text.length]?.all (· == '\n') := by
  obtain ⟨rest, hrest⟩ := hc.1
  rw [← List.head?_drop, drop_of_append hrest.symm]
  cases rest with
  | nil => rfl
  | cons d v =>
    by_contra hd
    have hmore : d != '\n' := by simpa using hd
    apply hc.ne_concat hrest ⟨c.space, c.more.concat hmore⟩
    simp [Comment.text, Stretch.concat]

lemma Comment.exists_iff : (∃ c : Comment, c.text <+: text.drop s) ↔
    text[s]? = some '|' ∧ text[s + 1]?.any Unicode.isSpace := by
  rw [← List.head?_drop, ← List.head?_drop, ← List.drop_drop]
  constructor
  · rintro ⟨c, r, hr⟩
    rw [← hr]
    exact ⟨rfl, c.space.2⟩
  · rintro ⟨hbar, hspace⟩
    obtain ⟨r, hr⟩ := List.head?_eq_some_iff.mp hbar
    obtain ⟨d, hd, hspace⟩ := (Option.any_eq_true _ _).mp hspace
    rw [hr] at hd
    obtain ⟨v, rfl⟩ := List.head?_eq_some_iff.mp hd
    exact ⟨⟨⟨d, hspace⟩, ⟨[], by simp⟩⟩, v, hr.symm⟩

end

/-! ### Newlines -/

lemma NamedHeader.newline_mem_text (a : NamedHeader) : '\n' ∈ a.text ↔
    '\n' ∈ a.header.blank.text ∨ '\n' ∈ a.header.gap.text ∨ '\n' ∈ a.header.space.text := by
  have hnot {w : List Char} (hw : ∀ c ∈ w, isNameChar c) : '\n' ∉ w := fun h => absurd (hw _ h) (by decide)
  have htype : '\n' ∉ a.header.type.text := hnot (a.header.type.isNameChar_of_mem fun _ => isNameChar_of_isUpper)
  have hname : '\n' ∉ a.name.text := hnot a.name.all
  simp [text, Header.text, htype, hname]

theorem newline_in_line_rules (text : List Char) (start : ℕ) : ∃ headerText spec commentText p q,
    patterns[0]? = some (.single "keyword" headerText spec) ∧
      patterns[6]? = some (.single "comment" commentText none) ∧
      compile headerText.toList = .ok p ∧ compile commentText.toList = .ok q ∧
      (∀ m, p.searchAt? text start = some m → ∃ s e, ∃ a : NamedHeader,
        (m.spans text)[0]? = some (some (span text s e)) ∧ text.extract s e = a.text ∧
          ('\n' ∈ text.extract s e ↔
            '\n' ∈ a.header.blank.text ∨ '\n' ∈ a.header.gap.text ∨ '\n' ∈ a.header.space.text)) ∧
      ((∃ m, q.searchAt? text start = some m) ↔
        ∃ s, start ≤ s ∧ text[s]? = some '|' ∧ text[s + 1]?.any Unicode.isSpace) ∧
      ∀ m, q.searchAt? text start = some m → ∃ s e, ∃ c : Comment,
        (m.spans text)[0]? = some (some (span text s e)) ∧ text.extract s e = c.text ∧
          text[e]?.all (· == '\n') ∧ ('\n' ∈ text.extract s e ↔ c.space.1 = '\n') := by
  refine ⟨_, _, _, headerPattern, commentPattern, rfl, rfl, compile_header, compile_comment, ?_, ?_, ?_⟩
  · intro m hm
    obtain ⟨s, -, -, a, ⟨hpre, -⟩, rfl⟩ := (finds_header text).searchAt?_eq_some_iff.mp hm
    obtain ⟨-, hextract⟩ := (extract_eq_iff a.text_ne_nil).mpr ⟨hpre, rfl⟩
    refine ⟨s, _, a, (covers_reach a.text_ne_nil (a.unmarked_reach s) hpre).spans, hextract, ?_⟩
    rw [hextract]
    exact a.newline_mem_text
  · rw [(finds_comment text).exists_searchAt?_iff]
    simp only [exists_and_left, ← Comment.exists_iff]
    refine exists_congr fun s => and_congr_right fun _ => ?_
    constructor
    · rintro ⟨_, c, hc, -⟩
      exact ⟨c, hc.1⟩
    · rintro ⟨c, hc⟩
      obtain ⟨d, hd⟩ := exists_isLongest hc
      exact ⟨_, d, hd, rfl⟩
  · intro m hm
    obtain ⟨s, -, c, hc, rfl⟩ := (finds_comment text).searchAt?_eq_some_iff.mp hm
    obtain ⟨-, hextract⟩ := (extract_eq_iff c.text_ne_nil).mpr ⟨hc.1, rfl⟩
    refine ⟨s, _, c, (c.covers hc.1).spans, hextract, c.ends_of_longest hc, ?_⟩
    rw [hextract]
    exact c.newline_mem_text

theorem newline_in_line_rules_at_line_end :
    ∃ m, headerPattern.searchAt? "fun A\nb |\nc".toList 0 = some m ∧ ∃ s e, ∃ a : NamedHeader,
      (m.spans "fun A\nb |\nc".toList)[0]? = some (some (span "fun A\nb |\nc".toList s e)) ∧
        "fun A\nb |\nc".toList.extract s e = a.text ∧ ('\n' ∈ "fun A\nb |\nc".toList.extract s e ↔
          '\n' ∈ a.header.blank.text ∨ '\n' ∈ a.header.gap.text ∨ '\n' ∈ a.header.space.text) ∧
    ∃ m, commentPattern.searchAt? "fun A\nb |\nc".toList 0 = some m ∧ ∃ s e, ∃ c : Comment,
      (m.spans "fun A\nb |\nc".toList)[0]? = some (some (span "fun A\nb |\nc".toList s e)) ∧
        "fun A\nb |\nc".toList.extract s e = c.text ∧
          ('\n' ∈ "fun A\nb |\nc".toList.extract s e ↔ c.space.1 = '\n') := by
  obtain ⟨_, _, _, p, q, hheader, hcomment, hp, hq, hnames, hbar, hlines⟩ :=
    newline_in_line_rules "fun A\nb |\nc".toList 0
  obtain ⟨⟩ := Option.some.inj hheader
  obtain ⟨⟩ := Option.some.inj hcomment
  obtain rfl : p = headerPattern := Except.ok.inj (hp.symm.trans compile_header)
  obtain rfl : q = commentPattern := Except.ok.inj (hq.symm.trans compile_comment)
  have hspans : (headerPattern.searchAt? "fun A\nb |\nc".toList 0).map (·.spans "fun A\nb |\nc".toList) =
      some [some (0, 7), some (0, 3), some (4, 5), some (6, 7)] := by decide +kernel
  obtain ⟨m, hm, -⟩ := Option.map_eq_some_iff.mp hspans
  obtain ⟨s, e, a, hspan, hextract, hnewline⟩ := hnames m hm
  obtain ⟨m', hm'⟩ := hbar.mpr ⟨8, Nat.zero_le _, rfl, by decide⟩
  obtain ⟨s', e', c, hspan', hextract', -, hnewline'⟩ := hlines m' hm'
  exact ⟨m, hm, s, e, a, hspan, hextract, hnewline, m', hm', s', e', c, hspan', hextract', hnewline'⟩

theorem comment_on_next_line : ∃ q, compile "\\|\\s.*".toList = .ok q ∧
    (q.allMatches "a |\nb".toList).map (·.spans "a |\nb".toList) = [[some (2, 5)]] ∧
      '\n' ∈ "a |\nb".toList.extract 2 5 := by
  refine ⟨_, compile_comment, ?_, by decide⟩
  decide +kernel

end Highlight.Noze
