import Highlight.Proofs.Noze.Name
import Highlight.Proofs.Pattern.Successive

/-! What the rule for the header of a function matches. It begins where a line begins, and its parts are found in
one way only. The name at its end is whatever characters of names come next, and may be missing. -/

namespace Highlight.Noze

open Pattern

structure Header where
  blank : Stretch Unicode.isSpace
  gap : Run Unicode.isSpace
  type : Name Char.isUpper
  space : Run Unicode.isSpace

structure NamedHeader where
  header : Header
  name : Stretch isNameChar

def IsLineStart (text : List Char) (n : ℕ) : Prop := n = 0 ∨ (text.take n).getLast? = some '\n'

namespace Header

def text (h : Header) : List Char :=
  h.blank.text ++ ("fun".toList ++ (h.gap.text ++ (h.type.text ++ h.space.text)))

def groups (input : List Char) (s : ℕ) (h : Header) : List (Option (ℕ × ℕ)) :=
  let word := s + h.blank.text.length
  let type := word + 3 + h.gap.text.length
  let typeEnd := runEnd isNameChar input type
  let name := runEnd Unicode.isSpace input typeEnd
  let e := runEnd isNameChar input name
  [some (span input s e), some (span input word (word + 3)), some (span input type typeEnd), some (span input name e)]

end Header

structure HeaderAt (text : List Char) (s : ℕ) (h : Header) : Prop where
  starts : IsLineStart text s
  reads : h.text <+: text.drop s

namespace NamedHeader

def text (a : NamedHeader) : List Char := a.header.text ++ a.name.text

def reach (a : NamedHeader) (s : State) : State :=
  let t := State.capturing 1 (·.advance 3) (s.advance a.header.blank.text.length)
  let t := State.capturing 2 (·.advance a.header.type.text.length) (t.advance a.header.gap.text.length)
  State.capturing 3 (·.advance a.name.text.length) (t.advance a.header.space.text.length)

end NamedHeader

/-! ### Compiling -/

def spacesNode (q : Quantifier) : Node := .loop q {} (.one (.property .space))

def headerNode : Node :=
  .sequence (spacesNode .star) (.sequence (.capture 1 (.literal "fun".toList)) (.sequence (spacesNode .plus)
    (.sequence (.capture 2 (nameNode (.range 0x41 0x5a))) (.sequence (spacesNode .plus)
      (.capture 3 (.loop .star {} (.one nameSet)))))))

def headerPattern : Pattern := ⟨.sequence (.anchor .lineStart) headerNode, 3, []⟩

lemma compile_header :
    compile "^\\s*(fun)\\s+([A-Z][a-zA-Z0-9\\-]*)\\s+([a-zA-Z0-9\\-]*)".toList = .ok headerPattern := by
  decide +kernel

/-! ### Matching -/

section

variable {c : Char}

lemma not_isSpace_of_isUpper (h : c.isUpper) : Unicode.isSpace c = false :=
  not_isSpace_of_isNameChar (isNameChar_of_isUpper h)

lemma not_isSpace_of_fun {v w : List Char} (h : "fun".toList ++ v = c :: w) : Unicode.isSpace c = false := by
  obtain ⟨rfl, -⟩ := List.cons.inj h
  decide

end

lemma reads_header (call : ℕ → Matcher) (origin : List Char) :
    (headerNode.matcher call origin).Reads NamedHeader.text NamedHeader.reach := by
  have hspaces := Matcher.Reads.plus Unicode.isSpace
  have hname := (reads_nameChars call origin).capture 3
  have hspace := hspaces.seq_of_head hname (fun {_ r} => all_of_lt r.all)
    fun {w _ _} hw => not_isSpace_of_isNameChar (w.all _ (by simp [hw]))
  have htype := ((reads_nameNode call origin contains_upper).capture 2).seq_of_head hspace Name.isNameChar_of_lt
    fun ha => not_isNameChar_of_isSpace (Run.head_of_append ha)
  have hgap := hspaces.seq_of_head htype (fun {_ r} => all_of_lt r.all)
    fun ha => not_isSpace_of_isUpper (Name.first_of_append ha)
  have hword := ((Matcher.Reads.literal "fun".toList).capture 1).seq_of_length_eq hgap fun _ _ => rfl
  have hblank := (Matcher.Reads.star Unicode.isSpace).seq_of_head hword (fun {_ r} => all_of_lt r.all) not_isSpace_of_fun
  refine hblank.of_surjective
    (g := fun a => (a.header.blank, (), a.header.gap, a.header.type, a.header.space, a.name)) ?_ ?_ ?_
  · rintro ⟨blank, ⟨⟩, gap, type, space, name⟩
    exact ⟨⟨⟨blank, gap, type, space⟩, name⟩, rfl⟩
  · rintro ⟨⟨blank, gap, type, space⟩, name⟩
    simp [NamedHeader.text, Header.text]
  · rintro ⟨⟨blank, gap, type, space⟩, name⟩
    rfl

lemma holds_lineStart {text : List Char} {n : ℕ} (h : text.drop n ≠ []) (origin : List Char) :
    (State.place text n).holds origin .lineStart ↔ IsLineStart text n := by
  have htext : text ≠ [] := by
    rintro rfl
    simp at h
  simp [State.holds, State.place, IsLineStart, htext, List.isEmpty_iff, h]

/-! ### The parts of a header -/

namespace Header

variable {h h' : Header} {input : List Char} {s : ℕ}

lemma length_text (h : Header) : h.text.length =
    h.blank.text.length + 3 + h.gap.text.length + h.type.text.length + h.space.text.length := by
  simp [text]
  omega

lemma isSpace_getLast? (h : Header) : h.text.getLast?.any Unicode.isSpace := by
  have hlast : h.text.getLast? = h.space.text.getLast? := by
    rw [text, ← List.append_assoc, ← List.append_assoc, ← List.append_assoc,
      List.getLast?_append_of_ne_nil _ h.space.ne_nil]
  rw [hlast, List.getLast?_eq_some_getLast h.space.ne_nil]
  exact h.space.all _ (List.getLast_mem _)

lemma groups_unique (hl : h.text <+: input.drop s) (hl' : h'.text <+: input.drop s) :
    h.groups input s = h'.groups input s := by
  obtain ⟨r, hr⟩ := hl
  obtain ⟨r', hr'⟩ := hl'
  rw [← hr'] at hr
  simp only [text, List.append_assoc] at hr
  obtain ⟨hblank, hrest⟩ := append_inj_of_all h.blank.all not_isSpace_of_fun h'.blank.all not_isSpace_of_fun hr
  obtain ⟨hgap, -⟩ := append_inj_of_all h.gap.all (fun ha => not_isSpace_of_isUpper (Name.first_of_append ha)) h'.gap.all
    (fun ha => not_isSpace_of_isUpper (Name.first_of_append ha)) (List.append_cancel_left hrest)
  rw [groups, groups, hblank, hgap]

lemma drop_gap {r : List Char} (hdrop : input.drop s = h.text ++ r) :
    input.drop (s + h.blank.text.length + 3) = h.gap.text ++ (h.type.text ++ (h.space.text ++ r)) := by
  simp only [text, List.append_assoc] at hdrop
  exact drop_of_append (drop_of_append hdrop)

section

variable {n v : List Char} (hdrop : input.drop s = h.text ++ (n ++ v)) (hn : ∀ c ∈ n, isNameChar c)
  (hv : ∀ {c w}, v = c :: w → isNameChar c = false) (hspace : ∀ {c w}, n ++ v = c :: w → Unicode.isSpace c = false)

include hdrop hn hv hspace

lemma groups_eq : h.groups input s =
    let word := s + h.blank.text.length
    let type := word + 3 + h.gap.text.length
    let name := s + h.text.length
    [some (span input s (name + n.length)), some (span input word (word + 3)),
      some (span input type (type + h.type.text.length)), some (span input name (name + n.length))] := by
  have htype := drop_of_append (drop_gap hdrop)
  have hspaces := drop_of_append htype
  have hname := drop_of_append hspaces
  have htypeEnds {c w} (hc : h.space.text ++ (n ++ v) = c :: w) : isNameChar c = false :=
    not_isNameChar_of_isSpace (Run.head_of_append hc)
  simp only [groups, runEnd_eq (h.type.isNameChar_of_mem fun _ => isNameChar_of_isUpper) htypeEnds htype,
    runEnd_eq h.space.all hspace hspaces, runEnd_eq hn hv hname, length_text, ← Nat.add_assoc]

lemma name_group : (h.groups input s)[3]? =
    some (some (span input (s + h.text.length) (s + h.text.length + n.length))) := by
  rw [groups_eq hdrop hn hv hspace]
  rfl

end

end Header

namespace NamedHeader

variable {input : List Char} {s : ℕ} {a : NamedHeader}

lemma length_text (a : NamedHeader) : a.text.length = a.header.blank.text.length + 3 + a.header.gap.text.length +
    a.header.type.text.length + a.header.space.text.length + a.name.text.length := by
  rw [text, List.length_append, Header.length_text]

lemma text_ne_nil (a : NamedHeader) : a.text ≠ [] := by
  simp [text, Header.text]

lemma unmarked_reach (a : NamedHeader) (s : ℕ) :
    (a.reach (.place input s)).unmarked = .place input (s + a.text.length) := by
  simp [reach, length_text, Nat.add_assoc]

lemma headerAt_header (hs : IsLineStart input s) (h : a.text <+: input.drop s) : HeaderAt input s a.header :=
  ⟨hs, (List.prefix_append _ _).trans h⟩

/-- A header that ended too early could be made longer: at the name, or at the white space if there is no name. -/
lemma ends_of_longest (ha : IsLongest text (input.drop s) a) : ∃ rest,
    input.drop s = a.header.text ++ (a.name.text ++ rest) ∧ (∀ {c v}, rest = c :: v → isNameChar c = false) ∧
      ∀ {c v}, a.name.text ++ rest = c :: v → Unicode.isSpace c = false := by
  obtain ⟨rest, hrest⟩ := ha.1
  obtain ⟨⟨blank, gap, type, space⟩, name⟩ := a
  have hmax {c v} (hc : rest = c :: v) := ha.ne_concat (by rw [← hc]; exact hrest)
  simp only [text, Header.text, List.append_assoc] at hmax
  refine ⟨rest, by rw [← hrest, text, List.append_assoc], fun {c v} hc => ?_, fun {c v} hc => ?_⟩
  · by_contra hchar
    apply hmax hc ⟨⟨blank, gap, type, space⟩, name.concat (Bool.eq_true_of_not_eq_false hchar)⟩
    simp [Stretch.concat]
  · cases hw : name.text with
    | nil =>
      rw [hw] at hc
      by_contra hchar
      apply hmax hc ⟨⟨blank, gap, type, space.concat (Bool.eq_true_of_not_eq_false hchar)⟩, name⟩
      simp [Run.concat, hw]
    | cons d w =>
      rw [hw] at hc
      obtain ⟨rfl, -⟩ := List.cons.inj hc
      exact not_isSpace_of_isNameChar (name.all d (by simp [hw]))

lemma spans_of_longest (ha : IsLongest text (input.drop s) a) :
    (headerPattern.found (.place input s) (a.reach (.place input s))).spans input = a.header.groups input s := by
  obtain ⟨rest, hdrop, hnameEnds, hspaceEnds⟩ := ends_of_longest ha
  rw [Header.groups_eq hdrop a.name.all hnameEnds hspaceEnds]
  simp [found, Match.spans, headerPattern, reach, State.capturing, span, List.range_succ, Header.length_text,
    ← Nat.add_assoc]

end NamedHeader

lemma HeaderAt.type_between {text : List Char} {s : ℕ} {h : Header} (hh : HeaderAt text s h) : ∃ n c d v,
    (h.groups text s)[2]? = some (some (span text (n + 1) (n + 1 + h.type.text.length))) ∧
      text.drop n = c :: (h.type.text ++ d :: v) ∧ Unicode.isSpace c ∧ Unicode.isSpace d := by
  obtain ⟨rest, hrest⟩ := hh.reads
  obtain ⟨g, c, hg⟩ := (List.eq_nil_or_concat' h.gap.text).resolve_left h.gap.ne_nil
  obtain ⟨d, v, hv⟩ := List.exists_cons_of_ne_nil h.space.ne_nil
  have hlength : h.gap.text.length = g.length + 1 := by rw [hg, List.length_append, List.length_singleton]
  have hc : Unicode.isSpace c := h.gap.all c (by simp [hg])
  have hd : Unicode.isSpace d := h.space.all d (by simp [hv])
  have hgap := Header.drop_gap hrest.symm
  rw [hv, List.cons_append] at hgap
  have hbefore : text.drop (s + h.blank.text.length + 3 + g.length) = c :: (h.type.text ++ d :: (v ++ rest)) := by
    apply drop_of_append
    simpa [hg] using hgap
  have htypeEnds {b : Char} {w : List Char} (hb : d :: (v ++ rest) = b :: w) : isNameChar b = false := by
    obtain ⟨rfl, -⟩ := List.cons.inj hb
    exact not_isNameChar_of_isSpace hd
  have htype := runEnd_eq (h.type.isNameChar_of_mem fun _ => isNameChar_of_isUpper) htypeEnds (drop_of_append hgap)
  refine ⟨s + h.blank.text.length + 3 + g.length, c, d, v ++ rest, ?_, hbefore, hc, hd⟩
  simp only [hlength, ← Nat.add_assoc] at htype
  simp [Header.groups, hlength, ← Nat.add_assoc, htype]

/-! ### Searching -/

def HeaderMatch (text : List Char) (s : ℕ) (m : Match) : Prop := IsLineStart text s ∧
  ∃ a, IsLongest NamedHeader.text (text.drop s) a ∧ headerPattern.found (.place text s) (a.reach (.place text s)) = m

section

variable (text : List Char)

lemma finds_header : headerPattern.Finds text (HeaderMatch text) where
  matchAt? origin s m := by
    have hprefers : (headerPattern.matcher origin).Prefers _ :=
      (reads_header _ origin).prefers.check_seq (·.holds origin .lineStart)
    have hne {a : NamedHeader} (ha : a.text <+: text.drop s) : text.drop s ≠ [] := by
      intro hnil
      rw [hnil, List.prefix_nil] at ha
      exact a.text_ne_nil ha
    rw [hprefers.matchAt? (State.hidden_place text s)]
    constructor
    · rintro ⟨_, ⟨hs, a, ha, rfl⟩, rfl⟩
      exact ⟨(holds_lineStart (hne ha.1) origin).mp hs, a, ha, rfl⟩
    · rintro ⟨hs, a, ha, rfl⟩
      exact ⟨_, ⟨(holds_lineStart (hne ha.1) origin).mpr hs, a, ha, rfl⟩, rfl⟩
  covers := by
    rintro s _ ⟨-, a, ⟨hpre, -⟩, rfl⟩
    exact ⟨_, covers_reach a.text_ne_nil (a.unmarked_reach s) hpre⟩

lemma exists_headerMatch_iff (s : ℕ) (groups : List (Option (ℕ × ℕ))) :
    (∃ m, HeaderMatch text s m ∧ m.spans text = groups) ↔ ∃ h, HeaderAt text s h ∧ groups = h.groups text s := by
  constructor
  · rintro ⟨_, ⟨hs, a, ha, rfl⟩, rfl⟩
    exact ⟨a.header, NamedHeader.headerAt_header hs ha.1, NamedHeader.spans_of_longest ha⟩
  · rintro ⟨h, hh, rfl⟩
    have hpre : (NamedHeader.text ⟨h, ⟨[], by simp⟩⟩) <+: text.drop s := by simpa [NamedHeader.text] using hh.reads
    obtain ⟨a, ha⟩ := exists_isLongest hpre
    refine ⟨_, ⟨hh.starts, a, ha, rfl⟩, ?_⟩
    rw [NamedHeader.spans_of_longest ha]
    exact Header.groups_unique (NamedHeader.headerAt_header hh.starts ha.1).reads hh.reads

lemma exists_headerMatch (s : ℕ) : (∃ m, HeaderMatch text s m) ↔ ∃ h, HeaderAt text s h := by
  constructor
  · rintro ⟨m, hm⟩
    obtain ⟨h, hh, -⟩ := (exists_headerMatch_iff text s _).mp ⟨m, hm, rfl⟩
    exact ⟨h, hh⟩
  · rintro ⟨h, hh⟩
    obtain ⟨m, hm, -⟩ := (exists_headerMatch_iff text s _).mpr ⟨h, hh, rfl⟩
    exact ⟨m, hm⟩

end

theorem header_parses_uniquely : ∃ pattern spec p, patterns[0]? = some (.single "keyword" pattern spec) ∧
    compile pattern.toList = .ok p ∧ ∀ text,
      (∀ origin s groups, (p.matchAt? origin (.place text s)).map (·.spans text) = some groups ↔
        ∃ h, HeaderAt text s h ∧ groups = h.groups text s) ∧
      ∀ start groups, (p.searchAt? text start).map (·.spans text) = some groups ↔
        ∃ s h, IsLeast {s | start ≤ s ∧ ∃ h, HeaderAt text s h} s ∧ HeaderAt text s h ∧ groups = h.groups text s := by
  refine ⟨_, _, headerPattern, rfl, compile_header, fun text => ⟨fun origin s groups => ?_, fun start groups => ?_⟩⟩
  · simp only [Option.map_eq_some_iff, (finds_header text).matchAt?, exists_headerMatch_iff]
  · rw [(finds_header text).searchAt?_spans]
    simp only [exists_headerMatch, exists_headerMatch_iff, exists_and_left]

/-! ### The name in a header -/

/-- Behind white space all the characters of a name that come next, which may be none. -/
structure NameAfter (u n v : List Char) : Prop where
  space : u.getLast?.any Unicode.isSpace
  chars : ∀ c ∈ n, isNameChar c
  stops : v.head?.any isNameChar = false

lemma any_head?_eq_false_iff {p : Char → Bool} {l : List Char} :
    l.head?.any p = false ↔ ∀ c v, l = c :: v → p c = false := by
  cases l <;> simp

section

variable {text u n v : List Char} {s : ℕ} {m : Match}

lemma NameAfter.isLower_head?_iff (h : NameAfter u n v) :
    n.head?.any Char.isLower ↔ (n ++ v).head?.any Char.isLower := by
  cases n with
  | cons c n => rfl
  | nil =>
    rw [List.nil_append]
    refine ⟨nofun, fun hlower => ?_⟩
    obtain ⟨c, hc, hlower⟩ := (Option.any_eq_true _ _).mp hlower
    have hstops := h.stops
    rw [hc, Option.any_some, isNameChar_of_isLower hlower] at hstops
    cases hstops

lemma HeaderMatch.exists_name (hm : HeaderMatch text s m) : ∃ u n v, text = u ++ (n ++ v) ∧ NameAfter u n v ∧
    (m.spans text)[3]? = some (some (span text u.length (u.length + n.length))) := by
  obtain ⟨-, a, ha, rfl⟩ := hm
  obtain ⟨rest, hdrop, hnameEnds, hspaceEnds⟩ := NamedHeader.ends_of_longest ha
  have hne : a.header.text ≠ [] := by simp [Header.text]
  have hs : (text.take s).length = s := by
    have hle := ((extract_eq_iff a.text_ne_nil).mpr ⟨ha.1, rfl⟩).1
    rw [List.length_take]
    omega
  refine ⟨text.take s ++ a.header.text, a.name.text, rest, ?_, ⟨?_, a.name.all, ?_⟩, ?_⟩
  · rw [List.append_assoc, ← hdrop, List.take_append_drop]
  · rw [List.getLast?_append_of_ne_nil _ hne]
    exact a.header.isSpace_getLast?
  · exact any_head?_eq_false_iff.mpr fun c v => hnameEnds
  · rw [NamedHeader.spans_of_longest ha, Header.name_group hdrop a.name.all hnameEnds hspaceEnds, List.length_append, hs]

end

theorem header_name_run (text : List Char) (start : ℕ) : ∃ pattern spec p,
    patterns[0]? = some (.single "keyword" pattern spec) ∧ compile pattern.toList = .ok p ∧
      ((∃ m, p.searchAt? text start = some m) ↔ ∃ s h, start ≤ s ∧ HeaderAt text s h) ∧
      ∀ m, p.searchAt? text start = some m → ∃ u n v, text = u ++ (n ++ v) ∧ NameAfter u n v ∧
        (m.spans text)[3]? = some (some (span text u.length (u.length + n.length))) ∧
          (n.head?.any Char.isLower ↔ (n ++ v).head?.any Char.isLower) := by
  refine ⟨_, _, headerPattern, rfl, compile_header, ?_, fun m hm => ?_⟩
  · simp only [(finds_header text).exists_searchAt?_iff, exists_and_left, exists_headerMatch]
  · obtain ⟨s, -, hmatch⟩ := (finds_header text).searchAt?_eq_some_iff.mp hm
    obtain ⟨u, n, v, htext, hname, hgroup⟩ := hmatch.exists_name
    exact ⟨u, n, v, htext, hname, hgroup, hname.isLower_head?_iff⟩

theorem header_name_run_capital : ∃ m, headerPattern.searchAt? "fun Nat Str".toList 0 = some m ∧
    (m.spans "fun Nat Str".toList)[3]? = some (some (8, 11)) ∧
      ∃ u n v, "fun Nat Str".toList = u ++ (n ++ v) ∧ NameAfter u n v ∧
        (m.spans "fun Nat Str".toList)[3]? = some (some (span "fun Nat Str".toList u.length (u.length + n.length))) ∧
          (n.head?.any Char.isLower ↔ (n ++ v).head?.any Char.isLower) := by
  obtain ⟨_, _, p, hrule, hp, -, h⟩ := header_name_run "fun Nat Str".toList 0
  obtain ⟨⟩ := Option.some.inj hrule
  obtain rfl : p = headerPattern := Except.ok.inj (hp.symm.trans compile_header)
  have hspans : (headerPattern.searchAt? "fun Nat Str".toList 0).map (·.spans "fun Nat Str".toList) =
      some [some (0, 11), some (0, 3), some (4, 7), some (8, 11)] := by decide +kernel
  obtain ⟨m, hm, hgroups⟩ := Option.map_eq_some_iff.mp hspans
  refine ⟨m, hm, ?_, h m hm⟩
  rw [hgroups]
  rfl

theorem header_without_name : ∃ pattern spec p, patterns[0]? = some (.single "keyword" pattern spec) ∧
    compile pattern.toList = .ok p ∧ ∃ m ∈ p.allMatches "fun Nat ".toList,
      (m.spans "fun Nat ".toList)[3]? = some (some (8, 8)) := by
  refine ⟨_, _, headerPattern, rfl, compile_header, ?_⟩
  have hspans : (headerPattern.allMatches "fun Nat ".toList).map (·.spans "fun Nat ".toList) =
      [[some (0, 8), some (0, 3), some (4, 7), some (8, 8)]] := by decide +kernel
  have hmem := List.mem_singleton_self [some (0, 8), some (0, 3), some (4, 7), some (8, 8)]
  rw [← hspans] at hmem
  obtain ⟨m, hm, hgroups⟩ := List.mem_map.mp hmem
  refine ⟨m, hm, ?_⟩
  rw [hgroups]
  rfl

end Highlight.Noze
