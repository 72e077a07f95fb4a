import Highlight.Proofs.Noze.Header
import Highlight.Proofs.Noze.Identifier
import Highlight.Proofs.Noze.Keyword
import Highlight.Proofs.Noze.Number
import Highlight.Proofs.Noze.TypeName

/-! Why the order of the rules matters: the type of a header is also a match of the rule for types, and a keyword
of letters lies within a match of the rule for plain identifiers, of which it takes the front if a hyphen comes next.
Numbers may come last, for none of these rules matches from a place inside of one. -/

namespace Highlight.Noze

open Pattern

/-! ### The type of a header -/

lemma exists_typeMatch {text : List Char} {s : ℕ} {h : Header} (hh : HeaderAt text s h) :
    ∃ m ∈ typePattern.allMatches text, ∃ a b, (h.groups text s)[2]? = some (some (a, b)) ∧
      (m.spans text)[0]? = some (some (a, b)) := by
  obtain ⟨n, c, d, v, hgroup, hdrop, hc, hd⟩ := hh.type_between
  have hpre : (TypeName.text ⟨none, h.type⟩) <+: text.drop (n + 1) := by
    rw [drop_succ_of_cons hdrop]
    exact List.prefix_append _ _
  obtain ⟨t, ht⟩ := exists_isLongest hpre
  obtain ⟨m, hm, i, e, ⟨t', ht', rfl⟩, hcovers, hle, hlt⟩ := (finds_typeName text).exists_mem_allMatches ⟨t, ht, rfl⟩
  obtain ⟨-, rfl⟩ := hcovers.unique (covers_reach t'.text_ne_nil (t'.unmarked_reach text i) ht'.1)
  obtain ⟨rfl, hlength⟩ := TypeName.between hdrop hc hd ht' hle hlt
  rw [← hlength] at hgroup
  exact ⟨_, hm, _, _, hgroup, hcovers.spans⟩

theorem header_type_is_type_name : ∃ headerText spec typeText p q,
    patterns[0]? = some (.single "keyword" headerText spec) ∧
      patterns[1]? = some (.single "support.type" typeText none) ∧
      compile headerText.toList = .ok p ∧ compile typeText.toList = .ok q ∧
      ∀ text, ∀ m ∈ p.allMatches text, ∃ m' ∈ q.allMatches text, ∃ a b,
        (m.spans text)[2]? = some (some (a, b)) ∧ (m'.spans text)[0]? = some (some (a, b)) := by
  refine ⟨_, _, _, headerPattern, typePattern, rfl, rfl, compile_header, compile_typeName, fun text m hm => ?_⟩
  obtain ⟨s, -, hmatch, -⟩ := (finds_header text).hit_of_mem_allMatches hm
  obtain ⟨h, hh, hspans⟩ := (exists_headerMatch_iff text s _).mp ⟨m, hmatch, rfl⟩
  rw [hspans]
  exact exists_typeMatch hh

theorem header_type_is_type_name_across_lines :
    ∃ m ∈ headerPattern.allMatches "\n fun Nat-List\n to-str".toList,
      ∃ m' ∈ typePattern.allMatches "\n fun Nat-List\n to-str".toList,
        (m.spans "\n fun Nat-List\n to-str".toList)[2]? = some (some (6, 14)) ∧
          (m'.spans "\n fun Nat-List\n to-str".toList)[0]? = some (some (6, 14)) := by
  obtain ⟨_, _, _, p, q, hheader, htype, hp, hq, h⟩ := header_type_is_type_name
  obtain ⟨⟩ := Option.some.inj hheader
  obtain ⟨⟩ := Option.some.inj htype
  obtain rfl : p = headerPattern := Except.ok.inj (hp.symm.trans compile_header)
  obtain rfl : q = typePattern := Except.ok.inj (hq.symm.trans compile_typeName)
  have hspans : (headerPattern.allMatches "\n fun Nat-List\n to-str".toList).map
      (·.spans "\n fun Nat-List\n to-str".toList) =
        [[some (0, 22), some (2, 5), some (6, 14), some (16, 22)]] := by decide +kernel
  have hmem := List.mem_singleton_self [some (0, 22), some (2, 5), some (6, 14), some (16, 22)]
  rw [← hspans] at hmem
  obtain ⟨m, hm, hgroups⟩ := List.mem_map.mp hmem
  obtain ⟨m', hm', a, b, hgroup, hwhole⟩ := h _ m hm
  rw [hgroups] at hgroup
  obtain ⟨⟩ := Option.some.inj (Option.some.inj hgroup)
  refine ⟨m, hm, m', hm', ?_, hwhole⟩
  rw [hgroups]
  rfl

/-! ### The keywords of letters -/

lemma isNameChar_of_mem_words {w : List Char} (h : w ∈ words) (hfirst : w.head?.any Char.isLower) :
    ∀ c ∈ w, isNameChar c := by
  have hletters : ∀ w ∈ words, w.head?.any Char.isLower → w.all isNameChar := by decide
  exact List.all_eq_true.mp (hletters w h hfirst)

section

variable {text : List Char} {i s e e' : ℕ}

lemma head?_extract (h : s < e) : (text.extract s e).head? = text[s]? := by
  rw [List.extract_eq_take_drop, List.head?_take, if_neg (by omega), List.head?_drop]

lemma mem_extract {c : Char} : c ∈ text.extract s e ↔ ∃ k, s ≤ k ∧ k < e ∧ text[k]? = some c := by
  simp only [List.extract_eq_take_drop, List.mem_iff_getElem?, List.getElem?_take, Option.ite_none_right_eq_some,
    List.getElem?_drop]
  constructor
  · rintro ⟨k, hlt, hk⟩
    exact ⟨s + k, by omega, by omega, hk⟩
  · rintro ⟨k, hs, he, hk⟩
    refine ⟨k - s, by omega, ?_⟩
    rwa [Nat.add_sub_cancel' hs]

lemma IdentifierAt.union (h : IdentifierAt text i e) (h' : IdentifierAt text s e') (hi : i ≤ s) (hs : s ≤ e) :
    IdentifierAt text i e' where
  inside := h'.inside
  first := by
    have hlt := h'.lt
    rw [head?_extract (by omega), ← head?_extract h.lt]
    exact h.first
  letters c hc := by
    obtain ⟨k, hik, hke, hk⟩ := mem_extract.mp hc
    rcases Nat.lt_or_ge k s with hlt | hge
    · exact h.letters c (mem_extract.mpr ⟨k, hik, by omega, hk⟩)
    · exact h'.letters c (mem_extract.mpr ⟨k, hge, hke, hk⟩)
  starts := h.starts
  ends := h'.ends

lemma identifierAt_of_wordAt (h : WordAt words text s e) (hfirst : text[s]?.any Char.isLower) :
    IdentifierAt text s e := by
  have hhead : (text.extract s e).head?.any Char.isLower := by
    rwa [head?_extract (h.lt fun _ => ne_nil_of_mem_words)]
  exact ⟨h.inside, hhead, isNameChar_of_mem_words h.spelled hhead, h.starts, h.ends⟩

lemma IdentifierAt.exists_match (h : IdentifierAt text s e) : ∃ m ∈ identifierPattern.allMatches text, ∃ i e',
    m.Covers text i e' ∧ i ≤ s ∧ e ≤ e' := by
  obtain ⟨e₀, he₀⟩ := h.exists_greatest
  obtain ⟨m, hm, i, e', ⟨e₁, ⟨he₁, hmax⟩, rfl⟩, hcovers, hle, hlt⟩ :=
    (finds_identifier text).exists_mem_allMatches ⟨e₀, he₀, rfl⟩
  obtain ⟨-, rfl⟩ := hcovers.unique (covers_found rfl he₁.lt he₁.inside)
  -- The match may begin before `s`, but it ends no earlier than what both of them make together.
  exact ⟨_, hm, i, e', hcovers, hle, hmax (he₁.union h hle hlt.le)⟩

end

theorem keyword_inside_identifier : ∃ identifierText p q,
    patterns[2]? = some (.single "keyword" keywordPattern none) ∧
      patterns[3]? = some (.single "" identifierText none) ∧
      compile keywordPattern.toList = .ok p ∧ compile identifierText.toList = .ok q ∧
      ∀ text, ∀ m ∈ p.allMatches text, ∀ s e, (m.spans text)[0]? = some (some (span text s e)) →
        text[s]?.any Char.isLower → ∃ m' ∈ q.allMatches text, ∃ a b, (m'.spans text)[0]? = some (some (a, b)) ∧
          a ≤ (span text s e).1 ∧ (span text s e).2 ≤ b := by
  refine ⟨_, _, identifierPattern, rfl, rfl, compile_wordPattern fun _ h => h, compile_identifier, ?_⟩
  intro text m hm s e hspan hfirst
  have hfinds := finds_wordsOf (fun _ => ne_nil_of_mem_words) (fun _ => isUniform_of_mem_words) text
  obtain ⟨s', -, ⟨e', hword, rfl⟩, -⟩ := hfinds.hit_of_mem_allMatches hm
  have hlt := hword.lt fun _ => ne_nil_of_mem_words
  rw [spans_wordsOf (fun _ => ne_nil_of_mem_words) hword] at hspan
  have hspan : span text s' e' = span text s e := Option.some.inj (Option.some.inj hspan)
  have hs : s < text.length := by
    by_contra hs
    simp [List.getElem?_eq_none (Nat.le_of_not_lt hs)] at hfirst
  obtain rfl : s' = s := by
    apply (strictMonoOn_offset text).injOn (hlt.le.trans hword.inside) hs.le
    exact congrArg Prod.fst hspan
  obtain ⟨m, hm, i, j, hcovers, hi, hj⟩ := (identifierAt_of_wordAt hword hfirst).exists_match
  have hmono := (strictMonoOn_offset text).monotoneOn
  rw [← hspan]
  exact ⟨m, hm, _, _, hcovers.spans, hmono (hi.trans hs.le) hs.le hi, hmono hword.inside hcovers.inside hj⟩

theorem keyword_inside_identifier_behind_hyphen :
    ∃ p, compile keywordPattern.toList = .ok p ∧ ∃ m ∈ p.allMatches "a-if".toList,
      (m.spans "a-if".toList)[0]? = some (some (2, 4)) ∧
        ∃ m' ∈ identifierPattern.allMatches "a-if".toList, ∃ a b,
          (m'.spans "a-if".toList)[0]? = some (some (a, b)) ∧ a ≤ 2 ∧ 4 ≤ b := by
  obtain ⟨_, p, q, -, hidentifier, hp, hq, h⟩ := keyword_inside_identifier
  obtain ⟨⟩ := Option.some.inj hidentifier
  obtain rfl : q = identifierPattern := Except.ok.inj (hq.symm.trans compile_identifier)
  have hwords : p = wordsOf (spelling "_") (keywords.tail.map spelling) :=
    Except.ok.inj (hp.symm.trans (compile_wordPattern fun _ h => h))
  have hmem : [some (2, 4), some (2, 4)] ∈ (p.allMatches "a-if".toList).map (·.spans "a-if".toList) := by
    rw [hwords]
    decide +kernel
  obtain ⟨m, hm, hgroups⟩ := List.mem_map.mp hmem
  have hwhole : (m.spans "a-if".toList)[0]? = some (some (2, 4)) := by
    rw [hgroups]
    rfl
  exact ⟨p, hp, m, hm, hwhole, h _ m hm 2 4 hwhole (by decide)⟩

/-! ### The front of an identifier -/

section

variable {text v w : List Char} {e : ℕ}

lemma wordAt_front_iff (hw : w ∈ words) (h : IdentifierAt (w ++ v) 0 (w ++ v).length) :
    WordAt words (w ++ v) 0 w.length ↔ v.head?.all (· == '-') := by
  have hword : w.all Unicode.isWord := by
    obtain ⟨c, w, rfl⟩ := List.exists_cons_of_ne_nil (ne_nil_of_mem_words hw)
    have hlower : c.isLower := by simpa using h.first
    rw [← any_isWord_of_isUniform (isUniform_of_mem_words hw) ⟨c, by simp, rfl⟩]
    exact isWord_of_isAlpha (isAlpha_of_isLower hlower)
  have hbehind : v.head?.any Unicode.isWord = !v.head?.all (· == '-') := by
    cases v with
    | nil => rfl
    | cons c v =>
      apply isWord_of_isNameChar
      apply h.letters
      rw [List.extract_eq_take_drop, List.drop_zero, Nat.sub_zero, List.take_length]
      simp
  have hends := wordAt_iff (u := []) (v := v) hw
  rw [hword, hbehind] at hends
  simpa using hends

lemma wordAt_identifier_iff (h : IdentifierAt text 0 text.length) : WordAt words text 0 e ↔
    ∃ k ∈ keywords, ∃ v, text = spelling k ++ v ∧ e = (spelling k).length ∧ v.head?.all (· == '-') := by
  constructor
  · intro hword
    obtain ⟨k, hk, hspelled⟩ := List.mem_map.mp hword.spelled
    have hlength := hword.length_eq fun _ => ne_nil_of_mem_words
    have htext : spelling k ++ text.drop e = text := by
      rw [hspelled]
      simp [List.extract_eq_take_drop]
    rw [← hspelled, Nat.zero_add] at hlength
    refine ⟨k, hk, text.drop e, htext.symm, hlength.symm, ?_⟩
    rw [← htext] at h
    apply (wordAt_front_iff (List.mem_map_of_mem hk) h).mp
    rwa [htext, hlength]
  · rintro ⟨k, hk, v, rfl, rfl, hv⟩
    exact (wordAt_front_iff (List.mem_map_of_mem hk) h).mpr hv

end

theorem keyword_before_hyphen_iff (w : List Char) (b : ℕ) (hw : w ∉ words) : ∃ identifierText p q,
    patterns[2]? = some (.single "keyword" keywordPattern none) ∧
      patterns[3]? = some (.single "" identifierText none) ∧
      compile keywordPattern.toList = .ok p ∧ compile identifierText.toList = .ok q ∧
      ∀ m, q.searchAt? w 0 = some m → (m.spans w)[0]? = some (some (span w 0 w.length)) →
        ((∃ m', p.searchAt? w 0 = some m' ∧ (m'.spans w)[0]? = some (some (0, b))) ↔
          ∃ k ∈ keywords, ∃ v, w = spelling k ++ '-' :: v ∧ b = offset w ('-' :: v)) := by
  refine ⟨_, _, identifierPattern, rfl, rfl, compile_wordPattern fun _ h => h, compile_identifier, ?_⟩
  intro m hm hspan
  have hidentifier := identifierAt_whole_iff.mpr ⟨m, hm, hspan⟩
  rw [exists_front_wordsOf_iff (fun _ => ne_nil_of_mem_words) fun _ => isUniform_of_mem_words]
  constructor
  · rintro ⟨e, hword, rfl⟩
    obtain ⟨k, hk, v, htext, rfl, hv⟩ := (wordAt_identifier_iff hidentifier).mp hword
    rw [htext, List.drop_left]
    cases v with
    | nil =>
      rw [htext, List.append_nil] at hw
      exact absurd (List.mem_map_of_mem hk) hw
    | cons c v =>
      obtain rfl : c = '-' := by simpa using hv
      exact ⟨k, hk, v, rfl, rfl⟩
  · rintro ⟨k, hk, v, htext, rfl⟩
    refine ⟨_, (wordAt_identifier_iff hidentifier).mpr ⟨k, hk, '-' :: v, htext, rfl, rfl⟩, ?_⟩
    rw [htext, List.drop_left]

theorem keyword_before_hyphen_twice : "if-as-c".toList ∉ words ∧
    (∃ m, identifierPattern.searchAt? "if-as-c".toList 0 = some m ∧
      (m.spans "if-as-c".toList)[0]? = some (some (span "if-as-c".toList 0 7))) ∧
    ∃ p, compile keywordPattern.toList = .ok p ∧ ∃ m, p.searchAt? "if-as-c".toList 0 = some m ∧
      (m.spans "if-as-c".toList)[0]? = some (some (0, 2)) := by
  have hw : "if-as-c".toList ∉ words := by decide
  obtain ⟨_, p, q, -, hidentifier, hp, hq, h⟩ := keyword_before_hyphen_iff _ 2 hw
  obtain ⟨⟩ := Option.some.inj hidentifier
  obtain rfl : q = identifierPattern := Except.ok.inj (hq.symm.trans compile_identifier)
  have hwhole : IdentifierAt "if-as-c".toList 0 7 :=
    ⟨by decide, by decide, List.all_eq_true.mp (by decide), by decide, by decide⟩
  obtain ⟨m, hm, hspan⟩ := identifierAt_whole_iff.mp hwhole
  exact ⟨hw, ⟨m, hm, hspan⟩, p, hp, (h m hm hspan).mpr ⟨"if", by decide, "as-c".toList, rfl, by decide⟩⟩

theorem keyword_front_of_identifier : "get-name".toList ∉ words ∧
    (∃ q, compile "\\b[a-z][a-zA-Z0-9\\-]*\\b".toList = .ok q ∧ ∃ m, q.searchAt? "get-name".toList 0 = some m ∧
      (m.spans "get-name".toList)[0]? = some (some (0, 8))) ∧
    ∃ p, compile keywordPattern.toList = .ok p ∧ ∃ m, p.searchAt? "get-name".toList 0 = some m ∧
      (m.spans "get-name".toList)[0]? = some (some (0, 3)) := by
  have hwhole : IdentifierAt "get-name".toList 0 8 :=
    ⟨by decide, by decide, List.all_eq_true.mp (by decide), by decide, by decide⟩
  refine ⟨by decide, ⟨_, compile_identifier, identifierAt_whole_iff.mp hwhole⟩, _, compile_wordPattern fun _ h => h, ?_⟩
  have hfront : (((wordsOf (spelling "_") (keywords.tail.map spelling)).searchAt? "get-name".toList 0).map
      (·.spans "get-name".toList)).map (·[0]?) = some (some (some (0, 3))) := by decide +kernel
  rwa [Option.map_map, Option.map_eq_some_iff] at hfront

/-! ### Numbers -/

def IsOpening (text : List Char) (n : ℕ) : Prop :=
  ∃ c, text[n]? = some c ∧ Unicode.isDigit c = false ∧ c ≠ '.' ∧ (c.isLower → IsWordBoundary text n)

section

variable {text : List Char} {s n e : ℕ}

lemma Numeral.not_opening {k : Numeral} (h : k.text <+: text.drop s) (hs : s ≤ n) (he : n < s + k.text.length) :
    ¬ IsOpening text n := by
  rintro ⟨c, hc, hdigit, hdot, hboundary⟩
  have hmem : c ∈ k.text := by
    rw [← ((extract_eq_iff k.text_ne_nil).mpr ⟨h, rfl⟩).2]
    exact mem_extract.mpr ⟨n, hs, he, hc⟩
  have hnot : ¬ Unicode.isDigit c := by simp [hdigit]
  rcases k.chars with hall | hall
  · exact (hall c hmem).elim hnot hdot
  · have hlower : c.isLower := (hall c hmem).resolve_left hnot
    have hword : IsUniform k.text := .inl fun d hd => (hall d hd).elim isWord_of_isDigit fun h =>
      isWord_of_isAlpha (isAlpha_of_isLower h)
    -- A number begins with a digit, so the letter comes later and goes on with a word.
    have hlater : s ≠ n := by
      rintro rfl
      obtain ⟨d, rest, hd, hfirst⟩ := head_numeral k
      rw [hd] at h
      obtain rfl := Option.some.inj (hc.symm.trans (getElem?_of_cons h))
      exact hnot hfirst
    exact not_isWordBoundary_inside hword h (hs.lt_of_ne hlater) he (hboundary hlower)

lemma Literal.not_opening {l : Literal} (h : l.text <+: text.drop s) (hs : s < n) (he : n < s + l.text.length) :
    ¬ IsOpening text n := by
  have hsign : l.signText.length ≤ 1 := by
    rw [Literal.signText]
    cases l.sign <;> simp
  have hlength : l.text.length = l.signText.length + l.numeral.text.length := List.length_append
  obtain ⟨-, hnumeral⟩ := append_prefix_iff.mp h
  rw [List.drop_drop] at hnumeral
  apply Numeral.not_opening hnumeral
  · omega
  · omega

lemma TypeName.opening {t : TypeName} (h : t.text <+: text.drop n) : IsOpening text n := by
  obtain ⟨_ | k, name⟩ := t
  · have hupper := name.isFirst
    refine ⟨name.letter, getElem?_of_cons h, not_isDigit_of_isAlpha (isAlpha_of_isUpper hupper), ?_, ?_⟩
    · intro hdot
      rw [hdot] at hupper
      cases hupper
    · intro hlower
      rw [not_isLower_of_isUpper hupper] at hlower
      cases hlower
  · obtain ⟨hdigit, hdot, hlower⟩ : Unicode.isDigit k.char = false ∧ k.char ≠ '.' ∧ ¬ k.char.isLower := by
      cases k <;> decide
    exact ⟨k.char, getElem?_of_cons h, hdigit, hdot, fun h => absurd h hlower⟩

lemma opening_of_wordAt (h : WordAt words text n e) : IsOpening text n := by
  have hheads : ∀ w ∈ words, w.head?.any fun c => !Unicode.isDigit c && c != '.' := by decide
  have hhead := hheads _ h.spelled
  rw [head?_extract (h.lt fun _ => ne_nil_of_mem_words), Option.any_eq_true] at hhead
  obtain ⟨c, hc, hkind⟩ := hhead
  simp only [Bool.and_eq_true, Bool.not_eq_true', bne_iff_ne] at hkind
  exact ⟨c, hc, hkind.1, hkind.2, fun _ => h.starts⟩

lemma IdentifierAt.opening (h : IdentifierAt text n e) : IsOpening text n := by
  have hfirst := h.first
  rw [head?_extract h.lt, Option.any_eq_true] at hfirst
  obtain ⟨c, hc, hlower⟩ := hfirst
  refine ⟨c, hc, not_isDigit_of_isAlpha (isAlpha_of_isLower hlower), ?_, fun _ => h.starts⟩
  rintro rfl
  cases hlower

end

section

variable {p : Pattern} {text : List Char} {hit : ℕ → Match → Prop} {start a b : ℕ} {m : Match}

lemma exists_opening (hp : p.Finds text hit) (hopening : ∀ {s m}, hit s m → IsOpening text s)
    (hm : p.searchAt? text start = some m) (hspan : (m.spans text)[0]? = some (some (a, b))) :
    ∃ n ≤ text.length, IsOpening text n ∧ a = offset text (text.drop n) := by
  obtain ⟨n, -, hhit⟩ := hp.searchAt?_eq_some_iff.mp hm
  obtain ⟨e, he⟩ := hp.covers hhit
  rw [he.spans] at hspan
  cases hspan
  exact ⟨n, he.lt.le.trans he.inside, hopening hhit, rfl⟩

lemma exists_literal (hm : literalPattern.searchAt? text start = some m)
    (hspan : (m.spans text)[0]? = some (some (a, b))) :
    ∃ s, ∃ l : Literal, l.text <+: text.drop s ∧ (a, b) = span text s (s + l.text.length) := by
  obtain ⟨s, l, -, hl, rfl⟩ := ((reads_literalPattern _).searchAt?_eq_some_iff m).mp hm
  rw [spans_found] at hspan
  exact ⟨s, l, hl.1, (Option.some.inj (Option.some.inj hspan)).symm⟩

lemma not_inside_number {i j : ℕ} {m' : Match} {start' : ℕ} (hm : literalPattern.searchAt? text start = some m)
    (hspan : (m.spans text)[0]? = some (some (i, j))) (hp : p.Finds text hit)
    (hopening : ∀ {s m}, hit s m → IsOpening text s) (hm' : p.searchAt? text start' = some m')
    (hspan' : (m'.spans text)[0]? = some (some (a, b))) : ¬ (i < a ∧ a < j) := by
  obtain ⟨s, l, hl, hij⟩ := exists_literal hm hspan
  obtain ⟨n, hn, hopen, rfl⟩ := exists_opening hp hopening hm' hspan'
  obtain ⟨rfl, rfl⟩ := Prod.mk.inj hij
  have hend : s + l.text.length ≤ text.length := ((extract_eq_iff l.text_ne_nil).mpr ⟨hl, rfl⟩).1
  have hstart : s ≤ text.length := (Nat.le_add_right _ _).trans hend
  rintro ⟨hs, he⟩
  apply Literal.not_opening hl _ _ hopen
  · exact (offset_lt_iff hstart hn).mp hs
  · exact (offset_lt_iff hn hend).mp he

end

theorem number_unbroken : ∃ numberText typeText identifierText p q r t,
    patterns[8]? = some (.single "constant.numeric" numberText none) ∧
      patterns[1]? = some (.single "support.type" typeText none) ∧
      patterns[2]? = some (.single "keyword" keywordPattern none) ∧
      patterns[3]? = some (.single "" identifierText none) ∧
      compile numberText.toList = .ok p ∧ compile typeText.toList = .ok q ∧ compile keywordPattern.toList = .ok r ∧
      compile identifierText.toList = .ok t ∧
      ∀ text start m i j, p.searchAt? text start = some m → (m.spans text)[0]? = some (some (i, j)) →
        ∀ rule ∈ [q, r, t], ∀ start' m' a b, rule.searchAt? text start' = some m' →
          (m'.spans text)[0]? = some (some (a, b)) → ¬ (i < a ∧ a < j) := by
  refine ⟨_, _, _, literalPattern, typePattern, _, identifierPattern, rfl, rfl, rfl, rfl, compile_number,
    compile_typeName, compile_wordPattern fun _ h => h, compile_identifier, ?_⟩
  intro text start m i j hm hspan rule hrule start' m' a b hm' hspan'
  rcases hrule with _ | ⟨_, _ | ⟨_, _ | ⟨_, hrule⟩⟩⟩
  · apply not_inside_number hm hspan (finds_typeName text) _ hm' hspan'
    rintro s _ ⟨t, ht, -⟩
    exact TypeName.opening ht.1
  · apply not_inside_number hm hspan (finds_wordsOf (fun _ => ne_nil_of_mem_words) (fun _ => isUniform_of_mem_words) text)
      _ hm' hspan'
    rintro s _ ⟨e, he, -⟩
    exact opening_of_wordAt he
  · apply not_inside_number hm hspan (finds_identifier text) _ hm' hspan'
    rintro s _ ⟨e, he, -⟩
    exact IdentifierAt.opening he.1
  · cases hrule

theorem number_unbroken_before_capital :
    ∃ m, literalPattern.searchAt? "-0xcB".toList 0 = some m ∧ (m.spans "-0xcB".toList)[0]? = some (some (0, 4)) ∧
      ∃ m', typePattern.searchAt? "-0xcB".toList 0 = some m' ∧ (m'.spans "-0xcB".toList)[0]? = some (some (4, 5)) ∧
        ¬ (0 < 4 ∧ 4 < 4) := by
  obtain ⟨_, _, _, p, q, r, t, hnumber, htype, -, -, hp, hq, -, -, h⟩ := number_unbroken
  obtain ⟨⟩ := Option.some.inj hnumber
  obtain ⟨⟩ := Option.some.inj htype
  obtain rfl : p = literalPattern := Except.ok.inj (hp.symm.trans compile_number)
  obtain rfl : q = typePattern := Except.ok.inj (hq.symm.trans compile_typeName)
  have hliteral : ((literalPattern.searchAt? "-0xcB".toList 0).map (·.spans "-0xcB".toList)).map (·[0]?) =
      some (some (some (0, 4))) := by decide +kernel
  have hname : ((typePattern.searchAt? "-0xcB".toList 0).map (·.spans "-0xcB".toList)).map (·[0]?) =
      some (some (some (4, 5))) := by decide +kernel
  rw [Option.map_map, Option.map_eq_some_iff] at hliteral hname
  obtain ⟨m, hm, hspan⟩ := hliteral
  obtain ⟨m', hm', hspan'⟩ := hname
  exact ⟨m, hm, hspan, m', hm', hspan', h _ _ _ _ _ hm hspan typePattern (by simp) _ _ _ _ hm' hspan'⟩

end Highlight.Noze
