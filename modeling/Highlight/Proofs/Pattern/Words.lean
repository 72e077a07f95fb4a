import Highlight.Proofs.Pattern.Reading
import Highlight.Proofs.Pattern.Successive

/-! Words between word boundaries: how such a pattern is compiled, and that of the words that begin at one
place no more than one ends at a boundary, in whatever order they are tried. -/

namespace Highlight.Pattern

/-! ### Compiling -/

namespace Node

def isSimple : Node → Bool
  | .empty | .literal _ | .one _ | .anchor _ => true
  | .sequence a b | .choice a b => a.isSimple && b.isSimple
  | .capture _ body => body.isSimple
  | _ => false

lemma isSimple_induction {P : (n : Node) → n.isSimple = true → Prop} (empty : P .empty rfl)
    (literal : ∀ cs, P (.literal cs) rfl) (one : ∀ s, P (.one s) rfl) (anchor : ∀ a, P (.anchor a) rfl)
    (sequence : ∀ {a b} ha hb h, P a ha → P b hb → P (.sequence a b) h)
    (choice : ∀ {a b} ha hb h, P a ha → P b hb → P (.choice a b) h)
    (capture : ∀ g body hbody, P body hbody → P (.capture g body) hbody) (n : Node) (h : n.isSimple = true) :
    P n h := by
  induction n with
  | empty => exact empty
  | literal cs => exact literal cs
  | one s => exact one s
  | anchor a => exact anchor a
  | sequence a b iha ihb =>
    obtain ⟨ha, hb⟩ := Bool.and_eq_true_iff.mp h
    exact sequence ha hb h (iha ha) (ihb hb)
  | choice a b iha ihb =>
    obtain ⟨ha, hb⟩ := Bool.and_eq_true_iff.mp h
    exact choice ha hb h (iha ha) (ihb hb)
  | capture g body ih => exact capture g body h (ih h)
  | _ => cases h

section

variable {n : Node} (h : n.isSimple = true)

include h

lemma renumber_of_isSimple : n.renumber some = n := by
  induction n, h using isSimple_induction with
  | empty | literal | one | anchor => rfl
  | sequence _ _ _ iha ihb | choice _ _ _ iha ihb => rw [renumber, iha, ihb]
  | capture g _ _ ih =>
    rw [renumber]
    exact congrArg (Node.capture g) ih

lemma withCalls_of_isSimple (targets : List ℕ) : n.withCalls targets = n := by
  induction n, h using isSimple_induction with
  | empty | literal | one | anchor => rfl
  | sequence _ _ _ iha ihb | choice _ _ _ iha ihb => rw [withCalls, iha, ihb]
  | capture g _ _ ih => rw [withCalls, ih]

lemma ready_of_isSimple (w : Whole) : w.ready n = .ok n := by
  induction n, h using isSimple_induction with
  | empty | literal | one | anchor => rfl
  | sequence _ _ _ iha ihb | choice _ _ _ iha ihb =>
    rw [Whole.ready, iha, ihb]
    rfl
  | capture g _ _ ih =>
    rw [Whole.ready, ih]
    rfl

end

end Node

lemma compile_of_isSimple {text r : List Char} {n : Node} {g : ℕ}
    (hread : Read.pattern text = .ok (n, { rest := r, groups := g })) (hn : n.isSimple = true) :
    compile text = .ok ⟨n, g, []⟩ := by
  rw [compile, hread, ok_bind]
  simp only [List.isEmpty_nil, Bool.not_true, Bool.false_and, Bool.false_eq_true, if_false, if_true,
    Nat.not_lt_zero, List.mapM_nil, pure_bind, List.any_nil, Node.renumber_of_isSimple hn,
    Node.withCalls_of_isSimple hn, Node.ready_of_isSimple hn, ok_bind, List.map_nil, List.mergeSort_nil]
  rfl

lemma isSimple_anyOf (w : List Char) (ws : List (List Char)) : (anyOf w ws).isSimple = true := by
  rw [anyOf]
  induction ws generalizing w with
  | nil => rfl
  | cons v ws ih => exact Bool.and_eq_true_iff.mpr ⟨rfl, ih v⟩

def wordsOf (w : List Char) (ws : List (List Char)) : Pattern :=
  ⟨.sequence (.anchor (.wordBoundary false))
    (.sequence (.capture 1 (anyOf w ws)) (.anchor (.wordBoundary false))), 1, []⟩

lemma compile_words {w : List Char} {ws : List (List Char)} (hws : ∀ v ∈ w :: ws, v ≠ []) :
    compile ("\\b(".toList ++ (escaped w ++ (barred ws ++ ")\\b".toList))) = .ok (wordsOf w ws) := by
  obtain ⟨c, w, rfl⟩ := List.exists_cons_of_ne_nil (hws w (by simp))
  apply compile_of_isSimple (Read.pattern_words c w fun v hv => hws v (by simp [hv]))
  simp [Node.isSimple, isSimple_anyOf]

/-! ### Matching -/

section

variable (call : ℕ → Matcher) (origin : List Char)

lemma yields_anyOf (w : List Char) (ws : List (List Char)) :
    ((anyOf w ws).matcher call origin).Yields fun s =>
      ((w :: ws).filter (· <+: s.after)).map fun v => s.advance v.length := by
  rw [anyOf]
  induction ws generalizing w with
  | nil =>
    have hways : (fun s : State => ([w].filter (· <+: s.after)).map fun v => s.advance v.length) =
        fun s => if w <+: s.after then [s.advance w.length] else [] := by
      funext s
      by_cases hw : w <+: s.after <;> simp [hw]
    rw [hways]
    exact .literal w
  | cons v ws ih =>
    have hways : (fun s : State => ((w :: v :: ws).filter (· <+: s.after)).map fun v => s.advance v.length) =
        fun s => (if w <+: s.after then [s.advance w.length] else []) ++
          ((v :: ws).filter (· <+: s.after)).map fun v => s.advance v.length := by
      funext s
      by_cases hw : w <+: s.after <;> simp [hw, List.filter_cons]
    rw [hways]
    exact (Matcher.Yields.literal w).or (ih v)

end

def State.boundedWords (ws : List (List Char)) (s : State) : List State :=
  if s.isWordBoundary false then
    ((ws.filter (· <+: s.after)).map fun w => s.capturing 1 (·.advance w.length)).filter (·.isWordBoundary false)
  else []

lemma yields_wordsOf (w : List Char) (ws : List (List Char)) (origin : List Char) :
    ((wordsOf w ws).matcher origin).Yields (State.boundedWords (w :: ws)) := by
  have hways : State.boundedWords (w :: ws) = fun s => if s.isWordBoundary false then
      ((((w :: ws).filter (· <+: s.after)).map fun v => (s.mark (.opened 1 s.after)).advance v.length).map fun t =>
        t.mark (.closed 1 s.after t.after)).filter (·.isWordBoundary false) else [] := by
    funext s
    rw [State.boundedWords, List.map_map]
    rfl
  have h (call) := (((yields_anyOf call origin w ws).capture 1).seq_check (·.isWordBoundary false)).check_seq
    (·.isWordBoundary false)
  rw [hways]
  exact h _

/-! ### Where a word ends -/

/-- All of the characters of a word belong to words, or none of them does. -/
def IsUniform (w : List Char) : Prop :=
  (∀ c ∈ w, Unicode.isWord c = true) ∨ ∀ c ∈ w, Unicode.isWord c = false

section

variable {s t : State} {v w : List Char} {ws : List (List Char)}

lemma mem_boundedWords : t ∈ State.boundedWords ws s ↔
    s.isWordBoundary false ∧
      ∃ w ∈ ws, w <+: s.after ∧ (s.advance w.length).isWordBoundary false ∧
        t = s.capturing 1 (·.advance w.length) := by
  rw [State.boundedWords]
  cases hs : s.isWordBoundary false with
  | false => simp
  | true =>
    simp only [if_true, List.mem_filter, List.mem_map, decide_eq_true_eq, true_and]
    constructor
    · rintro ⟨⟨w, ⟨hw, hpre⟩, rfl⟩, hend⟩
      exact ⟨w, hw, hpre, hend, rfl⟩
    · rintro ⟨w, hw, hpre, hend, rfl⟩
      exact ⟨⟨w, ⟨hw, hpre⟩, rfl⟩, hend⟩

lemma State.advance_of_append {r : List Char} (h : s.after = v ++ r) :
    s.advance v.length = { s with before := v.reverse ++ s.before, after := r } := by
  simp [State.advance, h]

lemma length_le_of_boundary (hw : IsUniform w) (hne : v ≠ []) (hpw : w <+: s.after) (hpv : v <+: s.after)
    (hend : (s.advance v.length).isWordBoundary false) : w.length ≤ v.length := by
  by_contra hlt
  obtain ⟨x, rfl⟩ := List.prefix_of_prefix_length_le hpv hpw (by omega)
  obtain ⟨y, c, rfl⟩ := (List.eq_nil_or_concat v).resolve_left hne
  obtain ⟨d, x, rfl⟩ := List.exists_cons_of_ne_nil (l := x) (by rintro rfl; simp at hlt)
  obtain ⟨rest, hrest⟩ := hpw
  have hkind : Unicode.isWord c = Unicode.isWord d := by
    rcases hw with hw | hw <;> rw [hw c (by simp), hw d (by simp)]
  rw [State.advance_of_append (hrest.symm.trans (List.append_assoc _ _ _))] at hend
  simp [State.isWordBoundary, State.isWordAt, hkind] at hend

lemma length_eq_of_boundary (huv : IsUniform v) (huw : IsUniform w) (hv : v ≠ []) (hw : w ≠ [])
    (hpv : v <+: s.after) (hpw : w <+: s.after) (hev : (s.advance v.length).isWordBoundary false)
    (hew : (s.advance w.length).isWordBoundary false) : v.length = w.length :=
  Nat.le_antisymm (length_le_of_boundary huv hw hpv hpw hew) (length_le_of_boundary huw hv hpw hpv hev)

end

def IsWordBoundary (text : List Char) (n : ℕ) : Prop :=
  (text.take n).getLast?.any Unicode.isWord ≠ (text.drop n).head?.any Unicode.isWord

instance (text : List Char) (n : ℕ) : Decidable (IsWordBoundary text n) := inferInstanceAs (Decidable (_ ≠ _))

structure WordAt (ws : List (List Char)) (text : List Char) (s e : ℕ) : Prop where
  inside : e ≤ text.length
  spelled : text.extract s e ∈ ws
  starts : IsWordBoundary text s
  ends : IsWordBoundary text e

lemma isWordBoundary_place (text : List Char) (n : ℕ) :
    (State.place text n).isWordBoundary false ↔ IsWordBoundary text n := by
  have hword : State.isWordAt false = Unicode.isWord := rfl
  rw [State.isWordBoundary, IsWordBoundary, hword, bne_iff_ne, State.place, List.head?_reverse]

lemma not_isWordBoundary_inside {text w : List Char} {s n : ℕ} (hw : IsUniform w) (h : w <+: text.drop s) (hs : s < n)
    (hn : n < s + w.length) : ¬ IsWordBoundary text n := by
  intro hboundary
  have hle := h.length_le
  rw [List.length_drop] at hle
  have hlength : (text.extract s n).length = n - s := by
    rw [List.extract_eq_take_drop, List.length_take, List.length_drop]
    omega
  have hpart : text.extract s n ≠ [] := by
    apply List.ne_nil_of_length_pos
    omega
  have hend : ((State.place text s).advance (text.extract s n).length).isWordBoundary false := by
    rw [State.place_advance, hlength, Nat.add_sub_cancel' hs.le]
    exact (isWordBoundary_place text n).mpr hboundary
  have hshort : w.length ≤ (text.extract s n).length := length_le_of_boundary hw hpart h (List.take_prefix _ _) hend
  omega

section

variable {text : List Char} {s e e' : ℕ} {t : State} {ws : List (List Char)} (hne : ∀ w ∈ ws, w ≠ [])

include hne

lemma WordAt.lt (h : WordAt ws text s e) : s < e := by
  by_contra hle
  exact hne _ h.spelled (by simp [Nat.sub_eq_zero_of_le (Nat.le_of_not_lt hle)])

lemma WordAt.length_eq (h : WordAt ws text s e) : s + (text.extract s e).length = e :=
  ((extract_eq_iff (hne _ h.spelled)).mp ⟨h.inside, rfl⟩).2

lemma mem_boundedWords_place : t ∈ State.boundedWords ws (.place text s) ↔
    ∃ e, WordAt ws text s e ∧ t = (State.place text s).capturing 1 (·.advance (e - s)) := by
  simp only [mem_boundedWords, State.place_advance, isWordBoundary_place, State.after_place]
  constructor
  · rintro ⟨hs, w, hw, hpre, he, rfl⟩
    obtain ⟨hinside, hextract⟩ := (extract_eq_iff (hne w hw)).mpr ⟨hpre, rfl⟩
    exact ⟨s + w.length, ⟨hinside, hextract.symm ▸ hw, hs, he⟩, by rw [Nat.add_sub_cancel_left]⟩
  · rintro ⟨e, h, rfl⟩
    have hlen := h.length_eq hne
    refine ⟨h.starts, _, h.spelled, ?_, hlen.symm ▸ h.ends, ?_⟩
    · exact List.take_prefix _ _
    · rw [show e - s = (text.extract s e).length by omega]

variable (hu : ∀ w ∈ ws, IsUniform w)

include hu

lemma eq_of_mem_boundedWords {s t u : State} (ht : t ∈ State.boundedWords ws s)
    (htu : u ∈ State.boundedWords ws s) : t = u := by
  obtain ⟨-, v, hv, hpv, hev, rfl⟩ := mem_boundedWords.mp ht
  obtain ⟨-, w, hw, hpw, hew, rfl⟩ := mem_boundedWords.mp htu
  rw [length_eq_of_boundary (hu v hv) (hu w hw) (hne v hv) (hne w hw) hpv hpw hev hew]

lemma WordAt.unique (h : WordAt ws text s e) (h' : WordAt ws text s e') : e = e' := by
  have hlen := h.length_eq hne
  have hlen' := h'.length_eq hne
  have hext : (text.extract s e).length = (text.extract s e').length := by
    apply length_eq_of_boundary (s := .place text s) (hu _ h.spelled) (hu _ h'.spelled) (hne _ h.spelled)
      (hne _ h'.spelled) (List.take_prefix _ _) (List.take_prefix _ _)
    · rw [State.place_advance, hlen]
      exact (isWordBoundary_place text e).mpr h.ends
    · rw [State.place_advance, hlen']
      exact (isWordBoundary_place text e').mpr h'.ends
  omega

lemma WordAt.start_eq {i : ℕ} (h : WordAt ws text i e) (hs : IsWordBoundary text s) (hle : i ≤ s) (hlt : s < e) :
    i = s := by
  apply hle.eq_or_lt.resolve_right
  intro hbefore
  apply not_isWordBoundary_inside (w := text.extract i e) (hu _ h.spelled) (List.take_prefix _ _) hbefore _ hs
  rwa [h.length_eq hne]

end

/-! ### Searching -/

lemma head?_eq_some_iff {l : List State} (h : ∀ a ∈ l, ∀ b ∈ l, a = b) (a : State) :
    l.head? = some a ↔ a ∈ l := by
  cases l with
  | nil => simp
  | cons b l =>
    rw [List.head?_cons, Option.some_inj]
    refine ⟨fun hb => by simp [hb], fun ha => h _ (by simp) _ ha⟩

section

variable {w : List Char} {ws : List (List Char)} (hne : ∀ v ∈ w :: ws, v ≠ [])
  (hu : ∀ v ∈ w :: ws, IsUniform v)

include hne

lemma spans_wordsOf {text : List Char} {s e : ℕ} (h : WordAt (w :: ws) text s e) :
    ((wordsOf w ws).found (.place text s) ((State.place text s).capturing 1 (·.advance (e - s)))).spans text =
      [some (span text s e), some (span text s e)] := by
  have hadd : s + (e - s) = e := Nat.add_sub_cancel' (h.lt hne).le
  simp [found, Match.spans, wordsOf, State.capturing, span, hadd]

lemma covers_wordsOf {text : List Char} {s e : ℕ} (h : WordAt (w :: ws) text s e) :
    ((wordsOf w ws).found (.place text s) ((State.place text s).capturing 1 (·.advance (e - s)))).Covers text s e := by
  have hlt := h.lt hne
  apply covers_found _ hlt h.inside
  rw [State.unmarked_capturing, State.unmarked_advance, State.unmarked_mark, State.unmarked_place, State.place_advance,
    Nat.add_sub_cancel' hlt.le]

include hu

lemma prefers_wordsOf (origin : List Char) :
    ((wordsOf w ws).matcher origin).Prefers fun s t => t ∈ State.boundedWords (w :: ws) s :=
  ⟨_, yields_wordsOf w ws origin, fun _ =>
    head?_eq_some_iff fun _ ht _ htu => eq_of_mem_boundedWords hne hu ht htu⟩

lemma finds_wordsOf (text : List Char) : (wordsOf w ws).Finds text fun s m => ∃ e, WordAt (w :: ws) text s e ∧
    (wordsOf w ws).found (.place text s) ((State.place text s).capturing 1 (·.advance (e - s))) = m where
  matchAt? origin s m := by
    rw [(prefers_wordsOf hne hu origin).matchAt? (State.hidden_place text s)]
    simp only [mem_boundedWords_place hne]
    constructor
    · rintro ⟨_, ⟨e, he, rfl⟩, rfl⟩
      exact ⟨e, he, rfl⟩
    · rintro ⟨e, he, rfl⟩
      exact ⟨_, ⟨e, he, rfl⟩, rfl⟩
  covers := by
    rintro s _ ⟨e, he, rfl⟩
    exact ⟨e, covers_wordsOf hne he⟩

/-- The first match is the first word, whatever the order of the words. -/
lemma searchAt?_spans_wordsOf (text : List Char) (start : ℕ) (groups : List (Option (ℕ × ℕ))) :
    ((wordsOf w ws).searchAt? text start).map (·.spans text) = some groups ↔
      ∃ s e, IsLeast {s | start ≤ s ∧ ∃ e, WordAt (w :: ws) text s e} s ∧ WordAt (w :: ws) text s e ∧
        groups = [some (span text s e), some (span text s e)] := by
  simp only [(finds_wordsOf hne hu text).searchAt?_spans, exists_comm (α := Match), exists_eq_right']
  constructor
  · rintro ⟨s, hs, _, ⟨e, he, rfl⟩, rfl⟩
    exact ⟨s, e, hs, he, spans_wordsOf hne he⟩
  · rintro ⟨s, e, hs, he, rfl⟩
    exact ⟨s, hs, _, ⟨e, he, rfl⟩, spans_wordsOf hne he⟩

lemma exists_front_wordsOf_iff {text : List Char} {b : ℕ} :
    (∃ m, (wordsOf w ws).searchAt? text 0 = some m ∧ (m.spans text)[0]? = some (some (0, b))) ↔
      ∃ e, WordAt (w :: ws) text 0 e ∧ b = offset text (text.drop e) := by
  have hfinds := finds_wordsOf hne hu text
  have hzero : offset text (text.drop 0) = 0 := by simp [offset]
  constructor
  · rintro ⟨_, hm, hspan⟩
    obtain ⟨s, -, e, hword, rfl⟩ := hfinds.searchAt?_eq_some_iff.mp hm
    have hstart : s ≤ text.length := (hword.lt hne).le.trans hword.inside
    rw [spans_wordsOf hne hword] at hspan
    obtain ⟨hs, rfl⟩ := Prod.mk.inj (Option.some.inj (Option.some.inj hspan))
    obtain rfl : s = 0 := (offset_inj hstart (Nat.zero_le _)).mp (hs.trans hzero.symm)
    exact ⟨e, hword, rfl⟩
  · rintro ⟨e, hword, rfl⟩
    refine ⟨_, hfinds.searchAt?_of_first le_rfl ⟨e, hword, rfl⟩ fun _ _ hle _ => hle, ?_⟩
    rw [spans_wordsOf hne hword, span, hzero]
    rfl

lemma exists_match_wordsOf_iff {text : List Char} {s e : ℕ} (hs : s ≤ text.length) (he : e ≤ text.length) :
    (∃ m ∈ (wordsOf w ws).allMatches text, (m.spans text)[0]? = some (some (span text s e))) ↔
      WordAt (w :: ws) text s e := by
  have hfinds := finds_wordsOf hne hu text
  constructor
  · rintro ⟨m, hm, hspan⟩
    obtain ⟨i, j, ⟨j', hword, rfl⟩, -⟩ := hfinds.hit_of_mem_allMatches hm
    obtain ⟨rfl, rfl⟩ := ((covers_wordsOf hne hword).spans_eq_iff hs he).mp hspan
    exact hword
  · intro h
    obtain ⟨m, hm, i, j, ⟨j', hword, rfl⟩, hcovers, hle, hlt⟩ := hfinds.exists_mem_allMatches ⟨e, h, rfl⟩
    obtain ⟨-, rfl⟩ := hcovers.unique (covers_wordsOf hne hword)
    obtain rfl : i = s := hword.start_eq hne hu h.starts hle hlt
    obtain rfl := hword.unique hne hu h
    exact ⟨_, hm, hcovers.spans⟩

lemma matchAt?_wordsOf_congr {v : List Char} {vs : List (List Char)} (h : ∀ x, x ∈ v :: vs ↔ x ∈ w :: ws)
    (origin : List Char) {s : State} (hs : s.hidden = 0) :
    (wordsOf v vs).matchAt? origin s = (wordsOf w ws).matchAt? origin s := by
  have hv : ∀ x ∈ v :: vs, x ≠ [] := fun x hx => hne x ((h x).mp hx)
  have hvu : ∀ x ∈ v :: vs, IsUniform x := fun x hx => hu x ((h x).mp hx)
  ext m
  rw [(prefers_wordsOf hv hvu origin).matchAt? hs, (prefers_wordsOf hne hu origin).matchAt? hs]
  simp only [mem_boundedWords, h]
  rfl

end

end Highlight.Pattern
