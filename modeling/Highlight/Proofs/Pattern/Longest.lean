import Highlight.Proofs.Pattern.Search
import Mathlib.Data.Nat.Find

/-! Matchers that read one of some words, and try the longest of those that come next first. -/

namespace Highlight.Pattern

lemma append_prefix_iff {u v l : List Char} : u ++ v <+: l ↔ u <+: l ∧ v <+: l.drop u.length := by
  constructor
  · rintro ⟨r, rfl⟩
    simp
  · rintro ⟨⟨r, rfl⟩, hv⟩
    simpa using hv

lemma concat_prefix_of_lt {l u w v : List Char} {c : Char} (hu : u <+: l) (hw : w ++ c :: v <+: l)
    (hlt : w.length < u.length) : w ++ [c] <+: u := by
  have hc : w ++ [c] <+: l := by
    refine List.IsPrefix.trans ⟨v, ?_⟩ hw
    simp
  apply List.prefix_of_prefix_length_le hc hu
  rw [List.length_append, List.length_singleton]
  omega

lemma all_of_lt {p : Char → Bool} {l u w v : List Char} {c : Char} (hall : ∀ c ∈ u, p c) (hu : u <+: l)
    (hw : w ++ c :: v <+: l) (hlt : w.length < u.length) : p c :=
  hall c ((concat_prefix_of_lt hu hw hlt).subset (by simp))

lemma all_concat {p : Char → Bool} {w : List Char} {c : Char} (hw : ∀ d ∈ w, p d) (hc : p c) : ∀ d ∈ w ++ [c], p d := by
  intro d hd
  rcases List.mem_append.mp hd with hd | hd
  · exact hw d hd
  · rwa [List.mem_singleton.mp hd]

lemma head?_of_pairwise {l : List State} (h : l.Pairwise fun t u => t.after.length < u.after.length) {t : State} :
    l.head? = some t ↔ t ∈ l ∧ ∀ u ∈ l, t.after.length ≤ u.after.length := by
  cases l with
  | nil => simp
  | cons v l =>
    obtain ⟨hv, -⟩ := List.pairwise_cons.mp h
    rw [List.head?_cons, Option.some_inj]
    constructor
    · rintro rfl
      refine ⟨by simp, ?_⟩
      rintro u (_ | ⟨_, hu⟩)
      · exact le_rfl
      · exact (hv u hu).le
    · rintro ⟨_ | ⟨_, ht⟩, hmin⟩
      · rfl
      · exact absurd (hmin v (by simp)) (Nat.not_le_of_lt (hv t ht))

structure Run (p : Char → Bool) where
  text : List Char
  ne_nil : text ≠ []
  all : ∀ c ∈ text, p c

namespace Run

variable {p : Char → Bool}

lemma length_pos (r : Run p) : 0 < r.text.length := List.length_pos_of_ne_nil r.ne_nil

def concat (r : Run p) {c : Char} (hc : p c) : Run p where
  text := r.text ++ [c]
  ne_nil := by simp
  all := all_concat r.all hc

lemma head_of_append {r : Run p} {w v : List Char} {c : Char} (h : r.text ++ w = c :: v) : p c := by
  obtain ⟨d, rest, hd⟩ := List.exists_cons_of_ne_nil r.ne_nil
  rw [hd, List.cons_append] at h
  obtain ⟨rfl, -⟩ := List.cons.inj h
  apply r.all
  simp [hd]

end Run

structure Stretch (p : Char → Bool) where
  text : List Char
  all : ∀ c ∈ text, p c

namespace Stretch

variable {p : Char → Bool}

def concat (w : Stretch p) {c : Char} (hc : p c) : Stretch p where
  text := w.text ++ [c]
  all := all_concat w.all hc

lemma exists_iff {l : List Char} {n : ℕ} :
    (∃ r : Stretch p, r.text <+: l ∧ r.text.length = n) ↔ n ≤ (l.takeWhile p).length := by
  constructor
  · rintro ⟨r, ⟨rest, rfl⟩, rfl⟩
    rw [List.takeWhile_append_of_pos r.all, List.length_append]
    exact Nat.le_add_right _ _
  · intro hle
    have hall := List.all_eq_true.mp (List.all_takeWhile (p := p) (l := l))
    exact ⟨⟨(l.takeWhile p).take n, fun c hc => hall c (List.mem_of_mem_take hc)⟩,
      (List.take_prefix n _).trans (List.takeWhile_prefix p), List.length_take_of_le hle⟩

end Stretch

def IsLongest {α : Type} (word : α → List Char) (l : List Char) (a : α) : Prop :=
  word a <+: l ∧ ∀ b, word b <+: l → (word b).length ≤ (word a).length

lemma IsLongest.ne_concat {α : Type} {word : α → List Char} {l v : List Char} {a : α} {c : Char}
    (ha : IsLongest word l a) (hl : word a ++ c :: v = l) (b : α) : word b ≠ word a ++ [c] := by
  intro hb
  have hpre : word b <+: l := ⟨v, by simp [hb, hl]⟩
  have hlength := ha.2 b hpre
  rw [hb, List.length_append, List.length_singleton] at hlength
  omega

lemma exists_isLongest {α : Type} {word : α → List Char} {l : List Char} {a : α} (h : word a <+: l) :
    ∃ b, IsLongest word l b := by
  classical
  obtain ⟨b, hb, hlength⟩ := Nat.findGreatest_spec (P := fun n => ∃ b, word b <+: l ∧ (word b).length = n)
    h.length_le ⟨a, h, rfl⟩
  refine ⟨b, hb, fun c hc => ?_⟩
  rw [hlength]
  exact Nat.le_findGreatest hc.length_le ⟨c, hc, rfl⟩

namespace Matcher

variable {m n : Matcher} {α β : Type} {word : α → List Char} {reach : α → State → State}
  {word' : β → List Char} {reach' : β → State → State}

/-- A matcher reads just one of some words, and the words that come next are tried from the longest one to
the shortest; `reach` tells what becomes of the state. -/
structure Reads (m : Matcher) (word : α → List Char) (reach : α → State → State) : Prop where
  after a s : (reach a s).after = s.after.drop (word a).length
  ways : ∃ f, m.Yields f ∧ ∀ s,
    (∀ t, t ∈ f s ↔ ∃ a, word a <+: s.after ∧ reach a s = t) ∧
      (f s).Pairwise fun t u => t.after.length < u.after.length

namespace Reads

lemma lt_iff (h : m.Reads word reach) {a b : α} {s : State} (ha : word a <+: s.after) (hb : word b <+: s.after) :
    (reach a s).after.length < (reach b s).after.length ↔ (word b).length < (word a).length := by
  have hla := ha.length_le
  have hlb := hb.length_le
  rw [h.after, h.after, List.length_drop, List.length_drop]
  omega

lemma one (p : Char → Bool) : (Matcher.one p).Reads (fun c : {c // p c} => [c.1]) fun _ s => s.advance 1 where
  after _ _ := rfl
  ways := by
    refine ⟨_, .one p, fun s => ⟨fun t => ?_, ?_⟩⟩
    · cases hs : s.after with
      | nil => simp
      | cons c rest => by_cases hc : p c <;> simp [hc, eq_comm (a := t)]
    · split <;> simp

lemma capture (g : ℕ) (h : m.Reads word reach) :
    (m.capture g).Reads word fun a => State.capturing g (reach a) where
  after a s := h.after a (s.mark (.opened g s.after))
  ways := by
    obtain ⟨f, hf, hmem⟩ := h.ways
    refine ⟨_, hf.capture g, fun s => ⟨fun t => ?_, ?_⟩⟩
    · simp only [List.mem_map, (hmem (s.mark (.opened g s.after))).1]
      constructor
      · rintro ⟨_, ⟨a, ha, rfl⟩, rfl⟩
        exact ⟨a, ha, rfl⟩
      · rintro ⟨a, ha, rfl⟩
        exact ⟨_, ⟨a, ha, rfl⟩, rfl⟩
    · exact List.pairwise_map.mpr (hmem _).2

lemma seq (hm : m.Reads word reach) (hn : n.Reads word' reach')
    (hlt : ∀ l a b a' b', word a ++ word' b <+: l → word a' ++ word' b' <+: l →
      (word a').length < (word a).length → (word a' ++ word' b').length < (word a ++ word' b).length) :
    (m.seq n).Reads (fun p : α × β => word p.1 ++ word' p.2) fun p s => reach' p.2 (reach p.1 s) where
  after p s := by rw [hn.after, hm.after, List.drop_drop, List.length_append]
  ways := by
    obtain ⟨f, hf, hfs⟩ := hm.ways
    obtain ⟨g, hg, hgs⟩ := hn.ways
    have hmem (s t : State) : t ∈ (f s).flatMap g ↔
        ∃ p : α × β, word p.1 ++ word' p.2 <+: s.after ∧ reach' p.2 (reach p.1 s) = t := by
      simp only [List.mem_flatMap, (hfs s).1, (hgs _).1]
      constructor
      · rintro ⟨_, ⟨a, ha, rfl⟩, b, hb, rfl⟩
        rw [hm.after] at hb
        exact ⟨(a, b), append_prefix_iff.mpr ⟨ha, hb⟩, rfl⟩
      · rintro ⟨⟨a, b⟩, hp, rfl⟩
        obtain ⟨ha, hb⟩ := append_prefix_iff.mp hp
        exact ⟨_, ⟨a, ha, rfl⟩, b, by rwa [hm.after], rfl⟩
    refine ⟨_, hf.seq hg, fun s => ⟨hmem s, List.pairwise_flatMap.mpr ⟨fun t _ => (hgs t).2, ?_⟩⟩⟩
    refine (hfs s).2.imp_of_mem fun {t u} ht hu htu x hx y hy => ?_
    obtain ⟨a, ha, rfl⟩ := ((hfs s).1 t).mp ht
    obtain ⟨a', ha', rfl⟩ := ((hfs s).1 u).mp hu
    obtain ⟨b, hb, rfl⟩ := ((hgs _).1 x).mp hx
    obtain ⟨b', hb', rfl⟩ := ((hgs _).1 y).mp hy
    rw [hm.after] at hb hb'
    have hp := append_prefix_iff.mpr ⟨ha, hb⟩
    have hp' := append_prefix_iff.mpr ⟨ha', hb'⟩
    have hlen := hlt _ a b a' b' hp hp' ((hm.lt_iff ha ha').mp htu)
    have hle := hp.length_le
    simp only [hn.after, hm.after, List.drop_drop, List.length_drop, List.length_append] at hlen hle ⊢
    omega

lemma seq_of_length_eq (hm : m.Reads word reach) (hn : n.Reads word' reach')
    (heq : ∀ a b, (word a).length = (word b).length) :
    (m.seq n).Reads (fun p : α × β => word p.1 ++ word' p.2) fun p s => reach' p.2 (reach p.1 s) :=
  hm.seq hn fun _ a _ a' _ _ _ hlt => absurd (heq a' a) hlt.ne

lemma seq_of_head {p : Char → Bool} (hm : m.Reads word reach) (hn : n.Reads word' reach')
    (hgoes : ∀ {l a a' c v}, word a <+: l → word a' ++ c :: v <+: l → (word a').length < (word a).length → p c)
    (hhead : ∀ {b c v}, word' b = c :: v → p c = false) :
    (m.seq n).Reads (fun p : α × β => word p.1 ++ word' p.2) fun p s => reach' p.2 (reach p.1 s) := by
  apply hm.seq hn
  intro l a b a' b' ha ha' hlt
  cases hb : word' b' with
  | nil =>
    rw [List.append_nil, List.length_append]
    omega
  | cons c v =>
    rw [hb] at ha'
    have hc := hgoes ((List.prefix_append _ _).trans ha) ha' hlt
    rw [hhead hb] at hc
    cases hc

lemma or (hm : m.Reads word reach) (hn : n.Reads word' reach')
    (hlt : ∀ l a b, word a <+: l → word' b <+: l → (word' b).length < (word a).length) :
    (m.or n).Reads (Sum.elim word word') (Sum.elim reach reach') where
  after p s := by
    cases p with
    | inl a => exact hm.after a s
    | inr b => exact hn.after b s
  ways := by
    obtain ⟨f, hf, hfs⟩ := hm.ways
    obtain ⟨g, hg, hgs⟩ := hn.ways
    refine ⟨_, hf.or hg, fun s => ⟨fun t => ?_, List.pairwise_append.mpr ⟨(hfs s).2, (hgs s).2, ?_⟩⟩⟩
    · rw [List.mem_append, (hfs s).1, (hgs s).1, Sum.exists]
      rfl
    · intro t ht u hu
      obtain ⟨a, ha, rfl⟩ := ((hfs s).1 t).mp ht
      obtain ⟨b, hb, rfl⟩ := ((hgs s).1 u).mp hu
      have hlen := hlt _ a b ha hb
      have hle := ha.length_le
      rw [hm.after, hn.after, List.length_drop, List.length_drop]
      omega

lemma of_surjective (h : m.Reads word reach) {g : β → α} (hg : g.Surjective)
    (hword : ∀ b, word' b = word (g b)) (hreach : ∀ b, reach' b = reach (g b)) : m.Reads word' reach' where
  after b s := by rw [hreach, hword, h.after]
  ways := by
    obtain ⟨f, hf, hfs⟩ := h.ways
    refine ⟨f, hf, fun s => ⟨fun t => ?_, (hfs s).2⟩⟩
    rw [(hfs s).1, hg.exists]
    simp only [hword, hreach]

lemma literal (cs : List Char) :
    (cs.foldr (fun c m => Matcher.seq (.one (· == c)) m) Matcher.succeed).Reads (fun _ : Unit => cs)
      fun _ s => s.advance cs.length where
  after _ _ := rfl
  ways := by
    refine ⟨_, .literal cs, fun s => ⟨fun t => ?_, ?_⟩⟩
    · by_cases hs : cs <+: s.after <;> simp [hs, eq_comm (a := t)]
    · split <;> simp

lemma literal_seq (cs : List Char) (h : m.Reads word reach) :
    (Matcher.seq (cs.foldr (fun c m => Matcher.seq (.one (· == c)) m) Matcher.succeed) m).Reads
      (fun a => cs ++ word a) fun a s => reach a (s.advance cs.length) :=
  ((literal cs).seq_of_length_eq h fun _ _ => rfl).of_surjective
    (g := fun a => ((), a)) (fun p => ⟨p.2, rfl⟩) (fun _ => rfl) fun _ => rfl

lemma optional (h : m.Reads word reach) (hne : ∀ a, word a ≠ []) :
    (Matcher.loop ⟨0, some 1, true⟩ {} m).Reads (fun o : Option α => o.elim [] word)
      fun o s => o.elim s (reach · s) where
  after o s := by
    cases o with
    | none => rfl
    | some a => exact h.after a s
  ways := by
    obtain ⟨f, hf, hfs⟩ := h.ways
    refine ⟨_, hf.optional, fun s => ⟨fun t => ?_, List.pairwise_append.mpr ⟨(hfs s).2, by simp, ?_⟩⟩⟩
    · rw [List.mem_append, (hfs s).1, Option.exists, or_comm]
      simp [eq_comm (a := t)]
    · intro t ht u hu
      obtain ⟨a, ha, rfl⟩ := ((hfs s).1 t).mp ht
      obtain rfl := List.mem_singleton.mp hu
      have hpos := List.length_pos_of_ne_nil (hne a)
      have hle := ha.length_le
      rw [h.after, List.length_drop]
      omega

lemma star (p : Char → Bool) :
    (Matcher.loop .star {} (.one p)).Reads (fun r : Stretch p => r.text) fun r s => s.advance r.text.length where
  after _ _ := rfl
  ways := by
    refine ⟨_, .star p 1, fun s => ⟨fun t => ?_, ?_⟩⟩
    · have hstretches : (∃ r : Stretch p, r.text <+: s.after ∧ s.advance r.text.length = t) ↔
          ∃ n, n ≤ s.stretch p ∧ s.advance n = t := by
        simp only [State.stretch, ← Stretch.exists_iff]
        constructor
        · rintro ⟨r, hr, rfl⟩
          exact ⟨_, ⟨r, hr, rfl⟩, rfl⟩
        · rintro ⟨_, ⟨r, hr, rfl⟩, rfl⟩
          exact ⟨r, hr, rfl⟩
      simp only [hstretches, List.mem_map, List.mem_reverse, List.mem_range, Nat.lt_succ_iff]
    · have hle : s.stretch p ≤ s.after.length := (List.takeWhile_prefix p).length_le
      rw [List.pairwise_map, List.pairwise_reverse]
      refine List.pairwise_lt_range.imp_of_mem fun {i j} hi hj hij => ?_
      rw [List.mem_range] at hi hj
      simp only [State.after_advance, List.length_drop]
      omega

lemma plus (p : Char → Bool) :
    (Matcher.loop .plus {} (.one p)).Reads (fun r : Run p => r.text) fun r s => s.advance r.text.length := by
  have hseq := (one p).seq_of_length_eq (star p) fun _ _ => rfl
  refine hseq.of_surjective (g := fun r : Run p => (⟨r.text.head r.ne_nil, r.all _ (List.head_mem r.ne_nil)⟩,
    ⟨r.text.tail, fun c hc => r.all c (List.mem_of_mem_tail hc)⟩)) ?_ ?_ ?_
  · rintro ⟨⟨c, hc⟩, w⟩
    exact ⟨⟨c :: w.text, by simp, by simpa [hc] using w.all⟩, rfl⟩
  · intro r
    exact (List.cons_head_tail r.ne_nil).symm
  · intro r
    funext s
    have hpos := r.length_pos
    rw [State.advance_advance, List.length_tail, Nat.add_sub_cancel' hpos]

lemma optional_seq {char : α → Char} (hm : m.Reads (fun a => [char a]) reach) (hn : n.Reads word' reach')
    (hhead : ∀ {l a b}, word' b <+: l → ¬ [char a] <+: l) :
    ((Matcher.loop ⟨0, some 1, true⟩ {} m).seq n).Reads
      (fun p : Option α × β => p.1.elim [] (fun a => [char a]) ++ word' p.2)
      fun p s => reach' p.2 (p.1.elim s (reach · s)) := by
  apply (hm.optional (by simp)).seq hn
  intro l a b a' b' ha ha' hlt
  cases a with
  | none => cases a' <;> simp at hlt
  | some a =>
    cases a' with
    | some a' => simp at hlt
    | none => exact absurd ((List.prefix_append _ _).trans ha) (hhead ha')

end Reads

end Matcher

end Highlight.Pattern
