import Highlight.Proofs.Pattern.Longest

/-! The way to match that a matcher prefers, also if it has to begin and to end at places of some kind. -/

namespace Highlight.Pattern

lemma head?_eq_some_iff_longest {α : Type} {word : α → List Char} {goal : α → State} {after : List Char}
    (hafter : ∀ a, (goal a).after = after.drop (word a).length) {l : List State}
    (hmem : ∀ t, t ∈ l ↔ ∃ a, word a <+: after ∧ goal a = t)
    (hl : l.Pairwise fun t u => t.after.length < u.after.length) (t : State) :
    l.head? = some t ↔ ∃ a, IsLongest word after a ∧ goal a = t := by
  have hle {a b : α} (ha : word a <+: after) (hb : word b <+: after) :
      (goal a).after.length ≤ (goal b).after.length ↔ (word b).length ≤ (word a).length := by
    have hla := ha.length_le
    have hlb := hb.length_le
    rw [hafter, hafter, List.length_drop, List.length_drop]
    omega
  rw [head?_of_pairwise hl, hmem]
  constructor
  · rintro ⟨⟨a, ha, rfl⟩, hmax⟩
    exact ⟨a, ⟨ha, fun b hb => (hle ha hb).mp (hmax _ ((hmem _).mpr ⟨b, hb, rfl⟩))⟩, rfl⟩
  · rintro ⟨a, ⟨ha, hmax⟩, rfl⟩
    refine ⟨⟨a, ha, rfl⟩, fun u hu => ?_⟩
    obtain ⟨b, hb, rfl⟩ := (hmem u).mp hu
    exact (hle ha hb).mpr (hmax b hb)

namespace Matcher

/-- Where nothing is hidden, the first way of a matcher is the best one. -/
def Prefers (m : Matcher) (best : State → State → Prop) : Prop :=
  ∃ f, m.Yields f ∧ ∀ s t, (f s).head? = some t ↔ best s t

variable {m : Matcher} {f : State → List State} {best : State → State → Prop} {α : Type} {word : α → List Char}
  {reach : α → State → State} (c : State → Bool)

lemma Yields.check_seq (hm : m.Yields f) : ((Matcher.check c).seq m).Yields fun s => if c s then f s else [] := by
  have hways : (fun s => if c s then f s else []) = fun s => (if c s then [s] else []).flatMap f := by
    funext s
    cases c s <;> simp
  rw [hways]
  exact (check c).seq hm

lemma Yields.seq_check (hm : m.Yields f) : (m.seq (Matcher.check c)).Yields fun s => (f s).filter c := by
  have hways : (fun s => (f s).filter c) = fun s => (f s).flatMap fun t => if c t then [t] else [] := by
    funext s
    induction f s with
    | nil => rfl
    | cons t ts ih => cases hc : c t <;> simp [hc, ih]
  rw [hways]
  exact hm.seq (check c)

lemma Prefers.check_seq (h : m.Prefers best) : ((Matcher.check c).seq m).Prefers fun s t => c s ∧ best s t := by
  obtain ⟨f, hf, hbest⟩ := h
  refine ⟨_, hf.check_seq c, fun s t => ?_⟩
  simp only [← hbest]
  cases c s <;> simp

lemma Reads.prefers (h : m.Reads word reach) :
    m.Prefers fun s t => ∃ a, IsLongest word s.after a ∧ reach a s = t := by
  obtain ⟨f, hf, hfs⟩ := h.ways
  exact ⟨f, hf, fun s => head?_eq_some_iff_longest (fun a => h.after a s) (hfs s).1 (hfs s).2⟩

lemma Reads.prefers_seq_check (h : m.Reads word reach) : (m.seq (Matcher.check c)).Prefers fun s t =>
    ∃ a : {a // c (reach a s)}, IsLongest (fun a : {a // c (reach a s)} => word a) s.after a ∧ reach a s = t := by
  obtain ⟨f, hf, hfs⟩ := h.ways
  have hmem (s t : State) : t ∈ (f s).filter c ↔ ∃ a : {a // c (reach a s)}, word a <+: s.after ∧ reach a s = t := by
    simp only [List.mem_filter, (hfs s).1, Subtype.exists]
    constructor
    · rintro ⟨⟨a, ha, rfl⟩, hc⟩
      exact ⟨a, hc, ha, rfl⟩
    · rintro ⟨a, hc, ha, rfl⟩
      exact ⟨⟨a, ha, rfl⟩, hc⟩
  have hafter (s : State) (a : {a // c (reach a s)}) : (reach a s).after = s.after.drop (word a).length := h.after a s
  exact ⟨_, hf.seq_check c, fun s => head?_eq_some_iff_longest (hafter s) (hmem s) ((hfs s).2.filter c)⟩

lemma Prefers.matchAt? {p : Pattern} {origin : List Char} (h : (p.matcher origin).Prefers best) {s : State}
    (hs : s.hidden = 0) (m : Match) :
    p.matchAt? origin s = some m ↔ ∃ t, best s t ∧ p.found s t = m := by
  obtain ⟨f, hf, hbest⟩ := h
  simp only [matchAt?_eq hf hs, Option.map_eq_some_iff, hbest]

section

variable {p : Pattern} {text : List Char}

lemma Reads.matchAt?_eq_some_iff {origin : List Char} (h : (p.matcher origin).Reads word reach) (s : ℕ) (m : Match) :
    p.matchAt? origin (.place text s) = some m ↔
      ∃ a, IsLongest word (text.drop s) a ∧ p.found (.place text s) (reach a (.place text s)) = m := by
  rw [h.prefers.matchAt? (State.hidden_place text s)]
  constructor
  · rintro ⟨_, ⟨a, ha, rfl⟩, rfl⟩
    exact ⟨a, ha, rfl⟩
  · rintro ⟨a, ha, rfl⟩
    exact ⟨_, ⟨a, ha, rfl⟩, rfl⟩

lemma Reads.searchAt?_eq_some_iff {start : ℕ} (h : (p.matcher (text.drop start)).Reads word reach) (m : Match) :
    p.searchAt? text start = some m ↔ ∃ s a, IsLeast {s | start ≤ s ∧ ∃ a, word a <+: text.drop s} s ∧
      IsLongest word (text.drop s) a ∧ m = p.found (.place text s) (reach a (.place text s)) := by
  have hstarts : p.starts (text.drop start) text start = {s | start ≤ s ∧ ∃ a, word a <+: text.drop s} := by
    ext s
    simp only [starts, Set.mem_ofPred_eq, Option.isSome_iff_exists, h.matchAt?_eq_some_iff]
    refine and_congr_right fun _ => ⟨?_, ?_⟩
    · rintro ⟨_, a, ha, -⟩
      exact ⟨a, ha.1⟩
    · rintro ⟨a, ha⟩
      obtain ⟨b, hb⟩ := exists_isLongest ha
      exact ⟨_, b, hb, rfl⟩
  simp only [Pattern.searchAt?_eq_some_iff, hstarts, h.matchAt?_eq_some_iff, exists_and_left, eq_comm (a := m)]

end

end Matcher

end Highlight.Pattern
