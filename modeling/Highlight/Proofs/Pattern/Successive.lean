import Highlight.Proofs.Pattern.Preferred
import Mathlib.Order.Nat

/-! The matches in a text, one after the other. If none of them is empty, each place from where there is a match
lies in one of them. -/

namespace Highlight.Pattern

namespace State

def unmarked (s : State) : State := { s with marks := [] }

@[simp] lemma unmarked_mark (s : State) (m : Mark) : (s.mark m).unmarked = s.unmarked := rfl

@[simp] lemma unmarked_advance (s : State) (n : ℕ) : (s.advance n).unmarked = s.unmarked.advance n := rfl

@[simp] lemma unmarked_place (text : List Char) (n : ℕ) : (place text n).unmarked = place text n := rfl

@[simp] lemma unmarked_capturing (g : ℕ) (f : State → State) (s : State) :
    (capturing g f s).unmarked = (f (s.mark (.opened g s.after))).unmarked := rfl

end State

structure Match.Covers (m : Match) (text : List Char) (s e : ℕ) : Prop where
  lt : s < e
  inside : e ≤ text.length
  whole : m.groups.head? = some (some (text.drop s, text.drop e))
  before : m.finish.before = (text.take e).reverse
  after : m.finish.after = text.drop e

def Match.Contains (m : Match) (text : List Char) (s e : ℕ) : Prop :=
  ∃ a b, (m.spans text)[0]? = some (some (a, b)) ∧ a ≤ (span text s e).1 ∧ (span text s e).2 ≤ b

/-- From each place in a text the match that is told is found, wherever the search began. -/
structure Finds (p : Pattern) (text : List Char) (hit : ℕ → Match → Prop) : Prop where
  matchAt? (origin : List Char) (s : ℕ) (m : Match) : p.matchAt? origin (.place text s) = some m ↔ hit s m
  covers {s : ℕ} {m : Match} (h : hit s m) : ∃ e, m.Covers text s e

inductive Successive (p : Pattern) (text : List Char) : ℕ → List Match → Prop
  | done {n} : p.searchAt? text n = none → Successive p text n []
  | next {n s e m ms} : p.searchAt? text n = some m → m.Covers text s e → Successive p text e ms →
      Successive p text n (m :: ms)

variable {p : Pattern} {text : List Char} {hit : ℕ → Match → Prop} {n s e s' e' : ℕ} {m m' : Match}

lemma covers_found {t : State} (ht : t.unmarked = .place text e) (hlt : s < e) (hle : e ≤ text.length) :
    (p.found (.place text s) t).Covers text s e where
  lt := hlt
  inside := hle
  whole := by
    have hkept : t.kept = none := congrArg State.kept ht
    have hafter : t.after = text.drop e := congrArg State.after ht
    simp [found, hkept, hafter]
  before := congrArg State.before ht
  after := congrArg State.after ht

section

variable {α : Type} {word : α → List Char} {reach : α → State → State} {a : α} (hne : word a ≠ [])
  (hplace : (reach a (.place text s)).unmarked = .place text (s + (word a).length))

include hne hplace

lemma covers_reach (h : word a <+: text.drop s) :
    (p.found (.place text s) (reach a (.place text s))).Covers text s (s + (word a).length) := by
  have hpos := List.length_pos_of_ne_nil hne
  have hle := h.length_le
  rw [List.length_drop] at hle
  exact covers_found hplace (by omega) (by omega)

end

lemma Matcher.Reads.finds {α : Type} {word : α → List Char} {reach : α → State → State}
    (h : ∀ origin, (p.matcher origin).Reads word reach) (hne : ∀ a, word a ≠ [])
    (hplace : ∀ a s, (reach a (.place text s)).unmarked = .place text (s + (word a).length)) :
    p.Finds text fun s m =>
      ∃ a, IsLongest word (text.drop s) a ∧ p.found (.place text s) (reach a (.place text s)) = m where
  matchAt? origin s m := (h origin).matchAt?_eq_some_iff s m
  covers := by
    rintro s _ ⟨a, ⟨hpre, -⟩, rfl⟩
    exact ⟨_, covers_reach (hne a) (hplace a s) hpre⟩

lemma Match.Covers.spans (h : m.Covers text s e) : (m.spans text)[0]? = some (some (span text s e)) := by
  rw [← List.head?_eq_getElem?, Match.spans, List.head?_map, h.whole]
  rfl

lemma Match.Covers.spans_eq_iff (h : m.Covers text s e) (hs : s' ≤ text.length) (he : e' ≤ text.length) :
    (m.spans text)[0]? = some (some (span text s' e')) ↔ s = s' ∧ e = e' := by
  have hstart : s ≤ text.length := h.lt.le.trans h.inside
  rw [h.spans, Option.some_inj, Option.some_inj, span, span, Prod.mk.injEq, offset_inj hstart hs,
    offset_inj h.inside he]

lemma Match.Covers.contains_iff (h : m.Covers text s e) (hs : s' ≤ text.length) (he : e' ≤ text.length) :
    m.Contains text s' e' ↔ s ≤ s' ∧ e' ≤ e := by
  have hstart : s ≤ text.length := h.lt.le.trans h.inside
  simp only [Match.Contains, h.spans, span, Option.some.injEq, Prod.mk.injEq]
  constructor
  · rintro ⟨_, _, ⟨rfl, rfl⟩, ha, hb⟩
    exact ⟨(offset_le_iff hstart hs).mp ha, (offset_le_iff he h.inside).mp hb⟩
  · rintro ⟨ha, hb⟩
    exact ⟨_, _, ⟨rfl, rfl⟩, (offset_le_iff hstart hs).mpr ha, (offset_le_iff he h.inside).mpr hb⟩

lemma Match.Covers.unique (h : m.Covers text s e) (h' : m.Covers text s' e') : s = s' ∧ e = e' := by
  have hwhole := h.whole.symm.trans h'.whole
  simp only [Option.some.injEq, Prod.mk.injEq] at hwhole
  have hs := congrArg List.length hwhole.1
  have he := congrArg List.length hwhole.2
  have := h.lt
  have := h.inside
  have := h'.lt
  have := h'.inside
  simp only [List.length_drop] at hs he
  omega

namespace Finds

variable (h : p.Finds text hit)

include h

lemma searchAt?_eq_some_iff : p.searchAt? text n = some m ↔
    ∃ s, IsLeast {s | n ≤ s ∧ ∃ m, hit s m} s ∧ hit s m := by
  have hstarts : p.starts (text.drop n) text n = {s | n ≤ s ∧ ∃ m, hit s m} := by
    ext s
    simp only [starts, Set.mem_ofPred_eq, Option.isSome_iff_exists, h.matchAt?]
  simp only [Pattern.searchAt?_eq_some_iff, hstarts, h.matchAt?]

lemma searchAt?_of_first (hn : n ≤ s) (hs : hit s m) (hmin : ∀ s' m', n ≤ s' → hit s' m' → s ≤ s') :
    p.searchAt? text n = some m :=
  h.searchAt?_eq_some_iff.mpr ⟨s, ⟨⟨hn, m, hs⟩, fun _ ⟨hn', m', hs'⟩ => hmin _ m' hn' hs'⟩, hs⟩

lemma searchAt?_spans (groups : List (Option (ℕ × ℕ))) :
    (p.searchAt? text n).map (·.spans text) = some groups ↔
      ∃ s, IsLeast {s | n ≤ s ∧ ∃ m, hit s m} s ∧ ∃ m, hit s m ∧ m.spans text = groups := by
  simp only [Option.map_eq_some_iff, h.searchAt?_eq_some_iff]
  constructor
  · rintro ⟨m, ⟨s, hs, hm⟩, rfl⟩
    exact ⟨s, hs, m, hm, rfl⟩
  · rintro ⟨s, hs, m, hm, rfl⟩
    exact ⟨m, ⟨s, hs, hm⟩, rfl⟩

lemma exists_searchAt?_iff : (∃ m, p.searchAt? text n = some m) ↔ ∃ s m, n ≤ s ∧ hit s m := by
  constructor
  · rintro ⟨m, hm⟩
    obtain ⟨s, ⟨⟨hs, -⟩, -⟩, hm⟩ := h.searchAt?_eq_some_iff.mp hm
    exact ⟨s, m, hs, hm⟩
  · rintro ⟨s, m, hs, hm⟩
    classical
    have hleast := Nat.isLeast_find (p := fun s => n ≤ s ∧ ∃ m, hit s m) ⟨s, hs, m, hm⟩
    obtain ⟨-, m', hm'⟩ := hleast.1
    exact ⟨m', h.searchAt?_eq_some_iff.mpr ⟨_, hleast, hm'⟩⟩

lemma searchAt?_eq_none_iff : p.searchAt? text n = none ↔ ∀ s m, n ≤ s → ¬ hit s m := by
  rw [← not_iff_not, ← ne_eq, Option.ne_none_iff_exists', h.exists_searchAt?_iff]
  simp only [not_forall, not_not, exists_prop]

lemma successive_matchesFrom (fuel : ℕ) (previous : Option ℕ) (hn : n ≤ text.length) (hfuel : text.length - n < fuel) :
    p.Successive text n (p.matchesFrom fuel previous (text.take n).reverse (text.drop n)) := by
  induction fuel generalizing previous n with
  | zero => omega
  | succ fuel ih =>
    have hsearch : p.search? (text.take n).reverse (text.drop n) = p.searchAt? text n := rfl
    simp only [matchesFrom, hsearch]
    cases hm : p.searchAt? text n with
    | none => exact .done hm
    | some m =>
      obtain ⟨s, ⟨⟨hs, -⟩, -⟩, hhit⟩ := h.searchAt?_eq_some_iff.mp hm
      obtain ⟨e, he⟩ := h.covers hhit
      have hlt := he.lt
      have hinside := he.inside
      -- Only an empty match would make the search go on elsewhere than where the match ends.
      have hlength : (text.drop s).length ≠ (text.drop e).length := by
        rw [List.length_drop, List.length_drop]
        omega
      simp only [he.whole, Option.join_some, Option.any_some, beq_eq_false_iff_ne.mpr hlength, Bool.false_and,
        Bool.false_eq_true, if_false, he.before, he.after]
      exact .next hm he (ih _ hinside (by omega))

lemma successive_allMatches : p.Successive text 0 (p.allMatches text) := by
  have hall := h.successive_matchesFrom (2 * text.length + 2) none (Nat.zero_le _) (by omega)
  exact hall

end Finds

namespace Successive

variable {ms : List Match} (hms : p.Successive text n ms) (h : p.Finds text hit)

include hms h

lemma hit_of_mem (hm : m ∈ ms) : ∃ s e, hit s m ∧ m.Covers text s e := by
  induction hms with
  | done => cases hm
  | next hsearch _ _ ih =>
    rcases List.mem_cons.mp hm with rfl | hm
    · obtain ⟨s, -, hhit⟩ := h.searchAt?_eq_some_iff.mp hsearch
      obtain ⟨e, he⟩ := h.covers hhit
      exact ⟨s, e, hhit, he⟩
    · exact ih hm

lemma exists_covering (hn : n ≤ s) (hs : hit s m) : ∃ m' ∈ ms, ∃ i e, hit i m' ∧ m'.Covers text i e ∧ i ≤ s ∧ s < e := by
  induction hms with
  | done hsearch => exact absurd hs (h.searchAt?_eq_none_iff.mp hsearch _ _ hn)
  | @next _ i e _ _ hsearch hcovers _ ih =>
    obtain ⟨i', hi, hhit⟩ := h.searchAt?_eq_some_iff.mp hsearch
    obtain ⟨e', he⟩ := h.covers hhit
    obtain ⟨rfl, rfl⟩ := hcovers.unique he
    have hle : i ≤ s := hi.2 ⟨hn, m, hs⟩
    -- Unless the match reaches beyond the place, the search goes on before it or at it.
    by_cases hlt : s < e
    · exact ⟨_, List.mem_cons_self, i, e, hhit, he, hle, hlt⟩
    · obtain ⟨m', hm', hm''⟩ := ih (Nat.le_of_not_lt hlt)
      exact ⟨m', List.mem_cons_of_mem _ hm', hm''⟩

end Successive

namespace Finds

variable (h : p.Finds text hit)

include h

lemma hit_of_mem_allMatches (hm : m ∈ p.allMatches text) : ∃ s e, hit s m ∧ m.Covers text s e :=
  h.successive_allMatches.hit_of_mem h hm

lemma exists_mem_allMatches (hs : hit s m) :
    ∃ m' ∈ p.allMatches text, ∃ i e, hit i m' ∧ m'.Covers text i e ∧ i ≤ s ∧ s < e :=
  h.successive_allMatches.exists_covering h (Nat.zero_le s) hs

end Finds

end Highlight.Pattern
