import Highlight.Pattern.Search
import Mathlib.Data.List.Basic
import Mathlib.Tactic.Common

/-! The ways in which a matcher matches: the states from which it goes on, in the order in which it tries
them. -/

namespace Highlight.Pattern

namespace State

def advance (s : State) (n : ℕ) : State :=
  { s with before := (s.after.take n).reverse ++ s.before, after := s.after.drop n }

@[simp] lemma after_advance (s : State) (n : ℕ) : (s.advance n).after = s.after.drop n := rfl

@[simp] lemma kept_advance (s : State) (n : ℕ) : (s.advance n).kept = s.kept := rfl

@[simp] lemma after_mark (s : State) (m : Mark) : (s.mark m).after = s.after := rfl

@[simp] lemma kept_mark (s : State) (m : Mark) : (s.mark m).kept = s.kept := rfl

@[simp] lemma marks_mark (s : State) (m : Mark) : (s.mark m).marks = m :: s.marks := rfl

@[simp] lemma mark_advance (s : State) (m : Mark) (n : ℕ) :
    (s.mark m).advance n = (s.advance n).mark m := rfl

@[simp] lemma advance_zero (s : State) : s.advance 0 = s := by
  simp [advance]

@[simp] lemma advance_advance (s : State) (m n : ℕ) : (s.advance m).advance n = s.advance (m + n) := by
  simp [advance, List.take_add]

def stretch (s : State) (p : Char → Bool) : ℕ := (s.after.takeWhile p).length

lemma map_advance_range (s : State) (n : ℕ) :
    (List.range (n + 1)).reverse.map s.advance =
      (List.range n).reverse.map (s.advance 1).advance ++ [s] := by
  simp [List.range_succ_eq_map, Function.comp_def, Nat.add_comm]

lemma next?_of_hidden {s : State} (h : s.hidden = 0) :
    s.next? = s.after.head?.map fun c => (c, s.advance 1) := by
  obtain ⟨before, after, hidden, kept, marks⟩ := s
  obtain rfl : hidden = 0 := h
  cases after <;> rfl

end State

/-- Where nothing is hidden, a matcher goes on from the states that `f` lists until that succeeds, and
nothing is hidden from there either. -/
structure Matcher.Yields (m : Matcher) (f : State → List State) : Prop where
  tries {s : State} (h : s.hidden = 0) (k : State → Option State) : m s k = (f s).findSome? k
  hidden {s t : State} (h : s.hidden = 0) (ht : t ∈ f s) : t.hidden = 0

namespace Matcher.Yields

variable {m n : Matcher} {f g : State → List State}

lemma succeed : Matcher.succeed.Yields fun s => [s] where
  tries _ k := by simp [Matcher.succeed]
  hidden h ht := by
    obtain rfl := List.mem_singleton.mp ht
    exact h

lemma check (p : State → Bool) : (Matcher.check p).Yields fun s => if p s then [s] else [] where
  tries _ k := by
    rw [Matcher.check]
    split <;> simp
  hidden h ht := by
    split at ht
    · obtain rfl := List.mem_singleton.mp ht
      exact h
    · cases ht

lemma one (p : Char → Bool) :
    (Matcher.one p).Yields fun s => if s.after.head?.any p then [s.advance 1] else [] where
  tries {s} h k := by
    rw [Matcher.one, State.next?_of_hidden h]
    cases s.after.head? with
    | none => rfl
    | some c => cases hp : p c <;> simp [hp]
  hidden h ht := by
    split at ht
    · obtain rfl := List.mem_singleton.mp ht
      exact h
    · cases ht

lemma seq (hm : m.Yields f) (hn : n.Yields g) : (m.seq n).Yields fun s => (f s).flatMap g where
  tries {s} h k := by
    have hg : ∀ ts : List State, (∀ t ∈ ts, t.hidden = 0) →
        ts.findSome? (fun t => n t k) = (ts.flatMap g).findSome? k := by
      intro ts hts
      induction ts with
      | nil => rfl
      | cons t ts ih =>
        rw [List.flatMap_cons, List.findSome?_append, List.findSome?_cons, hn.tries (hts t (by simp)),
          ih fun u hu => hts u (by simp [hu])]
        cases (g t).findSome? k <;> rfl
    rw [Matcher.seq, hm.tries h]
    exact hg _ fun t ht => hm.hidden h ht
  hidden h ht := by
    obtain ⟨u, hu, ht⟩ := List.mem_flatMap.mp ht
    exact hn.hidden (hm.hidden h hu) ht

lemma or (hm : m.Yields f) (hn : n.Yields g) : (m.or n).Yields fun s => f s ++ g s where
  tries h k := by
    rw [Matcher.or, hm.tries h, hn.tries h, List.findSome?_append, Option.orElse_eq_orElse,
      Option.orElse_eq_or]
  hidden h ht := by
    rcases List.mem_append.mp ht with ht | ht
    · exact hm.hidden h ht
    · exact hn.hidden h ht

lemma capture (group : ℕ) (hm : m.Yields f) : (m.capture group).Yields fun s =>
    (f (s.mark (.opened group s.after))).map fun t => t.mark (.closed group s.after t.after) where
  tries h k := by
    rw [Matcher.capture, hm.tries (by exact h), List.findSome?_map]
    rfl
  hidden {s t} h ht := by
    obtain ⟨u, hu, rfl⟩ := List.mem_map.mp ht
    have hs : (s.mark (.opened group s.after)).hidden = 0 := h
    have hu' : u.hidden = 0 := hm.hidden hs hu
    exact hu'

lemma literal (cs : List Char) :
    (cs.foldr (fun c m => Matcher.seq (.one (· == c)) m) Matcher.succeed).Yields
      fun s => if cs <+: s.after then [s.advance cs.length] else [] := by
  induction cs with
  | nil => simpa using succeed
  | cons c cs ih =>
    have hways : (fun s : State => if c :: cs <+: s.after then [s.advance (c :: cs).length] else []) =
        fun s => (if s.after.head?.any (· == c) then [s.advance 1] else []).flatMap
          fun s => if cs <+: s.after then [s.advance cs.length] else [] := by
      funext s
      obtain ⟨before, after, hidden, kept, marks⟩ := s
      cases after with
      | nil => simp
      | cons d after =>
        by_cases hd : d = c
        · subst hd
          simp [Nat.add_comm]
        · simp [hd, Ne.symm hd]
    rw [hways]
    exact (one (· == c)).seq ih

/-! ### Repetition -/

lemma optional (hm : m.Yields f) :
    (Matcher.loop ⟨0, some 1, true⟩ {} m).Yields fun s => f s ++ [s] :=
  hm.or succeed

lemma star (p : Char → Bool) (credit : ℕ) :
    (Matcher.star (.one p) true [] credit).Yields fun s =>
      (List.range (s.stretch p + 1)).reverse.map s.advance where
  tries {s} h k := by
    rw [State.map_advance_range]
    induction hs : s.after generalizing s credit with
    | nil =>
      rw [Matcher.star]
      simp [(one p).tries h, hs, State.stretch]
    | cons c rest ih =>
      have hrest := ih 1 (s := s.advance 1) h (by simp [hs])
      rw [Matcher.star]
      simp only [(one p).tries h, hs, List.head?_cons, Option.any_some]
      by_cases hc : p c
      · have hstretch : s.stretch p = (s.advance 1).stretch p + 1 := by
          simp [State.stretch, hs, hc]
        rw [hstretch, State.map_advance_range, List.findSome?_append, ← hrest]
        simp [hc, hs]
      · simp [hc, hs, State.stretch]
  hidden {s t} h ht := by
    obtain ⟨n, -, rfl⟩ := List.mem_map.mp ht
    exact h

end Matcher.Yields

end Highlight.Pattern
