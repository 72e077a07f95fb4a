import Highlight.Proofs.Json.Syntax

/-! What readers make of the text of a value: what they return and leave over, or the part of the
document in which they fail. What kind of fault it is and the bounds on lengths are forgotten. -/

namespace Highlight

lemma toOption_eq_some_iff {ε α : Type} {x : Except ε α} {a : α} : x.toOption = some a ↔ x = .ok a := by
  cases x <;> simp [Except.toOption]

namespace Json

namespace Result

variable {α β : Type} {s t : Bytes}

def outcome (r : Result α s) : Except (List Step) (α × Bytes) :=
  match r with
  | .ok p => .ok (p.value, p.rest)
  | .error e => .error e.path

@[simp] lemma outcome_ok (a : α) (r : Bytes) (h : r.length < s.length) :
    outcome (.ok ⟨a, r, h⟩ : Result α s) = .ok (a, r) := rfl

@[simp] lemma outcome_error (e : Fault) : outcome (.error e : Result α s) = .error e.path := rfl

@[simp] lemma outcome_widen (h : s.length ≤ t.length) (r : Result α s) :
    (r.widen h).outcome = r.outcome := by
  cases r <;> rfl

lemma outcome_andThen {r : Result α s} {f : α → (t : Bytes) → t.length < s.length → Result β t}
    {a : α} {u : Bytes} (h : r.outcome = .ok (a, u)) :
    ∃ hu, (r.andThen f).outcome = (f a u hu).outcome := by
  cases r with
  | error e => simp at h
  | ok p =>
    obtain ⟨rfl, rfl⟩ : p.value = a ∧ p.rest = u := by simpa [outcome] using h
    exact ⟨p.shorter, by simp [andThen]⟩

lemma outcome_andThen_error {r : Result α s}
    {f : α → (t : Bytes) → t.length < s.length → Result β t} {p : List Step}
    (h : r.outcome = .error p) : (r.andThen f).outcome = .error p := by
  cases r with
  | error e => simpa [andThen] using h
  | ok q => simp [outcome] at h

lemma outcome_check (r : Result α s) (f : α → Bytes → Except Fault β) :
    (r.check f).outcome = r.outcome.bind fun p =>
      match f p.1 p.2 with
      | .ok b => .ok (b, p.2)
      | .error e => .error e.path := by
  cases r with
  | error e => rfl
  | ok p =>
    simp only [check, outcome, Except.bind]
    cases f p.value p.rest <;> rfl

@[simp] lemma outcome_map (f : α → β) (r : Result α s) :
    (r.map f).outcome = r.outcome.map fun p => (f p.1, p.2) := by
  cases r <;> rfl

@[simp] lemma outcome_within (step : Step) (r : Result α s) :
    (r.within step).outcome = r.outcome.mapError (step :: ·) := by
  cases r <;> rfl

lemma outcome_within_eq_ok {step : Step} {r : Result α s} {q : α × Bytes} :
    (r.within step).outcome = .ok q ↔ r.outcome = .ok q := by
  rw [outcome_within]
  cases r.outcome <;> simp [Except.mapError]

end Result

/-! ### White space -/

@[simp] lemma skipSpace_cons (b : UInt8) (s : Bytes) :
    skipSpace (b :: s) = if isSpace b = true then skipSpace s else b :: s := by
  cases h : isSpace b <;> simp [skipSpace, h]

lemma skipSpace_blank {w : Bytes} (hw : Blank w) (s : Bytes) : skipSpace (w ++ s) = skipSpace s := by
  induction w with
  | nil => rfl
  | cons b w ih =>
    rw [List.cons_append, skipSpace_cons, if_pos (hw b (by simp))]
    exact ih fun c hc => hw c (by simp [hc])

lemma skipSpace_blank_cons {w : Bytes} (hw : Blank w) {b : UInt8} (hb : isSpace b = false)
    (s : Bytes) : skipSpace (w ++ b :: s) = b :: s := by
  rw [skipSpace_blank hw, skipSpace_cons, hb]
  rfl

lemma ahead?_of_skipSpace {s r : Bytes} {b : UInt8} (h : skipSpace s = b :: r) :
    ∃ hr : r.length < s.length, ahead? s = some (b, ⟨r, hr⟩) := by
  have hr : r.length < s.length := by
    have hs := length_skipSpace s
    rwa [h] at hs
  refine ⟨hr, ?_⟩
  rw [ahead?]
  split
  · next hs => simp [hs] at h
  · next c u hs =>
    obtain ⟨rfl, rfl⟩ : c = b ∧ u = r := by simpa [hs] using h
    rfl

lemma ahead?_blank {w : Bytes} (hw : Blank w) {b : UInt8} (hb : isSpace b = false) (s : Bytes) :
    ∃ h : s.length < (w ++ b :: s).length, ahead? (w ++ b :: s) = some (b, ⟨s, h⟩) :=
  ahead?_of_skipSpace (skipSpace_blank_cons hw hb s)

lemma outcome_afterSpace {α : Type} (r : Reader α) {w : Bytes} (hw : Blank w) {b : UInt8}
    (hb : isSpace b = false) (s : Bytes) :
    (r.afterSpace (w ++ b :: s)).outcome = (r (b :: s)).outcome := by
  have hs := skipSpace_blank_cons hw hb s
  rw [Reader.afterSpace, Result.outcome_widen, hs]

/-! ### Readers of values -/

def EndsValue (b : UInt8) : Prop :=
  isSpace b = true ∨ b = comma ∨ b = closeBracket ∨ b = closeBrace

def Ends (rest : Bytes) : Prop := ∀ b ∈ rest.head?, EndsValue b

lemma Ends.cons {b : UInt8} (h : EndsValue b) (rest : Bytes) : Ends (b :: rest) := by
  intro c hc
  obtain rfl : b = c := by simpa using hc
  exact h

lemma Ends.blank_append {w rest : Bytes} (hw : Blank w) (h : Ends rest) : Ends (w ++ rest) := by
  cases w with
  | nil => exact h
  | cons b w => exact .cons (.inl (hw b (by simp))) _

/-- A reader decodes values by `f` when it makes of every text of a value what `f` makes of the
value. -/
def Reader.Decodes {α : Type} (r : Reader α) (f : Value → Except (List Step) α) : Prop :=
  ∀ {v : Value} {w b rest : Bytes}, Blank w → Spells v b → Ends rest →
    (r (w ++ (b ++ rest))).outcome = (f v).map (·, rest)

end Json

end Highlight
