import Mathlib.Data.Nat.Init
import Highlight.Proofs.PropertyList.Decoding

/-! Readers of events take what they need from the front: what is read from some events is read from every
longer sequence that begins with them, whatever fault ends the shorter one. -/

namespace Highlight

variable {ε α β : Type}

lemma exists_of_bind_ok {x : Except ε α} {f : α → Except ε β} {b : β} (h : x.bind f = .ok b) :
    ∃ a, x = .ok a ∧ f a = .ok b := by
  cases x with
  | error e => cases h
  | ok a => exact ⟨a, rfl, h⟩

lemma exists_of_map_ok {x : Except ε α} {f : α → β} {b : β} (h : x.map f = .ok b) :
    ∃ a, x = .ok a ∧ f a = b := by
  cases x with
  | error e => cases h
  | ok a => exact ⟨a, rfl, Except.ok.inj h⟩

namespace PropertyList

/-- Whatever is read from some events is read from every longer sequence of events. -/
def Reader.Lasts (r : Reader α) : Prop :=
  ∀ ending es a fs, outcome (r ending es) = .ok (a, fs) →
    ∀ ending' t, outcome (r ending' (es ++ t)) = .ok (a, fs ++ t)

lemma Reader.Lasts.check {r : Reader α} (h : r.Lasts) {q : Reader β} {g : α → Except Fault β}
    (hq : ∀ ending es, outcome (q ending es) =
      (outcome (r ending es)).bind fun p => (g p.1).map (·, p.2)) : q.Lasts := by
  intro ending es b fs hb ending' t
  rw [hq] at hb
  obtain ⟨⟨a, r'⟩, hr, hm⟩ := exists_of_bind_ok hb
  obtain ⟨b', hg, hp⟩ := exists_of_map_ok hm
  cases hp
  rw [hq, h ending es a r' hr ending' t]
  exact congrArg (·.map (·, r' ++ t)) hg

lemma text_lasts : text.Lasts := by
  intro ending es s fs h ending' t
  cases es with
  | nil => cases h
  | cons e es =>
    cases e with
    | text s' =>
      cases h
      rfl
    | date s' =>
      cases h
      rfl
    | data b =>
      have hd (ending : Fault) (es : List Event) : outcome (text ending (.data b :: es)) =
          (Bytes.text? b).elim (misfit (.invalidValue .bytes "a string")) fun s => .ok (s, es) := by
        rw [text]
        cases Bytes.text? b <;> rfl
      rw [List.cons_append, hd] at *
      cases hb : Bytes.text? b with
      | none =>
        rw [hb] at h
        cases h
      | some s' =>
        rw [hb] at h
        cases h
        rfl
    | _ => cases h

/-! ### Values of any kind -/

namespace Opened

lemma finished_value {ending : Fault} {c : Opened} {around : List Opened} {e : Event}
    (ha : e ≠ .startArray) (hd : e ≠ .startDictionary) (he : e ≠ .endCollection) (es : List Event) :
    c.finished ending around (e :: es) = (c.put e.tree).finished ending around es := by
  rw [finished, finish, outcome_widen]
  · rfl
  · exact he
  · exact ha
  · exact hd

lemma finished_lasts {ending : Fault} {c : Opened} {around : List Opened} {es fs : List Event} {v : Tree}
    (h : c.finished ending around es = .ok (v, fs)) (ending' : Fault) (t : List Event) :
    c.finished ending' around (es ++ t) = .ok (v, fs ++ t) := by
  induction es generalizing c around with
  | nil => cases h
  | cons e es ih =>
    rw [List.cons_append]
    by_cases ha : e = .startArray
    · subst ha
      rw [finished_startArray] at h ⊢
      exact ih h
    by_cases hd : e = .startDictionary
    · subst hd
      rw [finished_startDictionary] at h ⊢
      exact ih h
    by_cases he : e = .endCollection
    · subst he
      cases hc : c.close? with
      | none =>
        rw [finished, finish.eq_def] at h
        simp only [hc] at h
        cases h
      | some w =>
        cases around with
        | nil =>
          rw [finished_last hc] at h ⊢
          cases h
          rfl
        | cons outer around =>
          rw [finished_end hc] at h ⊢
          exact ih h
    · rw [finished_value ha hd he] at h ⊢
      exact ih h

end Opened

lemma tree_lasts : Reader.Lasts tree := by
  intro ending es v fs h ending' t
  have harray (ending : Fault) (fs : List Event) : outcome (tree ending (.startArray :: fs)) =
      (Opened.items []).finished ending [] fs := by
    rw [tree, outcome_widen]
    rfl
  have hrecord (ending : Fault) (fs : List Event) : outcome (tree ending (.startDictionary :: fs)) =
      (Opened.members [] none).finished ending [] fs := by
    rw [tree, outcome_widen]
    rfl
  cases es with
  | nil => cases h
  | cons e es =>
    rw [List.cons_append]
    cases e with
    | startArray =>
      rw [harray] at h ⊢
      exact Opened.finished_lasts h ending' t
    | startDictionary =>
      rw [hrecord] at h ⊢
      exact Opened.finished_lasts h ending' t
    | _ => cases h <;> rfl

lemma rule_lasts : rule.Lasts := by
  refine tree_lasts.check (g := fun v => (Rule.ofTree? v).elim (misfit .noKindOfRule) .ok) ?_
  intro ending es
  rw [rule]
  cases tree ending es with
  | error f => rfl
  | ok p =>
    simp only [outcome, Except.map, Except.bind]
    cases Rule.ofTree? p.1 <;> rfl

/-! ### Collections -/

lemma items_lasts {item : Reader α} (hi : item.Lasts) : Reader.Lasts (items item) := by
  intro ending es as fs h ending' t
  induction hn : es.length using Nat.strong_induction_on generalizing es as with
  | _ n ih =>
    subst hn
    cases es with
    | nil =>
      rw [items] at h
      cases h
    | cons e es =>
      by_cases he : e = .endCollection
      · subst he
        rw [items] at h
        cases h
        rw [List.cons_append, items]
        rfl
      rw [outcome_items item ending he] at h
      obtain ⟨⟨a, r⟩, hx, hy⟩ := exists_of_bind_ok h
      obtain ⟨⟨as', fs'⟩, hr, hp⟩ := exists_of_map_ok hy
      cases hp
      obtain ⟨hlt, -⟩ := eq_ok_of_outcome hx
      have ha := hi ending (e :: es) a r hx ending' t
      rw [List.cons_append] at ha ⊢
      rw [outcome_items item ending' he, ha]
      exact congrArg (·.map fun q => (a :: q.1, q.2)) (ih r.length hlt r as' hr rfl)

lemma array_lasts {item : Reader α} (hi : item.Lasts) : (array item).Lasts := by
  intro ending es as fs h ending' t
  have ha (ending : Fault) (fs : List Event) : outcome (array item ending (.startArray :: fs)) =
      outcome (items item ending fs) := outcome_widen _ _
  cases es with
  | nil => cases h
  | cons e es =>
    cases e with
    | startArray =>
      rw [ha] at h
      rw [List.cons_append, ha]
      exact items_lasts hi ending es as fs h ending' t
    | _ => cases h

/-! ### Members -/

lemma fill_lasts {value : Reader α} (hv : value.Lasts) (i : ℕ) (known : Option α)
    (put : α → Grammar.Fields) : Reader.Lasts (Fields.fill i known value put) := by
  cases known with
  | some a =>
    intro ending es f fs h
    cases h
  | none =>
    refine hv.check (g := fun a => .ok (put a)) fun ending es => ?_
    rw [Fields.fill]
    cases value ending es <;> rfl

lemma member_lasts (f : Grammar.Fields) (i : Option ℕ) : Reader.Lasts (Fields.member f i) := by
  unfold Fields.member
  split
  · exact fill_lasts text_lasts 0 _ _
  · exact fill_lasts text_lasts 1 _ _
  · exact fill_lasts (array_lasts text_lasts) 2 _ _
  · exact fill_lasts (array_lasts rule_lasts) 3 _ _
  · refine tree_lasts.check (g := fun _ => .ok f) fun ending es => ?_
    cases tree ending es <;> rfl

lemma members_eq (f : Grammar.Fields) (ending : Fault) {e : Event} (he : e ≠ .endCollection)
    (es : List Event) : Fields.members f ending (e :: es) =
      (field? e).bind fun i => (outcome (Fields.member f i ending es)).bind fun p =>
        Fields.members p.1 ending p.2 := by
  rw [Fields.members]
  · cases field? e with
    | error fault => rfl
    | ok i =>
      simp only [Except.bind]
      cases Fields.member f i ending es <;> rfl
  · exact he

lemma members_lasts {f f' : Grammar.Fields} {ending : Fault} {es : List Event}
    (h : Fields.members f ending es = .ok f') (ending' : Fault) (t : List Event) :
    Fields.members f ending' (es ++ t) = .ok f' := by
  induction hn : es.length using Nat.strong_induction_on generalizing es f with
  | _ n ih =>
    subst hn
    cases es with
    | nil =>
      rw [Fields.members] at h
      cases h
    | cons e es =>
      rw [List.cons_append]
      by_cases he : e = .endCollection
      · subst he
        rw [Fields.members] at h ⊢
        exact h
      rw [members_eq f ending he] at h
      obtain ⟨i, hk, hm⟩ := exists_of_bind_ok h
      obtain ⟨⟨f'', r⟩, hr, hf⟩ := exists_of_bind_ok hm
      obtain ⟨hlt, -⟩ := eq_ok_of_outcome hr
      rw [members_eq f ending' he, hk, Except.bind, member_lasts f i ending es f'' r hr ending' t]
      exact ih r.length (Nat.lt_succ_of_lt hlt) hf rfl

theorem grammar_lasts {es fs : List Event} (hp : es <+: fs) {fault : Option Fault} {g : Grammar}
    (h : Trace.grammar ⟨es, fault⟩ = .ok g) (fault' : Option Fault) :
    Trace.grammar ⟨fs, fault'⟩ = .ok g := by
  obtain ⟨t, rfl⟩ := hp
  cases es with
  | nil => cases h
  | cons e es =>
    cases e with
    | startDictionary =>
      rw [Trace.grammar] at h ⊢
      simp only [List.cons_append] at h ⊢
      cases hm : Fields.members {} (fault.getD ⟨.unexpectedEndOfEventStream, none⟩) es with
      | error f =>
        rw [hm] at h
        cases h
      | ok f =>
        rw [hm] at h
        rw [members_lasts hm]
        exact h
    | _ => cases h

end PropertyList

end Highlight
