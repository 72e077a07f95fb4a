import Highlight.Proofs.Grammar.Conversion

/-! Where a grammar ends in JSON. It is read as soon as its last bracket is there and never before, and what
comes after that bracket is not looked at. -/

namespace Highlight.Grammar

open Json

variable {b c p rest : Bytes} {g h : Grammar}

lemma ofBytes_json_error (hp : ∀ g, ofBytes .json p ≠ .ok g) :
    ∃ fault, ofBytes .json p = .error (.json fault p) := by
  rw [ofBytes] at *
  cases ho : ofJson p with
  | error fault => exact ⟨fault, rfl⟩
  | ok g => exact (hp g (by rw [ho]; rfl)).elim

lemma exists_extent (hb : ofBytes .json b = .ok g) :
    ∃ c rest, b = c ++ rest ∧ ∀ t, (Json.grammar (c ++ t)).outcome = .ok (g, t) := by
  obtain ⟨rest, ho⟩ := ofBytes_json_iff.mp hb
  obtain ⟨c, rfl, -, hc⟩ := grammar_ends b g rest ho
  exact ⟨c, rest, rfl, fun t => hc t trivial⟩

lemma eq_of_cut (hc : ∀ h rest, (Json.grammar c).outcome = .ok (h, rest) → rest = []) (hp : p <+: c)
    (hh : ofBytes .json p = .ok h) : p = c := by
  obtain ⟨q, rfl⟩ := hp
  obtain ⟨d, rest, rfl, hd⟩ := exists_extent hh
  -- What is read of the part is read of the whole text.
  have hall := hd (rest ++ q)
  rw [← List.append_assoc] at hall
  rw [(List.append_eq_nil_iff.mp (hc h _ hall)).2, List.append_nil]

lemma length_le_of_cut (hc : ∀ t, (Json.grammar (c ++ t)).outcome = .ok (g, t)) (hp : p <+: c ++ rest)
    (hh : ofBytes .json p = .ok h) : c.length ≤ p.length := by
  by_contra hlt
  have hle : p.length ≤ c.length := Nat.le_of_not_le hlt
  have hpc : p <+: c := List.prefix_of_prefix_length_le hp (List.prefix_append c rest) hle
  have hwhole (h : Grammar) (rest : Bytes) (ho : (Json.grammar c).outcome = .ok (h, rest)) : rest = [] := by
    have hnil := hc []
    rw [List.append_nil, ho] at hnil
    exact (Prod.mk.inj (Except.ok.inj hnil)).2
  rw [eq_of_cut hwhole hpc hh] at hlt
  exact hlt (Nat.le_refl _)

theorem json_self_delimiting (hb : ofBytes .json b = .ok g) :
    ∃! n, (∀ p, p <+: b → p.length < n → ∃ fault, ofBytes .json p = .error (.json fault p)) ∧
      (∀ p, p <+: b → n ≤ p.length → ofBytes .json p = .ok g) ∧ ∀ t, ofBytes .json (b ++ t) = .ok g := by
  obtain ⟨c, rest, rfl, hc⟩ := exists_extent hb
  have hread (t : Bytes) : ofBytes .json (c ++ t) = .ok g := ofBytes_json_iff.mpr ⟨t, hc t⟩
  refine ⟨c.length, ⟨fun p hp hlt => ?_, fun p hp hle => ?_, fun t => ?_⟩, ?_⟩
  · refine ofBytes_json_error fun h hh => ?_
    exact Nat.not_le_of_lt hlt (length_le_of_cut hc hp hh)
  · obtain ⟨t, rfl⟩ := List.prefix_of_prefix_length_le (List.prefix_append c rest) hp hle
    exact hread t
  · rw [List.append_assoc]
    exact hread (rest ++ t)
  · rintro n ⟨hshort, hlong, -⟩
    have hle : n ≤ c.length := by
      by_contra hlt
      obtain ⟨fault, hf⟩ := hshort c (List.prefix_append c rest) (Nat.lt_of_not_le hlt)
      have hok := hread []
      rw [List.append_nil, hf] at hok
      cases hok
    have hlength : (c.take n).length = n := List.length_take_of_le hle
    have hprefix : c.take n <+: c ++ rest := (List.take_prefix n c).trans (List.prefix_append c rest)
    have hge := length_le_of_cut hc hprefix (hlong _ hprefix (Nat.le_of_eq hlength.symm))
    omega

theorem json_self_delimiting_irregular : ofBytes .json irregular = .ok regular ∧
    ∃! n, (∀ p, p <+: irregular → p.length < n → ∃ fault, ofBytes .json p = .error (.json fault p)) ∧
      (∀ p, p <+: irregular → n ≤ p.length → ofBytes .json p = .ok regular) ∧
        ∀ t, ofBytes .json (irregular ++ t) = .ok regular :=
  ⟨ofBytes_irregular, json_self_delimiting ofBytes_irregular⟩

end Highlight.Grammar
