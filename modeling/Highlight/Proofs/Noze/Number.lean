import Highlight.Noze
import Highlight.Proofs.Pattern.Preferred

/-! What the rule for numbers matches: the longest literal at the first place where there is any. -/

namespace Highlight.Noze

open Pattern

inductive Radix
  | binary
  | octal
  | hexadecimal
  deriving DecidableEq

namespace Radix

def letter : Radix → Char
  | .binary => 'b'
  | .octal => 'o'
  | .hexadecimal => 'x'

def isDigit : Radix → Char → Bool
  | .binary, c => '0' ≤ c && c ≤ '1'
  | .octal, c => '0' ≤ c && c ≤ '8'
  | .hexadecimal, c => Unicode.isDigit c || ('a' ≤ c && c ≤ 'f')

def group : Radix → ℕ
  | .binary => 4
  | .octal => 5
  | .hexadecimal => 6

end Radix

inductive Numeral
  | radix (r : Radix) (digits : Run r.isDigit)
  | decimal (whole : Run Unicode.isDigit) (fraction : Option (Run Unicode.isDigit))

inductive Sign
  | plus
  | minus

def Sign.char : Sign → Char
  | .plus => '+'
  | .minus => '-'

structure Literal where
  sign : Option Sign
  numeral : Numeral

namespace Numeral

def text : Numeral → List Char
  | .radix r digits => '0' :: r.letter :: digits.text
  | .decimal whole fraction => whole.text ++ fraction.elim [] fun digits => '.' :: digits.text

def groups (input : List Char) (s e : ℕ) : Numeral → List (Option (ℕ × ℕ))
  | .radix r _ =>
    some (span input s e) :: some (span input (s + 1) e) ::
      (match r with
        | .binary => [some (span input (s + 1) e), none, none]
        | .octal => [none, some (span input (s + 1) e), none]
        | .hexadecimal => [none, none, some (span input (s + 1) e)]) ++ [none, none]
  | .decimal whole fraction =>
    [none, none, none, none, none, some (span input s e),
      fraction.map fun _ => span input (s + whole.text.length) e]

def reach : Numeral → State → State
  | .radix r digits => State.capturing 2 fun s => State.capturing 3
      (State.capturing r.group fun t => (t.advance 1).advance digits.text.length) (s.advance 1)
  | .decimal whole fraction => State.capturing 7 fun s =>
      fraction.elim id (fun digits => State.capturing 8 fun t => (t.advance 1).advance digits.text.length)
        (s.advance whole.text.length)

end Numeral

namespace Literal

def signText (l : Literal) : List Char := (l.sign.map Sign.char).toList

def text (l : Literal) : List Char := l.signText ++ l.numeral.text

def groups (input : List Char) (s : ℕ) (l : Literal) : List (Option (ℕ × ℕ)) :=
  let middle := s + l.signText.length
  let e := s + l.text.length
  some (span input s e) :: some (span input middle e) :: l.numeral.groups input middle e

def reach (l : Literal) (s : State) : State :=
  State.capturing 1 l.numeral.reach (s.advance l.signText.length)

end Literal

/-! ### Compiling -/

def signSet : CharSet := .union (.code 0x2b) (.code 0x2d)

def digitSet : Radix → CharSet
  | .binary => .union (.code 0x30) (.code 0x31)
  | .octal => .range 0x30 0x38
  | .hexadecimal => .union (.property .digit) (.range 0x61 0x66)

def digitsNode (set : CharSet) : Node := .loop .plus {} (.one set)

def radixNode (r : Radix) : Node :=
  .capture r.group (.sequence (.literal [r.letter]) (digitsNode (digitSet r)))

def decimalNode : Node :=
  .capture 7 (.sequence (digitsNode (.property .digit)) (.loop ⟨0, some 1, true⟩ {}
    (.capture 8 (.sequence (.literal ['.']) (digitsNode (.property .digit))))))

def numeralNode : Node :=
  .choice
    (.capture 2 (.sequence (.literal ['0']) (.capture 3
      (.choice (radixNode .binary) (.choice (radixNode .octal) (radixNode .hexadecimal))))))
    decimalNode

def literalPattern : Pattern :=
  ⟨.sequence (.loop ⟨0, some 1, true⟩ {} (.one signSet)) (.capture 1 numeralNode), 8, []⟩

lemma compile_number :
    compile "[\\+\\-]?((0((b[01]+)|(o[0-8]+)|(x[\\da-f]+)))|(\\d+(\\.\\d+)?))".toList = .ok literalPattern := by
  decide +kernel

/-! ### Matching -/

lemma contains_signSet (c : Char) : signSet.contains c = true ↔ ∃ s : Sign, s.char = c := by
  constructor
  · intro h
    simp only [signSet, CharSet.code, CharSet.contains, Bool.or_eq_true, Bool.and_eq_true, decide_eq_true_eq] at h
    rcases h with h | h
    · exact ⟨.plus, Char.toNat_inj.mp (Nat.le_antisymm h.1 h.2)⟩
    · exact ⟨.minus, Char.toNat_inj.mp (Nat.le_antisymm h.1 h.2)⟩
  · rintro ⟨s, rfl⟩
    cases s <;> decide

lemma contains_digitSet (r : Radix) : (digitSet r).contains = r.isDigit := by
  funext c
  cases r with
  | binary =>
    rw [Bool.eq_iff_iff]
    simp only [digitSet, CharSet.code, CharSet.contains, Radix.isDigit, Bool.or_eq_true, Bool.and_eq_true,
      decide_eq_true_eq, Char.le_def, UInt32.le_iff_toNat_le]
    change _ ↔ 48 ≤ c.toNat ∧ c.toNat ≤ 49
    omega
  | octal => rfl
  | hexadecimal => rfl

section

variable (call : ℕ → Matcher) (origin : List Char)

lemma reads_digitsNode {set : CharSet} {p : Char → Bool} (h : set.contains = p) :
    ((digitsNode set).matcher call origin).Reads (fun digits : Run p => digits.text)
      fun digits t => t.advance digits.text.length := by
  subst h
  exact .plus _

lemma reads_radixNode (r : Radix) : ((radixNode r).matcher call origin).Reads
    (fun digits : Run r.isDigit => r.letter :: digits.text)
    fun digits => State.capturing r.group fun t => (t.advance 1).advance digits.text.length :=
  ((reads_digitsNode call origin (contains_digitSet r)).literal_seq [r.letter]).capture r.group

lemma decimal_shorter {l : List Char} {whole whole' : Run Unicode.isDigit}
    {fraction fraction' : Option (Run Unicode.isDigit)} (h : (Numeral.decimal whole fraction).text <+: l)
    (h' : (Numeral.decimal whole' fraction').text <+: l) (hlt : whole'.text.length < whole.text.length) :
    (Numeral.decimal whole' fraction').text.length < (Numeral.decimal whole fraction).text.length := by
  cases fraction' with
  | none =>
    simp only [Numeral.text, Option.elim_none, List.append_nil, List.length_append]
    omega
  | some digits =>
    have hdot : Unicode.isDigit '.' := all_of_lt whole.all ((List.prefix_append _ _).trans h) h' hlt
    exact absurd hdot (by decide)

lemma reads_decimalNode : (decimalNode.matcher call origin).Reads
    (fun d : Run Unicode.isDigit × Option (Run Unicode.isDigit) => (Numeral.decimal d.1 d.2).text)
    fun d => (Numeral.decimal d.1 d.2).reach := by
  have hdigits : ((digitsNode (.property .digit)).matcher call origin).Reads
      (fun digits : Run Unicode.isDigit => digits.text) fun digits t => t.advance digits.text.length :=
    reads_digitsNode call origin rfl
  have hfraction := ((hdigits.literal_seq ['.']).capture 8).optional (by simp)
  have hseq := hdigits.seq hfraction fun l _ _ _ _ => decimal_shorter
  refine (hseq.capture 7).of_surjective (g := id) Function.surjective_id (fun _ => rfl) ?_
  rintro ⟨whole, _ | digits⟩ <;> rfl

lemma eq_of_letter {r r' : Radix} {l w w' : List Char} (h : r.letter :: w <+: l) (h' : r'.letter :: w' <+: l) :
    r = r' := by
  obtain ⟨x, rfl⟩ := h
  obtain ⟨hletter, -⟩ := List.cons_prefix_cons.mp h'
  revert hletter
  cases r <;> cases r' <;> decide

lemma length_decimal_of_radix {l : List Char} {r : Radix} {digits : Run r.isDigit} {whole : Run Unicode.isDigit}
    {fraction : Option (Run Unicode.isDigit)} (h : (Numeral.radix r digits).text <+: l)
    (h' : (Numeral.decimal whole fraction).text <+: l) : (Numeral.decimal whole fraction).text.length = 1 := by
  have hwhole : whole.text.length = 1 := by
    refine Nat.le_antisymm (Nat.le_of_not_lt fun hlt => ?_) whole.length_pos
    have hletter : Unicode.isDigit r.letter := all_of_lt whole.all ((List.prefix_append _ _).trans h') (w := ['0']) h hlt
    revert hletter
    cases r <;> decide
  obtain ⟨c, hc⟩ := List.length_eq_one_iff.mp hwhole
  cases fraction with
  | none => simpa [Numeral.text] using hwhole
  | some f =>
    obtain ⟨x, rfl⟩ := h
    simp only [Numeral.text, hc, Option.elim_some, List.cons_append, List.nil_append,
      List.cons_prefix_cons] at h'
    obtain ⟨-, hletter, -⟩ := h'
    exact absurd hletter (by cases r <;> decide)

lemma reads_radices :
    ((Node.choice (radixNode .binary) (.choice (radixNode .octal) (radixNode .hexadecimal))).matcher call
      origin).Reads (fun d : (r : Radix) × Run r.isDigit => d.1.letter :: d.2.text)
    fun d => State.capturing d.1.group fun t => (t.advance 1).advance d.2.text.length := by
  have hbinary := reads_radixNode call origin .binary
  have hoctal := reads_radixNode call origin .octal
  have hexadecimal := reads_radixNode call origin .hexadecimal
  have h := hbinary.or (hoctal.or hexadecimal fun l a b ha hb => nomatch eq_of_letter ha hb) (by
    rintro l a (b | b) ha hb
    · cases eq_of_letter ha hb
    · cases eq_of_letter ha hb)
  refine h.of_surjective (g := fun
    | ⟨.binary, digits⟩ => .inl digits
    | ⟨.octal, digits⟩ => .inr (.inl digits)
    | ⟨.hexadecimal, digits⟩ => .inr (.inr digits)) ?_ ?_ ?_
  · rintro (digits | digits | digits)
    · exact ⟨⟨.binary, digits⟩, rfl⟩
    · exact ⟨⟨.octal, digits⟩, rfl⟩
    · exact ⟨⟨.hexadecimal, digits⟩, rfl⟩
  · rintro ⟨_ | _ | _, digits⟩ <;> rfl
  · rintro ⟨_ | _ | _, digits⟩ <;> rfl

lemma reads_numeralNode : (numeralNode.matcher call origin).Reads Numeral.text Numeral.reach := by
  have hradix := (((reads_radices call origin).capture 3).literal_seq ['0']).capture 2
  have h := hradix.or (reads_decimalNode call origin) fun l a b ha hb => by
    rw [length_decimal_of_radix ha hb]
    simp
  refine h.of_surjective (g := fun
    | .radix r digits => .inl ⟨r, digits⟩
    | .decimal whole fraction => .inr (whole, fraction)) ?_ ?_ ?_
  · rintro (⟨r, digits⟩ | ⟨whole, fraction⟩)
    · exact ⟨.radix r digits, rfl⟩
    · exact ⟨.decimal whole fraction, rfl⟩
  · rintro (⟨r, digits⟩ | ⟨whole, fraction⟩) <;> rfl
  · rintro (⟨r, digits⟩ | ⟨whole, fraction⟩) <;> rfl

lemma head_numeral (n : Numeral) : ∃ c rest, n.text = c :: rest ∧ Unicode.isDigit c := by
  cases n with
  | radix r digits => exact ⟨'0', _, rfl, by decide⟩
  | decimal whole fraction =>
    obtain ⟨c, rest, hc⟩ := List.exists_cons_of_ne_nil whole.ne_nil
    exact ⟨c, _, by rw [Numeral.text, hc]; rfl, whole.all c (by simp [hc])⟩

end

/-! ### Characters of numbers -/

section

variable {c : Char}

lemma isDigit_of_le (hfirst : '0' ≤ c) (hlast : c ≤ '9') : Unicode.isDigit c := by
  have hascii : Unicode.isAscii c := decide_eq_true (Nat.lt_of_le_of_lt (UInt32.le_iff_toNat_le.mp hlast) (by decide))
  rw [Unicode.isDigit, if_pos hascii]
  exact Bool.and_eq_true_iff.mpr ⟨decide_eq_true hfirst, decide_eq_true hlast⟩

lemma Radix.isDigit_or_isLower {r : Radix} (h : r.isDigit c) : Unicode.isDigit c ∨ c.isLower := by
  cases r with
  | binary =>
    obtain ⟨hfirst, hlast⟩ := Bool.and_eq_true_iff.mp h
    left
    apply isDigit_of_le (of_decide_eq_true hfirst)
    exact Char.le_trans (of_decide_eq_true hlast) (by decide)
  | octal =>
    obtain ⟨hfirst, hlast⟩ := Bool.and_eq_true_iff.mp h
    left
    apply isDigit_of_le (of_decide_eq_true hfirst)
    exact Char.le_trans (of_decide_eq_true hlast) (by decide)
  | hexadecimal =>
    refine (Bool.or_eq_true_iff.mp h).imp id fun hletter => ?_
    obtain ⟨hfirst, hlast⟩ := Bool.and_eq_true_iff.mp hletter
    have hlast : c ≤ 'z' := Char.le_trans (of_decide_eq_true hlast) (by decide)
    exact Bool.and_eq_true_iff.mpr ⟨hfirst, decide_eq_true hlast⟩

end

lemma Numeral.chars (n : Numeral) :
    (∀ c ∈ n.text, Unicode.isDigit c ∨ c = '.') ∨ ∀ c ∈ n.text, Unicode.isDigit c ∨ c.isLower := by
  cases n with
  | radix r digits =>
    right
    rintro c (_ | ⟨_, _ | ⟨_, hc⟩⟩)
    · left
      decide
    · right
      cases r <;> decide
    · exact Radix.isDigit_or_isLower (digits.all c hc)
  | decimal whole fraction =>
    left
    intro c hc
    rcases List.mem_append.mp hc with hc | hc
    · exact .inl (whole.all c hc)
    · cases fraction with
      | none => cases hc
      | some digits =>
        rcases List.mem_cons.mp hc with rfl | hc
        · exact .inr rfl
        · exact .inl (digits.all c hc)

lemma Numeral.text_ne_nil (n : Numeral) : n.text ≠ [] := by
  obtain ⟨c, rest, hc, -⟩ := head_numeral n
  simp [hc]

lemma Literal.text_ne_nil (l : Literal) : l.text ≠ [] := by
  simp [Literal.text, l.numeral.text_ne_nil]

/-! ### Searching -/

lemma not_sign_of_numeral {l : List Char} {n : Numeral} {c : Char} (hc : signSet.contains c) (hn : n.text <+: l) :
    ¬ [c] <+: l := by
  intro h
  obtain ⟨s, rfl⟩ := (contains_signSet c).mp hc
  obtain ⟨d, rest, hd, hdigit⟩ := head_numeral n
  obtain ⟨x, rfl⟩ := hn
  rw [hd, List.cons_append, List.cons_prefix_cons] at h
  rw [← h.1] at hdigit
  exact absurd hdigit (by cases s <;> decide)

lemma reads_literalPattern (origin : List Char) :
    (literalPattern.matcher origin).Reads Literal.text Literal.reach := by
  have h (call) := (Matcher.Reads.one signSet.contains).optional_seq ((reads_numeralNode call origin).capture 1)
    fun {_ c _} => not_sign_of_numeral c.2
  refine (h _).of_surjective (g := fun l =>
    (l.sign.map fun s => ⟨s.char, (contains_signSet _).mpr ⟨s, rfl⟩⟩, l.numeral)) ?_ ?_ ?_
  · rintro ⟨_ | ⟨c, hc⟩, n⟩
    · exact ⟨⟨none, n⟩, rfl⟩
    · obtain ⟨s, rfl⟩ := (contains_signSet c).mp hc
      exact ⟨⟨some s, n⟩, rfl⟩
  · rintro ⟨_ | s, n⟩ <;> rfl
  · rintro ⟨_ | s, n⟩
    · funext s
      simp [Literal.reach, Literal.signText]
    · rfl

lemma spans_found (l : Literal) (text : List Char) (s : ℕ) :
    (literalPattern.found (.place text s) (l.reach (.place text s))).spans text = l.groups text s := by
  obtain ⟨sign, ⟨r, digits⟩ | ⟨whole, _ | digits⟩⟩ := l
  · cases r <;> simp [found, Match.spans, literalPattern, Literal.reach, Literal.groups, Literal.text, Numeral.reach,
      Numeral.groups, Numeral.text, State.capturing, Radix.group, span, List.range_succ, Nat.add_assoc,
      Nat.add_comm 2 digits.text.length]
  · simp [found, Match.spans, literalPattern, Literal.reach, Literal.groups, Literal.text, Numeral.reach,
      Numeral.groups, Numeral.text, State.capturing, span, List.range_succ, Nat.add_assoc]
  · simp [found, Match.spans, literalPattern, Literal.reach, Literal.groups, Literal.text, Numeral.reach,
      Numeral.groups, Numeral.text, State.capturing, span, List.range_succ, Nat.add_assoc,
      Nat.add_comm 1 digits.text.length]

theorem number_longest_first : ∃ pattern p, number = .single "constant.numeric" pattern none ∧
    compile pattern.toList = .ok p ∧ ∀ text start groups,
      (p.searchAt? text start).map (·.spans text) = some groups ↔
        ∃ s l, IsLeast {s | start ≤ s ∧ ∃ l : Literal, l.text <+: text.drop s} s ∧
          IsLongest Literal.text (text.drop s) l ∧ groups = l.groups text s := by
  refine ⟨_, _, rfl, compile_number, fun text start groups => ?_⟩
  simp only [Option.map_eq_some_iff, (reads_literalPattern _).searchAt?_eq_some_iff]
  constructor
  · rintro ⟨_, ⟨s, l, hs, hl, rfl⟩, rfl⟩
    exact ⟨s, l, hs, hl, spans_found l text s⟩
  · rintro ⟨s, l, hs, hl, rfl⟩
    exact ⟨_, ⟨s, l, hs, hl, rfl⟩, spans_found l text s⟩

end Highlight.Noze
