import ModalHost.Json.Text
import ModalHost.Proofs.Json.Grammar

/-! Reading a number takes the longest one at the front of the text, if its value is in range, and
nothing else. -/

namespace ModalHost.Json

variable {ds : List Nat} {s t rest : List Char}

/-! ### Digits -/

def EndsNumber (rest : List Char) : Prop :=
  ∀ c ∈ rest.head?, c.isDigit = false ∧ c ≠ '.' ∧ c ≠ 'e' ∧ c ≠ 'E'

def EndsDigits (rest : List Char) : Prop := ∀ c ∈ rest.head?, c.isDigit = false

theorem EndsNumber.digits (ends : EndsNumber rest) : EndsDigits rest :=
  fun c first => (ends c first).1

theorem isDigit_digitChar : ∀ d < 10, (Nat.digitChar d).isDigit = true := by decide

theorem toNat_digitChar : ∀ d < 10, (Nat.digitChar d).toNat - 0x30 = d := by decide

theorem digitChar_of_isDigit {c : Char} (digit : c.isDigit = true) :
    c.toNat - 0x30 < 10 ∧ Nat.digitChar (c.toNat - 0x30) = c := by
  rw [Char.isDigit, Bool.and_eq_true, decide_eq_true_eq, decide_eq_true_eq] at digit
  have low : 0x30 ≤ c.toNat := digit.1
  have high : c.toNat ≤ 0x39 := digit.2
  have back : Char.ofNat c.toNat = c := Char.ofNat_toNat c
  have table : ∀ d < 10, Nat.digitChar d = Char.ofNat (d + 0x30) := by decide
  refine ⟨by omega, ?_⟩
  rw [table _ (by omega), Nat.sub_add_cancel low, back]

theorem digits_append (decimal : ∀ d ∈ ds, d < 10) (ends : EndsDigits rest) :
    digits (digitsText ds ++ rest) = (ds, rest) := by
  induction ds with
  | nil =>
      cases rest with
      | nil => rfl
      | cons c rest =>
          change digits (c :: rest) = _
          rw [digits, if_neg (by simp [ends c rfl])]
  | cons d ds ih =>
      have small := decimal d List.mem_cons_self
      have later := ih fun e member => decimal e (List.mem_cons_of_mem _ member)
      change digits (Nat.digitChar d :: (digitsText ds ++ rest)) = _
      rw [digits, if_pos (isDigit_digitChar d small), later, toNat_digitChar d small]

theorem digits?_append (is_digits : IsDigits ds) (ends : EndsDigits rest) :
    digits? (digitsText ds ++ rest) = some (ds, rest) := by
  rw [digits?, digits_append is_digits.decimal ends]
  cases ds with
  | nil => exact absurd rfl is_digits.nonempty
  | cons d ds => rfl

theorem eq_of_digits (read : digits s = (ds, rest)) :
    s = digitsText ds ++ rest ∧ ∀ d ∈ ds, d < 10 := by
  induction s generalizing ds with
  | nil =>
      obtain ⟨rfl, rfl⟩ := Prod.mk.inj read
      exact ⟨rfl, nofun⟩
  | cons c s ih =>
      rw [digits] at read
      split at read
      · rename_i digit
        obtain ⟨rfl, rfl⟩ := Prod.mk.inj read
        obtain ⟨small, char⟩ := digitChar_of_isDigit digit
        obtain ⟨split, decimal⟩ := ih rfl
        refine ⟨?_, List.forall_mem_cons.mpr ⟨small, decimal⟩⟩
        rw [digitsText, List.map_cons, char, List.cons_append, ← digitsText, ← split]
      · obtain ⟨rfl, rfl⟩ := Prod.mk.inj read
        exact ⟨rfl, nofun⟩

theorem eq_of_digits? (read : digits? s = some (ds, rest)) :
    s = digitsText ds ++ rest ∧ IsDigits ds := by
  rw [digits?] at read
  split at read
  · cases read
  · rename_i nonempty
    obtain ⟨split, decimal⟩ := eq_of_digits (Option.some.inj read)
    refine ⟨split, fun empty => ?_, decimal⟩
    rw [Option.some.inj read, empty] at nonempty
    exact nonempty rest rfl

/-- Digits start with a digit, so they are not taken for anything else. -/
theorem digitsText_head (is_digits : IsDigits ds) (rest : List Char) :
    ∃ c more, digitsText ds ++ rest = c :: more ∧ c.isDigit = true := by
  cases ds with
  | nil => exact absurd rfl is_digits.nonempty
  | cons d ds => exact ⟨_, _, rfl, isDigit_digitChar d (is_digits.decimal d List.mem_cons_self)⟩

/-! ### The parts of a number -/

theorem whole?_append (whole : IsWhole ds) (ends : EndsDigits rest) :
    whole? (digitsText ds ++ rest) = some (ds, rest) := by
  have leading : ¬(ds.head? = some 0 ∧ ds.length ≠ 1) := by
    rintro ⟨zero, long⟩
    rw [whole.leading zero] at long
    exact long rfl
  rw [whole?, digits?_append whole.toIsDigits ends]
  exact if_neg leading

theorem fraction?_append {places : List Char} (written : FractionText ds places)
    (ends : ∀ c ∈ rest.head?, c.isDigit = false ∧ c ≠ '.') :
    fraction? (places ++ rest) = some (ds, rest) := by
  cases written with
  | absent =>
      rw [List.nil_append, fraction?]
      rintro more rfl
      exact (ends '.' rfl).2 rfl
  | present is_digits =>
      rw [List.cons_append, fraction?]
      exact digits?_append is_digits fun c first => (ends c first).1

theorem unsigned_of_isDigit {c : Char} (digit : c.isDigit = true) : c ≠ '-' ∧ c ≠ '+' := by
  constructor <;> rintro rfl <;> cases digit

theorem exponent?_append {isNegative : Bool} {power : List Char}
    (written : ExponentText isNegative ds power) (ends : EndsNumber rest) :
    exponent? (power ++ rest) = some (isNegative, ds, rest) := by
  cases written with
  | absent =>
      cases rest with
      | nil => rfl
      | cons c rest =>
          obtain ⟨-, -, not_e, not_E⟩ := ends c rfl
          rw [List.nil_append, exponent?.eq_def]
          exact if_neg (not_or.mpr ⟨not_e, not_E⟩)
  | bare mark is_digits =>
      obtain ⟨c, more, shape, digit⟩ := digitsText_head is_digits rest
      have read := digits?_append is_digits ends.digits
      rw [shape] at read
      rw [List.cons_append, exponent?, if_pos mark, shape, read]
      · rfl
      · intro later same
        exact (unsigned_of_isDigit digit).1 (List.cons.inj (shape.symm.trans same)).1
      · intro later same
        exact (unsigned_of_isDigit digit).2 (List.cons.inj (shape.symm.trans same)).1
  | plus mark is_digits =>
      rw [List.cons_append, List.cons_append, exponent?, if_pos mark]
      simp only [digits?_append is_digits ends.digits]
      rfl
  | minus mark is_digits =>
      rw [List.cons_append, List.cons_append, exponent?, if_pos mark]
      simp only [digits?_append is_digits ends.digits]
      rfl

theorem endsDigits_exponent {isNegative : Bool} {power : List Char}
    (written : ExponentText isNegative ds power) (ends : EndsNumber rest) :
    ∀ c ∈ (power ++ rest).head?, c.isDigit = false ∧ c ≠ '.' := by
  have of_mark {e : Char} (mark : e = 'e' ∨ e = 'E') : e.isDigit = false ∧ e ≠ '.' := by
    rcases mark with rfl | rfl <;> decide
  cases written with
  | absent => exact fun c first => ⟨(ends c first).1, (ends c first).2.1⟩
  | bare mark => rintro _ ⟨⟩; exact of_mark mark
  | plus mark => rintro _ ⟨⟩; exact of_mark mark
  | minus mark => rintro _ ⟨⟩; exact of_mark mark

theorem endsDigits_fraction {ds' : List Nat} {isNegative : Bool} {places power : List Char}
    (fraction : FractionText ds places) (exponent : ExponentText isNegative ds' power)
    (ends : EndsNumber rest) : EndsDigits (places ++ (power ++ rest)) := by
  cases fraction with
  | absent => exact fun c first => (endsDigits_exponent exponent ends c first).1
  | present => rintro _ ⟨⟩; rfl

theorem NumberText.reads {isNegative : Bool} {n : Numeral} (written : NumberText isNegative n t)
    (inside : n.inRange = true) (ends : EndsNumber rest) : number? (t ++ rest) = some rest := by
  obtain ⟨whole, places, power⟩ := written
  rename_i fraction exponent
  have first := whole?_append whole (endsDigits_fraction places power ends)
  have second := fraction?_append places (endsDigits_exponent power ends)
  have third := exponent?_append power ends
  obtain ⟨c, more, shape, digit⟩ := digitsText_head whole.toIsDigits
    (fraction ++ (exponent ++ rest))
  simp only [List.append_assoc]
  cases isNegative with
  | true =>
      change number? ('-' :: (digitsText n.whole ++ (fraction ++ (exponent ++ rest)))) = _
      rw [number?]
      simp only [first, second, third, bind, Option.bind_some]
      exact if_pos inside
  | false =>
      change number? (digitsText n.whole ++ (fraction ++ (exponent ++ rest))) = _
      rw [number?]
      · simp only [first, second, third, bind, Option.bind_some]
        exact if_pos inside
      · intro later same
        exact (unsigned_of_isDigit digit).1 (List.cons.inj (shape.symm.trans same)).1

/-! ### Only such texts are read -/

theorem eq_of_whole? (read : whole? s = some (ds, rest)) :
    s = digitsText ds ++ rest ∧ IsWhole ds := by
  obtain ⟨⟨ds', rest'⟩, found, read⟩ := Option.bind_eq_some_iff.mp read
  obtain ⟨split, is_digits⟩ := eq_of_digits? found
  dsimp only at read
  split at read
  · cases read
  · rename_i leading
    obtain ⟨rfl, rfl⟩ := Prod.mk.inj (Option.some.inj read)
    refine ⟨split, is_digits, fun zero => ?_⟩
    obtain ⟨d, rfl⟩ := List.length_eq_one_iff.mp
      (Decidable.byContradiction fun long => leading ⟨zero, long⟩)
    rw [Option.some.inj zero]

theorem eq_of_fraction? (read : fraction? s = some (ds, rest)) :
    ∃ places, FractionText ds places ∧ s = places ++ rest := by
  rw [fraction?.eq_def] at read
  split at read
  · obtain ⟨rfl, is_digits⟩ := eq_of_digits? read
    exact ⟨_, .present is_digits, rfl⟩
  · obtain ⟨rfl, rfl⟩ := Prod.mk.inj (Option.some.inj read)
    exact ⟨[], .absent, rfl⟩

theorem eq_of_exponent? {isNegative : Bool} (read : exponent? s = some (isNegative, ds, rest)) :
    ∃ power, ExponentText isNegative ds power ∧ s = power ++ rest := by
  have power_digits {sign : Bool} {s : List Char}
      (read : (do return (sign, ← digits? s)) = some (isNegative, ds, rest)) :
      sign = isNegative ∧ s = digitsText ds ++ rest ∧ IsDigits ds := by
    obtain ⟨found, digits, read⟩ := Option.bind_eq_some_iff.mp read
    obtain ⟨rfl, rfl⟩ := Prod.mk.inj (Option.some.inj read)
    exact ⟨rfl, eq_of_digits? digits⟩
  cases s with
  | nil =>
      obtain ⟨rfl, same⟩ := Prod.mk.inj (Option.some.inj read)
      obtain ⟨rfl, rfl⟩ := Prod.mk.inj same
      exact ⟨[], .absent, rfl⟩
  | cons e s =>
      rw [exponent?.eq_def] at read
      simp only at read
      split at read
      · rename_i mark
        split at read
        · obtain ⟨rfl, rfl, is_digits⟩ := power_digits read
          exact ⟨_, .minus mark is_digits, rfl⟩
        · obtain ⟨rfl, rfl, is_digits⟩ := power_digits read
          exact ⟨_, .plus mark is_digits, rfl⟩
        · obtain ⟨rfl, rfl, is_digits⟩ := power_digits read
          exact ⟨_, .bare mark is_digits, rfl⟩
      · obtain ⟨rfl, same⟩ := Prod.mk.inj (Option.some.inj read)
        obtain ⟨rfl, rfl⟩ := Prod.mk.inj same
        exact ⟨[], .absent, rfl⟩

theorem written_of_parts (n : Numeral) {later later' : List Char}
    (first : whole? s = some (n.whole, later)) (second : fraction? later = some (n.fraction, later'))
    (third : exponent? later' = some (n.negativeExponent, n.exponent, rest)) (isNegative : Bool) :
    ∃ t, NumberText isNegative n t ∧ signText isNegative ++ s = t ++ rest := by
  obtain ⟨rfl, is_whole⟩ := eq_of_whole? first
  obtain ⟨places, fraction_text, rfl⟩ := eq_of_fraction? second
  obtain ⟨power, exponent_text, rfl⟩ := eq_of_exponent? third
  refine ⟨_, .parts is_whole fraction_text exponent_text, ?_⟩
  simp only [List.append_assoc]

theorem eq_of_number? (read : number? s = some rest) : ∃ isNegative n t,
    NumberText isNegative n t ∧ n.inRange = true ∧ s = t ++ rest := by
  rw [number?.eq_def] at read
  split at read
  all_goals
    obtain ⟨⟨whole, later⟩, first, read⟩ := Option.bind_eq_some_iff.mp read
    obtain ⟨⟨fraction, later'⟩, second, read⟩ := Option.bind_eq_some_iff.mp read
    obtain ⟨⟨negativeExponent, exponent, last⟩, third, read⟩ := Option.bind_eq_some_iff.mp read
    obtain ⟨inside, same⟩ := Option.ite_none_right_eq_some.mp read
    obtain rfl := Option.some.inj same
    let n : Numeral := ⟨whole, fraction, negativeExponent, exponent⟩
  case h_1 =>
    obtain ⟨t, text, split⟩ := written_of_parts n first second third true
    exact ⟨true, n, t, text, inside, split⟩
  case h_2 =>
    obtain ⟨t, text, split⟩ := written_of_parts n first second third false
    exact ⟨false, n, t, text, inside, split⟩

end ModalHost.Json
