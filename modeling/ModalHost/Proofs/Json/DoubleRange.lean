import Mathlib.Algebra.Order.Field.Basic
import Mathlib.Data.Rat.Cast.Order
import Mathlib.Tactic.Linarith
import Mathlib.Tactic.NormNum
import Mathlib.Tactic.Positivity
import Mathlib.Tactic.Ring
import ModalHost.Proofs.Json.Grammar

/-! The range of numbers against that of doubles. The digits that are cut off and three roundings
move a number by less than four units of its last place, so only numbers so close to the end of the
range can be judged differently from their exact value. -/

namespace ModalHost.Json

variable {n m : Nat} {ds whole fraction : List Nat}

/-! ### Digits -/

def withDigits (n : Nat) (ds : List Nat) : Nat := ds.foldl (fun n d => 10 * n + d) n

theorem withDigits_append (n : Nat) (ds es : List Nat) :
    withDigits n (ds ++ es) = withDigits (withDigits n ds) es := List.foldl_append

theorem withDigits_bounds (decimal : ∀ d ∈ ds, d < 10) (n : Nat) :
    n * 10 ^ ds.length ≤ withDigits n ds ∧ withDigits n ds < (n + 1) * 10 ^ ds.length := by
  induction ds generalizing n with
  | nil => simp [withDigits]
  | cons d ds ih =>
      obtain ⟨low, high⟩ := ih (fun e member => decimal e (List.mem_cons_of_mem _ member))
        (10 * n + d)
      have small := decimal d List.mem_cons_self
      have scale : 0 < 10 ^ ds.length := by positivity
      rw [List.length_cons, pow_succ]
      constructor
      · calc
          n * (10 ^ ds.length * 10) = (10 * n) * 10 ^ ds.length := by ring
          _ ≤ (10 * n + d) * 10 ^ ds.length := by gcongr; omega
          _ ≤ withDigits n (d :: ds) := low
      · calc
          withDigits n (d :: ds) < (10 * n + d + 1) * 10 ^ ds.length := high
          _ ≤ (10 * (n + 1)) * 10 ^ ds.length := by gcongr; omega
          _ = (n + 1) * (10 ^ ds.length * 10) := by ring

theorem absorb_eq (n : Nat) (ds : List Nat) : ∃ front back, ds = front ++ back ∧
    absorb n ds = (withDigits n front, front.length) ∧
      (∀ d ∈ back.head?, 2 ^ 64 ≤ 10 * withDigits n front + d) ∧
        (n < 2 ^ 64 → withDigits n front < 2 ^ 64) := by
  induction ds generalizing n with
  | nil => exact ⟨[], [], rfl, rfl, nofun, id⟩
  | cons d ds ih =>
      rw [absorb]
      split
      · rename_i room
        obtain ⟨front, back, split, taken, full, fits⟩ := ih (10 * n + d)
        refine ⟨d :: front, back, by rw [split, List.cons_append], ?_, full, fun _ => fits room⟩
        rw [taken]
        rfl
      · rename_i full
        refine ⟨[], d :: ds, rfl, rfl, ?_, id⟩
        rintro _ ⟨⟩
        exact Nat.le_of_not_lt full

/-! ### Small differences -/

/-- Equal but for the eighteenth digit. -/
def Near (n m : Nat) : Prop :=
  n * 10 ^ 18 ≤ m * (10 ^ 18 + 1) ∧ m * 10 ^ 18 ≤ n * (10 ^ 18 + 1)

theorem Near.refl (n : Nat) : Near n n := by
  constructor <;> gcongr <;> omega

theorem near_of_leading {leading scale : Nat} (large : 10 ^ 18 ≤ leading)
    (low : leading * scale ≤ n) (high : n ≤ (leading + 1) * scale)
    (low' : leading * scale ≤ m) (high' : m ≤ (leading + 1) * scale) : Near n m := by
  have step : (leading + 1) * scale * 10 ^ 18 ≤ leading * scale * (10 ^ 18 + 1) := by
    calc
      (leading + 1) * scale * 10 ^ 18 = leading * scale * 10 ^ 18 + scale * 10 ^ 18 := by ring
      _ ≤ leading * scale * 10 ^ 18 + scale * leading := by gcongr
      _ = leading * scale * (10 ^ 18 + 1) := by ring
  constructor
  · calc
      n * 10 ^ 18 ≤ (leading + 1) * scale * 10 ^ 18 := by gcongr
      _ ≤ leading * scale * (10 ^ 18 + 1) := step
      _ ≤ m * (10 ^ 18 + 1) := by gcongr
  · calc
      m * 10 ^ 18 ≤ (leading + 1) * scale * 10 ^ 18 := by gcongr
      _ ≤ leading * scale * (10 ^ 18 + 1) := step
      _ ≤ n * (10 ^ 18 + 1) := by gcongr

theorem large_of_full {back : List Nat} (decimal : ∀ d ∈ back, d < 10) (some_left : back ≠ [])
    (full : ∀ d ∈ back.head?, 2 ^ 64 ≤ 10 * n + d) : 10 ^ 18 ≤ n := by
  cases back with
  | nil => exact absurd rfl some_left
  | cons d back =>
      have small := decimal d List.mem_cons_self
      have := full d rfl
      omega

/-- What is left out in front of the point does not keep digits behind it from being taken, but the
number is the same to its eighteenth digit. -/
theorem absorb_near (decimal : ∀ d ∈ whole ++ fraction, d < 10) :
    ∃ significand counted places dropped leading, absorb 0 whole = (leading, counted) ∧
      absorb leading fraction = (significand, places) ∧
        significand < 2 ^ 64 ∧ whole.length + fraction.length = counted + places + dropped ∧
          Near (significand * 10 ^ dropped) (withDigits 0 (whole ++ fraction)) := by
  obtain ⟨front, back, rfl, taken, full, fits⟩ := absorb_eq 0 whole
  obtain ⟨front', back', rfl, taken', full', fits'⟩ := absorb_eq (withDigits 0 front) fraction
  refine ⟨_, _, _, back.length + back'.length, _, taken, taken', fits' (fits (by omega)), ?_, ?_⟩
  · simp only [List.length_append]
    omega
  have all : withDigits 0 (front ++ back ++ (front' ++ back')) =
      withDigits (withDigits 0 front) (back ++ (front' ++ back')) := by
    rw [List.append_assoc, withDigits_append]
  rw [all]
  generalize withDigits 0 front = leading at *
  have decimal_back : ∀ d ∈ back, d < 10 := by
    intro d member
    exact decimal d (by simp [member])
  have decimal_front' : ∀ d ∈ front', d < 10 := by
    intro d member
    exact decimal d (by simp [member])
  have decimal_back' : ∀ d ∈ back', d < 10 := by
    intro d member
    exact decimal d (by simp [member])
  by_cases nothing_left : back = []
  · -- only digits at the very end can be cut off
    subst nothing_left
    rw [List.nil_append, withDigits_append, List.length_nil, Nat.zero_add]
    by_cases nothing_left' : back' = []
    · subst nothing_left'
      rw [List.length_nil, pow_zero, mul_one]
      exact Near.refl _
    · have large := large_of_full decimal_back' nothing_left' full'
      obtain ⟨low, high⟩ := withDigits_bounds decimal_back' (withDigits leading front')
      apply near_of_leading large (le_refl _) _ low high.le
      gcongr
      omega
  · -- both numbers start with the digits that were taken before the point
    have large := large_of_full decimal_back nothing_left full
    have decimal_later : ∀ d ∈ back ++ (front' ++ back'), d < 10 := by
      intro d member
      apply decimal d
      rw [List.append_assoc]
      exact List.mem_append_right _ member
    obtain ⟨low, high⟩ := withDigits_bounds decimal_later leading
    obtain ⟨low', high'⟩ := withDigits_bounds decimal_front' leading
    have split : 10 ^ (back ++ (front' ++ back')).length =
        10 ^ front'.length * 10 ^ (back.length + back'.length) := by
      rw [List.length_append, List.length_append, ← pow_add]
      congr 1
      omega
    rw [split] at low high
    apply near_of_leading large _ _ low high.le
    · rw [← mul_assoc]
      gcongr
    · rw [← mul_assoc]
      gcongr

/-! ### Rounding -/

theorem roundToDouble_bounds (n : Nat) : n * (2 ^ 53 - 1) ≤ roundToDouble n * 2 ^ 53 ∧
    roundToDouble n * 2 ^ 53 ≤ n * (2 ^ 53 + 1) := by
  rw [roundToDouble]
  by_cases short : n.log2 < 53
  · have exact_unit : n.log2 + 1 - 53 = 0 := by omega
    simp only [exact_unit, Nat.pow_eq, pow_zero, Nat.mod_one, Nat.div_one]
    split <;> omega
  · have small_unit : Nat.pow 2 (n.log2 + 1 - 53) * 2 ^ 52 ≤ n := by
      calc
        2 ^ (n.log2 + 1 - 53) * 2 ^ 52 = 2 ^ n.log2 := by
          rw [← pow_add]
          congr 1
          omega
        _ ≤ n := Nat.log2_self_le (by rintro rfl; exact short (by decide))
    have split := Nat.div_add_mod n (Nat.pow 2 (n.log2 + 1 - 53))
    have less : n % Nat.pow 2 (n.log2 + 1 - 53) < Nat.pow 2 (n.log2 + 1 - 53) :=
      Nat.mod_lt n (Nat.pow_pos (by omega))
    generalize Nat.pow 2 (n.log2 + 1 - 53) = unit at *
    generalize n / unit = quotient at *
    generalize n % unit = rest at *
    have next : (quotient + 1) * unit = unit * quotient + unit := by ring
    have kept : quotient * unit = unit * quotient := by ring
    split
    · rw [next]
      omega
    · rw [kept]
      omega

theorem roundToDouble_mul_bounds (n m : Nat) :
    n * m * (2 ^ 53 - 1) ^ 3 ≤ roundToDouble (roundToDouble n * roundToDouble m) * 2 ^ 159 ∧
      roundToDouble (roundToDouble n * roundToDouble m) * 2 ^ 159 ≤ n * m * (2 ^ 53 + 1) ^ 3 := by
  obtain ⟨low_n, high_n⟩ := roundToDouble_bounds n
  obtain ⟨low_m, high_m⟩ := roundToDouble_bounds m
  obtain ⟨low, high⟩ := roundToDouble_bounds (roundToDouble n * roundToDouble m)
  constructor
  · calc
      n * m * (2 ^ 53 - 1) ^ 3 = (n * (2 ^ 53 - 1)) * (m * (2 ^ 53 - 1)) * (2 ^ 53 - 1) := by ring
      _ ≤ (roundToDouble n * 2 ^ 53) * (roundToDouble m * 2 ^ 53) * (2 ^ 53 - 1) := by gcongr
      _ = (roundToDouble n * roundToDouble m * (2 ^ 53 - 1)) * 2 ^ 106 := by ring
      _ ≤ (roundToDouble (roundToDouble n * roundToDouble m) * 2 ^ 53) * 2 ^ 106 := by gcongr
      _ = roundToDouble (roundToDouble n * roundToDouble m) * 2 ^ 159 := by ring
  · calc
      roundToDouble (roundToDouble n * roundToDouble m) * 2 ^ 159 =
          (roundToDouble (roundToDouble n * roundToDouble m) * 2 ^ 53) * 2 ^ 106 := by ring
      _ ≤ (roundToDouble n * roundToDouble m * (2 ^ 53 + 1)) * 2 ^ 106 := by gcongr
      _ = (roundToDouble n * 2 ^ 53) * (roundToDouble m * 2 ^ 53) * (2 ^ 53 + 1) := by ring
      _ ≤ (n * (2 ^ 53 + 1)) * (m * (2 ^ 53 + 1)) * (2 ^ 53 + 1) := by gcongr
      _ = n * m * (2 ^ 53 + 1) ^ 3 := by ring

/-- The end of the range: the next number that would be a double, if exponents went on. -/
@[irreducible] def doubleLimit : Nat := Nat.pow 2 1024

theorem doubleLimit_lt {p : Nat} (beyond : 308 < p) : doubleLimit < 10 ^ p := by
  have first : doubleLimit < 10 ^ 155 * 10 ^ 154 := by decide +kernel
  obtain ⟨more, rfl⟩ : ∃ more, p = 155 + (154 + more) := ⟨p - 309, by omega⟩
  rw [pow_add, pow_add, ← mul_assoc]
  exact first.trans_le (Nat.le_mul_of_pos_right _ (by positivity))

theorem end_of_range : (2 : Rat) ^ 1024 = 2 ^ 51 * 2 ^ 973 := by rw [← pow_add]

theorem cast_doubleLimit : (doubleLimit : Rat) = 2 ^ 51 * 2 ^ 973 := by
  have split : doubleLimit = 2 ^ 51 * 2 ^ 973 := by decide +kernel
  rw [split, Nat.cast_mul, Nat.cast_pow, Nat.cast_pow, Nat.cast_ofNat]

theorem lt_doubleLimit : 2 ^ 64 < doubleLimit := by decide +kernel

namespace Numeral

theorem isFinite_of_lt {significand : Nat} {power : Int}
    (small : (significand * 10 ^ power : Rat) * (2 ^ 53 + 1) ^ 3 < doubleLimit * 2 ^ 159) :
    isFinite significand power = true := by
  rw [isFinite]
  split
  · rfl
  · rename_i proper
    obtain ⟨not_zero, not_negative⟩ := not_or.mp proper
    obtain ⟨p, rfl⟩ := Int.eq_ofNat_of_zero_le (Int.not_lt.mp not_negative)
    rw [zpow_natCast] at small
    have small : significand * 10 ^ p * (2 ^ 53 + 1) ^ 3 < doubleLimit * 2 ^ 159 := by
      exact_mod_cast small
    split
    · rename_i beyond
      have limit : doubleLimit < 10 ^ p := doubleLimit_lt (Int.ofNat_lt.mp beyond)
      have large : 10 ^ p ≤ significand * 10 ^ p :=
        Nat.le_mul_of_pos_left _ (Nat.pos_of_ne_zero not_zero)
      omega
    · have high := (roundToDouble_mul_bounds significand (10 ^ p)).2
      have below := Nat.lt_of_mul_lt_mul_right (high.trans_lt small)
      unfold doubleLimit at below
      exact decide_eq_true below

theorem not_isFinite_of_le {significand : Nat} {power : Int} (fits : significand < 2 ^ 64)
    (large : doubleLimit * 2 ^ 159 ≤
      (significand * 10 ^ power : Rat) * ((2 ^ 53 - 1 : Nat) : Rat) ^ 3) :
    isFinite significand power = false := by
  rw [isFinite]
  split
  · rename_i improper
    exfalso
    have bounded : (significand * 10 ^ power : Rat) ≤ 2 ^ 64 := by
      rcases improper with zero | negative
      · rw [zero]
        norm_num
      · have tenth : (10 ^ power : Rat) ≤ 1 := zpow_le_one_of_nonpos₀ (by norm_num) negative.le
        have word : (significand : Rat) ≤ 2 ^ 64 := by exact_mod_cast fits.le
        calc
          (significand * 10 ^ power : Rat) ≤ 2 ^ 64 * 1 :=
            mul_le_mul word tenth (zpow_nonneg (by norm_num) _) (by norm_num)
          _ = 2 ^ 64 := mul_one _
    have limit : (2 ^ 64 : Rat) < doubleLimit := by exact_mod_cast lt_doubleLimit
    have : (doubleLimit : Rat) * 2 ^ 159 < doubleLimit * 2 ^ 159 := by
      calc
        (doubleLimit : Rat) * 2 ^ 159 ≤
            (significand * 10 ^ power) * ((2 ^ 53 - 1 : Nat) : Rat) ^ 3 := large
        _ ≤ 2 ^ 64 * ((2 ^ 53 - 1 : Nat) : Rat) ^ 3 := by gcongr
        _ ≤ 2 ^ 64 * 2 ^ 159 := by norm_num
        _ < doubleLimit * 2 ^ 159 := by gcongr
    exact lt_irrefl _ this
  · rename_i proper
    obtain ⟨not_zero, not_negative⟩ := not_or.mp proper
    obtain ⟨p, rfl⟩ := Int.eq_ofNat_of_zero_le (Int.not_lt.mp not_negative)
    rw [zpow_natCast] at large
    have large : doubleLimit * 2 ^ 159 ≤ significand * 10 ^ p * (2 ^ 53 - 1) ^ 3 := by
      exact_mod_cast large
    split
    · rfl
    · have low := (roundToDouble_mul_bounds significand (10 ^ p)).1
      have above := Nat.le_of_mul_le_mul_right (large.trans low) (by positivity)
      unfold doubleLimit at above
      exact decide_eq_false (Nat.not_lt_of_le above)

def scale (n : Numeral) : Int :=
  (if n.negativeExponent then -(withDigits 0 n.exponent : Int) else withDigits 0 n.exponent) -
    n.fraction.length

/-- The exact value of a number without its sign. -/
def magnitude (n : Numeral) : Rat := withDigits 0 (n.whole ++ n.fraction) * 10 ^ n.scale

/-- Finiteness is judged by the first digits of the number and a power of ten. -/
theorem inRange_eq {n : Numeral} (decimal : ∀ d ∈ n.whole ++ n.fraction, d < 10)
    (bounded : withDigits 0 n.exponent < 2 ^ 31) : ∃ significand dropped : Nat,
      n.inRange = isFinite significand (n.scale + dropped) ∧ significand < 2 ^ 64 ∧
        Near (significand * 10 ^ dropped) (withDigits 0 (n.whole ++ n.fraction)) := by
  obtain ⟨significand, counted, places, dropped, leading, first, second, fits, lengths, near⟩ :=
    absorb_near decimal
  refine ⟨significand, dropped, ?_, fits, near⟩
  have not_huge : ¬0x80000000 ≤ n.exponent.foldl (fun (e d : Nat) => 10 * e + d) 0 :=
    Nat.not_le_of_lt bounded
  have power : (n.whole.length : Int) - counted - places +
      (if n.negativeExponent then -(withDigits 0 n.exponent : Int) else withDigits 0 n.exponent) =
        n.scale + dropped := by
    rw [scale]
    omega
  rw [inRange, first]
  dsimp only
  rw [second]
  dsimp only
  rw [if_neg not_huge, ← power]
  rfl

theorem judged_near {n : Numeral} {significand dropped : Nat}
    (near : Near (significand * 10 ^ dropped) (withDigits 0 (n.whole ++ n.fraction))) :
    (significand * 10 ^ (n.scale + dropped) : Rat) * 10 ^ 18 ≤ n.magnitude * (10 ^ 18 + 1) ∧
      n.magnitude * 10 ^ 18 ≤ (significand * 10 ^ (n.scale + dropped) : Rat) * (10 ^ 18 + 1) := by
  obtain ⟨low, high⟩ := near
  have low : (significand * 10 ^ dropped : Rat) * 10 ^ 18 ≤
      withDigits 0 (n.whole ++ n.fraction) * (10 ^ 18 + 1) := by exact_mod_cast low
  have high : (withDigits 0 (n.whole ++ n.fraction) : Rat) * 10 ^ 18 ≤
      significand * 10 ^ dropped * (10 ^ 18 + 1) := by exact_mod_cast high
  have scale_pos : (0 : Rat) < 10 ^ n.scale := zpow_pos (by norm_num) _
  rw [magnitude, zpow_add₀ (by norm_num), zpow_natCast]
  generalize (10 : Rat) ^ n.scale = z at *
  constructor
  · calc
      significand * (z * 10 ^ dropped) * 10 ^ 18 = significand * 10 ^ dropped * 10 ^ 18 * z := by
        ring
      _ ≤ withDigits 0 (n.whole ++ n.fraction) * (10 ^ 18 + 1) * z := by gcongr
      _ = withDigits 0 (n.whole ++ n.fraction) * z * (10 ^ 18 + 1) := by ring
  · calc
      withDigits 0 (n.whole ++ n.fraction) * z * 10 ^ 18 =
          withDigits 0 (n.whole ++ n.fraction) * 10 ^ 18 * z := by ring
      _ ≤ significand * 10 ^ dropped * (10 ^ 18 + 1) * z := by gcongr
      _ = significand * (z * 10 ^ dropped) * (10 ^ 18 + 1) := by ring

theorem inRange_of_magnitude_le {n : Numeral} (decimal : ∀ d ∈ n.whole ++ n.fraction, d < 10)
    (bounded : withDigits 0 n.exponent < 2 ^ 31) (small : n.magnitude ≤ 2 ^ 1024 - 2 ^ 973) :
    n.inRange = true := by
  obtain ⟨significand, dropped, judged, -, near⟩ := inRange_eq decimal bounded
  have close := (judged_near near).1
  have unit_pos : (0 : Rat) < 2 ^ 973 := pow_pos (by norm_num) _
  rw [judged]
  apply isFinite_of_lt
  rw [cast_doubleLimit]
  rw [end_of_range] at small
  generalize (2 : Rat) ^ 973 = unit at *
  generalize (significand * 10 ^ (n.scale + dropped) : Rat) = value at *
  linarith

theorem not_inRange_of_le_magnitude {n : Numeral} (decimal : ∀ d ∈ n.whole ++ n.fraction, d < 10)
    (bounded : withDigits 0 n.exponent < 2 ^ 31) (large : 2 ^ 1024 + 2 ^ 973 ≤ n.magnitude) :
    n.inRange = false := by
  obtain ⟨significand, dropped, judged, fits, near⟩ := inRange_eq decimal bounded
  have close := (judged_near near).2
  have unit_pos : (0 : Rat) < 2 ^ 973 := pow_pos (by norm_num) _
  have factor : ((2 ^ 53 - 1 : Nat) : Rat) = 2 ^ 53 - 1 := by norm_num
  rw [judged]
  apply not_isFinite_of_le fits
  rw [cast_doubleLimit, factor]
  rw [end_of_range] at large
  generalize (2 : Rat) ^ 973 = unit at *
  generalize (significand * 10 ^ (n.scale + dropped) : Rat) = value at *
  linarith

end Numeral

theorem NumberText.decimal {isNegative : Bool} {n : Numeral} {t : List Char}
    (written : NumberText isNegative n t) : ∀ d ∈ n.whole ++ n.fraction, d < 10 := by
  obtain ⟨is_whole, places, -⟩ := written
  obtain ⟨whole, fraction, negativeExponent, exponent⟩ := n
  intro d member
  rcases List.mem_append.mp member with member | member
  · exact is_whole.decimal d member
  · cases places with
    | absent => cases member
    | present digits => exact digits.decimal d member

def largestDouble : Nat := (2 ^ 53 - 1) * 2 ^ 971

end ModalHost.Json
