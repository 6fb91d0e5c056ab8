import ModalHost.Json.Text
import ModalHost.Proofs.Json.Grammar
import ModalHost.Proofs.Text.Utf8

/-! Reading the rest of a string finds what the grammar says is written there, and nothing else. -/

namespace ModalHost.Json

variable {c : Char} {n : Nat} {s t rest : List Char}

/-! ### Escapes -/

theorem isHexDigit_lt (digit : IsHexDigit n c) : n < 16 := by
  rcases digit with found | found <;> exact (List.getElem?_eq_some_iff.mp found).1

theorem hexValue?_of_isHexDigit (digit : IsHexDigit n c) : hexValue? c = some n := by
  have table : ∀ n < 16, "0123456789abcdef".toList[n]?.bind hexValue? = some n ∧
      "0123456789ABCDEF".toList[n]?.bind hexValue? = some n := by decide
  obtain ⟨lower, upper⟩ := table n (isHexDigit_lt digit)
  rcases digit with found | found
  · rwa [found] at lower
  · rwa [found] at upper

theorem isHexDigit_of_hexValue? (read : hexValue? c = some n) : IsHexDigit n c := by
  have back : Char.ofNat c.toNat = c := Char.ofNat_toNat c
  have decimal : ∀ n < 10, IsHexDigit n (Char.ofNat (n + 0x30)) := by
    unfold IsHexDigit
    decide
  have letters : ∀ n < 6, IsHexDigit (n + 10) (Char.ofNat (n + 0x41)) ∧
      IsHexDigit (n + 10) (Char.ofNat (n + 0x61)) := by
    unfold IsHexDigit
    decide
  rw [hexValue?] at read
  split at read
  · rename_i range
    obtain rfl := Option.some.inj read
    have digit := decimal (c.toNat - 0x30) (by omega)
    rwa [Nat.sub_add_cancel range.1, back] at digit
  · split at read
    · rename_i range
      obtain rfl := Option.some.inj read
      have digit := (letters (c.toNat - 0x41) (by omega)).1
      rwa [Nat.sub_add_cancel range.1, back, show c.toNat - 0x41 + 10 = c.toNat - 0x37 by omega]
        at digit
    · split at read
      · rename_i range
        obtain rfl := Option.some.inj read
        have digit := (letters (c.toNat - 0x61) (by omega)).2
        rwa [Nat.sub_add_cancel range.1, back, show c.toNat - 0x61 + 10 = c.toNat - 0x57 by omega]
          at digit
      · cases read

theorem unitEscape_of_unit? {a b c d : Char} (read : unit? a b c d = some n) :
    UnitEscape n ['\\', 'u', a, b, c, d] := by
  simp only [unit?, bind, Option.bind_eq_some_iff, pure, Option.some.injEq] at read
  obtain ⟨x, first, y, second, z, third, w, fourth, rfl⟩ := read
  exact .digits (isHexDigit_of_hexValue? first) (isHexDigit_of_hexValue? second)
    (isHexDigit_of_hexValue? third) (isHexDigit_of_hexValue? fourth)

theorem UnitEscape.reads (escape : UnitEscape n t) :
    n < 0x10000 ∧ ∃ a b c d, t = ['\\', 'u', a, b, c, d] ∧ unit? a b c d = some n := by
  obtain ⟨first, second, third, fourth⟩ := escape
  refine ⟨?_, _, _, _, _, rfl, ?_⟩
  · have := isHexDigit_lt first
    have := isHexDigit_lt second
    have := isHexDigit_lt third
    have := isHexDigit_lt fourth
    omega
  · simp only [unit?, hexValue?_of_isHexDigit first, hexValue?_of_isHexDigit second,
      hexValue?_of_isHexDigit third, hexValue?_of_isHexDigit fourth]
    rfl

theorem simpleEscape?_eq_some_iff {e : Char} :
    simpleEscape? e = some c ↔ (e, c) ∈ shortEscapes := by
  constructor
  · intro read
    unfold simpleEscape? at read
    split at read <;> cases read <;> decide
  · have table : ∀ escape ∈ shortEscapes, simpleEscape? escape.1 = some escape.2 := by decide
    exact table (e, c)

/-! ### Characters -/

theorem isLowSurrogate_toNat (c : Char) : isLowSurrogate c.toNat = false := by
  have scalar : c.toNat < 0xD800 ∨ 0xDFFF < c.toNat ∧ c.toNat < 0x110000 := c.valid
  rw [isLowSurrogate, Bool.and_eq_false_iff, decide_eq_false_iff_not, decide_eq_false_iff_not]
  omega

theorem isHighSurrogate_toNat (c : Char) : isHighSurrogate c.toNat = false := by
  have scalar : c.toNat < 0xD800 ∨ 0xDFFF < c.toNat ∧ c.toNat < 0x110000 := c.valid
  rw [isHighSurrogate, Bool.and_eq_false_iff, decide_eq_false_iff_not, decide_eq_false_iff_not]
  omega

theorem stringRest_pair {a b c d e f g h : Char} {n m : Nat} (read : unit? a b c d = some n)
    (read' : unit? e f g h = some m) (high : isHighSurrogate n = true)
    (not_low : isLowSurrogate n = false) (low : isLowSurrogate m = true) (rest : List Char) :
    stringRest ('\\' :: 'u' :: a :: b :: c :: d :: '\\' :: 'u' :: e :: f :: g :: h :: rest) =
      (fun read => (Char.ofNat (0x10000 + (n - 0xD800) * 0x400 + (m - 0xDC00)) :: read.1, read.2)) <$>
        stringRest rest := by
  rw [stringRest, read]
  simp only [bind, Option.bind_some, not_low, high, Bool.false_eq_true, if_false, if_true, read', low]
  cases stringRest rest <;> rfl

theorem CharText.reads (written : CharText c t) (rest : List Char) :
    stringRest (t ++ rest) = (fun read => (c :: read.1, read.2)) <$> stringRest rest := by
  cases written with
  | plain unquoted unescaped printed =>
      have escapes : ¬(c = '\\' ∨ c.toNat < 0x20) := by
        rintro (backslash | control)
        · exact unescaped backslash
        · omega
      rw [List.singleton_append, stringRest, if_neg escapes]
      · cases stringRest rest <;> rfl
      · exact unquoted
      · exact fun _ _ _ _ _ backslash => absurd backslash unescaped
      · exact fun _ _ backslash => absurd backslash unescaped
  | @short e escape =>
      have not_unit : ∀ escape ∈ shortEscapes, escape.1 ≠ 'u' := by decide
      rw [List.cons_append, List.singleton_append, stringRest,
        simpleEscape?_eq_some_iff.mpr escape]
      · cases stringRest rest <;> rfl
      · exact fun _ _ _ _ _ unit => absurd unit (not_unit _ escape)
  | unit escape =>
      obtain ⟨-, a, b, c', d, rfl, read⟩ := escape.reads
      simp only [List.cons_append, List.nil_append]
      rw [stringRest, read]
      simp only [bind, Option.bind_some, isLowSurrogate_toNat, isHighSurrogate_toNat,
        Bool.false_eq_true, if_false, Char.ofNat_toNat]
      cases stringRest rest <;> rfl
  | pair beyond high low =>
      have scalar : c.toNat < 0xD800 ∨ 0xDFFF < c.toNat ∧ c.toNat < 0x110000 := c.valid
      obtain ⟨-, a, b, c', d, rfl, read⟩ := high.reads
      obtain ⟨-, e, f, g, h, rfl, read'⟩ := low.reads
      have first : isHighSurrogate (0xD800 + (c.toNat - 0x10000) / 0x400) = true := by
        rw [isHighSurrogate, Bool.and_eq_true, decide_eq_true_eq, decide_eq_true_eq]
        omega
      have not_low : isLowSurrogate (0xD800 + (c.toNat - 0x10000) / 0x400) = false := by
        rw [isLowSurrogate, Bool.and_eq_false_iff, decide_eq_false_iff_not, decide_eq_false_iff_not]
        omega
      have second : isLowSurrogate (0xDC00 + (c.toNat - 0x10000) % 0x400) = true := by
        rw [isLowSurrogate, Bool.and_eq_true, decide_eq_true_eq, decide_eq_true_eq]
        omega
      have whole : 0x10000 + (0xD800 + (c.toNat - 0x10000) / 0x400 - 0xD800) * 0x400 +
          (0xDC00 + (c.toNat - 0x10000) % 0x400 - 0xDC00) = c.toNat := by omega
      simp only [List.cons_append, List.nil_append]
      rw [stringRest_pair read read' first not_low second, whole, Char.ofNat_toNat]

theorem CharsText.reads (written : CharsText s t) (rest : List Char) :
    stringRest (t ++ '"' :: rest) = some (s, rest) := by
  induction written with
  | nil => rw [List.nil_append, stringRest]
  | cons first later ih =>
      rw [List.append_assoc, first.reads, ih]
      rfl

/-! ### Only such texts are read -/

theorem charText_pair {n m : Nat} {t u : List Char} (high : UnitEscape n t) (low : UnitEscape m u)
    (first : isHighSurrogate n = true) (second : isLowSurrogate m = true) :
    CharText (Char.ofNat (0x10000 + (n - 0xD800) * 0x400 + (m - 0xDC00))) (t ++ u) := by
  rw [isHighSurrogate, Bool.and_eq_true, decide_eq_true_eq, decide_eq_true_eq] at first
  rw [isLowSurrogate, Bool.and_eq_true, decide_eq_true_eq, decide_eq_true_eq] at second
  have valid : (0x10000 + (n - 0xD800) * 0x400 + (m - 0xDC00)).isValidChar := by
    right
    omega
  have back := toNat_ofNat_scalar valid
  refine .pair (by omega) ?_ ?_
  · rwa [back, show 0xD800 + (0x10000 + (n - 0xD800) * 0x400 + (m - 0xDC00) - 0x10000) / 0x400 = n
      by omega]
  · rwa [back, show 0xDC00 + (0x10000 + (n - 0xD800) * 0x400 + (m - 0xDC00) - 0x10000) % 0x400 = m
      by omega]

theorem charText_unit {n : Nat} {t : List Char} (escape : UnitEscape n t)
    (not_low : ¬isLowSurrogate n = true) (not_high : ¬isHighSurrogate n = true) :
    CharText (Char.ofNat n) t := by
  rw [isHighSurrogate, Bool.and_eq_true, decide_eq_true_eq, decide_eq_true_eq] at not_high
  rw [isLowSurrogate, Bool.and_eq_true, decide_eq_true_eq, decide_eq_true_eq] at not_low
  have small := escape.reads.1
  have valid : n.isValidChar := by
    rcases Nat.lt_or_ge n 0xD800 with low | high
    · exact .inl low
    · exact .inr ⟨by omega, by omega⟩
  refine .unit ?_
  rwa [toNat_ofNat_scalar valid]

theorem charsText_cons {u : List Char} {read : Option (List Char × List Char)}
    (char : CharText c t) (later : ∀ s rest, read = some (s, rest) →
      ∃ body, CharsText s body ∧ u = body ++ '"' :: rest)
    (both : (do let (s, rest) ← read; return (c :: s, rest)) = some (s, rest)) :
    ∃ body, CharsText s body ∧ t ++ u = body ++ '"' :: rest := by
  cases read with
  | none => cases both
  | some found =>
      obtain ⟨rfl, rfl⟩ := Prod.mk.inj (Option.some.inj both)
      obtain ⟨body, chars, rfl⟩ := later _ _ rfl
      exact ⟨t ++ body, .cons char chars, by rw [List.append_assoc]⟩

theorem charsText_of_stringRest (read : stringRest t = some (s, rest)) :
    ∃ body, CharsText s body ∧ t = body ++ '"' :: rest := by
  induction t using stringRest.induct generalizing s rest with
  | case1 => cases read
  | case2 t =>
      rw [stringRest] at read
      obtain ⟨rfl, rfl⟩ := Prod.mk.inj (Option.some.inj read)
      exact ⟨[], .nil, rfl⟩
  | case3 a b c d t ih_pair ih =>
      rw [stringRest] at read
      obtain ⟨n, unit, read⟩ := Option.bind_eq_some_iff.mp read
      have escape := unitEscape_of_unit? unit
      split at read
      · cases read
      · rename_i not_low
        split at read
        · rename_i high
          split at read
          · rename_i e f g h t
            obtain ⟨m, unit', read⟩ := Option.bind_eq_some_iff.mp read
            split at read
            · rename_i low
              exact charsText_cons (charText_pair escape (unitEscape_of_unit? unit') high low)
                (fun s rest => ih_pair) read
            · cases read
          · cases read
        · rename_i not_high
          exact charsText_cons (charText_unit escape not_low not_high) (fun s rest => ih) read
  | case4 e t not_unit ih =>
      rw [stringRest] at read
      · obtain ⟨c, short, read⟩ := Option.bind_eq_some_iff.mp read
        exact charsText_cons (.short (simpleEscape?_eq_some_iff.mp short)) (fun s rest => ih) read
      · exact not_unit
  | case5 c t unquoted not_unit not_short refused =>
      rw [stringRest, if_pos refused] at read
      · cases read
      · exact unquoted
      · exact not_unit
      · exact not_short
  | case6 c t unquoted not_unit not_short accepted ih =>
      rw [stringRest, if_neg accepted] at read
      · rw [not_or, Nat.not_lt] at accepted
        exact charsText_cons (.plain unquoted accepted.1 accepted.2) (fun s rest => ih) read
      · exact unquoted
      · exact not_unit
      · exact not_short

end ModalHost.Json
