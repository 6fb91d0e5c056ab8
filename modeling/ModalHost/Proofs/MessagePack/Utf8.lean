import ModalHost.Text.Utf8
import Mathlib.Data.List.Basic

/-! What is written as UTF-8 is read back, one lemma for each width of a character. -/

namespace ModalHost

theorem toNat_ofNat_byte {n : Nat} (small : n < 0x100) : (UInt8.ofNat n).toNat = n :=
  UInt8.toNat_ofNat_of_lt' small

namespace Utf8

theorem toNat_continuation (n : Nat) : (continuation n).toNat = 0x80 + n % 0x40 :=
  toNat_ofNat_byte (by omega)

theorem payload_continuation (n : Nat) : payload? (continuation n) = some (n % 0x40) := by
  simp only [payload?, toNat_continuation]
  rw [if_pos (by omega), Nat.add_sub_cancel_left]

theorem decode_one (n : Nat) (small : n < 0x80) (rest : Bytes) :
    decode (UInt8.ofNat n :: rest) = (Char.ofNat n :: ·) <$> decode rest := by
  have head : (UInt8.ofNat n).toNat = n := toNat_ofNat_byte (by omega)
  -- `rw [decode]` would ask for the shape of `rest`, which a single byte does not need
  rw [decode.eq_def]
  dsimp only
  rw [head, if_pos small]

theorem decode_two (n : Nat) (low : 0x80 ≤ n) (high : n < 0x800) (rest : Bytes) :
    decode (UInt8.ofNat (0xC0 + n / 0x40) :: continuation n :: rest) =
      (Char.ofNat n :: ·) <$> decode rest := by
  have head : (UInt8.ofNat (0xC0 + n / 0x40)).toNat = 0xC0 + n / 0x40 :=
    toNat_ofNat_byte (by omega)
  have whole : (0xC0 + n / 0x40 - 0xC0) * 0x40 + n % 0x40 = n := by omega
  rw [decode]
  simp only [head, payload_continuation, if_neg (show ¬0xC0 + n / 0x40 < 0x80 by omega),
    bind, Option.bind, if_pos (show 0xC2 ≤ 0xC0 + n / 0x40 ∧ 0xC0 + n / 0x40 < 0xE0 by omega),
    whole]

theorem decode_three (n : Nat) (low : 0x800 ≤ n) (high : n < 0x10000)
    (scalar : n < 0xD800 ∨ 0xE000 ≤ n) (rest : Bytes) :
    decode (UInt8.ofNat (0xE0 + n / 0x1000) :: continuation (n / 0x40) :: continuation n :: rest) =
      (Char.ofNat n :: ·) <$> decode rest := by
  have head : (UInt8.ofNat (0xE0 + n / 0x1000)).toNat = 0xE0 + n / 0x1000 :=
    toNat_ofNat_byte (by omega)
  have whole : (0xE0 + n / 0x1000 - 0xE0) * 0x1000 + n / 0x40 % 0x40 * 0x40 + n % 0x40 = n := by
    omega
  rw [decode]
  simp only [head, payload_continuation, if_neg (show ¬0xE0 + n / 0x1000 < 0x80 by omega),
    bind, Option.bind,
    if_neg (show ¬(0xC2 ≤ 0xE0 + n / 0x1000 ∧ 0xE0 + n / 0x1000 < 0xE0) by omega),
    if_pos (show 0xE0 ≤ 0xE0 + n / 0x1000 ∧ 0xE0 + n / 0x1000 < 0xF0 by omega), whole,
    if_neg (show ¬(n < 0x800 ∨ 0xD800 ≤ n ∧ n < 0xE000) by omega)]

theorem decode_four (n : Nat) (low : 0x10000 ≤ n) (high : n < 0x110000) (rest : Bytes) :
    decode (UInt8.ofNat (0xF0 + n / 0x40000) :: continuation (n / 0x1000) ::
      continuation (n / 0x40) :: continuation n :: rest) = (Char.ofNat n :: ·) <$> decode rest := by
  have head : (UInt8.ofNat (0xF0 + n / 0x40000)).toNat = 0xF0 + n / 0x40000 :=
    toNat_ofNat_byte (by omega)
  have whole : (0xF0 + n / 0x40000 - 0xF0) * 0x40000 + n / 0x1000 % 0x40 * 0x1000 +
      n / 0x40 % 0x40 * 0x40 + n % 0x40 = n := by omega
  rw [decode]
  simp only [head, payload_continuation, if_neg (show ¬0xF0 + n / 0x40000 < 0x80 by omega),
    bind, Option.bind,
    if_neg (show ¬(0xC2 ≤ 0xF0 + n / 0x40000 ∧ 0xF0 + n / 0x40000 < 0xE0) by omega),
    if_neg (show ¬(0xE0 ≤ 0xF0 + n / 0x40000 ∧ 0xF0 + n / 0x40000 < 0xF0) by omega), whole,
    if_pos (show 0xF0 ≤ 0xF0 + n / 0x40000 ∧ 0x10000 ≤ n ∧ n < 0x110000 by omega)]

theorem decode_encodeChar (c : Char) (rest : Bytes) :
    decode (encodeChar c ++ rest) = (c :: ·) <$> decode rest := by
  -- no surrogate is a character, so the three-byte form is never refused
  have scalar : c.toNat < 0xD800 ∨ 0xDFFF < c.toNat ∧ c.toNat < 0x110000 := c.valid
  have back : Char.ofNat c.toNat = c := Char.ofNat_toNat c
  simp only [encodeChar]
  split
  · rename_i small
    rw [List.singleton_append, decode_one _ small, back]
  · split
    · rename_i low high
      rw [List.cons_append, List.singleton_append, decode_two _ (by omega) high, back]
    · split
      · rename_i _ low high
        simp only [List.cons_append, List.nil_append]
        rw [decode_three _ (by omega) high (by omega), back]
      · simp only [List.cons_append, List.nil_append]
        rw [decode_four _ (by omega) (by omega), back]

theorem decode_encode (s : List Char) : decode (encode s) = some s := by
  induction s with
  | nil => rfl
  | cons c s ih =>
      calc decode (encode (c :: s)) = (c :: ·) <$> decode (encode s) := by
            rw [encode, List.flatMap_cons, decode_encodeChar]
            rfl
        _ = some (c :: s) := by
            rw [ih]
            rfl

theorem toString_ofString (s : String) : toString? (ofString s) = some s := by
  rw [toString?, ofString, decode_encode]
  simp

theorem ofString_injective {s t : String} (same : ofString s = ofString t) : s = t := by
  have back := congrArg toString? same
  rwa [toString_ofString, toString_ofString, Option.some.injEq] at back

end Utf8

end ModalHost
