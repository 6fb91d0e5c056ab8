import ModalHost.Proofs.MessagePack.Utf8

/-! A text has one form in UTF-8, so what is decoded from the first bytes of a text, if they are a
text at all, is the start of it. -/

namespace ModalHost

theorem toNat_ofNat_scalar {n : Nat} (valid : n.isValidChar) : (Char.ofNat n).toNat = n := by
  rw [Char.ofNat, dif_pos valid]
  rfl

namespace Utf8

theorem payload?_eq_some {b : UInt8} {n : Nat} (read : payload? b = some n) :
    b.toNat = 0x80 + n ∧ n < 0x40 := by
  rw [payload?] at read
  split at read
  · rename_i range
    obtain rfl := Option.some.inj read
    omega
  · cases read

theorem eq_ofNat_of_toNat {b : UInt8} {n : Nat} (same : b.toNat = n) : b = UInt8.ofNat n := by
  rw [← same, UInt8.ofNat_toNat]

theorem eq_continuation {b : UInt8} {m n : Nat} (read : payload? b = some m)
    (low : n % 0x40 = m) : b = continuation n := by
  rw [continuation, low]
  exact eq_ofNat_of_toNat (payload?_eq_some read).1

theorem encode_cons (c : Char) (s : List Char) : encode (c :: s) = encodeChar c ++ encode s := rfl

theorem encode_append (s t : List Char) : encode (s ++ t) = encode s ++ encode t :=
  List.flatMap_append

theorem encodeChar_ofNat {n : Nat} (valid : n.isValidChar) :
    encodeChar (Char.ofNat n) =
      if n < 0x80 then [UInt8.ofNat n]
      else if n < 0x800 then [UInt8.ofNat (0xC0 + n / 0x40), continuation n]
      else if n < 0x10000 then
        [UInt8.ofNat (0xE0 + n / 0x1000), continuation (n / 0x40), continuation n]
      else
        [UInt8.ofNat (0xF0 + n / 0x40000), continuation (n / 0x1000), continuation (n / 0x40),
          continuation n] := by
  rw [encodeChar, toNat_ofNat_scalar valid]

theorem encodeChar_one {a : UInt8} (small : a.toNat < 0x80) :
    encodeChar (Char.ofNat a.toNat) = [a] := by
  rw [encodeChar_ofNat (.inl (by omega)), if_pos small, UInt8.ofNat_toNat]

theorem encodeChar_two {a b : UInt8} {y : Nat} (second : payload? b = some y)
    (lead : 0xC2 ≤ a.toNat ∧ a.toNat < 0xE0) :
    encodeChar (Char.ofNat ((a.toNat - 0xC0) * 0x40 + y)) = [a, b] := by
  have range := payload?_eq_some second
  rw [encodeChar_ofNat (.inl (by omega)), if_neg (by omega), if_pos (by omega),
    ← eq_ofNat_of_toNat (b := a) (by omega), ← eq_continuation second (by omega)]

theorem encodeChar_three {a b c : UInt8} {y z : Nat} (second : payload? b = some y)
    (third : payload? c = some z) (lead : 0xE0 ≤ a.toNat ∧ a.toNat < 0xF0)
    (scalar : ¬((a.toNat - 0xE0) * 0x1000 + y * 0x40 + z < 0x800 ∨
      0xD800 ≤ (a.toNat - 0xE0) * 0x1000 + y * 0x40 + z ∧
        (a.toNat - 0xE0) * 0x1000 + y * 0x40 + z < 0xE000)) :
    encodeChar (Char.ofNat ((a.toNat - 0xE0) * 0x1000 + y * 0x40 + z)) = [a, b, c] := by
  have range := payload?_eq_some second
  have range' := payload?_eq_some third
  rw [encodeChar_ofNat (by unfold Nat.isValidChar; omega), if_neg (by omega), if_neg (by omega),
    if_pos (by omega), ← eq_ofNat_of_toNat (b := a) (by omega),
    ← eq_continuation second (by omega), ← eq_continuation third (by omega)]

theorem encodeChar_four {a b c d : UInt8} {y z w : Nat} (second : payload? b = some y)
    (third : payload? c = some z) (fourth : payload? d = some w)
    (lead : 0xF0 ≤ a.toNat ∧
      0x10000 ≤ (a.toNat - 0xF0) * 0x40000 + y * 0x1000 + z * 0x40 + w ∧
        (a.toNat - 0xF0) * 0x40000 + y * 0x1000 + z * 0x40 + w < 0x110000) :
    encodeChar (Char.ofNat ((a.toNat - 0xF0) * 0x40000 + y * 0x1000 + z * 0x40 + w)) =
      [a, b, c, d] := by
  have range := payload?_eq_some second
  have range' := payload?_eq_some third
  have range'' := payload?_eq_some fourth
  rw [encodeChar_ofNat (by unfold Nat.isValidChar; omega), if_neg (by omega), if_neg (by omega),
    if_neg (by omega), ← eq_ofNat_of_toNat (b := a) (by omega),
    ← eq_continuation second (by omega), ← eq_continuation third (by omega),
    ← eq_continuation fourth (by omega)]

theorem encode_of_decode {b : Bytes} {s : List Char} (decoded : decode b = some s) :
    encode s = b := by
  induction b using decode.induct generalizing s with
  | case1 =>
      obtain rfl := Option.some.inj decoded
      rfl
  | case2 a rest small ih =>
      rw [decode.eq_def] at decoded
      simp only [if_pos small, Option.map_eq_map, Option.map_eq_some_iff] at decoded
      obtain ⟨s, later, rfl⟩ := decoded
      rw [encode_cons, encodeChar_one small, ih later]
      rfl
  | case3 a large =>
      rw [decode.eq_def] at decoded
      simp only [if_neg large] at decoded
      cases decoded
  | case4 a large b rest ih ih' =>
      rw [decode.eq_def] at decoded
      simp only [if_neg large, bind, Option.bind_eq_some_iff] at decoded
      obtain ⟨y, second, decoded⟩ := decoded
      split at decoded
      · rename_i two
        simp only [Option.map_eq_map, Option.map_eq_some_iff] at decoded
        obtain ⟨s, later, rfl⟩ := decoded
        rw [encode_cons, encodeChar_two second two, ih later]
        rfl
      · -- two bytes are not enough, so the case goes on with the third and perhaps the fourth
        cases rest with
        | nil => cases decoded
        | cons c rest =>
            obtain ⟨ih, ih'⟩ := ih'
            simp only [Option.bind_eq_some_iff] at decoded
            obtain ⟨z, third, decoded⟩ := decoded
            split at decoded
            · rename_i three
              split at decoded
              · cases decoded
              · rename_i scalar
                simp only [Option.map_eq_map, Option.map_eq_some_iff] at decoded
                obtain ⟨s, later, rfl⟩ := decoded
                rw [encode_cons, encodeChar_three second third three scalar, ih later]
                rfl
            · cases rest with
              | nil => cases decoded
              | cons d rest =>
                  simp only [Option.bind_eq_some_iff] at decoded
                  obtain ⟨w, fourth, decoded⟩ := decoded
                  split at decoded
                  · rename_i four
                    simp only [Option.map_eq_map, Option.map_eq_some_iff] at decoded
                    obtain ⟨s, later, rfl⟩ := decoded
                    rw [encode_cons, encodeChar_four second third fourth four, ih' later]
                    rfl
                  · cases decoded

theorem decode_append (s : List Char) (b : Bytes) :
    decode (encode s ++ b) = (s ++ ·) <$> decode b := by
  induction s with
  | nil =>
      change decode b = _
      cases decode b <;> rfl
  | cons c s ih =>
      rw [encode_cons, List.append_assoc, decode_encodeChar, ih]
      cases decode b <;> rfl

theorem decode_prefix {content cut : Bytes} {s t : List Char} (whole : decode content = some s)
    (part : cut <+: content) (read : decode cut = some t) :
    ∃ missing, s = t ++ missing ∧ content = cut ++ encode missing := by
  obtain ⟨tail, rfl⟩ := part
  obtain rfl := encode_of_decode read
  rw [decode_append, Option.map_eq_map, Option.map_eq_some_iff] at whole
  obtain ⟨missing, decoded, rfl⟩ := whole
  exact ⟨missing, rfl, by rw [encode_of_decode decoded]⟩

theorem encodeChar_ne_nil (c : Char) : encodeChar c ≠ [] := by
  simp only [encodeChar]
  split
  · exact List.cons_ne_nil _ _
  · split
    · exact List.cons_ne_nil _ _
    · split <;> exact List.cons_ne_nil _ _

theorem encode_eq_nil_iff {s : List Char} : encode s = [] ↔ s = [] := by
  cases s with
  | nil => exact iff_of_true rfl rfl
  | cons c s => simp [encode_cons, encodeChar_ne_nil]

theorem getLast?_of_encode {s : List Char} {b : UInt8} (small : b.toNat < 0x80)
    (last : (encode s).getLast? = some b) : s.getLast? = some (Char.ofNat b.toNat) := by
  rcases List.eq_nil_or_concat s with rfl | ⟨front, c, rfl⟩
  · cases last
  · rw [List.concat_eq_append] at last ⊢
    have of_char : (encodeChar c).getLast? = some b := by
      rw [encode_append, List.getLast?_append, encode_cons, encode, List.flatMap_nil,
        List.append_nil] at last
      cases shape : (encodeChar c).getLast? with
      | none => exact absurd (List.getLast?_eq_none_iff.mp shape) (encodeChar_ne_nil c)
      | some d => rwa [shape, Option.some_or] at last
    have not_continuation (n : Nat) : continuation n ≠ b := by
      rintro rfl
      rw [toNat_continuation] at small
      omega
    rw [List.getLast?_concat]
    simp only [encodeChar] at of_char
    split at of_char
    · rename_i ascii
      obtain rfl : UInt8.ofNat c.toNat = b := Option.some.inj of_char
      rw [toNat_ofNat_byte (by omega), Char.ofNat_toNat]
    · split at of_char
      · exact absurd (Option.some.inj of_char) (not_continuation _)
      · split at of_char <;> exact absurd (Option.some.inj of_char) (not_continuation _)

end Utf8

end ModalHost
