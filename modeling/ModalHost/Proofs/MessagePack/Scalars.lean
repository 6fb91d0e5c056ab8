import ModalHost.MessagePack.Packed
import ModalHost.Proofs.MessagePack.Utf8
import Mathlib.Data.List.Basic
import Mathlib.Tactic.Ring

/-! What a reader takes from the front and gives: numbers, texts and flags as they are written. -/

namespace ModalHost.MessagePack

/-- The reader takes `bytes` from the front, whatever follows them, and gives `x`. -/
def Reads {α : Type} (r : Reader α) (bytes : Bytes) (x : α) : Prop :=
  ∀ rest, r.run (bytes ++ rest) = .ok (x, rest)

namespace Reads

variable {α β : Type}

theorem pure (x : α) : Reads (pure x) [] x := fun _ => rfl

theorem bind {r : Reader α} {f : α → Reader β} {first second : Bytes} {x : α} {y : β}
    (head : Reads r first x) (tail : Reads (f x) second y) :
    Reads (r >>= f) (first ++ second) y := by
  intro rest
  rw [StateT.run_bind, List.append_assoc, head]
  exact tail rest

theorem map {r : Reader α} {bytes : Bytes} {x : α} (f : α → β) (reads : Reads r bytes x) :
    Reads (f <$> r) bytes (f x) := by
  intro rest
  rw [StateT.run_map, reads]
  rfl

theorem give {r : Reader α} {f : α → Reader β} {bytes : Bytes} {x : α} {y : β}
    (reads : Reads r bytes x) (made : f x = Pure.pure y) : Reads (r >>= f) bytes y := by
  have both : Reads (r >>= f) (bytes ++ []) y := reads.bind (made ▸ pure y)
  rwa [List.append_nil] at both

theorem byte (b : UInt8) : Reads Reader.byte [b] b := fun _ => rfl

theorem marker (b : UInt8) : Reads Reader.marker [b] (Marker.ofByte b) := (byte b).map _

theorem take (bytes : Bytes) : Reads (Reader.take bytes.length) bytes bytes := by
  induction bytes with
  | nil => exact pure []
  | cons b bytes ih => exact (byte b).bind (ih.give rfl)

end Reads

@[simp] theorem length_bigEndian (width n : Nat) : (bigEndian width n).length = width := by
  induction width with
  | zero => rfl
  | succ width ih => simp [bigEndian, ih]

theorem bigEndian_succ (width n : Nat) :
    bigEndian (width + 1) n = UInt8.ofNat (n / 256 ^ width) :: bigEndian width n := by
  rw [bigEndian, Nat.shiftRight_eq_div_pow, Nat.pow_mul]

theorem foldl_bigEndian (width n before : Nat) :
    (bigEndian width n).foldl (fun m b => 256 * m + b.toNat) before =
      before * 256 ^ width + n % 256 ^ width := by
  induction width generalizing before with
  | zero => simp [bigEndian, Nat.mod_one]
  | succ width ih =>
      have digit : n % 256 ^ (width + 1) =
          256 ^ width * (n / 256 ^ width % 256) + n % 256 ^ width := by
        rw [Nat.pow_succ, Nat.mod_mul, Nat.add_comm]
      have byte : (UInt8.ofNat (n / 256 ^ width)).toNat = n / 256 ^ width % 256 :=
        UInt8.toNat_ofNat'
      rw [bigEndian_succ, List.foldl_cons, ih, digit, byte]
      ring

theorem Reads.bigEndian (width n : Nat) (small : n < 256 ^ width) :
    Reads (Reader.bigEndian width) (bigEndian width n) n := by
  have body := Reads.take (MessagePack.bigEndian width n)
  rw [length_bigEndian] at body
  refine body.give ?_
  rw [foldl_bigEndian, Nat.zero_mul, Nat.zero_add, Nat.mod_eq_of_lt small]

theorem marker_fixint (n : Nat) (small : n < 0x80) :
    Marker.ofByte (UInt8.ofNat n) = .fixint n := by
  have byte : (UInt8.ofNat n).toNat = n := toNat_ofNat_byte (by omega)
  simp [Marker.ofByte, byte, small]

theorem marker_map (n : Nat) (small : n < 0x10) :
    Marker.ofByte (UInt8.ofNat (0x80 + n)) = .map (.inline n) := by
  have byte : (UInt8.ofNat (0x80 + n)).toNat = 0x80 + n := toNat_ofNat_byte (by omega)
  simp only [Marker.ofByte, byte]
  rw [if_neg (by omega), if_pos (by omega), Nat.add_sub_cancel_left]

theorem marker_text (n : Nat) (small : n < 0x20) :
    Marker.ofByte (UInt8.ofNat (0xA0 + n)) = .text (.inline n) := by
  have byte : (UInt8.ofNat (0xA0 + n)).toNat = 0xA0 + n := toNat_ofNat_byte (by omega)
  simp only [Marker.ofByte, byte]
  rw [if_neg (by omega), if_neg (by omega), if_neg (by omega), if_pos (by omega),
    Nat.add_sub_cancel_left]

theorem reads_textHead (size : Nat) (short : size < 2 ^ 32) :
    ∃ b field length, textHead size = b :: field ∧ Marker.ofByte b = .text length ∧
      Reads (Reader.length length) field size := by
  unfold textHead
  split
  · rename_i small
    exact ⟨_, [], _, rfl, marker_text size small, .pure size⟩
  · split
    · rename_i _ small
      exact ⟨_, _, .field 1, rfl, rfl, .bigEndian 1 size (by omega)⟩
    · split
      · rename_i _ _ small
        exact ⟨_, _, .field 2, rfl, rfl, .bigEndian 2 size (by omega)⟩
      · exact ⟨_, _, .field 4, rfl, rfl, .bigEndian 4 size (by omega)⟩

/-- Whether the length of a text can be written; the widest head has four bytes for it. -/
def Fits (s : String) : Prop := (Utf8.ofString s).length < 2 ^ 32

instance (s : String) : Decidable (Fits s) := inferInstanceAs (Decidable (_ < _))

theorem Reads.payload {length : Length} {field : Bytes} (body : Bytes)
    (head : Reads (Reader.length length) field body.length) :
    Reads (Reader.payload length) (field ++ body) body :=
  head.bind (.take body)

theorem Reads.textBody {length : Length} {field : Bytes} (s : String)
    (head : Reads (Reader.length length) field (Utf8.ofString s).length) :
    Reads (Reader.textBody length) (field ++ Utf8.ofString s) s :=
  (Reads.payload _ head).give (by simp only [Utf8.toString_ofString])

theorem reads_writeText (s : String) (fits : Fits s) :
    ∃ b field length, writeText s = [b] ++ (field ++ Utf8.ofString s) ∧
      Marker.ofByte b = .text length ∧
      Reads (Reader.length length) field (Utf8.ofString s).length := by
  obtain ⟨b, field, length, head, mark, reads⟩ := reads_textHead _ fits
  exact ⟨b, field, length, by rw [writeText, head]; rfl, mark, reads⟩

theorem Reads.text (s : String) (fits : Fits s) : Reads Reader.text (writeText s) s := by
  obtain ⟨b, field, length, written, mark, head⟩ := reads_writeText s fits
  rw [written]
  refine (Reads.marker b).bind ?_
  rw [mark]
  exact .textBody s head

theorem Reads.optionalText (s : Option String) (fits : ∀ t ∈ s, Fits t) :
    Reads Reader.optionalText (writeOptionalText s) s := by
  cases s with
  | none => exact (Reads.marker 0xC0).give rfl
  | some t =>
      obtain ⟨b, field, length, written, mark, head⟩ := reads_writeText t (fits t rfl)
      rw [writeOptionalText, written]
      refine (Reads.marker b).bind ?_
      rw [mark]
      exact (Reads.textBody t head).map some

theorem Reads.flag (b : Bool) : Reads Reader.flag (writeFlag b) b := by
  cases b with
  | false => exact (Reads.marker 0xC2).give rfl
  | true => exact (Reads.marker 0xC3).give rfl

theorem reads_word_field (b : UInt8) (width n : Nat) (mark : Marker.ofByte b = .unsigned width)
    (room : n < 256 ^ width) (small : n < 2 ^ 32) :
    Reads Reader.word (b :: bigEndian width n) n := by
  have bounded : n < 0x100000000 := small
  change Reads Reader.word ([b] ++ bigEndian width n) n
  refine (Reads.marker b).bind ?_
  rw [mark]
  exact (Reads.bigEndian width n room).give (if_pos bounded)

theorem Reads.word (n : Nat) (small : n < 2 ^ 32) : Reads Reader.word (writeWord n) n := by
  have bounded : n < 0x100000000 := small
  unfold writeWord
  split
  · rename_i short
    refine (Reads.marker _).give ?_
    rw [marker_fixint n short]
    simp [bounded]
  · split
    · rename_i _ short
      exact reads_word_field 0xCC 1 n rfl (by omega) small
    · split
      · rename_i _ _ short
        exact reads_word_field 0xCD 2 n rfl (by omega) small
      · exact reads_word_field 0xCE 4 n rfl (by omega) small

end ModalHost.MessagePack
