/-!
UTF-8 over lists of bytes: `encode` writes the shortest form of each character, and `decode` reads
nothing else, so overlong forms, surrogates and values above the last code point are refused.
-/
namespace ModalHost

abbrev Bytes := List UInt8

namespace Utf8

def continuation (n : Nat) : UInt8 := UInt8.ofNat (0x80 + n % 0x40)

def encodeChar (c : Char) : Bytes :=
  let n := c.toNat
  if n < 0x80 then [UInt8.ofNat n]
  else if n < 0x800 then [UInt8.ofNat (0xC0 + n / 0x40), continuation n]
  else if n < 0x10000 then
    [UInt8.ofNat (0xE0 + n / 0x1000), continuation (n / 0x40), continuation n]
  else
    [UInt8.ofNat (0xF0 + n / 0x40000), continuation (n / 0x1000), continuation (n / 0x40),
      continuation n]

def encode (s : List Char) : Bytes := s.flatMap encodeChar

def payload? (b : UInt8) : Option Nat :=
  if 0x80 ≤ b.toNat ∧ b.toNat < 0xC0 then some (b.toNat - 0x80) else none

def decode : Bytes → Option (List Char)
  | [] => some []
  | a :: rest =>
    if a.toNat < 0x80 then (Char.ofNat a.toNat :: ·) <$> decode rest
    else
      match rest with
      | [] => none
      | b :: rest => do
        let y ← payload? b
        if 0xC2 ≤ a.toNat ∧ a.toNat < 0xE0 then
          (Char.ofNat ((a.toNat - 0xC0) * 0x40 + y) :: ·) <$> decode rest
        else
          match rest with
          | [] => none
          | c :: rest => do
            let z ← payload? c
            if 0xE0 ≤ a.toNat ∧ a.toNat < 0xF0 then
              let n := (a.toNat - 0xE0) * 0x1000 + y * 0x40 + z
              if n < 0x800 ∨ (0xD800 ≤ n ∧ n < 0xE000) then none
              else (Char.ofNat n :: ·) <$> decode rest
            else
              match rest with
              | [] => none
              | d :: rest => do
                let w ← payload? d
                let n := (a.toNat - 0xF0) * 0x40000 + y * 0x1000 + z * 0x40 + w
                if 0xF0 ≤ a.toNat ∧ 0x10000 ≤ n ∧ n < 0x110000 then
                  (Char.ofNat n :: ·) <$> decode rest
                else none

def ofString (s : String) : Bytes := encode s.toList

def toString? (b : Bytes) : Option String := String.ofList <$> decode b

end Utf8

end ModalHost
