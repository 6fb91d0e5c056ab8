import ModalHost.MessagePack.Marker
/-!
Writing MessagePack: every value takes its shortest form, and a record is a map from field names
to values in declaration order.
-/
namespace ModalHost.MessagePack

def bigEndian : Nat → Nat → Bytes
  | 0, _ => []
  | width + 1, n => UInt8.ofNat (n >>> (8 * width)) :: bigEndian width n

def textHead (size : Nat) : Bytes :=
  if size < 32 then [UInt8.ofNat (0xA0 + size)]
  else if size < 0x100 then 0xD9 :: bigEndian 1 size
  else if size < 0x10000 then 0xDA :: bigEndian 2 size
  else 0xDB :: bigEndian 4 size

def writeText (s : String) : Bytes :=
  let body := Utf8.ofString s
  textHead body.length ++ body

def writeOptionalText : Option String → Bytes
  | none => [0xC0]
  | some s => writeText s

def writeFlag (b : Bool) : Bytes := [if b then 0xC3 else 0xC2]

def writeWord (n : Nat) : Bytes :=
  if n < 0x80 then [UInt8.ofNat n]
  else if n < 0x100 then 0xCC :: bigEndian 1 n
  else if n < 0x10000 then 0xCD :: bigEndian 2 n
  else 0xCE :: bigEndian 4 n

/-- A record of fewer than sixteen fields, each given by its name and its written value. -/
def writeRecord (fields : List (String × Bytes)) : Bytes :=
  UInt8.ofNat (0x80 + fields.length) :: fields.flatMap fun field => writeText field.1 ++ field.2

end ModalHost.MessagePack
