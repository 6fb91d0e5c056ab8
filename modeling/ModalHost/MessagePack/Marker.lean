import ModalHost.Text.Utf8
/-!
The first byte of a MessagePack value. It fixes the value's family and either holds its length or
small value or says how many bytes hold it.
-/
namespace ModalHost.MessagePack

inductive Length
  | inline (n : Nat)
  | field (width : Nat)
  deriving DecidableEq, Repr

inductive Marker
  | fixint (n : Nat)
  | negative
  | nil
  | reserved
  | bool (b : Bool)
  | text (length : Length)
  | binary (length : Length)
  | array (length : Length)
  | map (length : Length)
  | extension (length : Length)
  | unsigned (width : Nat)
  | signed (width : Nat)
  | float (width : Nat)
  deriving DecidableEq, Repr

def Marker.ofByte (b : UInt8) : Marker :=
  let n := b.toNat
  if n < 0x80 then .fixint n
  else if n < 0x90 then .map (.inline (n - 0x80))
  else if n < 0xA0 then .array (.inline (n - 0x90))
  else if n < 0xC0 then .text (.inline (n - 0xA0))
  else if 0xE0 ≤ n then .negative
  else
    match n - 0xC0 with
    | 0x00 => .nil
    | 0x01 => .reserved
    | 0x02 => .bool false
    | 0x03 => .bool true
    | 0x04 => .binary (.field 1)
    | 0x05 => .binary (.field 2)
    | 0x06 => .binary (.field 4)
    | 0x07 => .extension (.field 1)
    | 0x08 => .extension (.field 2)
    | 0x09 => .extension (.field 4)
    | 0x0A => .float 4
    | 0x0B => .float 8
    | 0x0C => .unsigned 1
    | 0x0D => .unsigned 2
    | 0x0E => .unsigned 4
    | 0x0F => .unsigned 8
    | 0x10 => .signed 1
    | 0x11 => .signed 2
    | 0x12 => .signed 4
    | 0x13 => .signed 8
    | 0x14 => .extension (.inline 1)
    | 0x15 => .extension (.inline 2)
    | 0x16 => .extension (.inline 4)
    | 0x17 => .extension (.inline 8)
    | 0x18 => .extension (.inline 16)
    | 0x19 => .text (.field 1)
    | 0x1A => .text (.field 2)
    | 0x1B => .text (.field 4)
    | 0x1C => .array (.field 2)
    | 0x1D => .array (.field 4)
    | 0x1E => .map (.field 2)
    | _ => .map (.field 4)

end ModalHost.MessagePack
