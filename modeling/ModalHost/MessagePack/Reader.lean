import ModalHost.MessagePack.Marker
/-!
Reading MessagePack strictly from left to right. The first problem met decides the fault: `eof`
where the bytes end inside something that is being read, `invalid` for everything else.
-/
namespace ModalHost.MessagePack

inductive Fault
  | eof
  | invalid
  deriving DecidableEq, Repr

/-- A reader takes what it needs from the front and leaves the rest. -/
abbrev Reader := StateT Bytes (Except Fault)

namespace Reader

variable {α : Type}

def invalid : Reader α := throw .invalid

def byte : Reader UInt8
  | [] => .error .eof
  | b :: rest => .ok (b, rest)

def take : Nat → Reader Bytes
  | 0 => pure []
  | n + 1 => do
    let b ← byte
    let body ← take n
    return b :: body

def bigEndian (width : Nat) : Reader Nat := do
  let body ← take width
  return body.foldl (fun n b => 256 * n + b.toNat) 0

def marker : Reader Marker := Marker.ofByte <$> byte

def length : Length → Reader Nat
  | .inline n => pure n
  | .field width => bigEndian width

def payload (length : Length) : Reader Bytes := do take (← Reader.length length)

/-- A string: text or binary whose bytes are UTF-8. -/
def textBody (length : Length) : Reader String := do
  match Utf8.toString? (← payload length) with
  | some s => return s
  | none => invalid

def text : Reader String := do
  match ← marker with
  | .text length | .binary length => textBody length
  | _ => invalid

def optionalText : Reader (Option String) := do
  match ← marker with
  | .nil => return none
  | .text length | .binary length => some <$> textBody length
  | _ => invalid

def flag : Reader Bool := do
  match ← marker with
  | .bool b => return b
  | _ => invalid

/-- The value of a two's complement number of `width` bytes, unless it is negative. -/
def nonnegative? (width n : Nat) : Option Nat := if 2 * n < Nat.pow 256 width then some n else none

/-- An integer of any form, signed ones included, from 0 to 4294967295. -/
def word : Reader Nat := do
  let n ← match ← marker with
    | .fixint n => pure n
    | .unsigned width => bigEndian width
    | .signed width =>
      match nonnegative? width (← bigEndian width) with
      | some n => pure n
      | none => invalid
    | _ => invalid
  if n < 0x100000000 then return n else invalid

def times (reader : Reader Unit) : Nat → Reader Unit
  | 0 => pure ()
  | n + 1 => do
    reader
    times reader n

/-- Reads one value of any family whole. `depth` is how many containers may stand inside each
other in it. -/
def skip : Nat → Reader Unit
  | 0 => do
    match ← marker with
    | .reserved | .array _ | .map _ => invalid
    | m => scalar m
  | depth + 1 => do
    match ← marker with
    | .reserved => invalid
    | .array length => do times (skip depth) (← Reader.length length)
    | .map length => do times (skip depth) (2 * (← Reader.length length))
    | m => scalar m
where
  /-- What follows the marker of a value that holds no other. -/
  scalar : Marker → Reader Unit
    | .text length | .binary length => do let _ ← payload length
    | .extension length => do let _ ← take (1 + (← Reader.length length))
    | .unsigned width | .signed width | .float width => do let _ ← take width
    | _ => pure ()

def nestingLimit : Nat := 1022

end Reader

inductive Key
  | known (index : Nat)
  | unknown
  deriving DecidableEq, Repr

namespace Key

def ofName (names : List String) (name : Bytes) : Key :=
  match names.findIdx? (Utf8.ofString · == name) with
  | some index => known index
  | none => unknown

def ofIndex (names : List String) (index : Nat) : Key :=
  if index < names.length then known index else unknown

/-- The key that starts with the given marker: text or binary is a name, an unsigned integer is an
index, and nothing else is a key. -/
def after (names : List String) : Marker → Reader Key
  | .text length | .binary length => do return ofName names (← Reader.payload length)
  | .fixint n => return ofIndex names n
  | .unsigned width => do return ofIndex names (← Reader.bigEndian width)
  | _ => Reader.invalid

def read (names : List String) : Reader Key := do after names (← Reader.marker)

end Key

/-- The index of a variant: its name or its index, or a map of one pair from it to nil. -/
def readVariant (names : List String) : Reader Nat := do
  match ← Reader.marker with
  | .map length =>
    if (← Reader.length length) = 1 then
      let index ← known (← Reader.marker)
      match ← Reader.marker with
      | .nil => return index
      | _ => Reader.invalid
    else Reader.invalid
  | m => known m
where
  known (m : Marker) : Reader Nat := do
    match ← Key.after names m with
    | .known index => return index
    | .unknown => Reader.invalid

end ModalHost.MessagePack
