import ModalHost.MessagePack.Packed
import Mathlib.Algebra.Group.Nat.Defs

/-! The forms that a value may be written in: any width of its lengths and numbers, and for records
any order and kind of its keys, with unknown pairs between them. It is a grammar of bytes, and
nothing in it says how the bytes are read. -/

namespace ModalHost.MessagePack

/-- A family of markers that announce a number. The bytes from `base` on hold the numbers below
`limit` themselves, and each byte of `wide` is followed by a number of so many bytes. -/
structure Family where
  base : Nat
  limit : Nat
  wide : List (UInt8 × Nat)

namespace Family

inductive Announces (f : Family) (n : Nat) : Bytes → Prop
  | inline (small : n < f.limit) : Announces f n [UInt8.ofNat (f.base + n)]
  | wide (b : UInt8) (width : Nat) (listed : (b, width) ∈ f.wide) (room : n < 256 ^ width) :
      Announces f n (b :: bigEndian width n)

def text : Family :=
  ⟨0xA0, 0x20, [(0xD9, 1), (0xDA, 2), (0xDB, 4), (0xC4, 1), (0xC5, 2), (0xC6, 4)]⟩

def array : Family := ⟨0x90, 0x10, [(0xDC, 2), (0xDD, 4)]⟩

def map : Family := ⟨0x80, 0x10, [(0xDE, 2), (0xDF, 4)]⟩

def unsigned : Family := ⟨0x00, 0x80, [(0xCC, 1), (0xCD, 2), (0xCE, 4), (0xCF, 8)]⟩

def extension : Family := ⟨0, 0, [(0xC7, 1), (0xC8, 2), (0xC9, 4)]⟩

end Family

/-- Markers after which so many bytes follow whatever they are: nil, flags, floats, numbers, and
extensions of a fixed length with the byte of their type. -/
def fixedWidths : List (UInt8 × Nat) :=
  [(0xC0, 0), (0xC2, 0), (0xC3, 0), (0xCA, 4), (0xCB, 8), (0xCC, 1), (0xCD, 2), (0xCE, 4),
    (0xCF, 8), (0xD0, 1), (0xD1, 2), (0xD2, 4), (0xD3, 8), (0xD4, 2), (0xD5, 3), (0xD6, 5),
    (0xD7, 9), (0xD8, 17)]

inductive Scalar : Bytes → Prop
  | small (n : Nat) (positive : n < 0x80) : Scalar [UInt8.ofNat n]
  | negative (n : Nat) (high : n < 0x20) : Scalar [UInt8.ofNat (0xE0 + n)]
  | fixed (b : UInt8) (body : Bytes) (listed : (b, body.length) ∈ fixedWidths) : Scalar (b :: body)
  | text (head body : Bytes) (size : Family.text.Announces body.length head) : Scalar (head ++ body)
  | extension (head : Bytes) (kind : UInt8) (body : Bytes)
      (size : Family.extension.Announces body.length head) : Scalar (head ++ kind :: body)

inductive Values : Nat → Nat → Bytes → Prop
  | none (depth : Nat) : Values depth 0 []
  | scalar (depth n : Nat) (first rest : Bytes) (one : Scalar first)
      (more : Values depth n rest) : Values depth (n + 1) (first ++ rest)
  | array (depth count n : Nat) (head items rest : Bytes)
      (size : Family.array.Announces count head) (inside : Values depth count items)
      (more : Values (depth + 1) n rest) : Values (depth + 1) (n + 1) (head ++ (items ++ rest))
  | map (depth count n : Nat) (head pairs rest : Bytes)
      (size : Family.map.Announces count head) (inside : Values depth (2 * count) pairs)
      (more : Values (depth + 1) n rest) : Values (depth + 1) (n + 1) (head ++ (pairs ++ rest))

/-- How deep the containers of an unknown value are nested at most. -/
def unknownDepth : Nat := 1000

def IsText (s : String) (bytes : Bytes) : Prop :=
  ∃ head, Family.text.Announces (Utf8.ofString s).length head ∧ bytes = head ++ Utf8.ofString s

def IsOptionalText : Option String → Bytes → Prop
  | none, bytes => bytes = [0xC0]
  | some s, bytes => IsText s bytes

def IsFlag (b : Bool) (bytes : Bytes) : Prop := bytes = [if b then 0xC3 else 0xC2]

/-- A word is an unsigned number, or a signed one with a sign bit of zero. -/
inductive IsWord (n : Nat) : Bytes → Prop
  | unsigned (small : n < 2 ^ 32) (bytes : Bytes) (form : Family.unsigned.Announces n bytes) :
      IsWord n bytes
  | signed (small : n < 2 ^ 32) (b : UInt8) (width : Nat)
      (listed : (b, width) ∈ [(0xD0, 1), (0xD1, 2), (0xD2, 4), (0xD3, 8)])
      (positive : 2 * n < 256 ^ width) : IsWord n (b :: bigEndian width n)

/-- A key of a record whose fields have the given names, and the field it stands for if there is
such a field: a name as a string, or the place of a field as a number. -/
inductive IsKey (names : List String) : Option Nat → Bytes → Prop
  | name (i : Nat) (s : String) (found : names[i]? = some s) (bytes : Bytes)
      (form : IsText s bytes) : IsKey names (some i) bytes
  | index (i : Nat) (inside : i < names.length) (bytes : Bytes)
      (form : Family.unsigned.Announces i bytes) : IsKey names (some i) bytes
  | unknown (head body : Bytes) (size : Family.text.Announces body.length head)
      (strange : ∀ s ∈ names, Utf8.ofString s ≠ body) : IsKey names none (head ++ body)
  | beyond (i : Nat) (outside : names.length ≤ i) (bytes : Bytes)
      (form : Family.unsigned.Announces i bytes) : IsKey names none bytes

/-- A field as it is written: its name, the value it has where a map leaves it out, the forms of
its values, and the bytes that are no form of a value because a record inside is at fault. -/
structure Shape where
  name : String
  missing : Option Datum
  Form : Datum → Bytes → Prop
  Fault : Bytes → Prop

/-- A pair of a map: a field with its value, or a pair that stands for no field. -/
abbrev Pair := Option (Nat × Datum)

def places (pairs : List Pair) : List Nat := (pairs.filterMap id).map Prod.fst

inductive IsPairs (shapes : List Shape) : List Pair → Bytes → Prop
  | none : IsPairs shapes [] []
  | field (i : Nat) (shape : Shape) (found : shapes[i]? = some shape) (datum : Datum)
      (key value : Bytes) (named : IsKey (shapes.map (·.name)) (some i) key)
      (form : shape.Form datum value) (pairs : List Pair) (rest : Bytes)
      (more : IsPairs shapes pairs rest) :
      IsPairs shapes (some (i, datum) :: pairs) (key ++ (value ++ rest))
  | unknown (key value : Bytes) (named : IsKey (shapes.map (·.name)) none key)
      (form : Values unknownDepth 1 value) (pairs : List Pair) (rest : Bytes)
      (more : IsPairs shapes pairs rest) : IsPairs shapes (none :: pairs) (key ++ (value ++ rest))

inductive IsRow : List Shape → List Datum → Bytes → Prop
  | none : IsRow [] [] []
  | cons (shape : Shape) (datum : Datum) (first : Bytes) (form : shape.Form datum first)
      (shapes : List Shape) (data : List Datum) (rest : Bytes) (more : IsRow shapes data rest) :
      IsRow (shape :: shapes) (datum :: data) (first ++ rest)

/-- The pairs hold each field once, in any order, or leave out a field that has its missing value. -/
structure Holds (shapes : List Shape) (data : List Datum) (pairs : List Pair) : Prop where
  size : data.length = shapes.length
  once : (places pairs).Nodup
  own (i : Nat) (datum : Datum) : some (i, datum) ∈ pairs → data[i]? = some datum
  whole (i : Nat) (shape : Shape) : shapes[i]? = some shape → i ∉ places pairs →
    ∃ datum, shape.missing = some datum ∧ data[i]? = some datum

/-- A record: a map of its fields, or an array of all of them in their order. -/
inductive IsRecord (shapes : List Shape) (data : List Datum) : Bytes → Prop
  | map (pairs : List Pair) (head body : Bytes) (size : Family.map.Announces pairs.length head)
      (form : IsPairs shapes pairs body) (holds : Holds shapes data pairs) :
      IsRecord shapes data (head ++ body)
  | array (head body : Bytes) (size : Family.array.Announces shapes.length head)
      (form : IsRow shapes data body) : IsRecord shapes data (head ++ body)

/-- Bytes that start like a record and are at fault: a field is there twice, a field that may not be
left out is missing, or the value of a field is at fault itself. What follows a repeated field or a
value at fault does not matter. -/
inductive IsFaulty (shapes : List Shape) : Bytes → Prop
  | repeated (pairs : List Pair) (more : Nat) (head body rest : Bytes)
      (size : Family.map.Announces (pairs.length + more) head) (form : IsPairs shapes pairs body)
      (twice : ¬(places pairs).Nodup) : IsFaulty shapes (head ++ (body ++ rest))
  | missing (pairs : List Pair) (head body : Bytes)
      (size : Family.map.Announces pairs.length head) (form : IsPairs shapes pairs body) (i : Nat)
      (shape : Shape) (found : shapes[i]? = some shape) (needed : shape.missing = none)
      (lacking : i ∉ places pairs) : IsFaulty shapes (head ++ body)
  | pair (pairs : List Pair) (more : Nat) (head body key value rest : Bytes)
      (size : Family.map.Announces (pairs.length + (more + 1)) head)
      (form : IsPairs shapes pairs body) (i : Nat) (shape : Shape)
      (found : shapes[i]? = some shape) (named : IsKey (shapes.map (·.name)) (some i) key)
      (fault : shape.Fault value) : IsFaulty shapes (head ++ (body ++ (key ++ (value ++ rest))))
  | item (before after : List Shape) (shape : Shape) (all : shapes = before ++ shape :: after)
      (data : List Datum) (head body value rest : Bytes)
      (size : Family.array.Announces shapes.length head) (form : IsRow before data body)
      (fault : shape.Fault value) : IsFaulty shapes (head ++ (body ++ (value ++ rest)))

namespace Shape

def text (name : String) : Shape :=
  ⟨name, none, fun datum bytes => ∃ s, datum = .text s ∧ IsText s bytes, fun _ => False⟩

def optionalText (name : String) : Shape :=
  ⟨name, some (.optionalText none),
    fun datum bytes => ∃ s, datum = .optionalText s ∧ IsOptionalText s bytes, fun _ => False⟩

def flag (name : String) : Shape :=
  ⟨name, none, fun datum bytes => ∃ b, datum = .flag b ∧ IsFlag b bytes, fun _ => False⟩

def word (name : String) : Shape :=
  ⟨name, none, fun datum bytes => ∃ n, datum = .word n ∧ IsWord n bytes, fun _ => False⟩

def record (name : String) (shapes : List Shape) : Shape :=
  ⟨name, none, fun datum bytes => ∃ data, datum = .record data ∧ IsRecord shapes data bytes,
    IsFaulty shapes⟩

end Shape

end ModalHost.MessagePack

namespace ModalHost

open MessagePack

namespace Visuals

def shapes : List Shape :=
  [.text "title", .optionalText "content", .optionalText "confirm", .optionalText "dismiss"]

def data (v : Visuals) : List Datum :=
  [.text v.title, .optionalText v.content, .optionalText v.confirm, .optionalText v.dismiss]

end Visuals

namespace Snapshot

def shapes : List Shape := [.flag "visible", .record "visuals" Visuals.shapes]

def data (s : Snapshot) : List Datum := [.flag s.visible, .record s.visuals.data]

end Snapshot

namespace Package

def shapes : List Shape :=
  [.text "package_name", .optionalText "label", .word "uid", .flag "is_system"]

def data (p : Package) : List Datum :=
  [.text p.name, .optionalText p.label, .word p.uid.toNat, .flag p.isSystem]

end Package

namespace App

def shapes : List Shape :=
  [.text "label", .text "package_name", .word "uid", .flag "is_system", .flag "is_recommended",
    .flag "is_enabled_in_config"]

def data (a : App) : List Datum :=
  [.text a.label, .text a.package, .word a.uid.toNat, .flag a.isSystem, .flag a.isRecommended,
    .flag a.isEnabled]

end App

end ModalHost
