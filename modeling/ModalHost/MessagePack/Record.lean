import ModalHost.MessagePack.Reader
/-!
Reading a record: a map from keys to values in any order, with unknown keys skipped, or an array
of all the fields in declaration order.
-/
namespace ModalHost.MessagePack

inductive Datum
  | text (s : String)
  | optionalText (s : Option String)
  | flag (b : Bool)
  | word (n : Nat)
  | record (fields : List Datum)
  deriving Repr

/-- A field of a record: its name, how its value is read, and the value it has when a map leaves it
out, if it may be left out. -/
structure Field where
  name : String
  read : Reader Datum
  missing : Option Datum

namespace Field

def text (name : String) : Field := ⟨name, .text <$> Reader.text, none⟩

def optionalText (name : String) : Field :=
  ⟨name, .optionalText <$> Reader.optionalText, some (.optionalText none)⟩

def flag (name : String) : Field := ⟨name, .flag <$> Reader.flag, none⟩

def word (name : String) : Field := ⟨name, .word <$> Reader.word, none⟩

end Field

abbrev Slots := List (Option Datum)

/-- Reads one pair of a map. A field that is there already is refused before its value is read. -/
def readPair (fields : List Field) (slots : Slots) : Reader Slots := do
  match ← Key.read (fields.map (·.name)) with
  | .unknown =>
    Reader.skip Reader.nestingLimit
    return slots
  | .known index =>
    match fields[index]?, slots[index]? with
    | some field, some none =>
      let value ← field.read
      return slots.set index (some value)
    | _, _ => Reader.invalid

def readPairs (fields : List Field) : Nat → Slots → Reader Slots
  | 0, slots => pure slots
  | n + 1, slots => do readPairs fields n (← readPair fields slots)

/-- The fields of a complete map, where those that may be left out take their missing value. -/
def complete? : List Field → Slots → Option (List Datum)
  | [], _ => some []
  | field :: fields, slots => do
    let value ← (slots.head?.join).or field.missing
    let values ← complete? fields slots.tail
    return value :: values

def readMap (fields : List Field) (count : Nat) : Reader (List Datum) := do
  let slots ← readPairs fields count (fields.map fun _ => none)
  match complete? fields slots with
  | some values => return values
  | none => Reader.invalid

/-- Reads fields by position, as many as the array declares, and only then compares its length. -/
def readArray : List Field → Nat → Reader (List Datum)
  | [], 0 => pure []
  | [], _ + 1 => Reader.invalid
  | _ :: _, 0 => Reader.invalid
  | field :: fields, count + 1 => do
    let value ← field.read
    let values ← readArray fields count
    return value :: values

def readRecord (fields : List Field) : Reader (List Datum) := do
  match ← Reader.marker with
  | .map length => do readMap fields (← Reader.length length)
  | .array length => do readArray fields (← Reader.length length)
  | _ => Reader.invalid

namespace Field

def record (name : String) (fields : List Field) : Field :=
  ⟨name, .record <$> readRecord fields, none⟩

end Field

end ModalHost.MessagePack
