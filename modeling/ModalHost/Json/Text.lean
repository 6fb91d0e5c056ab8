import ModalHost.Json.Number
/-!
Reading JSON text by the grammar of RFC 8259. Each reader takes what it reads from the front of
the text and gives the rest; `objectKeys?` reads a whole text that is one object.
-/
namespace ModalHost.Json

def isBlank (c : Char) : Bool := c == ' ' || c == '\t' || c == '\n' || c == '\r'

def skipBlank (s : List Char) : List Char := s.dropWhile isBlank

def hexValue? (c : Char) : Option Nat :=
  let n := c.toNat
  if 0x30 ≤ n ∧ n ≤ 0x39 then some (n - 0x30)
  else if 0x41 ≤ n ∧ n ≤ 0x46 then some (n - 0x37)
  else if 0x61 ≤ n ∧ n ≤ 0x66 then some (n - 0x57)
  else none

def unit? (a b c d : Char) : Option Nat := do
  return (← hexValue? a) * 0x1000 + (← hexValue? b) * 0x100 + (← hexValue? c) * 0x10 +
    (← hexValue? d)

def isHighSurrogate (n : Nat) : Bool := 0xD800 ≤ n && n < 0xDC00

def isLowSurrogate (n : Nat) : Bool := 0xDC00 ≤ n && n < 0xE000

def simpleEscape? : Char → Option Char
  | '"' => some '"'
  | '\\' => some '\\'
  | '/' => some '/'
  | 'b' => some '\x08'
  | 'f' => some '\x0c'
  | 'n' => some '\n'
  | 'r' => some '\r'
  | 't' => some '\t'
  | _ => none

/-- The rest of a string after its opening quote: its characters, and what follows it. A surrogate
is written only as the half of a pair. -/
def stringRest : List Char → Option (List Char × List Char)
  | [] => none
  | '"' :: rest => some ([], rest)
  | '\\' :: 'u' :: a :: b :: c :: d :: rest => do
    let n ← unit? a b c d
    if isLowSurrogate n then none
    else if isHighSurrogate n then
      match rest with
      | '\\' :: 'u' :: a :: b :: c :: d :: rest => do
        let m ← unit? a b c d
        if isLowSurrogate m then
          let (s, rest) ← stringRest rest
          return (Char.ofNat (0x10000 + (n - 0xD800) * 0x400 + (m - 0xDC00)) :: s, rest)
        else none
      | _ => none
    else
      let (s, rest) ← stringRest rest
      return (Char.ofNat n :: s, rest)
  | '\\' :: e :: rest => do
    let c ← simpleEscape? e
    let (s, rest) ← stringRest rest
    return (c :: s, rest)
  | c :: rest =>
    if c = '\\' ∨ c.toNat < 0x20 then none
    else do
      let (s, rest) ← stringRest rest
      return (c :: s, rest)

def digits : List Char → List Nat × List Char
  | [] => ([], [])
  | c :: rest =>
    if c.isDigit then
      let (ds, rest) := digits rest
      ((c.toNat - 0x30) :: ds, rest)
    else ([], c :: rest)

def digits? (s : List Char) : Option (List Nat × List Char) :=
  match digits s with
  | ([], _) => none
  | result => some result

/-- The digits before the point: a zero starts no longer number. -/
def whole? (s : List Char) : Option (List Nat × List Char) := do
  let (ds, rest) ← digits? s
  if ds.head? = some 0 ∧ ds.length ≠ 1 then none else return (ds, rest)

def fraction? : List Char → Option (List Nat × List Char)
  | '.' :: rest => digits? rest
  | s => some ([], s)

def exponent? : List Char → Option (Bool × List Nat × List Char)
  | [] => some (false, [], [])
  | c :: rest =>
    if c = 'e' ∨ c = 'E' then
      match rest with
      | '-' :: rest => do return (true, ← digits? rest)
      | '+' :: rest => do return (false, ← digits? rest)
      | _ => do return (false, ← digits? rest)
    else some (false, [], c :: rest)

def number? (s : List Char) : Option (List Char) := do
  let unsigned := match s with
    | '-' :: rest => rest
    | _ => s
  let (whole, rest) ← whole? unsigned
  let (fraction, rest) ← fraction? rest
  let (negativeExponent, exponent, rest) ← exponent? rest
  if Numeral.inRange { whole, fraction, negativeExponent, exponent } then return rest else none

def key? (s : List Char) : Option (List Char × List Char) :=
  match skipBlank s with
  | '"' :: rest => do
    let (key, rest) ← stringRest rest
    match skipBlank rest with
    | ':' :: rest => return (key, rest)
    | _ => none
  | _ => none

mutual

/-- Reads one value. `depth` is how many containers may stand inside each other in it. -/
def value? : Nat → Nat → List Char → Option (List Char)
  | 0, _, _ => none
  | fuel + 1, depth, s =>
    match skipBlank s with
    | 'n' :: 'u' :: 'l' :: 'l' :: rest => some rest
    | 't' :: 'r' :: 'u' :: 'e' :: rest => some rest
    | 'f' :: 'a' :: 'l' :: 's' :: 'e' :: rest => some rest
    | '"' :: rest => Prod.snd <$> stringRest rest
    | '[' :: rest =>
      match depth, skipBlank rest with
      | 0, _ => none
      | _ + 1, ']' :: rest => some rest
      | depth + 1, rest => items? fuel depth rest
    | '{' :: rest =>
      match depth with
      | 0 => none
      | depth + 1 => Prod.snd <$> object? fuel depth rest
    | s => number? s

def items? : Nat → Nat → List Char → Option (List Char)
  | 0, _, _ => none
  | fuel + 1, depth, s => do
    match skipBlank (← value? fuel depth s) with
    | ',' :: rest => items? fuel depth rest
    | ']' :: rest => return rest
    | _ => none

/-- An object after its opening brace: its keys in order, and what follows it. -/
def object? : Nat → Nat → List Char → Option (List (List Char) × List Char)
  | 0, _, _ => none
  | fuel + 1, depth, s =>
    match skipBlank s with
    | '}' :: rest => some ([], rest)
    | s => members? fuel depth s

def members? : Nat → Nat → List Char → Option (List (List Char) × List Char)
  | 0, _, _ => none
  | fuel + 1, depth, s => do
    let (key, rest) ← key? s
    match skipBlank (← value? fuel depth rest) with
    | ',' :: rest => do
      let (keys, rest) ← members? fuel depth rest
      return (key :: keys, rest)
    | '}' :: rest => return ([key], rest)
    | _ => none

end

/-- How many containers may stand inside each other, the outermost one included. -/
def nestingLimit : Nat := 127

/-- More steps than reading `s` can take: each character is the start of at most one value, and a
value starts at most two readers that take no character of their own. -/
def fuelFor (s : List Char) : Nat := 3 * s.length + 3

/-- The keys of a text that holds one object and nothing else, in order and with repetitions. -/
def objectKeys? (s : List Char) : Option (List (List Char)) :=
  match skipBlank s with
  | '{' :: rest =>
    match object? (fuelFor s) (nestingLimit - 1) rest with
    | some (keys, rest) => if (skipBlank rest).isEmpty then some keys else none
    | none => none
  | _ => none

end ModalHost.Json
