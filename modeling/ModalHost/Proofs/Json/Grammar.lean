import ModalHost.Json.Number

/-! JSON values, and their texts by the grammar of RFC 8259, said without a reader. -/

namespace ModalHost.Json

/-- A value. A number is kept as its digits, and an object with its members in the order of the text,
whether their keys differ or not. -/
inductive Value
  | null
  | bool (b : Bool)
  | number (isNegative : Bool) (n : Numeral)
  | text (s : List Char)
  | array (items : List Value)
  | object (members : List (List Char × Value))

/-- What may stand between two tokens. -/
def IsGap (s : List Char) : Prop := ∀ c ∈ s, c = ' ' ∨ c = '\t' ∨ c = '\n' ∨ c = '\r'

/-! ### Strings -/

def IsHexDigit (n : Nat) (c : Char) : Prop :=
  "0123456789abcdef".toList[n]? = some c ∨ "0123456789ABCDEF".toList[n]? = some c

inductive UnitEscape : Nat → List Char → Prop
  | digits {x y z w : Nat} {a b c d : Char} (first : IsHexDigit x a) (second : IsHexDigit y b)
      (third : IsHexDigit z c) (fourth : IsHexDigit w d) :
      UnitEscape (x * 0x1000 + y * 0x100 + z * 0x10 + w) ['\\', 'u', a, b, c, d]

def shortEscapes : List (Char × Char) :=
  [('"', '"'), ('\\', '\\'), ('/', '/'), ('b', '\x08'), ('f', '\x0c'), ('n', '\n'), ('r', '\r'),
    ('t', '\t')]

/-- The ways to write a character in a string. One above the first 65536 is escaped as its two
surrogates. -/
inductive CharText (c : Char) : List Char → Prop
  | plain (unquoted : c ≠ '"') (unescaped : c ≠ '\\') (printed : 0x20 ≤ c.toNat) : CharText c [c]
  | short {e : Char} (escape : (e, c) ∈ shortEscapes) : CharText c ['\\', e]
  | unit {t : List Char} (escape : UnitEscape c.toNat t) : CharText c t
  | pair {t u : List Char} (beyond : 0x10000 ≤ c.toNat)
      (high : UnitEscape (0xD800 + (c.toNat - 0x10000) / 0x400) t)
      (low : UnitEscape (0xDC00 + (c.toNat - 0x10000) % 0x400) u) : CharText c (t ++ u)

inductive CharsText : List Char → List Char → Prop
  | nil : CharsText [] []
  | cons {c : Char} {s t u : List Char} (first : CharText c t) (later : CharsText s u) :
      CharsText (c :: s) (t ++ u)

inductive StringText : List Char → List Char → Prop
  | quoted {s t : List Char} (chars : CharsText s t) : StringText s ('"' :: t ++ ['"'])

/-! ### Numbers -/

def digitsText (ds : List Nat) : List Char := ds.map Nat.digitChar

structure IsDigits (ds : List Nat) : Prop where
  nonempty : ds ≠ []
  decimal : ∀ d ∈ ds, d < 10

structure IsWhole (ds : List Nat) : Prop extends IsDigits ds where
  leading : ds.head? = some 0 → ds = [0]

inductive FractionText : List Nat → List Char → Prop
  | absent : FractionText [] []
  | present {ds : List Nat} (digits : IsDigits ds) : FractionText ds ('.' :: digitsText ds)

inductive ExponentText : Bool → List Nat → List Char → Prop
  | absent : ExponentText false [] []
  | bare {ds : List Nat} {e : Char} (mark : e = 'e' ∨ e = 'E') (digits : IsDigits ds) :
      ExponentText false ds (e :: digitsText ds)
  | plus {ds : List Nat} {e : Char} (mark : e = 'e' ∨ e = 'E') (digits : IsDigits ds) :
      ExponentText false ds (e :: '+' :: digitsText ds)
  | minus {ds : List Nat} {e : Char} (mark : e = 'e' ∨ e = 'E') (digits : IsDigits ds) :
      ExponentText true ds (e :: '-' :: digitsText ds)

def signText (isNegative : Bool) : List Char := if isNegative then ['-'] else []

inductive NumberText (isNegative : Bool) (n : Numeral) : List Char → Prop
  | parts {fraction exponent : List Char} (whole : IsWhole n.whole)
      (places : FractionText n.fraction fraction)
      (power : ExponentText n.negativeExponent n.exponent exponent) :
      NumberText isNegative n
        (signText isNegative ++ (digitsText n.whole ++ (fraction ++ exponent)))

/-! ### Values -/

mutual

inductive ValueText : Value → List Char → Prop
  | null : ValueText .null "null".toList
  | bool (b : Bool) : ValueText (.bool b) (if b then "true".toList else "false".toList)
  | number {isNegative : Bool} {n : Numeral} {t : List Char} (text : NumberText isNegative n t) :
      ValueText (.number isNegative n) t
  | text {s t : List Char} (text : StringText s t) : ValueText (.text s) t
  | emptyArray {gap : List Char} (space : IsGap gap) : ValueText (.array []) ('[' :: gap ++ [']'])
  | array {items : List Value} {t : List Char} (text : ItemsText items t) :
      ValueText (.array items) ('[' :: t ++ [']'])
  | emptyObject {gap : List Char} (space : IsGap gap) :
      ValueText (.object []) ('{' :: gap ++ ['}'])
  | object {members : List (List Char × Value)} {t : List Char} (text : MembersText members t) :
      ValueText (.object members) ('{' :: t ++ ['}'])

inductive ElementText : Value → List Char → Prop
  | spaced {v : Value} {before t after : List Char} (front : IsGap before) (text : ValueText v t)
      (back : IsGap after) : ElementText v (before ++ (t ++ after))

inductive ItemsText : List Value → List Char → Prop
  | last {v : Value} {t : List Char} (text : ElementText v t) : ItemsText [v] t
  | more {v : Value} {items : List Value} {t u : List Char} (text : ElementText v t)
      (later : ItemsText items u) : ItemsText (v :: items) (t ++ ',' :: u)

inductive MemberText : List Char × Value → List Char → Prop
  | pair {key : List Char} {v : Value} {before k after t : List Char} (front : IsGap before)
      (named : StringText key k) (back : IsGap after) (text : ElementText v t) :
      MemberText (key, v) (before ++ (k ++ (after ++ ':' :: t)))

inductive MembersText : List (List Char × Value) → List Char → Prop
  | last {m : List Char × Value} {t : List Char} (text : MemberText m t) : MembersText [m] t
  | more {m : List Char × Value} {members : List (List Char × Value)} {t u : List Char}
      (text : MemberText m t) (later : MembersText members u) :
      MembersText (m :: members) (t ++ ',' :: u)

end

/-- The containers of a value stand at most so deep inside each other, and its numbers are within a
range. -/
inductive Value.Fits (within : Numeral → Prop) : Nat → Value → Prop
  | null {depth : Nat} : Fits within depth .null
  | bool {depth : Nat} (b : Bool) : Fits within depth (.bool b)
  | number {depth : Nat} {isNegative : Bool} {n : Numeral} (inside : within n) :
      Fits within depth (.number isNegative n)
  | text {depth : Nat} (s : List Char) : Fits within depth (.text s)
  | array {depth : Nat} {items : List Value} (fit : ∀ v ∈ items, Fits within depth v) :
      Fits within (depth + 1) (.array items)
  | object {depth : Nat} {members : List (List Char × Value)}
      (fit : ∀ m ∈ members, Fits within depth m.2) : Fits within (depth + 1) (.object members)

end ModalHost.Json
