/-!
The range of numbers in JSON text. A number is kept as a double, so one that is too large for any
double is refused. The double is found from the leading digits that fit into 64 bits and a power
of ten, both rounded to 53 bits before they are multiplied.
-/
namespace ModalHost.Json

/-- `n` rounded to 53 significant bits, a half to the even neighbour. -/
def roundToDouble (n : Nat) : Nat :=
  let excess := n.log2 + 1 - 53
  let unit := Nat.pow 2 excess
  let quotient := n / unit
  let rest := n % unit
  if 2 * rest > unit ∨ (2 * rest = unit ∧ quotient % 2 = 1) then (quotient + 1) * unit
  else quotient * unit

/-- Appends digits to a number while it fits into 64 bits, and says how many were appended. -/
def absorb (n : Nat) : List Nat → Nat × Nat
  | [] => (n, 0)
  | d :: digits =>
    if 10 * n + d < 0x10000000000000000 then
      let (m, count) := absorb (10 * n + d) digits
      (m, count + 1)
    else (n, 0)

structure Numeral where
  whole : List Nat
  fraction : List Nat
  negativeExponent : Bool
  exponent : List Nat

namespace Numeral

/-- Whether `significand` times ten to the `power` is a double. -/
def isFinite (significand : Nat) (power : Int) : Bool :=
  if significand = 0 ∨ power < 0 then true
  else if 308 < power then false
  else
    let product := roundToDouble significand * roundToDouble (Nat.pow 10 power.toNat)
    roundToDouble product < Nat.pow 2 1024

def inRange (n : Numeral) : Bool :=
  let (leading, counted) := absorb 0 n.whole
  let (significand, places) := absorb leading n.fraction
  let exponent := n.exponent.foldl (fun (e d : Nat) => 10 * e + d) 0
  if 0x80000000 ≤ exponent then significand = 0 || n.negativeExponent
  else
    let shift : Int := if n.negativeExponent then -(exponent : Int) else exponent
    isFinite significand ((n.whole.length : Int) - (counted : Int) - (places : Int) + shift)

end Numeral

end ModalHost.Json
