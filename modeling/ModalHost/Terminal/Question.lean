import ModalHost.Visuals
import ModalHost.Text.Utf8
import ModalHost.Text.WhiteSpace
/-!
A question on a terminal: the text of its prompt, and the decision that a line of input gives.
-/
namespace ModalHost.Terminal

def promptText (v : Visuals) : String :=
  "\n" ++ v.title ++ "\n" ++ (v.content.elim "" (· ++ "\n")) ++
    "[y] " ++ v.confirmText ++ " / [n] " ++ v.dismissText ++ ": "

def lowerAscii (c : Char) : Char :=
  if 'A' ≤ c ∧ c ≤ 'Z' then Char.ofNat (c.toNat + 0x20) else c

def isYes (line : List Char) : Bool :=
  let word := (Text.trim line).map lowerAscii
  word == "y".toList || word == "yes".toList

def lineFeed : UInt8 := 0x0A

/-- The line at the front of the input, if there is one and it is UTF-8. -/
def firstLine? (input : Bytes) : Option (List Char) :=
  if input.isEmpty then none else Utf8.decode (input.takeWhile (· != lineFeed))

def afterLine (input : Bytes) : Bytes := (input.dropWhile (· != lineFeed)).tail

/-- Anything but yes dismisses, and so does the end of the input or a line that is not UTF-8. -/
def decisionOf : Option (List Char) → Decision
  | some line => if isYes line then .confirmed else .canceled
  | none => .canceled

end ModalHost.Terminal
