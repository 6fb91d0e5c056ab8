import ModalHost.Cell
import ModalHost.Host.Call
/-!
A confirm dialog. Requests are numbered as they are handed out; each is published later by its
scope's dispatcher, and an answer counts only for the newest request, and only while the dialog
awaits input.
-/
namespace ModalHost

inductive Phase
  | idle
  | awaitingInput
  | resolving
  deriving DecidableEq, Repr

namespace Phase

def name : Phase → String
  | idle => "Idle"
  | awaitingInput => "AwaitingInput"
  | resolving => "Resolving"

end Phase

/-- A decision as it was given: the picture of the responder it came through, and the newest
request handed out by then. -/
structure Tap where
  decision : Decision
  picture : Option Picture
  newest : Nat
  deriving DecidableEq, Repr

/-- A tap with the request it answers. -/
structure Answer where
  request : Nat
  tap : Tap
  deriving DecidableEq, Repr

structure Parked where
  request : Nat
  caller : Nat
  deriving DecidableEq, Repr

structure Prompt where
  scope : Nat
  /-- Whether the handle that was given out is still there. -/
  handle : Bool
  shown : Cell Bool
  visuals : Cell Visuals
  phase : Phase
  /-- The newest request handed out. -/
  issued : Nat
  /-- The request whose visuals were published last. -/
  published : Nat
  parked : Option Parked
  hooks : Hooks Call
  /-- The one answer that may lie between the dispatcher and the consumer. -/
  mailbox : Option Answer
  deriving Repr

namespace Prompt

def restore (scope : Nat) (snapshot : Snapshot) (hooks : Hooks Call) : Prompt where
  scope
  handle := true
  shown := .new snapshot.onScreen
  visuals := .new snapshot.visuals
  phase := if snapshot.onScreen then .awaitingInput else .idle
  issued := 0
  published := 0
  parked := none
  hooks
  mailbox := none

def save (p : Prompt) : Snapshot := ⟨p.shown.value, p.visuals.value⟩

def vanish (p : Prompt) : Prompt := { p with shown := p.shown.set false, phase := .idle }

/-- Shows the dialog unless its visuals are the sentinel. -/
def appear (p : Prompt) : Prompt :=
  if p.visuals.value.isEmpty then p
  else { p with shown := p.shown.set true, phase := .awaitingInput }

/-- Replaces the visuals and shows them; the sentinel withdraws whatever is on screen. -/
def publish (p : Prompt) (request : Nat) (visuals : Visuals) : Prompt :=
  let p := { p with published := request, visuals := p.visuals.publish visuals }
  if visuals.isEmpty then p.vanish else p.appear

/-- Hides the dialog after a request was resolved, unless a newer one has been handed out. -/
def settle (p : Prompt) (request : Nat) : Prompt :=
  if p.issued = request then p.vanish else p

/-- The request a tap answers if it is dispatched now. -/
def answer (p : Prompt) (tap : Tap) : Answer where
  request := match tap.picture with
    | some picture => picture.request
    | none => p.published
  tap

def accepts (p : Prompt) (a : Answer) : Bool :=
  a.request == p.issued && p.phase == .awaitingInput

def overlay (p : Prompt) : Option Picture :=
  if p.shown.value then some ⟨p.published, p.visuals.value, p.issued⟩ else none

def isAwaiting (p : Prompt) : Bool := p.parked.isSome

def callerOf (p : Prompt) (request : Nat) : Option Nat :=
  (p.parked.filter (·.request == request)).map (·.caller)

end Prompt

end ModalHost
