import ModalHost.Visuals
/-!
What code may ask of a host at any time, also from inside a hook. Scopes, dialogs, tasks and
responders are meant by name, and a name means whatever bears it when the call is made.
-/
namespace ModalHost

/-- What an overlay of a prompt showed when it was taken: the published request with its visuals,
and the newest request handed out by then. -/
structure Picture where
  request : Nat
  visuals : Visuals
  newest : Nat
  deriving DecidableEq, Repr

/-- Gives decisions to a prompt: for the picture it was taken with, or for whatever request is on
screen when the decision is dispatched. -/
structure Responder where
  prompt : Nat
  picture : Option Picture
  deriving DecidableEq, Repr

/-- A responder that was kept, the one in the frame that a follower has drawn, or a fresh one. -/
inductive ResponderName
  | kept (name : String)
  | drawn (follower : String)
  | fresh (dialog : String)
  deriving DecidableEq, Repr

/-- What a confirm dialog runs when a decision is accepted; `α` is what a hook consists of. -/
structure Hooks (α : Type) where
  tag : String
  confirm : Option (List α)
  dismiss : Option (List α)
  deriving Repr

namespace Hooks

variable {α : Type}

def none : Hooks α := ⟨"", .none, .none⟩

instance : Inhabited (Hooks α) := ⟨none⟩

def isEmpty (h : Hooks α) : Bool := h.confirm.isNone && h.dismiss.isNone

def on (h : Hooks α) : Decision → Option (List α)
  | .confirmed => h.confirm
  | .canceled => h.dismiss

end Hooks

inductive Call
  /-- Asks without waiting; the outcome reaches the hooks only. -/
  | showConfirm (dialog : String) (visuals : Visuals)
  /-- Asks and waits for the decision in a task. -/
  | await (dialog : String) (visuals : Visuals) (task : String)
  /-- Drops a task where it stands. -/
  | abandon (task : String)
  | setShown (dialog : String) (shown : Bool)
  | setHooks (dialog : String) (hooks : Hooks Call)
  | press (responder : ResponderName) (decision : Decision)
  | cancel (scope : String)
  deriving Repr

end ModalHost
