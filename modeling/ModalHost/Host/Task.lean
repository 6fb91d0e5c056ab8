import ModalHost.Host.Call
/-!
Tasks: callers that wait for a decision, work under a loading dialog, waits on a scope, and
followers that keep a renderer in step with a dialog.
-/
namespace ModalHost

inductive DialogRef
  | prompt (index : Nat)
  | loading (index : Nat)
  | panel (index : Nat)
  deriving DecidableEq, Repr

inductive TaskRef
  | caller (index : Nat)
  | work (index : Nat)
  | wait (index : Nat)
  | follower (index : Nat)
  deriving DecidableEq, Repr

/-- What a block of work ends with. A value is kept as it was written. -/
inductive Outcome
  | value (text : String)
  | panic
  deriving DecidableEq, Repr

inductive Ending
  | decided (decision : Decision)
  | cancelled
  | superseded
  | finished (text : String)
  | panicked
  | flushed
  | scopeCancelled
  | joined
  | storeGone
  | abandoned
  deriving DecidableEq, Repr

namespace Ending

def message : Ending → Option String
  | cancelled => some "dialog scope cancelled"
  | superseded => some "confirmation superseded by a newer request"
  | _ => none

end Ending

inductive Reply
  | decided (decision : Decision)
  | superseded
  deriving DecidableEq, Repr

structure Caller where
  name : String
  prompt : Nat
  request : Nat
  reply : Option Reply
  ended : Bool
  deriving DecidableEq, Repr

def Caller.new (name : String) (prompt : Nat) (request : Nat) : Caller :=
  ⟨name, prompt, request, none, false⟩

/-- Where a work is: waiting for the enter of a level, inside its block, waiting for the leave of a
level, or at its end. Levels are counted from the outermost one, which is 1. -/
inductive Stage
  | entering (level : Nat) (entered : Bool)
  | inside
  | leaving (level : Nat) (left : Bool)
  | ended
  deriving DecidableEq, Repr

structure Work where
  name : String
  loading : Nat
  /-- How many loading blocks are nested around the innermost one. -/
  depth : Nat
  stage : Stage
  outcome : Option Outcome
  deriving DecidableEq, Repr

namespace Work

def hasEnded (w : Work) : Bool := w.stage == .ended

/-- How many levels queue a leave of their own if the work is dropped now. -/
def armed (w : Work) : Nat :=
  match w.stage with
  | .entering level _ => level
  | .inside => w.depth
  | .leaving level _ => level - 1
  | .ended => 0

def canFinish (w : Work) : Bool :=
  w.outcome.isNone &&
    match w.stage with
    | .entering _ _ | .inside => true
    | .leaving _ _ | .ended => false

end Work

inductive WaitKind
  /-- Waits until the jobs queued before it have run. -/
  | flush (ran : Bool)
  /-- Waits until the scope is cancelled. -/
  | cancellation
  /-- Waits for a task of the scope, which itself waits for an outcome. -/
  | spawned (running : Bool) (outcome : Option Outcome)
  deriving DecidableEq, Repr

structure Wait where
  name : String
  scope : Nat
  kind : WaitKind
  ended : Bool
  deriving DecidableEq, Repr

inductive Frame
  | clear
  | loading
  | prompt (picture : Picture)
  deriving DecidableEq, Repr

namespace Frame

def looksLike : Frame → Frame → Bool
  | clear, clear => true
  | loading, loading => true
  | prompt a, prompt b => a.visuals == b.visuals
  | _, _ => false

end Frame

structure Follower where
  name : String
  source : DialogRef
  /-- The prompt whose visuals are followed. -/
  pictures : Option Nat
  /-- The visibility that was seen last. -/
  shown : Bool
  seenShown : Nat
  seenVisuals : Nat
  frame : Frame
  ended : Bool
  deriving DecidableEq, Repr

end ModalHost
