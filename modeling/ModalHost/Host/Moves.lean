import ModalHost.Host.Dispatch
import ModalHost.Host.Advance
import ModalHost.Host.Follow
/-!
The moves of a host: what dispatchers, consumers, tasks and renderers do by themselves. Each is one
atomic step, and `move?` is none where the step cannot be taken now.
-/
namespace ModalHost

inductive Move
  | dispatch (scope : Nat)
  | deliver (prompt : Nat)
  | retire (prompt : Nat)
  | resumeCaller (caller : Nat)
  | advanceWork (work : Nat)
  | advanceWait (wait : Nat)
  /-- A follower wakes for a change of visibility. -/
  | followShown (follower : Nat)
  /-- A follower wakes for new visuals. -/
  | followVisuals (follower : Nat)
  deriving DecidableEq, Repr

namespace Host

def move? (h : Host) : Move → Option Host
  | .dispatch scope => h.dispatch? scope
  | .deliver i => h.deliver? i
  | .retire i => h.retire? i
  | .resumeCaller c => h.resumeCaller? c
  | .advanceWork w => h.advanceWork? w
  | .advanceWait w => h.advanceWait? w
  | .followShown f => h.followShown? f
  | .followVisuals f => h.followVisuals? f

/-- All moves that a host may be able to take, in the order in which `settle` tries them. -/
def moves (h : Host) : List Move :=
  (List.range h.scopes.length).map .dispatch ++
    (List.range h.followers.length).flatMap (fun f => [.followShown f, .followVisuals f]) ++
    (List.range h.prompts.length).map .deliver ++
    (List.range h.prompts.length).map .retire ++
    (List.range h.callers.length).map .resumeCaller ++
    (List.range h.works.length).map .advanceWork ++
    (List.range h.waits.length).map .advanceWait

def next? (h : Host) : Option Host := h.moves.findSome? h.move?

/-- Takes moves until none can be taken, at most `limit` of them. -/
def settle (h : Host) : Nat → Host
  | 0 => h
  | limit + 1 =>
    match h.next? with
    | none => h
    | some next => next.settle limit

end Host

end ModalHost
