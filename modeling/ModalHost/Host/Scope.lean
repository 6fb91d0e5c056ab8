import ModalHost.Host.Prompt
/-!
A scope: the queue of jobs that its dispatcher runs in order, one at a time. Every change of a
dialog on screen is such a job.
-/
namespace ModalHost

inductive Job
  | publish (prompt : Nat) (request : Nat) (visuals : Visuals)
  | setPrompt (prompt : Nat) (shown : Bool)
  /-- Hides a prompt after `request` was resolved. -/
  | settle (prompt : Nat) (request : Nat)
  /-- Hands a tap to the consumer; it blocks while another answer lies in the mailbox. -/
  | offer (prompt : Nat) (tap : Tap)
  | setLoading (loading : Nat) (shown : Bool)
  /-- The entry of a work into one level of loading blocks. -/
  | enter (loading : Nat) (work : Nat) (level : Nat)
  /-- The exit of a work from a level; the work waits for it unless it was dropped. -/
  | leave (loading : Nat) (work : Nat) (level : Nat) (awaited : Bool)
  | setPanel (panel : Nat) (shown : Bool)
  /-- Blocks until it is opened. -/
  | hold (opened : Bool)
  | mark (label : String)
  /-- Reports to a task that every job queued before has run. -/
  | flushed (wait : Nat)
  deriving DecidableEq, Repr

structure Scope where
  /-- The scope itself and its ancestors. -/
  lineage : List Nat
  cancelled : Bool
  queue : List Job
  deriving DecidableEq, Repr

namespace Scope

/-- A cancelled scope drops what is queued on it. -/
def push (s : Scope) (job : Job) : Scope :=
  if s.cancelled then s else { s with queue := s.queue ++ [job] }

def cancelBy (root : Nat) (s : Scope) : Scope :=
  if s.lineage.contains root then { s with cancelled := true, queue := [] } else s

/-- Opens the oldest hold that is not open, if there is one. -/
def openHold : List Job → Option (List Job)
  | [] => none
  | .hold false :: jobs => some (.hold true :: jobs)
  | job :: jobs => (job :: ·) <$> openHold jobs

end Scope

end ModalHost
