import ModalHost.Host.Scope
import ModalHost.Host.Loading
import ModalHost.Host.Task
/-!
A host: its scopes, dialogs and tasks, the names they go by, and the history of what happened.
-/
namespace ModalHost

/-- An observer of a dialog's visibility or of a prompt's visuals, and the write it has seen. -/
inductive Receiver
  | shown (source : DialogRef) (seen : Nat)
  | visuals (prompt : Nat) (seen : Nat)
  deriving DecidableEq, Repr

abbrev Names (α : Type) := List (String × α)

namespace Names

variable {α : Type}

def find? (names : Names α) (name : String) : Option α := names.lookup name

def unbind (names : Names α) (name : String) : Names α :=
  names.filter fun entry => entry.1 != name

def bind (names : Names α) (name : String) (value : α) : Names α :=
  (name, value) :: unbind names name

end Names

structure Directory where
  scopes : Names Nat
  dialogs : Names DialogRef
  tasks : Names TaskRef
  responders : Names Responder
  dismissers : Names Nat
  receivers : Names Receiver
  deriving Repr

inductive Event
  /-- A request was handed out. What a dialog is opened with counts as its request 0. -/
  | issued (prompt : Nat) (request : Nat) (visuals : Visuals)
  /-- An answer was accepted, and `resumed` is the caller that was parked for it. -/
  | accepted (prompt : Nat) (answer : Answer) (resumed : Option Nat)
  | hookRan (prompt : Nat) (tag : String) (decision : Decision)
  | cancelled (scope : Nat)
  | entered (work : Nat) (level : Nat)
  | left (work : Nat) (level : Nat)
  | started (work : Nat) (name : String) (shown : Bool)
  | marked (label : String)
  | received (outcome : Outcome)
  | drew (follower : Nat) (name : String) (frame : Frame)
  | ended (task : TaskRef) (name : String) (ending : Ending)
  deriving DecidableEq, Repr

structure Host where
  scopes : List Scope
  prompts : List Prompt
  loadings : List Loading
  panels : List Panel
  callers : List Caller
  works : List Work
  waits : List Wait
  followers : List Follower
  names : Directory
  /-- What happened, the latest event first. -/
  history : List Event
  deriving Repr

namespace Host

def initial : Host where
  scopes := [⟨[0], false, []⟩]
  prompts := []
  loadings := []
  panels := []
  callers := []
  works := []
  waits := []
  followers := []
  names := ⟨[("main", 0)], [], [], [], [], []⟩
  history := []

def record (h : Host) (event : Event) : Host := { h with history := event :: h.history }

def updatePrompt (h : Host) (i : Nat) (f : Prompt → Prompt) : Host :=
  { h with prompts := h.prompts.modify i f }

def updateLoading (h : Host) (i : Nat) (f : Loading → Loading) : Host :=
  { h with loadings := h.loadings.modify i f }

def updatePanel (h : Host) (i : Nat) (f : Panel → Panel) : Host :=
  { h with panels := h.panels.modify i f }

def updateCaller (h : Host) (i : Nat) (f : Caller → Caller) : Host :=
  { h with callers := h.callers.modify i f }

def updateWork (h : Host) (i : Nat) (f : Work → Work) : Host :=
  { h with works := h.works.modify i f }

def updateWait (h : Host) (i : Nat) (f : Wait → Wait) : Host :=
  { h with waits := h.waits.modify i f }

def updateFollower (h : Host) (i : Nat) (f : Follower → Follower) : Host :=
  { h with followers := h.followers.modify i f }

def isCancelled (h : Host) (scope : Nat) : Bool := h.scopes[scope]?.any (·.cancelled)

def launch (h : Host) (scope : Nat) (job : Job) : Host :=
  { h with scopes := h.scopes.modify scope (·.push job) }

def queued (h : Host) (scope : Nat) : List Job := (h.scopes[scope]?.map (·.queue)).getD []

/-- A prompt lives while its handle is there or a caller waits on it, and its consumer with it. -/
def ownsPrompt (h : Host) (i : Nat) : Bool :=
  h.prompts[i]?.any (·.handle) || h.callers.any fun c => c.prompt == i && !c.ended

def ownsLoading (h : Host) (i : Nat) : Bool :=
  h.loadings[i]?.any (·.handle) || h.works.any fun w => w.loading == i && !w.hasEnded

def ownsPanel (h : Host) (i : Nat) : Bool := h.panels[i]?.any (·.handle)

/-- Whether nothing is left that could write to a prompt's cells. -/
def promptGone (h : Host) (i : Nat) : Bool :=
  !h.ownsPrompt i && !(h.prompts[i]?.any fun p => (h.queued p.scope).any fun
    | .publish j _ _ | .setPrompt j _ | .settle j _ => j == i
    | _ => false)

def loadingGone (h : Host) (i : Nat) : Bool :=
  !h.ownsLoading i && !(h.loadings[i]?.any fun l => (h.queued l.scope).any fun
    | .setLoading j _ | .enter j _ _ | .leave j _ _ _ => j == i
    | _ => false)

def panelGone (h : Host) (i : Nat) : Bool :=
  !h.ownsPanel i && !(h.names.dismissers.any fun entry => entry.2 == i) &&
    !(h.panels[i]?.any fun p => (h.queued p.scope).any fun
      | .setPanel j _ => j == i
      | _ => false)

def shown? (h : Host) : DialogRef → Option (Cell Bool)
  | .prompt i => h.prompts[i]?.map (·.shown)
  | .loading i => h.loadings[i]?.map (·.shown)
  | .panel i => h.panels[i]?.map (·.shown)

def storeGone (h : Host) : DialogRef → Bool
  | .prompt i => h.promptGone i
  | .loading i => h.loadingGone i
  | .panel i => h.panelGone i

def overlay (h : Host) : DialogRef → Frame
  | .prompt i =>
    match h.ownsPrompt i, h.prompts[i]?.bind (·.overlay) with
    | true, some picture => .prompt picture
    | _, _ => .clear
  | .loading i =>
    if h.ownsLoading i && h.loadings[i]?.any (·.shown.value) then .loading else .clear
  | .panel _ => .clear

end Host

end ModalHost
