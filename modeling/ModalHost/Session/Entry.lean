import ModalHost.Session.Step
/-!
The record of a session: after each step everything runs until nothing can move, and then an entry
is written.
-/
namespace ModalHost.Session

inductive DialogState
  | loading (shown : Bool) (inFlight : Nat)
  | confirm (shown : Bool) (phase : Phase) (awaiting : Bool) (visuals : Visuals)
  | panel (kind : PanelKind) (shown : Bool)
  deriving DecidableEq, Repr

inductive LogItem
  | hook (tag : String) (decision : Decision)
  | label (text : String)
  | outcome (outcome : Outcome)
  deriving DecidableEq, Repr

structure Entry where
  response : Response
  /-- The names of the cancelled scopes, sorted. -/
  cancelled : List String
  dialogs : List (String × DialogState)
  ended : List (String × Ending)
  started : List (String × Bool)
  log : List LogItem
  frames : List (String × List Frame)
  deriving Repr

def dialogState? (h : Host) : DialogRef → Option DialogState
  | .loading i => h.loadings[i]?.map fun l => .loading l.shown.value l.inFlight
  | .prompt i => h.prompts[i]?.map fun p =>
    .confirm p.shown.value p.phase p.isAwaiting p.visuals.value
  | .panel i => h.panels[i]?.map fun p => .panel p.kind p.shown.value

def cancelledNames (h : Host) : List String :=
  ((h.names.scopes.filter fun entry => h.isCancelled entry.2).map (·.1)).mergeSort

def LogItem.ofEvent? : Event → Option LogItem
  | .hookRan _ tag decision => some (.hook tag decision)
  | .marked text => some (.label text)
  | .received given => some (.outcome given)
  | _ => none

def endedIn? : Event → Option (String × Ending)
  | .ended _ name ending => some (name, ending)
  | _ => none

def startedIn? : Event → Option (String × Bool)
  | .started _ name shown => some (name, shown)
  | _ => none

def drewIn? (f : Nat) : Event → Option Frame
  | .drew g _ frame => if g = f then some frame else none
  | _ => none

def collapse : List Frame → List Frame
  | a :: b :: frames =>
    if a.looksLike b then collapse (b :: frames) else a :: collapse (b :: frames)
  | frames => frames

def framesIn (h : Host) (events : List Event) : List (String × List Frame) :=
  h.followers.zipIdx.filterMap fun (follower, f) =>
    let frames := collapse (events.filterMap (drewIn? f))
    if frames.isEmpty then none else some (follower.name, frames)

/-- What a host has recorded since its history was `length` long, the earliest event first. -/
def since (h : Host) (length : Nat) : List Event :=
  (h.history.take (h.history.length - length)).reverse

def entry (before after : Host) (response : Response) : Entry :=
  let events := since after before.history.length
  { response
    cancelled := cancelledNames after
    dialogs := after.names.dialogs.filterMap fun (name, dialog) =>
      (dialogState? after dialog).map (name, ·)
    ended := events.filterMap endedIn?
    started := events.filterMap startedIn?
    log := events.filterMap LogItem.ofEvent?
    frames := framesIn after events }

/-- More moves than a step of a session takes, unless its hooks answer each other without end. -/
def moveLimit : Nat := 100000

def step (h : Host) (s : Step) : Host × Entry :=
  let (acted, response) := act h s
  let settled := acted.settle moveLimit
  (settled, entry h settled response)

def runFrom : Host → List Step → List Entry
  | _, [] => []
  | h, s :: steps =>
    let (next, e) := step h s
    e :: runFrom next steps

def run (steps : List Step) : List Entry := runFrom .initial steps

end ModalHost.Session
