import ModalHost.Host.Requests
/-!
Dispatchers and consumers: a dispatcher runs the jobs of its scope in order, and the consumer of a
prompt takes the answers that are offered to it.
-/
namespace ModalHost.Host

def acknowledgeEnter (h : Host) (w : Nat) (level : Nat) : Host :=
  h.updateWork w fun work =>
    if work.stage = .entering level false then { work with stage := .entering level true }
    else work

def acknowledgeLeave (h : Host) (w : Nat) (level : Nat) : Host :=
  h.updateWork w fun work =>
    if work.stage = .leaving level false then { work with stage := .leaving level true } else work

/-- Runs a job, unless it has to wait. An offer waits while the mailbox is full and is lost once no
consumer is left; while it waits nothing is published, so its request is fixed. -/
def runJob (h : Host) : Job → Option Host
  | .publish i request visuals => h.updatePrompt i (·.publish request visuals)
  | .setPrompt i true => h.updatePrompt i (·.appear)
  | .setPrompt i false => h.updatePrompt i (·.vanish)
  | .settle i request => h.updatePrompt i (·.settle request)
  | .offer i tap =>
    if !h.ownsPrompt i then some h
    else if h.prompts[i]?.any (·.mailbox.isSome) then none
    else h.updatePrompt i fun p => { p with mailbox := some (p.answer tap) }
  | .setLoading i shown => h.updateLoading i (·.setShown shown)
  | .enter i w level =>
    ((h.updateLoading i (·.enter)).record (.entered w level)).acknowledgeEnter w level
  | .leave i w level awaited =>
    let h := (h.updateLoading i (·.leave)).record (.left w level)
    if awaited then h.acknowledgeLeave w level else h
  | .setPanel i shown => h.updatePanel i (·.setShown shown)
  | .hold opened => if opened then some h else none
  | .mark label => h.record (.marked label)
  | .flushed w => h.updateWait w fun wait => { wait with kind := .flush true }

def setQueue (h : Host) (scope : Nat) (queue : List Job) : Host :=
  { h with scopes := h.scopes.modify scope fun s => { s with queue } }

/-- The dispatcher of a scope runs the job at the front of its queue. -/
def dispatch? (h : Host) (scope : Nat) : Option Host :=
  match h.scopes[scope]? with
  | some ⟨_, false, job :: jobs⟩ => (h.setQueue scope jobs).runJob job
  | _ => none

/-- Resumes the caller that is parked for `request`. -/
def resolve (h : Host) (i : Nat) (request : Nat) (decision : Decision) : Host :=
  match h.prompts[i]?.bind (·.callerOf request) with
  | none => h
  | some c =>
    (h.updateCaller c fun caller => { caller with reply := some (.decided decision) }).updatePrompt
      i fun p => { p with parked := none }

/-- Runs the hook that is registered for the decision, to its end. -/
def fire (h : Host) (i : Nat) (decision : Decision) : Host :=
  match h.prompts[i]? with
  | none => h
  | some p =>
    match p.hooks.on decision with
    | none => h
    | some calls => calls.foldl call (h.record (.hookRan i p.hooks.tag decision))

/-- Accepts an answer: resumes the caller, runs the hook, and queues the hiding of the prompt. -/
def accept (h : Host) (i : Nat) (p : Prompt) (a : Answer) : Host :=
  let h := (h.updatePrompt i fun p => { p with phase := .resolving }).record
    (.accepted i a (p.callerOf a.request))
  let h := (h.resolve i a.request a.tap.decision).fire i a.tap.decision
  h.launch p.scope (.settle i a.request)

/-- The consumer of a prompt takes the answer in the mailbox, and accepts or drops it. -/
def deliver? (h : Host) (i : Nat) : Option Host :=
  match h.prompts[i]? with
  | none => none
  | some p =>
    match p.mailbox with
    | none => none
    | some a =>
      if h.ownsPrompt i then
        let h := h.updatePrompt i fun p => { p with mailbox := none }
        some (if p.accepts a then h.accept i p a else h)
      else none

/-- The consumer of a prompt stops with its scope, and an answer that it has not taken is lost. What it
hears of first is not set, a cancellation or an answer, so `deliver?` may come before. -/
def retire? (h : Host) (i : Nat) : Option Host :=
  match h.prompts[i]? with
  | none => none
  | some p =>
    if p.mailbox.isSome && h.ownsPrompt i && h.isCancelled p.scope then
      some (h.updatePrompt i fun p => { p with mailbox := none })
    else none

end ModalHost.Host
