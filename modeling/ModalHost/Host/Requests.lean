import ModalHost.Host.State
/-!
The operations of dialogs, scopes and tasks. Each takes effect at once as far as its caller is
concerned; what it asks of a dispatcher is queued on the scope.
-/
namespace ModalHost.Host

def evict (h : Host) (i : Nat) : Host :=
  match h.prompts[i]?.bind (·.parked) with
  | none => h
  | some parked =>
    (h.updateCaller parked.caller fun c => { c with reply := some .superseded }).updatePrompt i
      fun p => { p with parked := none }

/-- Hands out the next request of a prompt and queues its visuals. -/
def issue (h : Host) (i : Nat) (parked : Option Parked) (visuals : Visuals) : Host :=
  match h.prompts[i]? with
  | none => h
  | some p =>
    let request := p.issued + 1
    let h := (h.evict i).updatePrompt i fun p => { p with issued := request, parked }
    (h.record (.issued i request visuals)).launch p.scope (.publish i request visuals)

def showConfirm (h : Host) (i : Nat) (visuals : Visuals) : Host := h.issue i none visuals

/-- Clears the slot of a prompt if it still belongs to `request`. The dialog is then hidden, unless
hooks are registered that it is left to; a dispatcher that has stopped is not waited for. -/
def withdraw (h : Host) (i : Nat) (request : Nat) : Host :=
  match h.prompts[i]? with
  | none => h
  | some p =>
    if p.parked.any (·.request == request) then
      let h := h.updatePrompt i fun p => { p with parked := none }
      if !p.hooks.isEmpty then h
      else if h.isCancelled p.scope then h.updatePrompt i (·.vanish)
      else h.launch p.scope (.setPrompt i false)
    else h

def endCaller (h : Host) (c : Nat) (ending : Ending) : Host :=
  match h.callers[c]? with
  | none => h
  | some caller =>
    (h.updateCaller c fun caller => { caller with ended := true }).record
      (.ended (.caller c) caller.name ending)

/-- A caller whose scope is cancelled ends with that, whatever it has been told. -/
def endCancelled (h : Host) (c : Nat) : Host :=
  match h.callers[c]? with
  | none => h
  | some caller => (h.withdraw caller.prompt caller.request).endCaller c .cancelled

/-- Asks and parks a new caller. On a cancelled scope it ends at once. -/
def await (h : Host) (i : Nat) (visuals : Visuals) (name : String) : Host :=
  match h.prompts[i]? with
  | none => h
  | some p =>
    let c := h.callers.length
    let request := p.issued + 1
    let h := { h with
      callers := h.callers ++ [Caller.new name i request]
      names := { h.names with tasks := h.names.tasks.bind name (.caller c) } }
    let h := h.issue i (some ⟨request, c⟩) visuals
    if h.isCancelled p.scope then h.endCancelled c else h

def setShown (h : Host) (dialog : DialogRef) (shown : Bool) : Host :=
  match dialog with
  | .prompt i => (h.prompts[i]?).elim h fun p => h.launch p.scope (.setPrompt i shown)
  | .loading i => (h.loadings[i]?).elim h fun l => h.launch l.scope (.setLoading i shown)
  | .panel i => (h.panels[i]?).elim h fun p => h.launch p.scope (.setPanel i shown)

/-- Replaces the hooks; the next answer that is accepted runs the new ones. -/
def setHooks (h : Host) (i : Nat) (hooks : Hooks Call) : Host :=
  h.updatePrompt i fun p => { p with hooks }

def press (h : Host) (r : Responder) (decision : Decision) : Host :=
  match h.prompts[r.prompt]? with
  | none => h
  | some p => h.launch p.scope (.offer r.prompt ⟨decision, r.picture, p.issued⟩)

/-- Cancels a scope and its descendants. What is queued on them is dropped. -/
def cancel (h : Host) (scope : Nat) : Host :=
  { h.record (.cancelled scope) with scopes := h.scopes.map (·.cancelBy scope) }

def launchLeaves (h : Host) (loading : Nat) (w : Nat) : Nat → Host
  | 0 => h
  | level + 1 =>
    match h.loadings[loading]? with
    | none => h
    | some l =>
      (h.launch l.scope (.leave loading w (level + 1) false)).launchLeaves loading w level

/-- Ends a work where it stands; each level it has entered, or was about to, leaves. -/
def dropWork (h : Host) (w : Nat) (ending : Ending) : Host :=
  match h.works[w]? with
  | none => h
  | some work =>
    ((h.launchLeaves work.loading w work.armed).updateWork w fun work =>
      { work with stage := .ended }).record (.ended (.work w) work.name ending)

/-- Drops a task where it stands, unless it has ended. -/
def abandon (h : Host) : TaskRef → Host
  | .caller c =>
    match h.callers[c]? with
    | none => h
    | some caller =>
      if caller.ended then h
      else (h.withdraw caller.prompt caller.request).endCaller c .abandoned
  | .work w => if h.works[w]?.all (·.hasEnded) then h else h.dropWork w .abandoned
  | .wait w =>
    match h.waits[w]? with
    | none => h
    | some wait =>
      if wait.ended then h
      else (h.updateWait w fun wait => { wait with ended := true }).record
        (.ended (.wait w) wait.name .abandoned)
  | .follower f =>
    match h.followers[f]? with
    | none => h
    | some follower =>
      if follower.ended then h
      else (h.updateFollower f fun follower => { follower with ended := true }).record
        (.ended (.follower f) follower.name .abandoned)

def prompt? (h : Host) (name : String) : Option Nat :=
  match h.names.dialogs.find? name with
  | some (.prompt i) => some i
  | _ => none

def follower? (h : Host) (name : String) : Option Follower :=
  match h.names.tasks.find? name with
  | some (.follower f) => h.followers[f]?
  | _ => none

def responder? (h : Host) : ResponderName → Option Responder
  | .kept name => h.names.responders.find? name
  | .fresh dialog => (h.prompt? dialog).map fun i => ⟨i, none⟩
  | .drawn name =>
    match h.follower? name with
    | some ⟨_, .prompt i, _, _, _, _, .prompt picture, _⟩ => some ⟨i, some picture⟩
    | _ => none

/-- Makes a call. A name that nothing bears makes it do nothing. -/
def call (h : Host) : Call → Host
  | .showConfirm dialog visuals => (h.prompt? dialog).elim h (h.showConfirm · visuals)
  | .await dialog visuals task => (h.prompt? dialog).elim h (h.await · visuals task)
  | .abandon task => (h.names.tasks.find? task).elim h h.abandon
  | .setShown dialog shown => (h.names.dialogs.find? dialog).elim h (h.setShown · shown)
  | .setHooks dialog hooks => (h.prompt? dialog).elim h (h.setHooks · hooks)
  | .press responder decision => (h.responder? responder).elim h (h.press · decision)
  | .cancel scope => (h.names.scopes.find? scope).elim h h.cancel

end ModalHost.Host
