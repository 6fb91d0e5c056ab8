import ModalHost.Host.Moves
/-!
Setting a host up and taking parts of it down: scopes, dialogs, tasks, observers and renderers, and
the operations on them that only the code that set them up can ask for.
-/
namespace ModalHost.Host

/-- Opens a scope; a child of a cancelled scope is cancelled. -/
def openScope (h : Host) (name : String) (parent : Option Nat) : Host :=
  let i := h.scopes.length
  let above := parent.bind (h.scopes[·]?)
  let lineage := (above.map (·.lineage)).getD []
  { h with
    scopes := h.scopes ++ [Scope.mk (i :: lineage) (above.any (·.cancelled)) []]
    names := { h.names with scopes := h.names.scopes.bind name i } }

def bindDialog (h : Host) (name : String) (dialog : DialogRef) : Host :=
  { h with names := { h.names with dialogs := h.names.dialogs.bind name dialog } }

def bindTask (h : Host) (name : String) (task : TaskRef) : Host :=
  { h with names := { h.names with tasks := h.names.tasks.bind name task } }

def dropHandle (h : Host) : DialogRef → Host
  | .prompt i => h.updatePrompt i fun p => { p with handle := false }
  | .loading i => h.updateLoading i fun l => { l with handle := false }
  | .panel i => h.updatePanel i fun p => { p with handle := false }

def dropDialog (h : Host) (name : String) : Host :=
  match h.names.dialogs.find? name with
  | none => h
  | some dialog =>
    let h := h.dropHandle dialog
    { h with names := { h.names with dialogs := h.names.dialogs.unbind name } }

def openPrompt (h : Host) (name : String) (scope : Nat) (s : Snapshot) (hooks : Hooks Call) :
    Host :=
  let h := h.dropDialog name
  let i := h.prompts.length
  ({ h with prompts := h.prompts ++ [Prompt.restore scope s hooks] }.bindDialog name
    (.prompt i)).record (.issued i 0 s.visuals)

def openLoading (h : Host) (name : String) (scope : Nat) : Host :=
  let h := h.dropDialog name
  { h with loadings := h.loadings ++ [Loading.new scope] }.bindDialog name
    (.loading h.loadings.length)

def openPanel (h : Host) (name : String) (kind : PanelKind) (scope : Nat) (visible : Bool) :
    Host :=
  let h := h.dropDialog name
  { h with panels := h.panels ++ [Panel.new kind scope visible] }.bindDialog name
    (.panel h.panels.length)

/-- Queues a job that blocks the dispatcher of a scope until it is released. -/
def hold (h : Host) (scope : Nat) : Host := h.launch scope (.hold false)

/-- Opens the oldest hold of a scope that is not open yet, and says whether there was one. -/
def release (h : Host) (scope : Nat) : Host × Bool :=
  match Scope.openHold (h.queued scope) with
  | none => (h, false)
  | some queue => (h.setQueue scope queue, true)

def startWait (h : Host) (name : String) (scope : Nat) (kind : WaitKind) : Host :=
  { h with waits := h.waits ++ [Wait.mk name scope kind false] }.bindTask name
    (.wait h.waits.length)

/-- Starts a task that waits until every job queued before has run. -/
def flush (h : Host) (name : String) (scope : Nat) : Host :=
  (h.startWait name scope (.flush false)).launch scope (.flushed h.waits.length)

def work (h : Host) (name : String) (loading : Nat) (depth : Nat) (outcome : Option Outcome) :
    Host :=
  let w := h.works.length
  ({ h with works := h.works ++ [Work.mk name loading depth .inside outcome] }.bindTask name
    (.work w)).enterLevel w 1

/-- Gives a task the outcome it waits for, and says whether it still waited. -/
def finish (h : Host) (task : TaskRef) (outcome : Outcome) : Host × Bool :=
  match task with
  | .work w =>
    if h.works[w]?.any (·.canFinish) then
      (h.updateWork w fun work => { work with outcome := some outcome }, true)
    else (h, false)
  | .wait w =>
    match h.waits[w]? with
    | some ⟨_, scope, .spawned true none, _⟩ =>
      if h.isCancelled scope then (h, false)
      else
        (h.updateWait w fun wait => { wait with kind := .spawned true (some outcome) }, true)
    | _ => (h, false)
  | .caller _ | .follower _ => (h, false)

def follow (h : Host) (name : String) (source : DialogRef) (pictures : Option Nat) : Host :=
  match h.shown? source with
  | none => h
  | some cell =>
    let f := h.followers.length
    let seenVisuals := ((pictures.bind (h.prompts[·]?)).map (·.visuals.version)).getD 0
    let follower : Follower :=
      ⟨name, source, pictures, cell.value, cell.version, seenVisuals, .clear, false⟩
    ({ h with followers := h.followers ++ [follower] }.bindTask name (.follower f)).draw f

def observe (h : Host) (name : String) (receiver : Receiver) : Host :=
  { h with names := { h.names with receivers := h.names.receivers.bind name receiver } }

def keepResponder (h : Host) (name : String) (r : Responder) : Host :=
  { h with names := { h.names with responders := h.names.responders.bind name r } }

def keepDismisser (h : Host) (name : String) (panel : Nat) : Host :=
  { h with names := { h.names with dismissers := h.names.dismissers.bind name panel } }

def loading? (h : Host) (name : String) : Option Nat :=
  match h.names.dialogs.find? name with
  | some (.loading i) => some i
  | _ => none

def panel? (h : Host) (name : String) : Option Nat :=
  match h.names.dialogs.find? name with
  | some (.panel i) => some i
  | _ => none

end ModalHost.Host
