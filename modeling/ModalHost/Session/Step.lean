import ModalHost.MessagePack.Packed
import ModalHost.Host.Setup
import ModalHost.Session.Describe
/-!
The steps of a session with a host, and what each of them answers.
-/
namespace ModalHost.Session

inductive Start
  | blank
  | snapshot (s : Snapshot)
  | saved (bytes : Bytes)
  deriving Repr

inductive NewDialog
  | loading
  | panel (kind : PanelKind) (visible : Bool)
  | confirm (hooks : Hooks Call) (start : Start)
  deriving Repr

inductive Step
  | call (c : Call)
  | openScope (name : String) (parent : Option String)
  | openDialog (name : String) (scope : String) (dialog : NewDialog)
  | drop (dialog : String)
  | hold (scope : String)
  | release (scope : String)
  | mark (scope : String) (label : String)
  | flush (scope : String) (task : String)
  | whenCancelled (scope : String) (task : String)
  | spawn (scope : String) (task : String)
  | work (dialog : String) (task : String) (outcome : Option Outcome) (depth : Nat)
  | finish (task : String) (outcome : Outcome)
  | observe (dialog : String) (receiver : String) (visuals : Bool)
  | changed (receiver : String)
  | keepResponder (dialog : String) (name : String)
  | overlay (dialog : String) (keep : Option String)
  | save (dialog : String)
  | render (dialog : String) (content : String) (keep : Option String)
  | keepDismisser (dialog : String) (name : String)
  | dismiss (dismisser : String)
  | follow (dialog : String) (visuals : Option String) (task : String)
  | describeDialog (dialog : String)
  | describeScope (scope : String)
  | describeHooks (hooks : Hooks Call)
  deriving Repr

inductive Observed
  | shown (value : Bool)
  | visuals (value : Visuals)
  deriving DecidableEq, Repr

inductive Response
  | nothing
  | flag (b : Bool)
  | kind (k : DialogKind)
  | refused (fault : MessagePack.Fault)
  /-- Whether there was an unseen write, unless the store is gone, and the latest value. -/
  | changed (unseen : Option Bool) (value : Observed)
  | overlay (frame : Frame)
  | saved (snapshot : Snapshot) (bytes : Bytes)
  | drawn (content : Option String)
  | description (text : String)
  | hooks (text : String) (isEmpty : Bool)
  deriving Repr

def openDialog (h : Host) (name : String) (scope : Nat) : NewDialog → Host × Response
  | .loading => (h.openLoading name scope, .kind .loading)
  | .panel .custom visible => (h.openPanel name .custom scope visible, .kind .custom)
  | .panel .base visible => (h.openPanel name .base scope visible, .nothing)
  | .confirm hooks .blank => (h.openPrompt name scope .initial hooks, .kind .confirm)
  | .confirm hooks (.snapshot s) => (h.openPrompt name scope s hooks, .kind .confirm)
  | .confirm hooks (.saved bytes) =>
    match Packed.decode bytes with
    | .ok s => (h.openPrompt name scope s hooks, .kind .confirm)
    | .error fault => (h, .refused fault)

def readReceiver (h : Host) (name : String) : Receiver → Host × Response
  | .shown source seen =>
    match h.shown? source with
    | none => (h, .nothing)
    | some cell =>
      let unseen := if h.storeGone source then none else some (cell.version != seen)
      (h.observe name (.shown source cell.version), .changed unseen (.shown cell.value))
  | .visuals i seen =>
    match h.prompts[i]? with
    | none => (h, .nothing)
    | some p =>
      let unseen := if h.promptGone i then none else some (p.visuals.version != seen)
      (h.observe name (.visuals i p.visuals.version), .changed unseen (.visuals p.visuals.value))

def takeOverlay (h : Host) (keep : Option String) (dialog : DialogRef) : Host × Response :=
  let frame := h.overlay dialog
  match keep, dialog, frame with
  | some name, .prompt i, .prompt picture =>
    (h.keepResponder name ⟨i, some picture⟩, .overlay frame)
  | _, _, _ => (h, .overlay frame)

def render (h : Host) (content : String) (keep : Option String) (i : Nat) : Host × Response :=
  if h.panels[i]?.any (·.shown.value) then
    (keep.elim h (h.keepDismisser · i), .drawn (some content))
  else (h, .drawn none)

/-- The part of a step that takes effect at once. -/
def act (h : Host) : Step → Host × Response
  | .call (.press responder decision) =>
    (h.call (.press responder decision), .flag (h.responder? responder).isSome)
  | .call c => (h.call c, .nothing)
  | .openScope name parent =>
    (h.openScope name (parent.bind h.names.scopes.find?), .nothing)
  | .openDialog name scope dialog =>
    ((h.names.scopes.find? scope).elim (h, .nothing) fun s => openDialog h name s dialog)
  | .drop dialog => (h.dropDialog dialog, .nothing)
  | .hold scope => ((h.names.scopes.find? scope).elim h h.hold, .nothing)
  | .release scope =>
    let (h, opened) := (h.names.scopes.find? scope).elim (h, false) h.release
    (h, .flag opened)
  | .mark scope label =>
    ((h.names.scopes.find? scope).elim h (h.launch · (.mark label)), .nothing)
  | .flush scope task => ((h.names.scopes.find? scope).elim h (h.flush task), .nothing)
  | .whenCancelled scope task =>
    ((h.names.scopes.find? scope).elim h (h.startWait task · .cancellation), .nothing)
  | .spawn scope task =>
    ((h.names.scopes.find? scope).elim h (h.startWait task · (.spawned true none)), .nothing)
  | .work dialog task outcome depth =>
    ((h.loading? dialog).elim h (h.work task · depth outcome), .nothing)
  | .finish task outcome =>
    let (h, waited) := (h.names.tasks.find? task).elim (h, false) (h.finish · outcome)
    (h, .flag waited)
  | .observe dialog receiver false =>
    ((h.names.dialogs.find? dialog).elim h fun source =>
      (h.shown? source).elim h fun cell => h.observe receiver (.shown source cell.version),
      .nothing)
  | .observe dialog receiver true =>
    ((h.prompt? dialog).elim h fun i =>
      (h.prompts[i]?).elim h fun p => h.observe receiver (.visuals i p.visuals.version), .nothing)
  | .changed receiver =>
    (h.names.receivers.find? receiver).elim (h, .nothing) (readReceiver h receiver)
  | .keepResponder dialog name =>
    ((h.prompt? dialog).elim h fun i => h.keepResponder name ⟨i, none⟩, .nothing)
  | .overlay dialog keep =>
    (h.names.dialogs.find? dialog).elim (h, .nothing) (takeOverlay h keep)
  | .save dialog =>
    (h, ((h.prompt? dialog).bind (h.prompts[·]?)).elim .nothing fun p =>
      .saved p.save (encode p.save))
  | .render dialog content keep => (h.panel? dialog).elim (h, .nothing) (render h content keep)
  | .keepDismisser dialog name => ((h.panel? dialog).elim h (h.keepDismisser name), .nothing)
  | .dismiss dismisser =>
    match h.names.dismissers.find? dismisser with
    | none => (h, .flag false)
    | some i => (h.setShown (.panel i) false, .flag true)
  | .follow dialog visuals task =>
    ((h.names.dialogs.find? dialog).elim h fun source =>
      h.follow task source (visuals.bind h.prompt?), .nothing)
  | .describeDialog dialog =>
    (h, ((h.prompt? dialog).bind (h.prompts[·]?)).elim .nothing fun p => .description p.describe)
  | .describeScope scope =>
    (h, (h.names.scopes.find? scope).elim .nothing fun s =>
      .description (ModalHost.describeScope (h.isCancelled s)))
  | .describeHooks hooks => (h, .hooks hooks.describe hooks.isEmpty)

end ModalHost.Session
