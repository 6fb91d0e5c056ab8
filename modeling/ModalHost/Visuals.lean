/-!
What a confirmation prompt shows, the two decisions that end it, and the state of a dialog that
is kept while its user interface is torn down and built again.
-/
namespace ModalHost

/-- The picture of a prompt. A published picture is never edited, only replaced as a whole. -/
structure Visuals where
  title : String
  content : Option String
  confirm : Option String
  dismiss : Option String
  deriving DecidableEq, Repr

namespace Visuals

def defaultConfirmLabel : String := "OK"

def defaultDismissLabel : String := "Cancel"

def ofTitle (title : String) : Visuals := ⟨title, none, none, none⟩

/-- The sentinel that stands for "nothing is asked"; it is never on screen. -/
def empty : Visuals := ⟨"", some "", none, none⟩

instance : Inhabited Visuals := ⟨empty⟩

def isEmpty (v : Visuals) : Bool := v == empty

def withContent (v : Visuals) (text : String) : Visuals := { v with content := some text }

def withConfirm (v : Visuals) (label : String) : Visuals := { v with confirm := some label }

def withDismiss (v : Visuals) (label : String) : Visuals := { v with dismiss := some label }

def confirmText (v : Visuals) : String := v.confirm.getD defaultConfirmLabel

def dismissText (v : Visuals) : String := v.dismiss.getD defaultDismissLabel

theorem isEmpty_iff (v : Visuals) : v.isEmpty = true ↔ v = empty := by
  simp [isEmpty]

theorem isEmpty_empty : empty.isEmpty = true := by
  simp [isEmpty]

theorem not_isEmpty_ofTitle (title : String) : (ofTitle title).isEmpty = false := by
  simp [isEmpty, ofTitle, empty]

end Visuals

/-- How a confirmation ends. Closing a prompt any other way than by its confirm button cancels. -/
inductive Decision
  | confirmed
  | canceled
  deriving DecidableEq, Repr

namespace Decision

def isConfirmed : Decision → Bool
  | confirmed => true
  | canceled => false

def name : Decision → String
  | confirmed => "Confirmed"
  | canceled => "Canceled"

end Decision

inductive DialogKind
  | loading
  | confirm
  | custom
  deriving DecidableEq, Repr

namespace DialogKind

def title : DialogKind → String
  | loading => "LoadingDialog"
  | confirm => "ConfirmDialog"
  | custom => "CustomDialog"

def name : DialogKind → String
  | loading => "Loading"
  | confirm => "Confirm"
  | custom => "Custom"

end DialogKind

/-- What is kept of a confirm dialog between two lives of its user interface. -/
structure Snapshot where
  visible : Bool
  visuals : Visuals
  deriving DecidableEq, Repr

namespace Snapshot

def initial : Snapshot := ⟨false, .empty⟩

instance : Inhabited Snapshot := ⟨initial⟩

/-- Whether a dialog built again from the snapshot is on screen: the sentinel never is. -/
def onScreen (s : Snapshot) : Bool := s.visible && !s.visuals.isEmpty

end Snapshot

end ModalHost
