import ModalHost.Text.Quoted
import ModalHost.Host.State
/-!
The texts that describe scopes, prompts and hooks in messages.
-/
namespace ModalHost

def describeFlag (b : Bool) : String := if b then "true" else "false"

def describeRecord (name : String) (fields : List (String × String)) : String :=
  let inner := ", ".intercalate (fields.map fun field => field.1 ++ ": " ++ field.2)
  name ++ " \x7b " ++ inner ++ " \x7d"

def describeOptional : Option String → String
  | none => "None"
  | some s => "Some(" ++ Text.quoted s ++ ")"

namespace Visuals

def describe (v : Visuals) : String := describeRecord "Visuals"
  [("title", Text.quoted v.title), ("content", describeOptional v.content),
    ("confirm", describeOptional v.confirm), ("dismiss", describeOptional v.dismiss)]

end Visuals

namespace Prompt

def describe (p : Prompt) : String := describeRecord "ConfirmDialog"
  [("shown", describeFlag p.shown.value), ("phase", p.phase.name),
    ("visuals", p.visuals.value.describe)]

end Prompt

namespace Hooks

def describe {α : Type} (h : Hooks α) : String := describeRecord "ConfirmCallbacks"
  [("on_confirm", describeFlag h.confirm.isSome), ("on_dismiss", describeFlag h.dismiss.isSome)]

end Hooks

def describeScope (cancelled : Bool) : String :=
  describeRecord "UiScope" [("cancelled", describeFlag cancelled)]

end ModalHost
