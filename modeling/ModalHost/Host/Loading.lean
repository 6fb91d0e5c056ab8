import ModalHost.Cell
/-!
Loading dialogs, and dialogs with content of their own. A loading dialog counts the blocks of work
that run under it and goes away when the last one leaves.
-/
namespace ModalHost

structure Loading where
  scope : Nat
  handle : Bool
  shown : Cell Bool
  inFlight : Nat
  deriving DecidableEq, Repr

namespace Loading

def new (scope : Nat) : Loading := ⟨scope, true, .new false, 0⟩

def setShown (l : Loading) (shown : Bool) : Loading := { l with shown := l.shown.set shown }

def enter (l : Loading) : Loading :=
  { l with inFlight := l.inFlight + 1, shown := l.shown.set true }

def leave (l : Loading) : Loading :=
  { l with
    inFlight := l.inFlight - 1
    shown := if l.inFlight ≤ 1 then l.shown.set false else l.shown }

end Loading

inductive PanelKind
  | base
  | custom
  deriving DecidableEq, Repr

structure Panel where
  kind : PanelKind
  scope : Nat
  handle : Bool
  shown : Cell Bool
  deriving DecidableEq, Repr

namespace Panel

def new (kind : PanelKind) (scope : Nat) (visible : Bool) : Panel :=
  ⟨kind, scope, true, .new visible⟩

def setShown (p : Panel) (shown : Bool) : Panel := { p with shown := p.shown.set shown }

end Panel

end ModalHost
