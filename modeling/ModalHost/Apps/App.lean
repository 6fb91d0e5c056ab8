/-!
Installed packages and the rows of the app list.
-/
namespace ModalHost

structure Package where
  name : String
  label : Option String
  uid : UInt32
  isSystem : Bool
  deriving DecidableEq, Repr

/-- One row of the app list: a package, whether the game list recommends it, and whether the applist
enables it. -/
structure App where
  label : String
  package : String
  uid : UInt32
  isSystem : Bool
  isRecommended : Bool
  isEnabled : Bool
  deriving DecidableEq, Repr

namespace Package

def ofName (name : String) : Package := ⟨name, none, 0, false⟩

end Package

namespace App

def noLabel : String := "Unknown"

def ofPackage (p : Package) (isRecommended isEnabled : Bool) : App where
  label := p.label.getD noLabel
  package := p.name
  uid := p.uid
  isSystem := p.isSystem
  isRecommended
  isEnabled

end App

end ModalHost
