import ModalHost.Apps.Catalog
import ModalHost.Text.Quoted
/-!
A catalog at work: the files it reads change between its operations, and scans are made from
different sources.
-/
namespace ModalHost

inductive Source
  | packages (list : List Package)
  | file
  | failing (message : String)
  deriving DecidableEq, Repr

inductive ScanFailure
  | unreadable (path : String) (cause : ReadFailure)
  | failed (message : String)
  deriving DecidableEq, Repr

namespace ScanFailure

def message : ScanFailure → String
  | unreadable path _ => "Failed to read package list: " ++ Text.quoted path
  | failed message => message

end ScanFailure

inductive FileName
  | applist
  | gamelist
  | packages
  deriving DecidableEq, Repr

structure Desk where
  config : ConfigFiles
  packages : FileContent
  catalog : Catalog
  /-- How often a source other than the package list has been asked. -/
  asked : Nat
  deriving DecidableEq, Repr

namespace Desk

def packagesPath : String := "packages.txt"

def paths : ConfigPaths := ⟨"applist.json", "gamelist.txt"⟩

def new (config : ConfigFiles) (packages : FileContent) : Desk := ⟨config, packages, .new, 0⟩

def readPackages (path : String) (file : FileContent) : Except ScanFailure (List Package) :=
  (PackageList.read file).mapError (.unreadable path)

def installed (d : Desk) : Source → Except ScanFailure (List Package)
  | .packages list => .ok list
  | .file => readPackages packagesPath d.packages
  | .failing message => .error (.failed message)

def asks (d : Desk) (source : Source) (force : Bool) : Bool :=
  d.catalog.scans force && source != .file

def load (d : Desk) (source : Source) (force : Bool) : Desk × Except ScanFailure Nat :=
  let (catalog, result) := d.catalog.load d.config (fun _ => d.installed source) force
  ({ d with
      catalog
      asked := if d.asks source force then d.asked + 1 else d.asked }, result)

def refresh (d : Desk) : Desk := { d with catalog := d.catalog.refresh d.config }

def clear (d : Desk) : Desk := { d with catalog := d.catalog.clear }

def write (d : Desk) (content : FileContent) : FileName → Desk
  | .applist => { d with config := { d.config with applist := content } }
  | .gamelist => { d with config := { d.config with gamelist := content } }
  | .packages => { d with packages := content }

end Desk

end ModalHost
