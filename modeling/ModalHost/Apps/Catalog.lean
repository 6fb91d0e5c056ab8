import ModalHost.Cell
import ModalHost.Apps.ListFiles
import ModalHost.Apps.Search
/-!
The app list over its life: scanned, refreshed against the applist, searched and torn down.
-/
namespace ModalHost

structure ConfigFiles where
  applist : FileContent
  gamelist : FileContent
  deriving DecidableEq, Repr

structure ConfigPaths where
  applist : String
  gamelist : String
  deriving DecidableEq, Repr

namespace ConfigPaths

def standard : ConfigPaths where
  applist := "/data/adb/.config/AZenith/gamelist/azenithApplist.json"
  gamelist := "gamelist.txt"

end ConfigPaths

structure Catalog where
  apps : List App
  refreshing : Cell Bool
  deriving DecidableEq, Repr

namespace Catalog

def new : Catalog := ⟨[], .new false⟩

def size (c : Catalog) : Nat := c.apps.length

def isEmpty (c : Catalog) : Bool := c.apps.isEmpty

def mark (config : ConfigFiles) (packages : List Package) : List App :=
  let recommended := GameList.read config.gamelist
  let enabled := Applist.read config.applist
  packages.map fun p => App.ofPackage p (recommended.contains p.name) (enabled.contains p.name)

/-- Whether a load scans at all: it does not where there is a list already, unless forced. -/
def scans (c : Catalog) (force : Bool) : Bool := force || c.isEmpty

def duringScan (c : Catalog) : Catalog :=
  { c with refreshing := c.refreshing.publish true }

/-- Builds the list from what the source reports, and returns its length. The source sees the
catalog as it is during the scan; if it fails, the list stays as it was. -/
def load {ε : Type} (c : Catalog) (config : ConfigFiles)
    (source : Catalog → Except ε (List Package)) (force : Bool) : Catalog × Except ε Nat :=
  if c.scans force then
    let scanning := c.duringScan
    let finished := { scanning with refreshing := scanning.refreshing.publish false }
    match source scanning with
    | .ok packages =>
      let apps := mark config packages
      ({ finished with apps }, .ok apps.length)
    | .error e => (finished, .error e)
  else (c, .ok c.size)

def refresh (c : Catalog) (config : ConfigFiles) : Catalog :=
  let enabled := Applist.read config.applist
  { c with apps := c.apps.map fun a => { a with isEnabled := enabled.contains a.package } }

def clear (c : Catalog) : Catalog :=
  { c with apps := [], refreshing := c.refreshing.publish false }

def find? (c : Catalog) (package : String) : Option App :=
  c.apps.find? fun a => a.package == package

def listing (c : Catalog) (s : Search) : List App := s.results c.apps

end Catalog

end ModalHost
