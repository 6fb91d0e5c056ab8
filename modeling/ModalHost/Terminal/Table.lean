import ModalHost.Apps.App
/-!
The rows of the app table.
-/
namespace ModalHost.Terminal

def padded (width : Nat) (s : String) : String :=
  String.ofList (s.toList ++ List.replicate (width - s.toList.length) ' ')

def flags (a : App) : List String :=
  (if a.isEnabled then ["enabled"] else []) ++
    (if a.isRecommended then ["recommended"] else []) ++
    (if a.isSystem then ["system"] else [])

def row (a : App) : String :=
  padded 32 a.label ++ " " ++ padded 48 a.package ++ " " ++ ",".intercalate (flags a)

def table (apps : List App) : String := String.join (apps.map fun a => row a ++ "\n")

end ModalHost.Terminal
