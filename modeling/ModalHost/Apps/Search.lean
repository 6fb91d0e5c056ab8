import ModalHost.Apps.App
import ModalHost.Text.Lowercase
/-!
Searching the app list, and the order of what is found.
-/
namespace ModalHost

namespace App

def mentions (a : App) (query : List Char) : Bool :=
  Text.occurs query (Text.lower a.label.toList) || Text.occurs query (Text.lower a.package.toList)

/-- Enabled apps first, then recommended ones, then by lower-cased label, then by package name, in
code point order. -/
def listingOrder (a b : App) : Ordering :=
  (compare b.isEnabled a.isEnabled).then <|
    (compare b.isRecommended a.isRecommended).then <|
      (compare (Text.lower a.label.toList) (Text.lower b.label.toList)).then <|
        compare a.package.toList b.package.toList

end App

structure Search where
  query : String
  showSystem : Bool
  deriving DecidableEq, Repr

namespace Search

def ofQuery (query : String) : Search := ⟨query, false⟩

instance : Inhabited Search := ⟨ofQuery ""⟩

def withSystem (s : Search) (showSystem : Bool) : Search := { s with showSystem }

def admits (s : Search) (a : App) : Bool :=
  a.mentions (Text.lower s.query.toList) && (s.showSystem || !a.isSystem)

/-- The apps that the search admits, in listing order; apps that tie keep their order. -/
def results (s : Search) (apps : List App) : List App :=
  (apps.filter s.admits).mergeSort fun a b => (a.listingOrder b).isLE

end Search

end ModalHost
