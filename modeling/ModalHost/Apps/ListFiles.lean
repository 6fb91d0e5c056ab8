import ModalHost.Apps.File
import ModalHost.Apps.App
import ModalHost.Text.WhiteSpace
import ModalHost.Json.Text
/-!
The three files the app list is made from: the package list that a scan reads, the game list with
the recommended packages, and the applist with the enabled ones.
-/
namespace ModalHost

/-- A set of names, in code point order and each once. -/
def nameSet (names : List (List Char)) : List String :=
  ((names.mergeSort fun a b => (compare a b).isLE).eraseDups).map String.ofList

theorem mem_nameSet (names : List (List Char)) (name : String) :
    name ∈ nameSet names ↔ name.toList ∈ names := by
  simp only [nameSet, List.mem_map, List.mem_eraseDups, List.mem_mergeSort]
  constructor
  · rintro ⟨letters, member, rfl⟩
    rwa [String.toList_ofList]
  · exact fun member => ⟨_, member, String.ofList_toList⟩

namespace PackageList

def cutColon : List Char → List Char × Option (List Char)
  | [] => ([], none)
  | c :: rest =>
    if c = ':' then ([], some rest)
    else
      let (field, more) := cutColon rest
      (c :: field, more)

def label? (field : List Char) : Option String :=
  let label := Text.trim field
  if label.isEmpty then none else some (String.ofList label)

/-- The package of one line, `package[:label[:system]]`, unless its first field is blank. -/
def package? (line : List Char) : Option Package :=
  let (first, more) := cutColon (Text.trim line)
  let name := Text.trim first
  if name.isEmpty then none
  else
    let (second, last) := match more with
      | none => ([], none)
      | some more => cutColon more
    some {
      name := String.ofList name
      label := label? second
      uid := 0
      isSystem := last.any fun flag => Text.trim flag == "system".toList }

def packages (text : List Char) : List Package := (Text.lines text).filterMap package?

def read (file : FileContent) : Except ReadFailure (List Package) := packages <$> file.text

end PackageList

namespace GameList

def names (text : List Char) : List (List Char) :=
  ((Text.lines text).map Text.trim).filter fun name => !name.isEmpty

/-- The recommended packages. A file that cannot be read recommends none. -/
def read (file : FileContent) : List String :=
  match file.text with
  | .ok text => nameSet (names text)
  | .error _ => []

theorem mem_read {file : FileContent} {text : List Char} (readable : file.text = .ok text)
    (name : String) : name ∈ read file ↔ name.toList ∈ names text := by
  rw [read, readable]
  exact mem_nameSet _ name

end GameList

namespace Applist

/-- The enabled packages: the keys of the one object in the file. A file that cannot be read, or
holds anything else, enables none. -/
def read (file : FileContent) : List String :=
  match file.text with
  | .ok text => nameSet ((Json.objectKeys? text).getD [])
  | .error _ => []

theorem mem_read {file : FileContent} {text : List Char} (readable : file.text = .ok text)
    (name : String) : name ∈ read file ↔ name.toList ∈ (Json.objectKeys? text).getD [] := by
  rw [read, readable]
  exact mem_nameSet _ name

end Applist

end ModalHost
