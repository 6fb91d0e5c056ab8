import ModalHost.Text.Utf8
/-!
What is found at a path, and why a text cannot be read from it.
-/
namespace ModalHost

inductive FileContent
  | absent
  | directory
  | bytes (content : Bytes)
  deriving DecidableEq, Repr

inductive ReadFailure
  | notFound
  | isDirectory
  | invalidData
  deriving DecidableEq, Repr

namespace FileContent

def ofText (s : String) : FileContent := bytes (Utf8.ofString s)

def text : FileContent → Except ReadFailure (List Char)
  | absent => .error .notFound
  | directory => .error .isDirectory
  | bytes content =>
    match Utf8.decode content with
    | some s => .ok s
    | none => .error .invalidData

end FileContent

end ModalHost
