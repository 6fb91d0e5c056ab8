import ModalHost.Apps.Desk
import ModalHost.Terminal.Arguments
import ModalHost.Terminal.Console
import ModalHost.Terminal.Table
/-!
What a run of the program shows and how it exits.
-/
namespace ModalHost.Terminal

/-- What a run meets: the files, its standard input, and whether it is interrupted while it asks. -/
structure Surroundings where
  file : String → FileContent
  input : Bytes
  isInterrupted : Bool

/-- What a run leaves: its exit status and standard output, the prompt it put up, and the message it
failed with. -/
structure Report where
  exit : Nat
  output : String
  prompt : Option String
  failure : Option String
  deriving DecidableEq, Repr

namespace Report

def ofExit (exit : Nat) : Report := ⟨exit, "", none, none⟩

def ofFailure (message : String) : Report := ⟨1, "", none, some message⟩

end Report

def versionText : String := "zenith-manager 0.1.0\n"

def exitInterrupted : Nat := 130

def runApps (files : String → FileContent) (options : AppsOptions) : Report :=
  let config : ConfigFiles := ⟨files options.config.applist, files options.config.gamelist⟩
  let source := fun _ => Desk.readPackages options.packages (files options.packages)
  match Catalog.new.load config source true with
  | (catalog, .ok _) => ⟨0, table (catalog.listing options.search), none, none⟩
  | (_, .error failure) => .ofFailure failure.message

def exitOf : Ending → Report
  | .decided .confirmed => .ofExit 0
  | .decided .canceled => .ofExit 1
  | .cancelled => .ofExit exitInterrupted
  | ending => .ofFailure (ending.message.getD "")

/-- Asks a question. One that is never put up is waited on without end. -/
def runConfirm (s : Surroundings) (verbose : Bool) (v : Visuals) : Option Report := do
  let c := if s.isInterrupted then Console.interrupted v else Console.answered v s.input
  let ending ← c.ending?
  return { exitOf ending with prompt := if verbose then none else c.prompts.getLast? }

/-- A run of the program, unless it does not end. -/
def run (s : Surroundings) (args : List String) : Option Report :=
  match readArguments args with
  | .error .refused => some (.ofExit 2)
  | .error .help => some (.ofExit 0)
  | .error .version => some ⟨0, versionText, none, none⟩
  | .ok ⟨_, .apps options⟩ => some (runApps s.file options)
  | .ok ⟨verbose, .confirm v⟩ => runConfirm s verbose v

end ModalHost.Terminal
