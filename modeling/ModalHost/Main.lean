import ModalHost.Terminal.Run
/-!
The program on a real terminal: it reads the files and the answer that a run asks for, and shows
what the run leaves.
-/
namespace ModalHost.Terminal

def readContent (path : String) : IO FileContent := do
  try
    return .bytes (← IO.FS.readBinFile path).toList
  catch
    | .noFileOrDirectory .. => return .absent
    | _ => return .directory

/-- The input up to its first line feed. -/
partial def readLine (input : IO.FS.Stream) (line : Bytes) : IO Bytes := do
  let byte := (← input.read 1).toList
  if byte.isEmpty || byte == [0x0A] then return line.reverse ++ byte
  else readLine input (byte.reverse ++ line)

/-- Waits on a prompt that never comes up. -/
partial def waitForever : IO UInt32 := do
  IO.sleep 1000
  waitForever

def conclude (report : Report) : IO UInt32 := do
  IO.print report.output
  if let some message := report.failure then IO.eprintln ("Error: " ++ message)
  return report.exit.toUInt32

def runAppsOnTerminal (options : AppsOptions) : IO UInt32 := do
  let applist ← readContent options.config.applist
  let gamelist ← readContent options.config.gamelist
  let packages ← readContent options.packages
  let files := fun path =>
    if path = options.packages then packages
    else if path = options.config.applist then applist
    else gamelist
  conclude (runApps files options)

def runConfirmOnTerminal (v : Visuals) : IO UInt32 := do
  let asking := Console.waiting v
  for text in asking.prompts.reverse do IO.eprint text
  if asking.reader != .reading then waitForever
  else
    let input ← readLine (← IO.getStdin) []
    let c := { asking with input }.run Console.turns (Console.turnLimit input)
    match c.ending? with
    | some ending => conclude (exitOf ending)
    | none => waitForever

end ModalHost.Terminal

open ModalHost.Terminal in
def main (args : List String) : IO UInt32 := do
  match readArguments args with
  | .ok ⟨_, .apps options⟩ => runAppsOnTerminal options
  | .ok ⟨_, .confirm v⟩ => runConfirmOnTerminal v
  | .error .refused => conclude (.ofExit 2)
  | .error .help => conclude (.ofExit 0)
  | .error .version => conclude ⟨0, versionText, none, none⟩
