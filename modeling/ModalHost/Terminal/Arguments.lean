import ModalHost.Apps.Search
import ModalHost.Apps.Catalog
import ModalHost.Visuals
/-!
The command line: options before and after the name of a command. Arguments are read from left to
right, and the first thing that ends the reading decides.
-/
namespace ModalHost.Terminal

inductive Takes
  | nothing
  | text
  /-- A path, which is not empty. -/
  | path
  /-- Asks for the help text instead. -/
  | help
  /-- Asks for the version instead. -/
  | version
  deriving DecidableEq, Repr

structure OptionSpec where
  long : String
  short : Option Char
  takes : Takes
  deriving DecidableEq, Repr

inductive Stop
  | refused
  | help
  | version
  deriving DecidableEq, Repr

/-- Options that were given, by their long names. No option is given twice. -/
abbrev Given := List (String × String)

namespace Given

def add (given : Given) (spec : OptionSpec) (value : List Char) : Except Stop Given :=
  if given.any (·.1 == spec.long) || (spec.takes == .path && value.isEmpty) then .error .refused
  else .ok (given ++ [(spec.long, String.ofList value)])

def value? (given : Given) (name : String) : Option String := given.lookup name

def has (given : Given) (name : String) : Bool := (given.value? name).isSome

end Given

inductive Shape
  /-- Two dashes alone: no options follow. -/
  | terminator
  /-- A long option, with the value after an equals sign if there is one. -/
  | long (name : List Char) (attached : Option (List Char))
  /-- Short options that share a dash. -/
  | cluster (options : List Char)
  | word
  deriving DecidableEq, Repr

namespace Shape

def of : List Char → Shape
  | ['-', '-'] => terminator
  | '-' :: '-' :: rest =>
    match rest.dropWhile (· != '=') with
    | [] => long rest none
    | _ :: value => long (rest.takeWhile (· != '=')) (some value)
  | ['-'] => word
  | '-' :: rest => cluster rest
  | _ => word

end Shape

def readOption (spec : OptionSpec) (given : Given) (attached : Option (List Char)) :
    Except Stop (Given × Option OptionSpec) :=
  match spec.takes, attached with
  | .text, some value | .path, some value => do return (← given.add spec value, none)
  | .text, none | .path, none => return (given, some spec)
  | _, some _ => throw .refused
  | .nothing, none => do return (← given.add spec [], none)
  | .help, none => throw .help
  | .version, none => throw .version

/-- What follows a short option in its cluster, as a value: an equals sign in front is not part of
it. -/
def attachedValue : List Char → Option (List Char)
  | [] => none
  | '=' :: value => some value
  | value => some value

def readCluster (specs : List OptionSpec) :
    Given → List Char → Except Stop (Given × Option OptionSpec)
  | given, [] => return (given, none)
  | given, c :: rest =>
    match specs.find? (·.short == some c) with
    | none => throw .refused
    | some spec =>
      match spec.takes with
      | .text | .path => readOption spec given (attachedValue rest)
      | _ => do
        let (given, _) ← readOption spec given none
        readCluster specs given rest

def readShape (specs : List OptionSpec) (given : Given) :
    Shape → Except Stop (Given × Option OptionSpec)
  | .long name attached =>
    match specs.find? (·.long.toList == name) with
    | none => throw .refused
    | some spec => readOption spec given attached
  | .cluster options => readCluster specs given options
  | .terminator | .word => return (given, none)

/-- Reads options up to the first word, which is left with what follows it. An argument that is
shaped like an option is nobody's value. -/
def readOptions (specs : List OptionSpec) :
    Given → List (List Char) → Except Stop (Given × List (List Char))
  | given, [] => return (given, [])
  | given, arg :: rest =>
    match Shape.of arg with
    | .word => return (given, arg :: rest)
    | .terminator => if rest.isEmpty then return (given, []) else throw .refused
    | shape => do
      let (given, waiting) ← readShape specs given shape
      match waiting, rest with
      | none, rest => readOptions specs given rest
      | some _, [] => throw .refused
      | some spec, value :: rest =>
        if Shape.of value = .word then do readOptions specs (← given.add spec value) rest
        else throw .refused

structure AppsOptions where
  packages : String
  config : ConfigPaths
  search : Search
  deriving DecidableEq, Repr

inductive Command
  /-- Lists the installed apps. -/
  | apps (options : AppsOptions)
  /-- Asks a question. -/
  | confirm (visuals : Visuals)
  deriving DecidableEq, Repr

structure Invocation where
  verbose : Bool
  command : Command
  deriving DecidableEq, Repr

def verboseSpec : OptionSpec := ⟨"verbose", some 'v', .nothing⟩

def helpSpec : OptionSpec := ⟨"help", some 'h', .help⟩

def topSpecs : List OptionSpec := [verboseSpec, helpSpec, ⟨"version", some 'V', .version⟩]

def appsSpecs : List OptionSpec :=
  [verboseSpec, helpSpec, ⟨"packages", none, .path⟩, ⟨"applist", none, .path⟩,
    ⟨"gamelist", none, .path⟩, ⟨"query", some 'q', .text⟩, ⟨"system", none, .nothing⟩]

def confirmSpecs : List OptionSpec :=
  [verboseSpec, helpSpec, ⟨"title", none, .text⟩, ⟨"content", none, .text⟩,
    ⟨"confirm", none, .text⟩, ⟨"dismiss", none, .text⟩]

def appsOf (given : Given) : Option Command := do
  let packages ← given.value? "packages"
  return .apps {
    packages
    config := {
      applist := (given.value? "applist").getD ConfigPaths.standard.applist
      gamelist := (given.value? "gamelist").getD ConfigPaths.standard.gamelist }
    search := (Search.ofQuery ((given.value? "query").getD "")).withSystem
      (given.has "system") }

def confirmOf (given : Given) : Option Command := do
  let title ← given.value? "title"
  return .confirm {
    title
    content := given.value? "content"
    confirm := given.value? "confirm"
    dismiss := given.value? "dismiss" }

def readCommand (specs : List OptionSpec) (build : Given → Option Command) (verbose : Bool)
    (args : List (List Char)) : Except Stop Invocation := do
  match ← readOptions specs [] args with
  | (given, []) =>
    match build given with
    | some command => return ⟨verbose || given.has "verbose", command⟩
    | none => throw .refused
  | _ => throw .refused

def readArguments (args : List String) : Except Stop Invocation := do
  let (given, rest) ← readOptions topSpecs [] (args.map (·.toList))
  match rest with
  | [] => throw .refused
  | name :: rest =>
    match String.ofList name with
    | "apps" => readCommand appsSpecs appsOf (given.has "verbose") rest
    | "confirm" => readCommand confirmSpecs confirmOf (given.has "verbose") rest
    | "help" => throw .help
    | _ => throw .refused

end ModalHost.Terminal
