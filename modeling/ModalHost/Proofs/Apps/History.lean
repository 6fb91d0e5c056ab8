import ModalHost.Apps.Desk
import ModalHost.Proofs.MessagePack.Utf8

/-! The app list is a function of its history: of the last load that built it, of the files as they
were then, and of the refreshes since. -/

namespace ModalHost

theorem FileContent.text_ofText (s : String) : (ofText s).text = .ok s.toList := by
  rw [ofText, text, Utf8.ofString, Utf8.decode_encode]

namespace Desk

/-- What is done to a catalog, and the rewriting of a file that it reads. -/
inductive Operation
  | load (source : Source) (force : Bool)
  | refresh
  | clear
  | write (content : FileContent) (file : FileName)
  deriving DecidableEq, Repr

def perform (d : Desk) : Operation → Desk
  | .load source force => (d.load source force).1
  | .refresh => d.refresh
  | .clear => d.clear
  | .write content file => d.write content file

def run (d : Desk) : List Operation → Desk
  | [] => d
  | op :: ops => run (d.perform op) ops

/-- A load scans if it is forced or there is no list, and builds the list of what it finds. -/
structure Builds (d : Desk) (source : Source) (force : Bool) (packages : List Package) : Prop where
  scans : force = true ∨ d.catalog.apps = []
  found : d.installed source = .ok packages

/-- After such an operation the list has nothing of what it was before. -/
inductive Replaces (d : Desk) : Operation → Prop
  | build (source : Source) (force : Bool) (packages : List Package)
      (builds : d.Builds source force packages) : Replaces d (.load source force)
  | clear : Replaces d .clear

/-- No operation replaces the list on the desk that it meets. -/
def Stands (d : Desk) (ops : List Operation) : Prop :=
  ∀ (before : List Operation) (op : Operation) (after : List Operation),
    ops = before ++ op :: after → ¬(d.run before).Replaces op

/-- The applist as the latest of the refreshes finds it, or what was read before if there is none. -/
def lastApplist (d : Desk) (read : FileContent) : List Operation → FileContent
  | [] => read
  | op :: ops => lastApplist (d.perform op) (if op = .refresh then d.config.applist else read) ops

def rows (packages : List Package) (gamelist applist : FileContent) : List App :=
  packages.map fun p =>
    { label := p.label.getD "Unknown"
      package := p.name
      uid := p.uid
      isSystem := p.isSystem
      isRecommended := decide (p.name ∈ GameList.read gamelist)
      isEnabled := decide (p.name ∈ Applist.read applist) }

theorem mark_eq_rows (config : ConfigFiles) (packages : List Package) :
    Catalog.mark config packages = rows packages config.gamelist config.applist := by
  simp only [Catalog.mark, rows, App.ofPackage, App.noLabel, List.contains_eq_mem]

theorem refresh_rows (d : Desk) (packages : List Package) (gamelist applist : FileContent)
    (built : d.catalog.apps = rows packages gamelist applist) :
    d.refresh.catalog.apps = rows packages gamelist d.config.applist := by
  simp only [refresh, Catalog.refresh, built, rows, List.map_map, List.contains_eq_mem]
  rfl

theorem scans_iff (d : Desk) (force : Bool) :
    d.catalog.scans force = true ↔ force = true ∨ d.catalog.apps = [] := by
  rw [Catalog.scans, Catalog.isEmpty, Bool.or_eq_true, List.isEmpty_iff]

theorem load_idle (d : Desk) (source : Source) (loaded : d.catalog.apps ≠ []) :
    d.load source false = (d, .ok d.catalog.apps.length) := by
  have idle : d.catalog.scans false = false := by
    rw [← Bool.not_eq_true, scans_iff]
    simpa using loaded
  simp only [load, Catalog.load, asks, idle, Bool.false_and, Bool.false_eq_true, if_false]
  rfl

structure Scanned (d : Desk) (apps : List App) (after : Desk) : Prop where
  apps : after.catalog.apps = apps
  config : after.config = d.config
  packages : after.packages = d.packages
  idle : after.catalog.refreshing.value = false

theorem load_failed (d : Desk) (source : Source) (force : Bool)
    (scans : force = true ∨ d.catalog.apps = []) (e : ScanFailure)
    (failed : d.installed source = .error e) :
    (d.load source force).2 = .error e ∧
      d.Scanned d.catalog.apps (d.load source force).1 := by
  simp only [load, Catalog.load, (d.scans_iff force).mpr scans, if_true, failed, true_and]
  exact ⟨rfl, rfl, rfl, rfl⟩

theorem load_built (d : Desk) (source : Source) (force : Bool) (packages : List Package)
    (builds : d.Builds source force packages) :
    (d.load source force).2 = .ok packages.length ∧
      d.Scanned (rows packages d.config.gamelist d.config.applist) (d.load source force).1 := by
  simp only [load, Catalog.load, (d.scans_iff force).mpr builds.scans, if_true, builds.found,
    mark_eq_rows]
  refine ⟨?_, rfl, rfl, rfl, rfl⟩
  rw [rows, List.length_map]

theorem load_cases (d : Desk) (source : Source) (force : Bool) :
    (force = false ∧ d.catalog.apps ≠ []) ∨
      (∃ e, (force = true ∨ d.catalog.apps = []) ∧ d.installed source = .error e) ∨
      ∃ packages, d.Builds source force packages := by
  by_cases scans : force = true ∨ d.catalog.apps = []
  · cases found : d.installed source with
    | error e => exact .inr (.inl ⟨e, scans, rfl⟩)
    | ok packages => exact .inr (.inr ⟨packages, scans, found⟩)
  · rw [not_or, Bool.not_eq_true] at scans
    exact .inl scans

theorem apps_perform (d : Desk) (op : Operation) (stays : ¬d.Replaces op) (packages : List Package)
    (gamelist read : FileContent) (built : d.catalog.apps = rows packages gamelist read) :
    (d.perform op).catalog.apps =
      rows packages gamelist (if op = .refresh then d.config.applist else read) := by
  cases op with
  | refresh => exact d.refresh_rows packages gamelist read built
  | clear => exact absurd .clear stays
  | write content file => cases file <;> exact built
  | load source force =>
      refine Eq.trans ?_ built
      rw [perform]
      rcases d.load_cases source force with ⟨rfl, loaded⟩ | ⟨e, scans, failed⟩ | ⟨found, builds⟩
      · rw [d.load_idle source loaded]
      · exact (d.load_failed source force scans e failed).2.apps
      · exact absurd (.build source force found builds) stays

theorem stands_cons {d : Desk} {op : Operation} {ops : List Operation} :
    d.Stands (op :: ops) ↔ ¬d.Replaces op ∧ (d.perform op).Stands ops := by
  constructor
  · intro stands
    refine ⟨stands [] op ops rfl, fun before other after split => ?_⟩
    exact stands (op :: before) other after (congrArg (op :: ·) split)
  · rintro ⟨stays, stands⟩ before other after split
    cases before with
    | nil =>
        obtain ⟨rfl, rfl⟩ := List.cons.inj split
        exact stays
    | cons first before =>
        obtain ⟨rfl, rest⟩ := List.cons.inj split
        exact stands before other after rest

theorem apps_run (ops : List Operation) (d : Desk) (stands : d.Stands ops) (packages : List Package)
    (gamelist read : FileContent) (built : d.catalog.apps = rows packages gamelist read) :
    (d.run ops).catalog.apps = rows packages gamelist (d.lastApplist read ops) := by
  induction ops generalizing d read with
  | nil => exact built
  | cons op ops ih =>
      obtain ⟨stays, stands⟩ := stands_cons.mp stands
      exact ih _ stands _ (d.apps_perform op stays packages gamelist read built)

theorem stands_or_last (ops : List Operation) (d : Desk) :
    d.Stands ops ∨ ∃ before op after, ops = before ++ op :: after ∧
      (d.run before).Replaces op ∧ ((d.run before).perform op).Stands after := by
  induction ops generalizing d with
  | nil => exact .inl fun before op after split => by simp at split
  | cons op ops ih =>
      -- the last to replace the list is among the later operations, unless none of them does
      rcases ih (d.perform op) with stands | ⟨before, last, after, rfl, replaces, stands⟩
      · by_cases replaces : d.Replaces op
        · exact .inr ⟨[], op, ops, rfl, replaces, stands⟩
        · exact .inl (stands_cons.mpr ⟨replaces, stands⟩)
      · exact .inr ⟨op :: before, last, after, rfl, replaces, stands⟩

theorem run_append (before after : List Operation) (d : Desk) :
    d.run (before ++ after) = (d.run before).run after := by
  induction before generalizing d with
  | nil => rfl
  | cons op before ih => exact ih (d.perform op)

theorem idle_perform (d : Desk) (op : Operation) (idle : d.catalog.refreshing.value = false) :
    (d.perform op).catalog.refreshing.value = false := by
  cases op with
  | refresh => exact idle
  | clear => rfl
  | write content file => cases file <;> exact idle
  | load source force =>
      rw [perform]
      rcases d.load_cases source force with ⟨rfl, loaded⟩ | ⟨e, scans, failed⟩ | ⟨found, builds⟩
      · rw [d.load_idle source loaded]
        exact idle
      · exact (d.load_failed source force scans e failed).2.idle
      · exact (d.load_built source force found builds).2.idle

theorem idle_run (ops : List Operation) (d : Desk) (idle : d.catalog.refreshing.value = false) :
    (d.run ops).catalog.refreshing.value = false := by
  induction ops generalizing d with
  | nil => exact idle
  | cons op ops ih => exact ih _ (d.idle_perform op idle)

end Desk

theorem Catalog.load_eq_asked (c : Catalog) {ε : Type} (config : ConfigFiles)
    (source : Catalog → Except ε (List Package)) (force : Bool) :
    c.load config source force = c.load config (fun _ => source c.duringScan) force := rfl

theorem Catalog.find?_eq_some_iff (c : Catalog) (package : String) (a : App) :
    c.find? package = some a ↔ a.package = package ∧
      ∃ before after, c.apps = before ++ a :: after ∧ ∀ b ∈ before, b.package ≠ package := by
  simp only [find?, List.find?_eq_some_iff_append, beq_iff_eq, Bool.not_eq_true', beq_eq_false_iff_ne]

namespace Desk

/-- What a desk answers at any point of a history. -/
structure Answers (d : Desk) : Prop where
  skips (source : Source) : d.catalog.apps ≠ [] →
    d.load source false = (d, .ok d.catalog.apps.length)
  fails (source : Source) (force : Bool) (e : ScanFailure) : force = true ∨ d.catalog.apps = [] →
    d.installed source = .error e →
    (d.load source force).2 = .error e ∧ d.Scanned d.catalog.apps (d.load source force).1
  loads (source : Source) (force : Bool) (packages : List Package) :
    d.Builds source force packages → (d.load source force).2 = .ok packages.length
  /-- Whether a load fails does not depend on the files that mark the rows. -/
  unmarked (config : ConfigFiles) (source : Source) (force : Bool) :
    ({ d with config }.load source force).2 = (d.load source force).2
  /-- A source of any kind is asked with the flag up. -/
  flagged {ε : Type} (source : Catalog → Except ε (List Package)) (force : Bool) :
    ∃ c, c.refreshing.value = true ∧ c.apps = d.catalog.apps ∧
      d.catalog.load d.config source force = d.catalog.load d.config (fun _ => source c) force
  idle : d.catalog.refreshing.value = false
  size : d.catalog.size = d.catalog.apps.length
  isEmpty : d.catalog.isEmpty = true ↔ d.catalog.apps = []
  finds (package : String) (a : App) : d.catalog.find? package = some a ↔ a.package = package ∧
    ∃ before after, d.catalog.apps = before ++ a :: after ∧ ∀ b ∈ before, b.package ≠ package

theorem load_unmarked (d : Desk) (config : ConfigFiles) (source : Source) (force : Bool) :
    ({ d with config }.load source force).2 = (d.load source force).2 := by
  rcases d.load_cases source force with ⟨rfl, loaded⟩ | ⟨e, scans, failed⟩ | ⟨found, builds⟩
  · rw [d.load_idle source loaded, load_idle { d with config } source loaded]
  · rw [(d.load_failed source force scans e failed).1]
    exact (load_failed { d with config } source force scans e failed).1
  · rw [(d.load_built source force found builds).1]
    exact (load_built { d with config } source force found ⟨builds.scans, builds.found⟩).1

theorem answers (d : Desk) (idle : d.catalog.refreshing.value = false) : d.Answers where
  skips := d.load_idle
  fails source force e scans failed := d.load_failed source force scans e failed
  loads source force packages builds := (d.load_built source force packages builds).1
  unmarked := d.load_unmarked
  flagged source force :=
    ⟨d.catalog.duringScan, rfl, rfl, d.catalog.load_eq_asked d.config source force⟩
  idle
  size := rfl
  isEmpty := List.isEmpty_iff
  finds := d.catalog.find?_eq_some_iff

/-- The list at the end of a history rests on the last load that built it: on its packages, the game
list as that load found it, and the applist as it was read last. Without such a load there is none. -/
structure Recorded (start : Desk) (ops : List Operation) : Prop where
  built (before after : List Operation) (source : Source) (force : Bool) (packages : List Package) :
    ops = before ++ .load source force :: after →
    (start.run before).Builds source force packages →
    ((start.run before).perform (.load source force)).Stands after →
    (start.run ops).catalog.apps = rows packages (start.run before).config.gamelist
      (((start.run before).perform (.load source force)).lastApplist
        (start.run before).config.applist after)
  bare : (∀ (before after : List Operation) (source : Source) (force : Bool)
      (packages : List Package), ops = before ++ .load source force :: after →
      (start.run before).Builds source force packages →
      ¬((start.run before).perform (.load source force)).Stands after) →
    (start.run ops).catalog.apps = []
  answers : (start.run ops).Answers

theorem apps_of_built (start : Desk) (before after : List Operation) (source : Source)
    (force : Bool) (packages : List Package)
    (builds : (start.run before).Builds source force packages)
    (stands : ((start.run before).perform (.load source force)).Stands after) :
    (start.run (before ++ .load source force :: after)).catalog.apps =
      rows packages (start.run before).config.gamelist
        (((start.run before).perform (.load source force)).lastApplist
          (start.run before).config.applist after) := by
  rw [run_append]
  exact apps_run after _ stands packages _ _
    ((start.run before).load_built source force packages builds).2.apps

theorem apps_of_bare (d : Desk) (ops : List Operation) (empty : d.catalog.apps = [])
    (stands : d.Stands ops) : (d.run ops).catalog.apps = [] :=
  apps_run ops d stands [] d.config.gamelist d.config.applist empty

/-- From the first operation on, every history of loads, refreshes, clearings and rewritten files is
accounted for by what it says itself. -/
theorem list_of_history (config : ConfigFiles) (packages : FileContent) (ops : List Operation) :
    (new config packages).Recorded ops where
  built before after source force found split builds stands := by
    rw [split]
    exact apps_of_built _ before after source force found builds stands
  bare none := by
    rcases stands_or_last ops (new config packages) with stands |
      ⟨before, op, after, split, replaces, stands⟩
    · exact apps_of_bare _ ops rfl stands
    · cases replaces with
      | build source force found builds =>
          exact absurd stands (none before after source force found split builds)
      | clear =>
          rw [split, run_append]
          exact apps_of_bare _ after rfl stands
  answers := answers _ (idle_run ops _ rfl)

def furnished : Desk := new ⟨.ofText "\x7b\"a\":0\x7d", .ofText "b\na\n"⟩ .absent

def installedTwice : List Package := [⟨"b", some "B", 7, true⟩, ⟨"a", none, 0, false⟩, .ofName "b"]

/-- The game list goes, a forced load fails, the applist is rewritten and read again, an unforced
load does nothing, and the applist becomes unreadable. -/
def upheaval : List Operation :=
  [.write .directory .gamelist, .load (.failing "down") true,
    .write (.ofText "\x7b\"b\":\x7b\x7d\x7d") .applist, .refresh, .load (.packages []) false,
    .write (.bytes [0xFF]) .applist]

theorem upheaval_survived :
    (furnished.run (.load (.packages installedTwice) false :: upheaval)).catalog.apps =
      [⟨"B", "b", 7, true, true, true⟩, ⟨"Unknown", "a", 0, false, true, false⟩,
        ⟨"Unknown", "b", 0, false, true, true⟩] := by
  have nothing (d : Desk) : d.Stands [] := fun before op after split => by simp at split
  have stands : (furnished.perform (.load (.packages installedTwice) false)).Stands upheaval := by
    refine stands_cons.mpr ⟨nofun, stands_cons.mpr ⟨?failing, stands_cons.mpr ⟨nofun,
      stands_cons.mpr ⟨nofun, stands_cons.mpr ⟨?unforced, stands_cons.mpr ⟨nofun, nothing _⟩⟩⟩⟩⟩⟩
    case failing =>
      rintro ⟨_, _, _, _, found⟩
      cases found
    case unforced =>
      rintro ⟨_, _, _, scans, _⟩
      revert scans
      decide +kernel
  have names : GameList.names "b\na\n".toList = [['b'], ['a']] := by decide +kernel
  have keys : Json.objectKeys? "\x7b\"b\":\x7b\x7d\x7d".toList = some [['b']] := by decide +kernel
  have built := (list_of_history _ _ _).built [] upheaval (.packages installedTwice) false
    installedTwice rfl ⟨.inr rfl, rfl⟩ stands
  refine built.trans (Eq.trans (b := rows installedTwice (.ofText "b\na\n")
    (.ofText "\x7b\"b\":\x7b\x7d\x7d")) rfl ?_)
  simp only [rows, GameList.mem_read (FileContent.text_ofText _),
    Applist.mem_read (FileContent.text_ofText _), names, keys]
  decide +kernel

end Desk

end ModalHost
