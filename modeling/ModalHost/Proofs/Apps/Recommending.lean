import Mathlib.Data.List.Nodup
import Mathlib.Logic.Relation
import ModalHost.Proofs.Apps.Order
import ModalHost.Proofs.Apps.PackageLines

/-! The game list means packages by the names that the package list gives them, whatever the layout of
the two, and it says the same in every layout. -/

namespace ModalHost

theorem pairwise_eraseDups {α : Type} [BEq α] [LawfulBEq α] {before : α → α → Prop} (l : List α)
    (ordered : l.Pairwise before) : l.eraseDups.Pairwise fun a b => before a b ∧ a ≠ b := by
  induction length : l.length using Nat.strongRecOn generalizing l with
  | ind n ih =>
      cases l with
      | nil => exact .nil
      | cons a l =>
          obtain ⟨first, rest⟩ := List.pairwise_cons.mp ordered
          have shorter : (l.filter fun b => !b == a).length < n :=
            length ▸ Nat.lt_succ_of_le (List.length_filter_le _ l)
          rw [List.eraseDups_cons, List.pairwise_cons]
          refine ⟨fun b member => ?_, ih _ shorter _ (rest.filter _) rfl⟩
          obtain ⟨within, other⟩ := List.mem_filter.mp (List.mem_eraseDups.mp member)
          exact ⟨first b within, fun same => by simp [same] at other⟩

theorem nameSet_congr {names names' : List (List Char)} (same : ∀ n, n ∈ names ↔ n ∈ names') :
    nameSet names = nameSet names' := by
  have total (a b : List Char) : (compare a b).isLE || (compare b a).isLE := by
    have swap : compare a b = (compare b a).swap := Std.OrientedCmp.eq_swap
    rw [swap]
    cases compare b a <;> rfl
  have sorted (l : List (List Char)) :
      (l.mergeSort fun a b => (compare a b).isLE).Pairwise fun a b => (compare a b).isLE :=
    List.pairwise_mergeSort (fun _ _ _ => Std.TransCmp.isLE_trans) total l
  have ordered (l : List (List Char)) := pairwise_eraseDups _ (sorted l)
  have once (l : List (List Char)) := (ordered l).imp And.right
  have reordered := (List.perm_ext_iff_of_nodup (once names) (once names')).mpr fun n => by
    simp only [List.mem_eraseDups, List.mem_mergeSort, same]
  refine congrArg (List.map String.ofList) (List.Perm.eq_of_pairwise ?_ (ordered names)
    (ordered names') reordered)
  intro a b _ _ ab ba
  exact Std.LawfulEqCmp.eq_of_compare (Std.OrientedCmp.isLE_antisymm ab.1 ba.1)

namespace GameList

open Text PackageList

/-! ### The names on a game list -/

def name? (line : List Char) : Option (List Char) :=
  if Text.trim line = [] then none else some (Text.trim line)

theorem name?_return (line : List Char) : name? (line ++ ['\r']) = name? line := by
  have blank : IsBlank ['\r'] := by decide
  rw [name?, name?, trim_append_right blank]

theorem mem_names_iff {text name : List Char} : name ∈ names text ↔
    name ≠ [] ∧ ∃ line ∈ Text.lines text, Text.trim line = name := by
  rw [names, List.mem_filter, List.mem_map, Bool.not_eq_true', List.isEmpty_eq_false_iff, and_comm]

theorem names_eq (text : List Char) : names text = (text.splitOn '\n').filterMap name? := by
  rw [← filterMap_lines rfl name?_return text, names]
  induction Text.lines text with
  | nil => rfl
  | cons line lines ih =>
      rw [List.map_cons, List.filter_cons, List.filterMap_cons, name?, ih]
      by_cases blank : Text.trim line = []
      · rw [if_pos blank, blank]
        rfl
      · rw [if_neg blank, if_pos (by simpa using blank)]

theorem names_line {line : List Char} (single : '\n' ∉ line) (rest : List Char) :
    names (line ++ '\n' :: rest) = (name? line).toList ++ names rest := by
  rw [names_eq, names_eq, filterMap_splitOn_line single]

/-! ### Layouts -/

/-- A line and how it ends. -/
structure Row where
  line : List Char
  ending : List Char
  single : '\n' ∉ line
  ends : ending = ['\n'] ∨ ending = ['\r', '\n']

def page (rows : List Row) : List Char := rows.flatMap fun row => row.line ++ row.ending

/-- What can be done to a game list that leaves its meaning alone. A line that is not the first is
brought there and back by permutations. -/
inductive Relaid : List Char → List Char → Prop
  | permuted {rows rows' : List Row} (reordered : rows.Perm rows') : Relaid (page rows) (page rows')
  | repeated {rows : List Row} (row : Row) (there : row ∈ rows) :
      Relaid (page rows) (page (row :: rows))
  | spaced (rows : List Row) (row : Row) (blank : IsBlank row.line) :
      Relaid (page rows) (page (row :: rows))
  | padded (rows : List Row) (row row' : Row) (around : Padded row.line row'.line)
      (same : row'.ending = row.ending) : Relaid (page (row :: rows)) (page (row' :: rows))
  | ended (rows : List Row) (row row' : Row) (same : row'.line = row.line) :
      Relaid (page (row :: rows)) (page (row' :: rows))
  | unended (rows : List Row) (row : Row) : Relaid (page (rows ++ [row])) (page rows ++ row.line)

theorem names_row (row : Row) (rest : List Char) :
    names (row.line ++ row.ending ++ rest) = (name? row.line).toList ++ names rest := by
  have single : '\n' ∉ row.line ++ ['\r'] := by simp [row.single]
  rcases row.ends with feed | returned
  · rw [feed, List.append_assoc, List.singleton_append, names_line row.single]
  · have ended : row.line ++ row.ending ++ rest = (row.line ++ ['\r']) ++ '\n' :: rest := by
      simp [returned]
    rw [ended, names_line single, name?_return]

theorem names_page (rows : List Row) (rest : List Char) :
    names (page rows ++ rest) = rows.filterMap (name? ·.line) ++ names rest := by
  induction rows with
  | nil => rfl
  | cons row rows ih =>
      have split : page (row :: rows) ++ rest = row.line ++ row.ending ++ (page rows ++ rest) := by
        simp [page]
      rw [split, names_row, ih, List.filterMap_cons]
      cases name? row.line <;> rfl

theorem names_page_alone (rows : List Row) :
    names (page rows) = rows.filterMap (name? ·.line) := by
  have alone := names_page rows []
  rwa [List.append_nil, show names [] = [] from rfl, List.append_nil] at alone

theorem trim_of_padded {field line : List Char} (padded : Padded field line) :
    Text.trim line = Text.trim field := by
  obtain ⟨before, after, front, back⟩ := padded
  rw [trim_append_right back.blank, trim_append_left front.blank]

theorem mem_names_relaid {text text' : List Char} (relaid : Relaid text text') (name : List Char) :
    name ∈ names text ↔ name ∈ names text' := by
  cases relaid with
  | permuted reordered =>
      rw [names_page_alone, names_page_alone]
      exact (reordered.filterMap _).mem_iff
  | repeated row there =>
      rw [names_page_alone, names_page_alone, List.filterMap_cons]
      cases read : name? row.line with
      | none => rfl
      | some n =>
          have known : n ∈ List.filterMap (fun row : Row => name? row.line) _ :=
            List.mem_filterMap.mpr ⟨row, there, read⟩
          rw [List.mem_cons]
          exact ⟨.inr, fun member => member.elim (fun same => same ▸ known) id⟩
  | spaced rows row blank =>
      rw [names_page_alone, names_page_alone, List.filterMap_cons, name?,
        if_pos (trim_eq_nil_iff.mpr blank)]
  | padded rows row row' around same =>
      rw [names_page_alone, names_page_alone, List.filterMap_cons, List.filterMap_cons, name?, name?,
        trim_of_padded around]
  | ended rows row row' same =>
      rw [names_page_alone, names_page_alone, List.filterMap_cons, List.filterMap_cons, same]
  | unended rows row =>
      rw [names_page_alone, names_page, names_eq row.line, filterMap_splitOn_last row.single,
        List.filterMap_append, List.filterMap_cons]
      cases name? row.line <;> rfl

/-- Two files whose texts differ in layout only recommend the same packages. -/
theorem read_eq_of_relaid {file file' : FileContent} {text text' : List Char}
    (readable : file.text = .ok text) (readable' : file'.text = .ok text')
    (relaid : Relation.EqvGen Relaid text text') : read file = read file' := by
  have same : ∀ name, name ∈ names text ↔ name ∈ names text' := by
    clear readable readable'
    induction relaid with
    | rel _ _ step => exact mem_names_relaid step
    | refl => exact fun _ => .rfl
    | symm _ _ _ ih => exact fun name => (ih name).symm
    | trans _ _ _ _ _ first second => exact fun name => (first name).trans (second name)
  rw [read, readable, read, readable']
  exact nameSet_congr same

end GameList

namespace PackageList

open Text

/-- A line of a package list with a name in its first field. -/
inductive Heads (name : List Char) : List Char → Prop
  | alone {field : List Char} (padded : Padded name field) : Heads name field
  | followed {field : List Char} (padded : Padded name field) (rest : List Char) :
      Heads name (field ++ ':' :: rest)

theorem Heads.field {name line : List Char} (heads : Heads name line) (plain : ':' ∉ name) :
    Padded name (line.takeWhile (· ≠ ':')) := by
  have other {field : List Char} (padded : Padded name field) :
      ∀ c ∈ field, decide (c ≠ ':') = true :=
    fun c member => decide_eq_true (ne_of_mem_of_not_mem member (padded.colon plain))
  cases heads with
  | alone padded => rwa [List.takeWhile_eq_self_iff.mpr (other padded)]
  | followed padded rest =>
      rw [List.takeWhile_append_of_pos (other padded)]
      simpa using padded

theorem package_of_heads {name line text : List Char} (heads : Heads name line)
    (plain : ':' ∉ name) (named : ¬IsBlank name) (there : line ∈ text.splitOn '\n') :
    ∃ p ∈ packages text, p.name.toList = Text.trim name := by
  obtain ⟨label, flag, read, -, -, -⟩ := package?_cases line
  have trimmed := GameList.trim_of_padded (heads.field plain)
  have solid : Text.trim name ≠ [] := fun empty => named (trim_eq_nil_iff.mp empty)
  rw [ofFields, trimmed, if_neg solid] at read
  rw [packages_eq]
  exact ⟨_, List.mem_filterMap.mpr ⟨line, there, read⟩, String.toList_ofList⟩

theorem name_ne_empty {text : List Char} {p : Package} (found : p ∈ packages text) :
    p.name.toList ≠ [] := by
  obtain ⟨line, there, read⟩ := List.mem_filterMap.mp found
  exact (listable_of_package? (newline_not_mem_lines text line there) read).name.nonempty

end PackageList

namespace Desk

open Text PackageList

/-- An app is recommended exactly if some line of the game list says its package name. -/
def Marked (d : Desk) (gamelist : List Char) : Prop :=
  ∀ app ∈ d.catalog.apps, app.isRecommended = true ↔
    ∃ line ∈ Text.lines gamelist, Text.trim line = app.package.toList

variable {d : Desk} {gamelist : List Char}

theorem names_installed {found : List Package} (installed : d.installed .file = .ok found) :
    ∀ p ∈ found, p.name.toList ≠ [] := by
  rw [Desk.installed, readPackages, PackageList.read] at installed
  cases readable : d.packages.text with
  | error e =>
      rw [readable] at installed
      cases installed
  | ok text =>
      rw [readable] at installed
      cases installed
      exact fun p => name_ne_empty

theorem builds_of_readable {packages : List Char} {force : Bool}
    (readable : d.packages.text = .ok packages) (scans : force = true ∨ d.catalog.apps = []) :
    d.Builds .file force (PackageList.packages packages) where
  scans
  found := by
    rw [installed, readPackages, PackageList.read, readable]
    rfl

theorem marked_of_builds {found : List Package} {force : Bool} (builds : d.Builds .file force found)
    (listed : d.config.gamelist.text = .ok gamelist) : (d.load .file force).1.Marked gamelist := by
  intro app member
  rw [(d.load_built .file force found builds).2.apps] at member
  obtain ⟨p, there, rfl⟩ := List.mem_map.mp member
  have named := names_installed builds.found p there
  calc decide (p.name ∈ GameList.read d.config.gamelist) = true
      ↔ p.name.toList ∈ GameList.names gamelist :=
        decide_eq_true_iff.trans (GameList.mem_read listed p.name)
    _ ↔ ∃ line ∈ Text.lines gamelist, Text.trim line = p.name.toList :=
        GameList.mem_names_iff.trans (and_iff_right named)

theorem marked_perform (op : Operation) (marked : d.Marked gamelist)
    (listed : d.config.gamelist.text = .ok gamelist)
    (filed : ∀ source force, op = .load source force → source = .file)
    (kept : ∀ content, op ≠ .write content .gamelist) :
    (d.perform op).Marked gamelist ∧ (d.perform op).config.gamelist.text = .ok gamelist := by
  cases op with
  | load source force =>
      obtain rfl := filed source force rfl
      rw [perform]
      rcases d.load_cases .file force with ⟨rfl, loaded⟩ | ⟨e, scans, failed⟩ | ⟨found, builds⟩
      · rw [d.load_idle .file loaded]
        exact ⟨marked, listed⟩
      · have scanned := (d.load_failed .file force scans e failed).2
        rw [Marked, scanned.apps, scanned.config]
        exact ⟨marked, listed⟩
      · rw [(d.load_built .file force found builds).2.config]
        exact ⟨marked_of_builds builds listed, listed⟩
  | refresh =>
      refine ⟨fun app member => ?_, listed⟩
      obtain ⟨before, there, rfl⟩ := List.mem_map.mp member
      exact marked before there
  | clear => exact ⟨fun _ member => absurd member List.not_mem_nil, listed⟩
  | write content file =>
      cases file with
      | gamelist => exact absurd rfl (kept content)
      | applist | packages => exact ⟨marked, listed⟩

theorem marked_run (ops : List Operation) (marked : d.Marked gamelist)
    (listed : d.config.gamelist.text = .ok gamelist)
    (filed : ∀ source force, .load source force ∈ ops → source = .file)
    (kept : ∀ content, .write content .gamelist ∉ ops) : (d.run ops).Marked gamelist := by
  induction ops generalizing d with
  | nil => exact marked
  | cons op ops ih =>
      have first := marked_perform op marked listed
        (fun source force same => filed source force (same ▸ List.mem_cons_self))
        fun content same => kept content (same ▸ List.mem_cons_self)
      exact ih first.1 first.2 (fun source force member => filed source force (.tail _ member))
        fun content member => kept content (.tail _ member)

theorem recommended_of_written {packages name line entry : List Char} {force : Bool}
    (scans : force = true ∨ d.catalog.apps = []) (installed : d.packages.text = .ok packages)
    (listed : d.config.gamelist.text = .ok gamelist) (plain : ':' ∉ name) (named : ¬IsBlank name)
    (on_list : line ∈ gamelist.splitOn '\n') (padded : Padded name line)
    (in_scan : entry ∈ packages.splitOn '\n') (heads : Heads name entry) :
    ∃ app ∈ (d.load .file force).1.catalog.apps, app.package.toList = Text.trim name ∧
      app.isRecommended = true := by
  have builds := builds_of_readable installed scans
  obtain ⟨p, there, same⟩ := package_of_heads heads plain named in_scan
  have known : Text.trim name ∈ GameList.names gamelist := by
    have solid : Text.trim name ≠ [] := fun empty => named (trim_eq_nil_iff.mp empty)
    rw [GameList.names_eq]
    exact List.mem_filterMap.mpr ⟨line, on_list, by
      rw [GameList.name?, GameList.trim_of_padded padded, if_neg solid]⟩
  have recommended : p.name ∈ GameList.read d.config.gamelist :=
    (GameList.mem_read listed p.name).mpr (same ▸ known)
  rw [(d.load_built .file force _ builds).2.apps]
  exact ⟨_, List.mem_map.mpr ⟨p, there, rfl⟩, same, decide_eq_true recommended⟩

/-- While the game list stays as it is, every app that was found in the package list is marked by it,
whatever is done. A load that scans a readable package list succeeds, and a name that is written in
both lists, be it with different white space, makes a recommended app. And only what is on the lines of
the game list counts, not their order, number, padding and endings, nor blank lines among them. -/
theorem names_agree (d : Desk) (gamelist : List Char)
    (listed : d.config.gamelist.text = .ok gamelist) :
    (∀ ops : List Operation, d.catalog.apps = [] →
      (∀ source force, .load source force ∈ ops → source = .file) →
      (∀ content, .write content .gamelist ∉ ops) → (d.run ops).Marked gamelist) ∧
    (∀ (packages : List Char) (force : Bool), d.packages.text = .ok packages →
      force = true ∨ d.catalog.apps = [] →
        (d.load .file force).2 = .ok (PackageList.packages packages).length ∧
        (d.load .file force).1.Marked gamelist ∧
        ∀ name line entry : List Char, ':' ∉ name → ¬IsBlank name →
          line ∈ gamelist.splitOn '\n' → Padded name line →
          entry ∈ packages.splitOn '\n' → Heads name entry →
            ∃ app ∈ (d.load .file force).1.catalog.apps,
              app.package.toList = Text.trim name ∧ app.isRecommended = true) ∧
    ∀ (file : FileContent) (text : List Char), file.text = .ok text →
      Relation.EqvGen GameList.Relaid gamelist text →
        GameList.read file = GameList.read d.config.gamelist := by
  refine ⟨fun ops bare filed kept => ?_, fun packages force installed scans => ⟨?_, ?_, ?_⟩,
    fun file text readable relaid => ?_⟩
  · have marked : d.Marked gamelist := by
      rw [Marked, bare]
      exact nofun
    exact marked_run ops marked listed filed kept
  · exact (d.load_built .file force _ (builds_of_readable installed scans)).1
  · exact marked_of_builds (builds_of_readable installed scans) listed
  · intro name line entry plain named on_list padded in_scan heads
    exact recommended_of_written scans installed listed plain named on_list padded in_scan heads
  · exact (GameList.read_eq_of_relaid listed readable relaid).symm

def scattered : Desk :=
  new ⟨.absent, .ofText "com.b\t\r\n\r\n\u3000com.a"⟩
    (.ofText "\u2003com.a\u00a0:Alpha\r\ncom.c\ncom.b ")

def betaRow : GameList.Row := ⟨"com.b\t".toList, "\r\n".toList, by decide, by decide⟩

def blankRow : GameList.Row := ⟨[], "\r\n".toList, by decide, by decide⟩

def alphaRow : GameList.Row := ⟨"\u3000com.a".toList, "\n".toList, by decide, by decide⟩

def alphaAlone : GameList.Row := ⟨"com.a".toList, "\n".toList, by decide, by decide⟩

theorem scattered_relaid : Relation.EqvGen GameList.Relaid "com.b\t\r\n\r\n\u3000com.a".toList
    "com.a\ncom.b\t\r\n".toList := by
  have ended := GameList.Relaid.unended [betaRow, blankRow] alphaRow
  have reordered : [betaRow, blankRow, alphaRow].Perm [blankRow, alphaRow, betaRow] :=
    @List.perm_append_comm _ [betaRow] [blankRow, alphaRow]
  have spaced := GameList.Relaid.spaced [alphaRow, betaRow] blankRow (by decide)
  have padded := GameList.Relaid.padded [betaRow] alphaAlone alphaRow
    (.intro ['\u3000'] [] (by decide) (by decide)) rfl
  exact (((Relation.EqvGen.rel _ _ ended).symm.trans _ _ _ (.rel _ _ (.permuted reordered))).trans
    _ _ _ (Relation.EqvGen.rel _ _ spaced).symm).trans _ _ _ (Relation.EqvGen.rel _ _ padded).symm

theorem scattered_agree :
    (scattered.run [.load .file false, .refresh, .load .file false]).Marked
      "com.b\t\r\n\r\n\u3000com.a".toList ∧
    (∃ app ∈ (scattered.load .file false).1.catalog.apps,
      app.package.toList = "com.a".toList ∧ app.isRecommended = true) ∧
    GameList.read (.ofText "com.a\ncom.b\t\r\n") = GameList.read scattered.config.gamelist := by
  have agree := names_agree scattered "com.b\t\r\n\r\n\u3000com.a".toList (FileContent.text_ofText _)
  refine ⟨agree.1 _ rfl (by simp) (by simp), ?_,
    agree.2.2 _ _ (FileContent.text_ofText _) scattered_relaid⟩
  have written := (agree.2.1 "\u2003com.a\u00a0:Alpha\r\ncom.c\ncom.b ".toList false
    (FileContent.text_ofText _) (.inr rfl)).2.2
  have listed : Padded "com.a".toList "\u3000com.a".toList :=
    .intro ['\u3000'] [] (by decide) (by decide)
  have installed : Padded "com.a".toList "\u2003com.a\u00a0".toList :=
    .intro ['\u2003'] ['\u00a0'] (by decide) (by decide)
  exact written "com.a".toList _ _ (by decide) (by decide) (by decide) listed (by decide)
    (.followed installed "Alpha\r".toList)

end Desk

end ModalHost
