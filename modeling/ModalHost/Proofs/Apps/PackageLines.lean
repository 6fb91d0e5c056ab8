import ModalHost.Proofs.Apps.History
import ModalHost.Proofs.Text.Lines
import ModalHost.Proofs.Text.Trimming

/-! A package list is read as it is written, whatever the layout of its lines, and nothing is read
from it that could not be written so. -/

namespace ModalHost.PackageList

open Text

/-! ### The layout of a package list -/

/-- What a field of a line can say. -/
structure IsField (s : List Char) : Prop where
  nonempty : s ≠ []
  colon : ':' ∉ s
  newline : '\n' ∉ s
  trimmed : IsTrimmed s

/-- What a line can say of a package. -/
structure Listable (p : Package) : Prop where
  uid : p.uid = 0
  name : IsField p.name.toList
  label : ∀ label, p.label = some label → IsField label.toList

/-- White space within a line. -/
structure IsMargin (s : List Char) : Prop where
  blank : IsBlank s
  newline : '\n' ∉ s

/-- A field with white space around it. -/
inductive Padded (field : List Char) : List Char → Prop
  | intro (before after : List Char) (front : IsMargin before) (back : IsMargin after) :
      Padded field (before ++ field ++ after)

def labelText (p : Package) : List Char := (p.label.map String.toList).getD []

/-- A line with a package on it, `package[:label[:system]]`. -/
inductive Writes (p : Package) : List Char → Prop
  | name {name : List Char} (named : Padded p.name.toList name) (unlabelled : p.label = none)
      (user : p.isSystem = false) : Writes p name
  | label {name label : List Char} (named : Padded p.name.toList name)
      (labelled : Padded (labelText p) label) (user : p.isSystem = false) :
      Writes p (name ++ ':' :: label)
  /-- The third field marks a system app if it says so, and only then. -/
  | flag {name label flag : List Char} (named : Padded p.name.toList name)
      (labelled : Padded (labelText p) label) (single : '\n' ∉ flag)
      (marks : p.isSystem = true ↔ Padded "system".toList flag) :
      Writes p (name ++ ':' :: (label ++ ':' :: flag))

/-- The text before the first colon, or all of it, is blank. -/
def IsNameless (line : List Char) : Prop := IsBlank (line.takeWhile (· ≠ ':'))

/-- A line and the packages on it, of which there is at most one. -/
inductive Line : List Package → List Char → Prop
  | package {p : Package} {line : List Char} (writes : Writes p line) : Line [p] line
  | idle {line : List Char} (single : '\n' ∉ line) (nameless : IsNameless line) : Line [] line

/-- The text of a package list. Its last line may go without an ending. -/
inductive Lists : List Package → List Char → Prop
  | nothing : Lists [] []
  | last {found : List Package} {line : List Char} (on : Line found line) : Lists found line
  | line {found later : List Package} {line rest : List Char} (on : Line found line)
      (ending : List Char) (ends : ending = ['\n'] ∨ ending = ['\r', '\n'])
      (lists : Lists later rest) : Lists (found ++ later) (line ++ ending ++ rest)

instance (s : List Char) : Decidable (IsField s) :=
  decidable_of_iff (s ≠ [] ∧ ':' ∉ s ∧ '\n' ∉ s ∧ IsTrimmed s)
    ⟨fun h => ⟨h.1, h.2.1, h.2.2.1, h.2.2.2⟩, fun h => ⟨h.1, h.2, h.3, h.4⟩⟩

instance (s : List Char) : Decidable (IsMargin s) :=
  decidable_of_iff (IsBlank s ∧ '\n' ∉ s) ⟨fun h => ⟨h.1, h.2⟩, fun h => ⟨h.1, h.2⟩⟩

/-! ### Fields -/

variable {field line name label flag : List Char}

theorem Padded.newline (padded : Padded field line) (single : '\n' ∉ field) : '\n' ∉ line := by
  obtain ⟨before, after, front, back⟩ := padded
  simp [front.newline, back.newline, single]

theorem Padded.colon (padded : Padded field line) (plain : ':' ∉ field) : ':' ∉ line := by
  obtain ⟨before, after, front, back⟩ := padded
  have solid {margin : List Char} (blank : IsBlank margin) : ':' ∉ margin :=
    fun member => absurd (blank _ member) (by decide)
  simp [solid front.blank, solid back.blank, plain]

theorem Padded.trim (padded : Padded field line) (trimmed : IsTrimmed field) :
    Text.trim line = field := by
  obtain ⟨before, after, front, back⟩ := padded
  exact trim_surrounded front.blank trimmed back.blank

theorem padded_trim (single : '\n' ∉ line) : Padded (Text.trim line) line := by
  obtain ⟨before, after, front, back, whole⟩ := surrounded_trim line
  have within {margin : List Char} (part : margin ⊆ line) (blank : IsBlank margin) :
      IsMargin margin := ⟨blank, fun member => single (part member)⟩
  have padded : Padded (Text.trim line) _ := .intro before after
    (within (fun c member => by rw [whole]; simp [member]) front)
    (within (fun c member => by rw [whole]; simp [member]) back)
  rwa [← whole] at padded

theorem padded_iff (single : '\n' ∉ line) (trimmed : IsTrimmed field) :
    Padded field line ↔ Text.trim line = field :=
  ⟨fun padded => padded.trim trimmed, fun same => same ▸ padded_trim single⟩

theorem cutColon_of_not_mem (plain : ':' ∉ field) : cutColon field = (field, none) := by
  induction field with
  | nil => rfl
  | cons c rest ih =>
      rw [List.mem_cons, not_or] at plain
      rw [cutColon, if_neg (fun colon => plain.1 colon.symm), ih plain.2]

theorem cutColon_append (plain : ':' ∉ field) (rest : List Char) :
    cutColon (field ++ ':' :: rest) = (field, some rest) := by
  induction field with
  | nil => rfl
  | cons c field ih =>
      rw [List.mem_cons, not_or] at plain
      rw [List.cons_append, cutColon, if_neg (fun colon => plain.1 colon.symm), ih plain.2]

theorem cut_cases (line : List Char) : ':' ∉ line ∨
    (∃ name label, ':' ∉ name ∧ ':' ∉ label ∧ line = name ++ ':' :: label) ∨
    ∃ name label flag, ':' ∉ name ∧ ':' ∉ label ∧ line = name ++ ':' :: (label ++ ':' :: flag) := by
  by_cases first : ':' ∈ line
  · obtain ⟨name, rest, rfl, plain⟩ := List.eq_append_cons_of_mem first
    by_cases second : ':' ∈ rest
    · obtain ⟨label, flag, rfl, plain'⟩ := List.eq_append_cons_of_mem second
      exact .inr (.inr ⟨name, label, flag, plain, plain', rfl⟩)
    · exact .inr (.inl ⟨name, rest, plain, second, rfl⟩)
  · exact .inl first

/-! ### The package of a line -/

def ofFields (name label flag : List Char) : Option Package :=
  if Text.trim name = [] then none
  else some {
    name := String.ofList (Text.trim name)
    label := label? label
    uid := 0
    isSystem := Text.trim flag == "system".toList }

theorem label?_congr {field field' : List Char} (same : Text.trim field = Text.trim field') :
    label? field = label? field' := by
  rw [label?, label?, same]

theorem package?_bare (plain : ':' ∉ line) : package? line = ofFields line [] [] := by
  have cut := cutColon_of_not_mem fun member => plain (trim_subset line member)
  simp only [package?, cut, ofFields, List.isEmpty_iff, trim_of_isTrimmed (isTrimmed_trim line)]
  rfl

/-- Neither side of a colon is cut differently for the white space at the other end. -/
theorem package?_labelled (plain : ':' ∉ name) (plain' : ':' ∉ label) :
    package? (name ++ ':' :: label) = ofFields name label [] := by
  have cut := cutColon_append (fun member => plain (trimStart_subset name member)) (trimEnd label)
  have cut' := cutColon_of_not_mem fun member => plain' (trimEnd_subset label member)
  have colon : isWhiteSpace ':' = false := by decide
  simp only [package?, trim_append_cons colon, cut, cut', ofFields, List.isEmpty_iff, trim_trimStart,
    label?_congr (trim_trimEnd label)]
  rfl

theorem package?_flagged (plain : ':' ∉ name) (plain' : ':' ∉ label) (flag : List Char) :
    package? (name ++ ':' :: (label ++ ':' :: flag)) = ofFields name label flag := by
  have colon : isWhiteSpace ':' = false := by decide
  have shielded : Text.trim (name ++ ':' :: (label ++ ':' :: flag)) =
      trimStart name ++ ':' :: (label ++ ':' :: trimEnd flag) := by
    have inner := trim_append_cons colon (name ++ ':' :: label) flag
    rw [trimStart_append_cons colon] at inner
    simpa only [List.append_assoc, List.cons_append] using inner
  have cut := cutColon_append (fun member => plain (trimStart_subset name member))
    (label ++ ':' :: trimEnd flag)
  have cut' := cutColon_append plain' (trimEnd flag)
  simp only [package?, shielded, cut, cut', ofFields, List.isEmpty_iff, trim_trimStart,
    Option.any_some, trim_trimEnd]

theorem package?_cases (line : List Char) : ∃ label flag,
    package? line = ofFields (line.takeWhile (· ≠ ':')) label flag ∧ ':' ∉ label ∧
      line.takeWhile (· ≠ ':') ⊆ line ∧ label ⊆ line := by
  have other {name : List Char} (plain : ':' ∉ name) : ∀ c ∈ name, decide (c ≠ ':') = true :=
    fun c member => decide_eq_true (ne_of_mem_of_not_mem member plain)
  have first {name : List Char} (plain : ':' ∉ name) (rest : List Char) :
      (name ++ ':' :: rest).takeWhile (· ≠ ':') = name := by
    rw [List.takeWhile_append_of_pos (other plain)]
    simp
  have within : line.takeWhile (· ≠ ':') ⊆ line := (List.takeWhile_sublist _).subset
  rcases cut_cases line with plain | ⟨name, label, plain, plain', rfl⟩ |
    ⟨name, label, flag, plain, plain', rfl⟩
  · have all : line.takeWhile (· ≠ ':') = line := List.takeWhile_eq_self_iff.mpr (other plain)
    exact ⟨[], [], by rw [all, package?_bare plain], by simp, within, by simp⟩
  · have part : label ⊆ name ++ ':' :: label := fun c member => by simp [member]
    exact ⟨label, [], by rw [first plain, package?_labelled plain plain'], plain', within, part⟩
  · have part : label ⊆ name ++ ':' :: (label ++ ':' :: flag) := fun c member => by simp [member]
    exact ⟨label, flag, by rw [first plain, package?_flagged plain plain'], plain', within, part⟩

theorem package?_eq_none_iff : package? line = none ↔ IsNameless line := by
  obtain ⟨label, flag, read, -, -, -⟩ := package?_cases line
  rw [read, ofFields, IsNameless, ← trim_eq_nil_iff, ite_eq_left_iff]
  constructor
  · exact fun same => by_contra fun named => absurd (same named) nofun
  · exact fun nameless named => absurd nameless named

theorem listable_of_package? {p : Package} (single : '\n' ∉ line) (read : package? line = some p) :
    Listable p := by
  obtain ⟨label, flag, fields, plain, named, labelled⟩ := package?_cases line
  rw [fields, ofFields] at read
  split at read
  · cases read
  · rename_i name
    obtain rfl := Option.some.inj read
    have no_colon : ':' ∉ line.takeWhile (· ≠ ':') := fun member => by
      simpa using List.mem_takeWhile_imp member
    refine ⟨rfl, ?_, fun text given => ?_⟩
    · rw [String.toList_ofList]
      exact ⟨name, fun member => no_colon (trim_subset _ member),
        fun member => single (named (trim_subset _ member)), isTrimmed_trim _⟩
    · simp only [label?] at given
      split at given
      · cases given
      · rename_i some_label
        obtain rfl := Option.some.inj given
        rw [String.toList_ofList]
        rw [List.isEmpty_iff] at some_label
        exact ⟨some_label, fun member => plain (trim_subset _ member),
          fun member => single (labelled (trim_subset _ member)), isTrimmed_trim _⟩

theorem labelText_trimmed {p : Package} (listable : Listable p) :
    ':' ∉ labelText p ∧ IsTrimmed (labelText p) ∧ '\n' ∉ labelText p := by
  rw [labelText]
  cases given : p.label with
  | none => exact ⟨nofun, by decide, nofun⟩
  | some label => exact ⟨(listable.label label given).colon, (listable.label label given).trimmed,
      (listable.label label given).newline⟩

theorem label?_of_padded {p : Package} (listable : Listable p) (padded : Padded (labelText p) field) :
    label? field = p.label := by
  rw [label?, padded.trim (labelText_trimmed listable).2.1, labelText]
  cases given : p.label with
  | none => rfl
  | some label =>
      have nonempty := (listable.label label given).nonempty
      simpa using nonempty

theorem ofFields_of_padded {p : Package} (listable : Listable p)
    (named : Padded p.name.toList name) (labelled : label? label = p.label)
    (marks : p.isSystem = true ↔ Text.trim flag = "system".toList) :
    ofFields name label flag = some p := by
  have flagged : (Text.trim flag == "system".toList) = p.isSystem := by
    rw [Bool.eq_iff_iff, beq_iff_eq, marks]
  rw [ofFields, named.trim listable.name.trimmed, if_neg listable.name.nonempty, labelled, flagged,
    String.ofList_toList]
  obtain ⟨_, _, uid, _⟩ := p
  obtain rfl := listable.uid
  rfl

theorem package?_of_writes {p : Package} (listable : Listable p) (writes : Writes p line) :
    package? line = some p := by
  have plain {name : List Char} (named : Padded p.name.toList name) := named.colon listable.name.colon
  have plain' {label : List Char} (labelled : Padded (labelText p) label) :=
    labelled.colon (labelText_trimmed listable).1
  cases writes with
  | name named unlabelled user =>
      rw [package?_bare (plain named)]
      exact ofFields_of_padded listable named unlabelled.symm (by rw [user]; decide)
  | label named labelled user =>
      rw [package?_labelled (plain named) (plain' labelled)]
      exact ofFields_of_padded listable named (label?_of_padded listable labelled)
        (by rw [user]; decide)
  | flag named labelled single marks =>
      rw [package?_flagged (plain named) (plain' labelled)]
      rw [padded_iff single (by decide)] at marks
      exact ofFields_of_padded listable named (label?_of_padded listable labelled) marks

/-! ### The packages of a text -/

theorem newline_not_mem_of_writes {p : Package} (listable : Listable p) (writes : Writes p line) :
    '\n' ∉ line := by
  have in_name {name : List Char} (named : Padded p.name.toList name) :=
    named.newline listable.name.newline
  have in_label {label : List Char} (labelled : Padded (labelText p) label) :=
    labelled.newline (labelText_trimmed listable).2.2
  cases writes with
  | name named => exact in_name named
  | label named labelled => simp [in_name named, in_label labelled]
  | flag named labelled single => simp [in_name named, in_label labelled, single]

theorem package?_return (line : List Char) : package? (line ++ ['\r']) = package? line := by
  have blank : IsBlank ['\r'] := by decide
  rw [package?, package?, trim_append_right blank]

theorem packages_eq (text : List Char) :
    packages text = (text.splitOn '\n').filterMap package? :=
  filterMap_lines rfl package?_return text

theorem packages_line (single : '\n' ∉ line) (rest : List Char) :
    packages (line ++ '\n' :: rest) = (package? line).toList ++ packages rest := by
  rw [packages_eq, packages_eq, filterMap_splitOn_line single]

theorem packages_last (single : '\n' ∉ line) : packages line = (package? line).toList := by
  rw [packages_eq, filterMap_splitOn_last single]

theorem Line.reads {found : List Package} (on : Line found line)
    (listable : ∀ p ∈ found, Listable p) : '\n' ∉ line ∧ (package? line).toList = found := by
  cases on with
  | package writes =>
      have here := listable _ List.mem_cons_self
      exact ⟨newline_not_mem_of_writes here writes, by rw [package?_of_writes here writes]; rfl⟩
  | idle single nameless => exact ⟨single, by rw [package?_eq_none_iff.mpr nameless]; rfl⟩

theorem packages_of_lists {written : List Package} {text : List Char} (lists : Lists written text)
    (listable : ∀ p ∈ written, Listable p) : packages text = written := by
  induction lists with
  | nothing => rfl
  | last on =>
      obtain ⟨single, read⟩ := on.reads listable
      rw [packages_last single, read]
  | @line found later line rest on ending ends lists ih =>
      obtain ⟨single, read⟩ := on.reads fun p member => listable p (List.mem_append_left _ member)
      have rest_read := ih fun p member => listable p (List.mem_append_right _ member)
      rcases ends with rfl | rfl
      · rw [List.append_assoc, List.singleton_append, packages_line single, read, rest_read]
      · have single' : '\n' ∉ line ++ ['\r'] := by simp [single]
        have ended : line ++ ['\r', '\n'] ++ rest = (line ++ ['\r']) ++ '\n' :: rest := by simp
        rw [ended, packages_line single', package?_return, read, rest_read]

theorem exists_lists (written : List Package) : ∃ text, Lists written text := by
  have bare (field : List Char) : Padded field field := by
    have padded : Padded field _ := .intro [] [] (by decide) (by decide)
    rwa [List.nil_append, List.append_nil] at padded
  induction written with
  | nil => exact ⟨[], .nothing⟩
  | cons p written ih =>
      obtain ⟨rest, lists⟩ := ih
      have marks : p.isSystem = true ↔
          Padded "system".toList (if p.isSystem then "system".toList else []) := by
        rw [padded_iff (by split <;> decide) (by decide)]
        cases p.isSystem <;> decide
      have writes : Writes p _ := .flag (bare _) (bare _) (by split <;> decide) marks
      exact ⟨_, .line (.package writes) ['\n'] (.inl rfl) lists⟩

/-- A list of packages is read back from every text of it. And from every text of any kind only such
packages are read as could be written, one from each line that has a name on it. -/
theorem read_back_and_listable :
    (∀ (written : List Package) (text : List Char), (∀ p ∈ written, Listable p) →
      Lists written text → read (.bytes (Utf8.encode text)) = .ok written) ∧
    (∀ written : List Package, ∃ text, Lists written text) ∧
    ∀ (content : Bytes) (text : List Char), Utf8.decode content = some text →
      ∃ found, read (.bytes content) = .ok found ∧ (∀ p ∈ found, Listable p) ∧
        found.length = (text.splitOn '\n').countP fun line =>
          !(line.takeWhile (· ≠ ':')).all isWhiteSpace := by
  refine ⟨fun written text listable lists => ?_, exists_lists, fun content text decoded => ?_⟩
  · rw [read, FileContent.text, Utf8.decode_encode, ← packages_of_lists lists listable]
    rfl
  · refine ⟨packages text, by rw [read, FileContent.text, decoded]; rfl, fun p member => ?_, ?_⟩
    · obtain ⟨line, in_text, read⟩ := List.mem_filterMap.mp member
      exact listable_of_package? (newline_not_mem_lines text line in_text) read
    · rw [packages_eq, List.length_filterMap_eq_countP]
      refine List.countP_congr fun line _ => ?_
      rw [Option.isSome_iff_ne_none, Ne, package?_eq_none_iff, IsNameless, IsBlank]
      simp

/-- A no-break space behind a name, a line without a name, a third field that says something else, and
no line feed at the end. -/
def roomy : List Char := " com.a\u00a0:Al pha:\tsystem\r\n :x\ncom.b::systems:".toList

def alpha : Package := ⟨"com.a", some "Al pha", 0, true⟩

def beta : Package := .ofName "com.b"

theorem roomy_read_back : (∀ p ∈ [alpha, beta], Listable p) ∧ Lists [alpha, beta] roomy ∧
    read (.bytes (Utf8.encode roomy)) = .ok [alpha, beta] := by
  have listable : ∀ p ∈ [alpha, beta], Listable p := by
    rw [List.forall_mem_cons, List.forall_mem_singleton]
    refine ⟨⟨rfl, by decide, ?_⟩, ⟨rfl, by decide, nofun⟩⟩
    rintro _ ⟨⟩
    decide
  have lists : Lists [alpha, beta] roomy := by
    have named : Padded alpha.name.toList " com.a\u00a0".toList :=
      .intro [' '] ['\u00a0'] (by decide) (by decide)
    have labelled : Padded (labelText alpha) "Al pha".toList :=
      .intro [] [] (by decide) (by decide)
    have system : Padded "system".toList "\tsystem".toList :=
      .intro ['\t'] [] (by decide) (by decide)
    have named' : Padded beta.name.toList "com.b".toList := .intro [] [] (by decide) (by decide)
    have unlabelled : Padded (labelText beta) [] := .intro [] [] (by decide) (by decide)
    have user : ¬Padded "system".toList "systems:".toList := by
      rw [padded_iff (by decide) (by decide)]
      decide
    have first : Line [alpha] " com.a\u00a0:Al pha:\tsystem".toList :=
      .package (.flag named labelled (by decide) (iff_of_true rfl system))
    have second : Line [] " :x".toList := .idle (by decide) (by unfold IsNameless; decide)
    have third : Line [beta] "com.b::systems:".toList :=
      .package (.flag named' unlabelled (by decide) (iff_of_false nofun user))
    exact .line first ['\r', '\n'] (.inr rfl) (.line second ['\n'] (.inl rfl) (.last third))
  exact ⟨listable, lists, read_back_and_listable.1 [alpha, beta] roomy listable lists⟩

end ModalHost.PackageList
