import Mathlib.Data.List.DropRight
import ModalHost.Proofs.Json.Numbers
import ModalHost.Proofs.Json.Strings
import ModalHost.Proofs.Lists

/-! The keys of a text are read exactly if it is an object by the grammar, not nested too deep and
with numbers in range. -/

namespace ModalHost.Json

variable {c : Char} {v : Value} {items : List Value} {m : List Char × Value}
  {members : List (List Char × Value)} {keys : List (List Char)} {key s t u gap rest : List Char}
  {fuel depth : Nat}

abbrev Value.Admitted (depth : Nat) (v : Value) : Prop := v.Fits (fun n => n.inRange = true) depth

/-! ### Gaps -/

theorem isBlank_iff : isBlank c = true ↔ c = ' ' ∨ c = '\t' ∨ c = '\n' ∨ c = '\r' := by
  simp only [isBlank, Bool.or_eq_true, beq_iff_eq, or_assoc]

theorem isGap_iff : IsGap gap ↔ ∀ c ∈ gap, isBlank c = true := by
  simp only [IsGap, isBlank_iff]

theorem skipBlank_gap (space : IsGap gap) (s : List Char) :
    skipBlank (gap ++ s) = skipBlank s :=
  List.dropWhile_append_of_pos (isGap_iff.mp space)

theorem skipBlank_cons (ink : isBlank c = false) (s : List Char) : skipBlank (c :: s) = c :: s :=
  List.dropWhile_cons_of_neg (by simp [ink])

@[simp] theorem skipBlank_skipBlank (s : List Char) : skipBlank (skipBlank s) = skipBlank s :=
  List.dropWhile_idempotent _ s

theorem exists_gap (s : List Char) : ∃ gap, IsGap gap ∧ s = gap ++ skipBlank s :=
  ⟨s.takeWhile isBlank, isGap_iff.mpr fun _ member => List.mem_takeWhile_imp member,
    List.takeWhile_append_dropWhile.symm⟩

theorem skipBlank_eq_nil_iff : skipBlank s = [] ↔ IsGap s := by
  rw [skipBlank, List.dropWhile_eq_nil_iff, isGap_iff]

theorem EndsNumber.after_gap (space : IsGap gap) (ends : EndsNumber rest) :
    EndsNumber (gap ++ rest) := by
  cases gap with
  | nil => exact ends
  | cons c gap =>
      rintro _ ⟨⟩
      have blanks : ∀ c ∈ [' ', '\t', '\n', '\r'],
          c.isDigit = false ∧ c ≠ '.' ∧ c ≠ 'e' ∧ c ≠ 'E' := forall_mem_of_all (by decide)
      exact blanks c (by simpa using space c List.mem_cons_self)

@[simp] theorem value?_skipBlank : value? fuel depth (skipBlank s) = value? fuel depth s := by
  cases fuel with
  | zero => simp only [value?]
  | succ fuel => simp only [value?, skipBlank_skipBlank]

@[simp] theorem items?_skipBlank : items? fuel depth (skipBlank s) = items? fuel depth s := by
  cases fuel with
  | zero => simp only [items?]
  | succ fuel => simp only [items?, value?_skipBlank]

@[simp] theorem key?_skipBlank : key? (skipBlank s) = key? s := by
  simp only [key?, skipBlank_skipBlank]

@[simp] theorem members?_skipBlank : members? fuel depth (skipBlank s) = members? fuel depth s := by
  cases fuel with
  | zero => simp only [members?]
  | succ fuel => simp only [members?, key?_skipBlank]

/-! ### How texts start -/

theorem IsWhole.head {ds : List Nat} (whole : IsWhole ds) :
    ∃ d more, digitsText ds = Nat.digitChar d :: more ∧ d < 10 := by
  cases ds with
  | nil => exact absurd rfl whole.nonempty
  | cons d ds => exact ⟨d, _, rfl, whole.decimal d List.mem_cons_self⟩

theorem NumberText.head {isNegative : Bool} {n : Numeral} (written : NumberText isNegative n t) :
    ∃ c more, t = c :: more ∧ c ∈ "-0123456789".toList := by
  obtain ⟨whole, -, -⟩ := written
  have table : ∀ d < 10, Nat.digitChar d ∈ "-0123456789".toList := by decide
  obtain ⟨d, more, shape, small⟩ := whole.head
  cases isNegative with
  | true => exact ⟨'-', _, rfl, List.mem_cons_self⟩
  | false =>
      rw [shape]
      exact ⟨Nat.digitChar d, _, rfl, table d small⟩

theorem ValueText.head (written : ValueText v t) :
    ∃ c more, t = c :: more ∧ isBlank c = false ∧ c ≠ ']' := by
  have table : ∀ c ∈ "-0123456789".toList, isBlank c = false ∧ c ≠ ']' :=
    forall_mem_of_all (by decide)
  cases written with
  | null => exact ⟨'n', _, rfl, by decide⟩
  | bool b => cases b <;> exact ⟨_, _, rfl, by decide⟩
  | number text =>
      obtain ⟨c, more, shape, start⟩ := text.head
      exact ⟨c, more, shape, table c start⟩
  | text text =>
      cases text
      exact ⟨'"', _, rfl, by decide⟩
  | emptyArray => exact ⟨'[', _, rfl, by decide⟩
  | array => exact ⟨'[', _, rfl, by decide⟩
  | emptyObject => exact ⟨'{', _, rfl, by decide⟩
  | object => exact ⟨'{', _, rfl, by decide⟩

theorem ElementText.start (written : ElementText v t) (rest : List Char) :
    ∃ c more, skipBlank (t ++ rest) = c :: more ∧ c ≠ ']' := by
  obtain ⟨front, text, back⟩ := written
  obtain ⟨c, more, rfl, ink, other⟩ := text.head
  rw [List.append_assoc, skipBlank_gap front, List.append_assoc, List.cons_append,
    skipBlank_cons ink]
  exact ⟨c, _, rfl, other⟩

theorem ItemsText.start (written : ItemsText items t) (rest : List Char) :
    ∃ c more, skipBlank (t ++ rest) = c :: more ∧ c ≠ ']' := by
  cases written with
  | last text => exact text.start rest
  | more text later =>
      rw [List.append_assoc]
      exact text.start _

theorem MemberText.start (written : MemberText m t) (rest : List Char) :
    ∃ more, skipBlank (t ++ rest) = '"' :: more := by
  obtain ⟨front, named, back, text⟩ := written
  obtain ⟨chars⟩ := named
  simp only [List.append_assoc, List.cons_append, skipBlank_gap front]
  exact ⟨_, skipBlank_cons rfl _⟩

theorem MembersText.start (written : MembersText members t) (rest : List Char) :
    ∃ more, skipBlank (t ++ rest) = '"' :: more := by
  cases written with
  | last text => exact text.start rest
  | more text later =>
      rw [List.append_assoc]
      exact text.start _

/-! ### Every text of the grammar is read -/

theorem key?_append {before k after : List Char} (front : IsGap before) (named : StringText key k)
    (back : IsGap after) (rest : List Char) :
    key? (before ++ (k ++ (after ++ ':' :: rest))) = some (key, rest) := by
  obtain ⟨chars⟩ := named
  simp only [List.append_assoc, List.cons_append, List.nil_append]
  have colon : skipBlank (':' :: rest) = ':' :: rest := skipBlank_cons rfl rest
  rw [key?, skipBlank_gap front, skipBlank_cons rfl]
  simp only [chars.reads, bind, Option.bind_some, skipBlank_gap back, colon]
  rfl

theorem value?_number (start : c ∈ "-0123456789".toList) (s : List Char) :
    value? (fuel + 1) depth (c :: s) = number? (c :: s) := by
  have table : ∀ c ∈ "-0123456789".toList, isBlank c = false ∧ c ∉ "ntf\"[\x7b".toList :=
    forall_mem_of_all (by decide)
  obtain ⟨ink, other⟩ := table c start
  rw [value?, skipBlank_cons ink]
  split
  case h_7 => rfl
  all_goals
    rename_i same
    obtain ⟨rfl, -⟩ := List.cons.inj same
    exact absurd (by decide) other

theorem object?_empty (space : IsGap gap) (rest : List Char) :
    object? (fuel + 1) depth (gap ++ '}' :: rest) = some ([], rest) := by
  rw [object?, skipBlank_gap space, skipBlank_cons rfl]
  rfl

theorem object?_members (text : MembersText members t) (rest : List Char) :
    object? (fuel + 1) depth (t ++ rest) = members? fuel depth (t ++ rest) := by
  obtain ⟨more, start⟩ := text.start rest
  rw [object?, ← members?_skipBlank, start]
  rfl

theorem value?_emptyArray (space : IsGap gap) (rest : List Char) :
    value? (fuel + 1) (depth + 1) ('[' :: (gap ++ ']' :: rest)) = some rest := by
  have closing : skipBlank (gap ++ ']' :: rest) = ']' :: rest := by
    rw [skipBlank_gap space, skipBlank_cons rfl]
  rw [value?, skipBlank_cons rfl]
  simp only [closing]

theorem value?_array (text : ItemsText items t) (rest : List Char) :
    value? (fuel + 1) (depth + 1) ('[' :: (t ++ rest)) = items? fuel depth (t ++ rest) := by
  obtain ⟨c, more, start, not_closing⟩ := text.start rest
  rw [value?, skipBlank_cons rfl, ← items?_skipBlank]
  simp only [start]
  split
  · contradiction
  · rename_i same
    exact absurd (List.cons.inj same).1 not_closing
  · rename_i same _
    obtain rfl := Nat.succ.inj same
    rfl

theorem value?_object (s : List Char) :
    value? (fuel + 1) (depth + 1) ('{' :: s) = Prod.snd <$> object? fuel depth s := by
  rw [value?, skipBlank_cons rfl]
  rfl

theorem separator (stop : c ∈ ",]\x7d".toList) (rest : List Char) :
    EndsNumber (c :: rest) ∧ skipBlank (c :: rest) = c :: rest := by
  have table : ∀ c ∈ ",]\x7d".toList,
      isBlank c = false ∧ c.isDigit = false ∧ c ≠ '.' ∧ c ≠ 'e' ∧ c ≠ 'E' :=
    forall_mem_of_all (by decide)
  refine ⟨?_, skipBlank_cons (table c stop).1 rest⟩
  rintro _ ⟨⟩
  exact (table c stop).2

-- The induction is on the text. A value spends at most three steps before one of its characters is
-- taken, those of `value?`, `object?` and `members?`, so three for each character are enough.
mutual

theorem ValueText.reads {v : Value} {t rest : List Char} {fuel depth : Nat}
    (written : ValueText v t) (admitted : v.Admitted depth) (enough : 3 * t.length ≤ fuel)
    (ends : EndsNumber rest) :
    value? fuel depth (t ++ rest) = some rest := by
  cases fuel with
  | zero =>
      obtain ⟨c, more, rfl, -⟩ := written.head
      cases enough
  | succ fuel =>
      cases written with
      | null => rw [value?]; rfl
      | bool b => cases b <;> rw [value?] <;> rfl
      | number text =>
          cases admitted with
          | number inside =>
              obtain ⟨c, more, rfl, start⟩ := text.head
              rw [List.cons_append, value?_number start]
              exact NumberText.reads text inside ends
      | text text =>
          obtain ⟨chars⟩ := text
          rw [value?, List.append_assoc, List.cons_append, skipBlank_cons rfl]
          simp only [List.singleton_append, chars.reads]
          rfl
      | emptyArray space =>
          cases admitted
          simp only [List.cons_append, List.append_assoc, List.nil_append]
          exact value?_emptyArray space rest
      | array text =>
          cases admitted with
          | array admitted =>
              simp only [List.cons_append, List.append_assoc, List.nil_append]
              rw [value?_array text]
              apply ItemsText.reads text admitted
              simp only [List.length_append, List.length_cons] at enough
              omega
      | emptyObject space =>
          cases admitted
          simp only [List.length_append, List.length_cons] at enough
          obtain ⟨fuel, rfl⟩ : ∃ less, fuel = less + 1 := ⟨fuel - 1, by omega⟩
          simp only [List.cons_append, List.append_assoc, List.nil_append]
          rw [value?_object, object?_empty space]
          rfl
      | object text =>
          cases admitted with
          | object admitted =>
              simp only [List.length_append, List.length_cons] at enough
              obtain ⟨fuel, rfl⟩ : ∃ less, fuel = less + 1 := ⟨fuel - 1, by omega⟩
              simp only [List.cons_append, List.append_assoc, List.nil_append]
              rw [value?_object, object?_members text, MembersText.reads text admitted (by omega)]
              rfl

theorem ElementText.reads {v : Value} {c : Char} {t rest : List Char} {fuel depth : Nat}
    (written : ElementText v t) (admitted : v.Admitted depth) (enough : 3 * t.length ≤ fuel)
    (stop : c ∈ ",]\x7d".toList) :
    ∃ more, value? fuel depth (t ++ c :: rest) = some more ∧ skipBlank more = c :: rest := by
  cases written with
  | @spaced _ before t after front text back =>
      obtain ⟨ends, kept⟩ := separator stop rest
      simp only [List.length_append] at enough
      refine ⟨after ++ c :: rest, ?_, (skipBlank_gap back _).trans kept⟩
      rw [List.append_assoc, ← value?_skipBlank, skipBlank_gap front, value?_skipBlank,
        List.append_assoc]
      exact ValueText.reads text admitted (by omega) (ends.after_gap back)

theorem ItemsText.reads {items : List Value} {t rest : List Char} {fuel depth : Nat}
    (written : ItemsText items t) (admitted : ∀ v ∈ items, v.Admitted depth)
    (enough : 3 * t.length < fuel) : items? fuel depth (t ++ ']' :: rest) = some rest := by
  obtain ⟨fuel, rfl⟩ : ∃ less, fuel = less + 1 := ⟨fuel - 1, by omega⟩
  cases written with
  | last text =>
      have small : 3 * t.length ≤ fuel := by omega
      have stop : ']' ∈ ",]\x7d".toList := by decide
      obtain ⟨more, read, same⟩ :=
        ElementText.reads text (admitted _ List.mem_cons_self) small stop
      rw [items?, read]
      simp only [bind, Option.bind_some, same]
      rfl
  | @more _ _ t u text later =>
      simp only [List.length_append, List.length_cons] at enough
      have small : 3 * t.length ≤ fuel := by omega
      have stop : ',' ∈ ",]\x7d".toList := by decide
      obtain ⟨more, read, same⟩ :=
        ElementText.reads text (admitted _ List.mem_cons_self) small stop
      rw [List.append_assoc, List.cons_append, items?, read]
      simp only [bind, Option.bind_some, same]
      exact ItemsText.reads later (fun v member => admitted v (List.mem_cons_of_mem _ member))
        (by omega)

theorem MemberText.reads {m : List Char × Value} {c : Char} {t rest : List Char} {fuel depth : Nat}
    (written : MemberText m t) (admitted : m.2.Admitted depth) (enough : 3 * t.length ≤ fuel)
    (stop : c ∈ ",]\x7d".toList) :
    ∃ value more, key? (t ++ c :: rest) = some (m.1, value) ∧ value? fuel depth value = some more ∧
      skipBlank more = c :: rest := by
  cases written with
  | @pair key v before k after t front named back text =>
      simp only [List.length_append, List.length_cons] at enough
      have small : 3 * t.length ≤ fuel := by omega
      obtain ⟨more, read, same⟩ := ElementText.reads text admitted small stop
      refine ⟨t ++ c :: rest, more, ?_, read, same⟩
      simp only [List.append_assoc, List.cons_append]
      exact key?_append front named back (t ++ c :: rest)

theorem MembersText.reads {members : List (List Char × Value)} {t rest : List Char}
    {fuel depth : Nat} (written : MembersText members t)
    (admitted : ∀ m ∈ members, m.2.Admitted depth) (enough : 3 * t.length < fuel) :
    members? fuel depth (t ++ '}' :: rest) = some (members.map Prod.fst, rest) := by
  obtain ⟨fuel, rfl⟩ : ∃ less, fuel = less + 1 := ⟨fuel - 1, by omega⟩
  cases written with
  | last text =>
      have small : 3 * t.length ≤ fuel := by omega
      have stop : '}' ∈ ",]\x7d".toList := by decide
      obtain ⟨value, more, named, read, same⟩ :=
        MemberText.reads text (admitted _ List.mem_cons_self) small stop
      rw [members?, named]
      simp only [bind, Option.bind_some, read, same]
      rfl
  | @more _ _ t u text later =>
      simp only [List.length_append, List.length_cons] at enough
      have small : 3 * t.length ≤ fuel := by omega
      have stop : ',' ∈ ",]\x7d".toList := by decide
      obtain ⟨value, more, named, read, same⟩ :=
        MemberText.reads text (admitted _ List.mem_cons_self) small stop
      have read_later : members? fuel depth (u ++ '}' :: rest) = some (_, rest) :=
        MembersText.reads later (fun m member => admitted m (List.mem_cons_of_mem _ member))
          (by omega)
      rw [List.append_assoc, List.cons_append, members?, named]
      simp only [bind, Option.bind_some, read, same, read_later]
      rfl

end

/-! ### Only such texts are read -/

theorem eq_of_key? (read : key? s = some (key, rest)) :
    ∃ before k after, IsGap before ∧ StringText key k ∧ IsGap after ∧
      s = before ++ (k ++ (after ++ ':' :: rest)) := by
  obtain ⟨before, front, whole⟩ := exists_gap s
  rw [key?] at read
  split at read
  · rename_i t opening
    obtain ⟨⟨found, more⟩, chars, follow⟩ := Option.bind_eq_some_iff.mp read
    obtain ⟨body, written, rfl⟩ := charsText_of_stringRest chars
    obtain ⟨after, back, split⟩ := exists_gap more
    dsimp only at follow
    split at follow
    · rename_i colon
      obtain ⟨rfl, rfl⟩ := Prod.mk.inj (Option.some.inj follow)
      refine ⟨before, _, after, front, .quoted written, back, ?_⟩
      rw [whole, opening, split, colon]
      simp only [List.cons_append, List.append_assoc, List.nil_append]
    · cases follow
  · cases read

structure ReadsGrammar (fuel : Nat) : Prop where
  value {depth : Nat} {s rest : List Char} (read : value? fuel depth s = some rest) :
    ∃ gap v t, IsGap gap ∧ ValueText v t ∧ v.Admitted depth ∧ s = gap ++ (t ++ rest)
  items {depth : Nat} {s rest : List Char} (read : items? fuel depth s = some rest) :
    ∃ items t, ItemsText items t ∧ (∀ v ∈ items, v.Admitted depth) ∧ s = t ++ ']' :: rest
  object {depth : Nat} {s rest : List Char} {keys : List (List Char)}
    (read : object? fuel depth s = some (keys, rest)) :
    ∃ members t, ValueText (.object members) ('{' :: t) ∧
      (Value.object members).Admitted (depth + 1) ∧ keys = members.map Prod.fst ∧ s = t ++ rest
  members {depth : Nat} {s rest : List Char} {keys : List (List Char)}
    (read : members? fuel depth s = some (keys, rest)) :
    ∃ members t, MembersText members t ∧ (∀ m ∈ members, m.2.Admitted depth) ∧
      keys = members.map Prod.fst ∧ s = t ++ '}' :: rest

namespace ReadsGrammar

theorem eq_of_value? (shorter : ReadsGrammar fuel)
    (read : value? (fuel + 1) depth s = some rest) :
    ∃ v t, ValueText v t ∧ v.Admitted depth ∧ skipBlank s = t ++ rest := by
  rw [value?] at read
  split at read
  case h_1 same =>
    obtain rfl := Option.some.inj read
    exact ⟨.null, _, .null, .null, same⟩
  case h_2 same =>
    obtain rfl := Option.some.inj read
    exact ⟨.bool true, _, .bool true, .bool true, same⟩
  case h_3 same =>
    obtain rfl := Option.some.inj read
    exact ⟨.bool false, _, .bool false, .bool false, same⟩
  case h_4 same =>
    obtain ⟨⟨chars, more⟩, found, rfl⟩ := Option.map_eq_some_iff.mp read
    obtain ⟨body, written, rfl⟩ := charsText_of_stringRest found
    refine ⟨.text chars, _, .text (.quoted written), .text chars, ?_⟩
    rw [same, List.append_assoc]
    rfl
  case h_5 inner same =>
    split at read
    case h_1 => cases read
    case h_2 closing =>
      obtain rfl := Option.some.inj read
      obtain ⟨gap, space, split⟩ := exists_gap inner
      refine ⟨.array [], _, .emptyArray space, .array (List.forall_mem_nil _), ?_⟩
      rw [same, split, closing, List.append_assoc]
      rfl
    case h_3 =>
      rw [items?_skipBlank] at read
      obtain ⟨items, t, text, admitted, rfl⟩ := shorter.items read
      refine ⟨.array items, _, .array text, .array admitted, ?_⟩
      rw [same, List.append_assoc]
      rfl
  case h_6 inner same =>
    split at read
    case h_1 => cases read
    case h_2 =>
      obtain ⟨⟨keys, more⟩, found, rfl⟩ := Option.map_eq_some_iff.mp read
      obtain ⟨members, t, text, admitted, -, rfl⟩ := shorter.object found
      exact ⟨.object members, _, text, admitted, same⟩
  case h_7 =>
    obtain ⟨isNegative, n, t, text, inside, split⟩ := eq_of_number? read
    exact ⟨.number isNegative n, t, .number text, .number inside, split⟩

theorem eq_of_items? (shorter : ReadsGrammar fuel)
    (read : items? (fuel + 1) depth s = some rest) :
    ∃ items t, ItemsText items t ∧ (∀ v ∈ items, v.Admitted depth) ∧ s = t ++ ']' :: rest := by
  rw [items?] at read
  obtain ⟨more, first, follow⟩ := Option.bind_eq_some_iff.mp read
  obtain ⟨before, v, t, front, text, admitted, rfl⟩ := shorter.value first
  obtain ⟨after, back, split⟩ := exists_gap more
  have element : ElementText v (before ++ (t ++ after)) := .spaced front text back
  split at follow
  case h_1 comma =>
    obtain ⟨items, u, later, admitted_later, rfl⟩ := shorter.items follow
    refine ⟨v :: items, _, .more element later, ?_, ?_⟩
    · exact List.forall_mem_cons.mpr ⟨admitted, admitted_later⟩
    · rw [split, comma]
      simp only [List.append_assoc, List.cons_append]
  case h_2 closing =>
    obtain rfl := Option.some.inj follow
    refine ⟨[v], _, .last element, List.forall_mem_singleton.mpr admitted, ?_⟩
    rw [split, closing]
    simp only [List.append_assoc]
  case h_3 => cases follow

theorem eq_of_object? (shorter : ReadsGrammar fuel)
    (read : object? (fuel + 1) depth s = some (keys, rest)) :
    ∃ members t, ValueText (.object members) ('{' :: t) ∧
      (Value.object members).Admitted (depth + 1) ∧ keys = members.map Prod.fst ∧
        s = t ++ rest := by
  rw [object?] at read
  split at read
  case h_1 closing =>
    obtain ⟨rfl, rfl⟩ := Prod.mk.inj (Option.some.inj read)
    obtain ⟨gap, space, split⟩ := exists_gap s
    refine ⟨[], gap ++ ['}'], .emptyObject space, .object (List.forall_mem_nil _), rfl, ?_⟩
    rw [split, closing, List.append_assoc]
    rfl
  case h_2 =>
    rw [members?_skipBlank] at read
    obtain ⟨members, t, text, admitted, same, rfl⟩ := shorter.members read
    refine ⟨members, t ++ ['}'], .object text, .object admitted, same, ?_⟩
    rw [List.append_assoc]
    rfl

theorem eq_of_members? (shorter : ReadsGrammar fuel)
    (read : members? (fuel + 1) depth s = some (keys, rest)) :
    ∃ members t, MembersText members t ∧ (∀ m ∈ members, m.2.Admitted depth) ∧
      keys = members.map Prod.fst ∧ s = t ++ '}' :: rest := by
  rw [members?] at read
  obtain ⟨⟨key, inner⟩, named, follow⟩ := Option.bind_eq_some_iff.mp read
  obtain ⟨more, first, ending⟩ := Option.bind_eq_some_iff.mp follow
  obtain ⟨before, k, middle, front, key_text, behind, rfl⟩ := eq_of_key? named
  obtain ⟨lead, v, t, lead_gap, text, admitted, rfl⟩ := shorter.value first
  obtain ⟨after, back, split⟩ := exists_gap more
  have member : MemberText (key, v) (before ++ (k ++ (middle ++ ':' :: (lead ++ (t ++ after))))) :=
    .pair front key_text behind (.spaced lead_gap text back)
  split at ending
  case h_1 comma =>
    obtain ⟨⟨keys', more'⟩, found, same⟩ := Option.bind_eq_some_iff.mp ending
    obtain ⟨rfl, rfl⟩ := Prod.mk.inj (Option.some.inj same)
    obtain ⟨members, u, later, admitted_later, rfl, rfl⟩ := shorter.members found
    refine ⟨(key, v) :: members, _, .more member later, ?_, rfl, ?_⟩
    · exact List.forall_mem_cons.mpr ⟨admitted, admitted_later⟩
    · rw [split, comma]
      simp only [List.append_assoc, List.cons_append]
  case h_2 closing =>
    obtain ⟨rfl, rfl⟩ := Prod.mk.inj (Option.some.inj ending)
    refine ⟨[(key, v)], _, .last member, List.forall_mem_singleton.mpr admitted, rfl, ?_⟩
    rw [split, closing]
    simp only [List.append_assoc, List.cons_append]
  case h_3 => cases ending

end ReadsGrammar

theorem readsGrammar (fuel : Nat) : ReadsGrammar fuel := by
  induction fuel with
  | zero =>
      constructor
      · intro depth s rest read
        rw [value?] at read
        cases read
      · intro depth s rest read
        rw [items?] at read
        cases read
      · intro depth s rest keys read
        rw [object?] at read
        cases read
      · intro depth s rest keys read
        rw [members?] at read
        cases read
  | succ fuel shorter =>
      refine ⟨?_, shorter.eq_of_items?, shorter.eq_of_object?, shorter.eq_of_members?⟩
      intro depth s rest read
      obtain ⟨gap, space, split⟩ := exists_gap s
      obtain ⟨v, t, text, admitted, same⟩ := shorter.eq_of_value? read
      exact ⟨gap, v, t, space, text, admitted, same ▸ split⟩

/-! ### The keys of an object -/

theorem object?_append (written : ValueText (.object members) t)
    (admitted : (Value.object members).Admitted (depth + 1)) : ∃ u, t = '{' :: u ∧
      ∀ fuel rest, 3 * u.length < fuel →
        object? fuel depth (u ++ rest) = some (members.map Prod.fst, rest) := by
  cases written with
  | emptyObject space =>
      refine ⟨_, List.cons_append, ?_⟩
      intro fuel rest enough
      obtain ⟨fuel, rfl⟩ : ∃ less, fuel = less + 1 := ⟨fuel - 1, by omega⟩
      rw [List.append_assoc]
      exact object?_empty space rest
  | object text =>
      cases admitted with
      | object admitted =>
          refine ⟨_, List.cons_append, ?_⟩
          intro fuel rest enough
          rw [List.length_append, List.length_singleton] at enough
          obtain ⟨fuel, rfl⟩ : ∃ less, fuel = less + 1 := ⟨fuel - 1, by omega⟩
          rw [List.append_assoc]
          exact (object?_members text _).trans (text.reads admitted (by omega))

theorem objectKeys?_append (written : ElementText (.object members) t)
    (admitted : (Value.object members).Admitted nestingLimit) (rest : List Char) :
    objectKeys? (t ++ rest) =
      if (skipBlank rest).isEmpty then some (members.map Prod.fst) else none := by
  obtain ⟨front, text, back⟩ := written
  rename_i before object after
  obtain ⟨u, rfl, reads⟩ := object?_append text admitted
  have opening :
      skipBlank (before ++ ('{' :: u ++ after) ++ rest) = '{' :: (u ++ (after ++ rest)) := by
    rw [List.append_assoc, skipBlank_gap front, List.cons_append, List.cons_append,
      skipBlank_cons rfl, List.append_assoc]
  have enough : 3 * u.length < fuelFor (before ++ ('{' :: u ++ after) ++ rest) := by
    simp only [fuelFor, List.length_append, List.length_cons]
    omega
  have read : object? _ (nestingLimit - 1) (u ++ (after ++ rest)) = some (_, after ++ rest) :=
    reads _ _ enough
  rw [objectKeys?, opening]
  simp only [read, skipBlank_gap back]

theorem objectKeys?_eq_some_iff : objectKeys? s = some keys ↔ ∃ members,
    ElementText (.object members) s ∧ (Value.object members).Admitted nestingLimit ∧
      keys = members.map Prod.fst := by
  constructor
  · intro read
    obtain ⟨before, front, whole⟩ := exists_gap s
    rw [objectKeys?] at read
    split at read
    case h_2 => cases read
    case h_1 opening =>
      split at read
      case h_2 => cases read
      case h_1 found =>
        obtain ⟨members, t, text, admitted, rfl, rfl⟩ := (readsGrammar _).object found
        split at read
        case isFalse => cases read
        case isTrue closed =>
          obtain rfl := Option.some.inj read
          rw [List.isEmpty_iff, skipBlank_eq_nil_iff] at closed
          refine ⟨members, ?_, admitted, rfl⟩
          rw [whole, opening]
          exact .spaced front text closed
  · rintro ⟨members, written, admitted, rfl⟩
    have read := objectKeys?_append written admitted []
    rwa [List.append_nil] at read

theorem isGap_of_objectKeys? {keys' : List (List Char)} (first : objectKeys? t = some keys')
    (whole : objectKeys? (t ++ rest) = some keys) : IsGap rest := by
  obtain ⟨members, written, admitted, -⟩ := objectKeys?_eq_some_iff.mp first
  rw [objectKeys?_append written admitted] at whole
  split at whole
  · rename_i blank
    exact skipBlank_eq_nil_iff.mp (List.isEmpty_iff.mp blank)
  · cases whole

end ModalHost.Json
