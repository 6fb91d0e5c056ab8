import Mathlib.Data.List.DropRight
import ModalHost.Text.WhiteSpace

/-! Trimming takes the white space off both ends of a text, and nothing else. -/

namespace ModalHost.Text

def IsBlank (s : List Char) : Prop := ∀ c ∈ s, isWhiteSpace c = true

structure IsTrimmed (s : List Char) : Prop where
  first : ∀ c ∈ s.head?, isWhiteSpace c = false
  last : ∀ c ∈ s.getLast?, isWhiteSpace c = false

instance (s : List Char) : Decidable (IsBlank s) :=
  decidable_of_iff (s.all isWhiteSpace = true) List.all_eq_true

theorem isTrimmed_iff {s : List Char} : IsTrimmed s ↔
    s.head?.any isWhiteSpace = false ∧ s.getLast?.any isWhiteSpace = false := by
  rw [Option.any_eq_false, Option.any_eq_false]
  exact ⟨fun trimmed => ⟨trimmed.first, trimmed.last⟩, fun ends => ⟨ends.1, ends.2⟩⟩

instance (s : List Char) : Decidable (IsTrimmed s) := decidable_of_iff _ isTrimmed_iff.symm

variable {before s after : List Char}

theorem trimStart_of_isBlank (blank : IsBlank s) : trimStart s = [] :=
  List.dropWhile_eq_nil_iff.mpr blank

theorem trimStart_append (blank : IsBlank before) : trimStart (before ++ s) = trimStart s :=
  List.dropWhile_append_of_pos blank

theorem trimEnd_append (blank : IsBlank after) : trimEnd (s ++ after) = trimEnd s := by
  have blank' : IsBlank after.reverse := fun c member => blank c (List.mem_reverse.mp member)
  rw [trimEnd, List.reverse_append, List.dropWhile_append_of_pos blank', trimEnd]

theorem trim_append_left (blank : IsBlank before) : trim (before ++ s) = trim s := by
  rw [trim, trimStart_append blank, trim]

theorem trim_append_right (blank : IsBlank after) : trim (s ++ after) = trim s := by
  rw [trim, trim, trimStart, List.dropWhile_append]
  split
  · rename_i nothing
    rw [List.isEmpty_iff] at nothing
    rw [List.dropWhile_eq_nil_iff.mpr blank, trimStart, nothing]
  · exact trimEnd_append blank

theorem trimStart_of_isTrimmed (trimmed : IsTrimmed s) : trimStart s = s := by
  cases s with
  | nil => rfl
  | cons c rest => exact List.dropWhile_cons_of_neg (by simp [trimmed.first c rfl])

theorem trimEnd_of_isTrimmed (trimmed : IsTrimmed s) : trimEnd s = s :=
  List.rdropWhile_eq_self_iff.mpr fun some => by
    simp [trimmed.last _ (List.getLast?_eq_some_getLast some)]

theorem trim_of_isTrimmed (trimmed : IsTrimmed s) : trim s = s := by
  rw [trim, trimStart_of_isTrimmed trimmed, trimEnd_of_isTrimmed trimmed]

theorem trim_surrounded (blank : IsBlank before) (trimmed : IsTrimmed s) (blank' : IsBlank after) :
    trim (before ++ s ++ after) = s := by
  rw [trim_append_right blank', trim_append_left blank, trim_of_isTrimmed trimmed]

theorem isTrimmed_trim (s : List Char) : IsTrimmed (trim s) := by
  refine ⟨fun c head => ?_, fun c last => ?_⟩
  · obtain ⟨rest, shape⟩ := List.head?_eq_some_iff.mp head
    obtain ⟨more, whole⟩ : trim s <+: trimStart s := List.rdropWhile_prefix ..
    have front : (s.dropWhile isWhiteSpace).head? = some c := by
      rw [← trimStart, ← whole, shape]
      rfl
    have stops := List.head?_dropWhile_not isWhiteSpace s
    rwa [front] at stops
  · obtain ⟨rest, shape⟩ := List.getLast?_eq_some_iff.mp last
    have left : trim s ≠ [] := by simp [shape]
    have stops : ¬isWhiteSpace ((trim s).getLast left) = true :=
      List.rdropWhile_last_not isWhiteSpace (trimStart s) left
    simpa [shape] using stops

theorem surrounded_trim (s : List Char) :
    ∃ before after, IsBlank before ∧ IsBlank after ∧ s = before ++ trim s ++ after := by
  refine ⟨s.takeWhile isWhiteSpace, (trimStart s).rtakeWhile isWhiteSpace,
    fun _ => List.mem_takeWhile_imp, fun _ => List.mem_rtakeWhile_imp, ?_⟩
  have back : trim s ++ (trimStart s).rtakeWhile isWhiteSpace = trimStart s :=
    List.rdropWhile_append_rtakeWhile ..
  rw [List.append_assoc, back]
  exact List.takeWhile_append_dropWhile.symm

theorem trim_eq_nil_iff : trim s = [] ↔ IsBlank s := by
  constructor
  · intro nothing
    obtain ⟨before, after, blank, blank', whole⟩ := surrounded_trim s
    rw [nothing, List.append_nil] at whole
    rw [whole]
    exact fun c member => (List.mem_append.mp member).elim (blank c) (blank' c)
  · intro blank
    rw [trim, trimStart_of_isBlank blank]
    rfl

theorem trimStart_append_cons {c : Char} (solid : isWhiteSpace c = false) (s t : List Char) :
    trimStart (s ++ c :: t) = trimStart s ++ c :: t := by
  rw [trimStart, List.dropWhile_append]
  split
  · rename_i nothing
    rw [List.isEmpty_iff] at nothing
    rw [trimStart, nothing, List.dropWhile_cons_of_neg (by simp [solid]), List.nil_append]
  · rfl

theorem trim_append_cons {c : Char} (solid : isWhiteSpace c = false) (s t : List Char) :
    trim (s ++ c :: t) = trimStart s ++ c :: trimEnd t := by
  have backwards := trimStart_append_cons solid t.reverse (trimStart s).reverse
  have turned : (trimStart s ++ c :: t).reverse = t.reverse ++ c :: (trimStart s).reverse := by simp
  rw [trim, trimStart_append_cons solid, trimEnd, turned, ← trimStart, backwards, trimEnd]
  simp only [List.reverse_append, List.reverse_cons, List.reverse_reverse, List.append_assoc,
    List.singleton_append]
  rfl

theorem trimStart_subset (s : List Char) : trimStart s ⊆ s := (List.dropWhile_sublist _).subset

theorem trimEnd_subset (s : List Char) : trimEnd s ⊆ s := by
  intro c member
  exact List.mem_reverse.mp ((List.dropWhile_sublist _).subset (List.mem_reverse.mp member))

theorem trim_trimStart (s : List Char) : trim (trimStart s) = trim s := by
  rw [trim, trimStart, trimStart, List.dropWhile_idempotent]
  rfl

theorem trim_trimEnd (s : List Char) : trim (trimEnd s) = trim s := by
  have back : trimEnd s ++ s.rtakeWhile isWhiteSpace = s := List.rdropWhile_append_rtakeWhile ..
  conv_rhs => rw [← back]
  exact (trim_append_right fun _ => List.mem_rtakeWhile_imp).symm

end ModalHost.Text
