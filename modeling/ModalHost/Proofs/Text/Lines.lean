import Mathlib.Data.List.Basic
import ModalHost.Text.WhiteSpace

/-! No line of a text holds a line feed, nor does anything that is cut out of a line; texts without
one can be told apart again when each is ended by one. -/

namespace ModalHost.Text

theorem newline_not_mem_lines (text : List Char) : ∀ line ∈ lines text, '\n' ∉ line := by
  fun_induction lines text with
  | case1 => simp
  | case2 rest ih => simpa using ih
  | case3 rest ih => simpa using ih
  | case4 c rest _ not_newline none ih =>
      simpa using fun same => not_newline same.symm
  | case5 c rest _ not_newline line more cut ih =>
      rw [cut] at ih
      intro l member
      rcases List.mem_cons.mp member with rfl | later
      · rw [List.mem_cons, not_or]
        exact ⟨fun same => not_newline same.symm, ih line List.mem_cons_self⟩
      · exact ih l (List.mem_cons_of_mem _ later)

theorem trim_subset (s : List Char) : trim s ⊆ s := by
  intro c member
  rw [trim, trimEnd, List.mem_reverse] at member
  have kept := List.mem_reverse.mp ((List.dropWhile_sublist _).subset member)
  exact (List.dropWhile_sublist _).subset kept

theorem lines_append_newline {line : List Char} (single : '\n' ∉ line) (rest : List Char) :
    ∃ kept ending, line = kept ++ ending ∧ (ending = [] ∨ ending = ['\r']) ∧
      lines (line ++ '\n' :: rest) = kept :: lines rest := by
  induction line with
  | nil => exact ⟨[], [], rfl, .inl rfl, rfl⟩
  | cons c line ih =>
      rw [List.mem_cons, not_or] at single
      by_cases bare : c = '\r' ∧ line = []
      · obtain ⟨rfl, rfl⟩ := bare
        exact ⟨[], ['\r'], rfl, .inr rfl, rfl⟩
      · obtain ⟨kept, ending, split, short, read⟩ := ih single.2
        refine ⟨c :: kept, ending, by rw [split, List.cons_append], short, ?_⟩
        rw [List.cons_append, lines, read]
        · rintro more rfl next
          cases line with
          | nil => exact bare ⟨rfl, rfl⟩
          | cons d line =>
              obtain ⟨rfl, -⟩ := List.cons.inj next
              exact single.2 List.mem_cons_self
        · exact fun newline => single.1 newline.symm

theorem lines_of_single {line : List Char} (single : '\n' ∉ line) :
    lines line = if line = [] then [] else [line] := by
  induction line with
  | nil => rfl
  | cons c line ih =>
      rw [List.mem_cons, not_or] at single
      rw [if_neg (List.cons_ne_nil c line), lines, ih single.2]
      · by_cases last : line = []
        · rw [if_pos last, last]
        · rw [if_neg last]
      · rintro more rfl rfl
        exact single.2 List.mem_cons_self
      · exact fun newline => single.1 newline.symm

/-- What is read from each line can be read from the pieces between the line feeds, if it takes no
notice of a carriage return at the end and nothing from an empty line. -/
theorem filterMap_lines {α : Type} {read : List Char → Option α} (none : read [] = none)
    (return_ignored : ∀ line, read (line ++ ['\r']) = read line) (text : List Char) :
    (lines text).filterMap read = (text.splitOn '\n').filterMap read := by
  induction length : text.length using Nat.strongRecOn generalizing text with
  | ind n ih =>
      by_cases several : '\n' ∈ text
      · obtain ⟨line, rest, rfl, single⟩ := List.eq_append_cons_of_mem several
        have shorter : rest.length < n := by
          rw [← length, List.length_append, List.length_cons]
          omega
        obtain ⟨kept, ending, rfl, short, lined⟩ := lines_append_newline single rest
        have same : read (kept ++ ending) = read kept := by
          rcases short with rfl | rfl
          · rw [List.append_nil]
          · exact return_ignored kept
        rw [lined, List.splitOn_append_cons_self_of_not_mem single, List.filterMap_cons,
          List.filterMap_cons, same, ih _ shorter rest rfl]
      · rw [lines_of_single several, List.splitOn_eq_singleton several]
        split
        · rename_i empty
          rw [empty, List.filterMap_cons, none]
        · rfl

section Pieces

variable {α : Type} {read : List Char → Option α} {line : List Char} (single : '\n' ∉ line)
include single

theorem filterMap_splitOn_line (rest : List Char) :
    ((line ++ '\n' :: rest).splitOn '\n').filterMap read =
      (read line).toList ++ (rest.splitOn '\n').filterMap read := by
  rw [List.splitOn_append_cons_self_of_not_mem single, List.filterMap_cons]
  cases read line <;> rfl

theorem filterMap_splitOn_last : (line.splitOn '\n').filterMap read = (read line).toList := by
  rw [List.splitOn_eq_singleton single, List.filterMap_cons]
  cases read line <;> rfl

end Pieces

end ModalHost.Text
