import Mathlib.Data.List.Pairwise
import Mathlib.Data.List.TakeWhile
import ModalHost.Proofs.Text.Utf8
import ModalHost.Text.Lowercase

/-! What a text is in lower case, letter by letter: a letter takes the form that the character table
pairs it with, the dotted capital I takes two characters, and a capital sigma looks at the letters
around it. -/

namespace ModalHost.Text

variable {text out before : List Char}

/-- The table pairs two code points: a capital letter and its lower-case form stand at the same place of
a run. -/
def Pairs (n m : Nat) : Prop :=
  ∃ run ∈ lowerRuns, ∃ k, n = run.first + k * run.step ∧ n ≤ run.last ∧ m = run.target + k * run.step

theorem lowered?_eq_some (run : CaseRun) (n m : Nat) : run.lowered? n = some m ↔
    ∃ k, n = run.first + k * run.step ∧ n ≤ run.last ∧ m = run.target + k * run.step := by
  rw [CaseRun.lowered?, Option.ite_none_right_eq_some, Option.some.injEq]
  constructor
  · rintro ⟨⟨after, before, fits⟩, rfl⟩
    obtain ⟨k, place⟩ := Nat.dvd_of_mod_eq_zero fits
    rw [Nat.mul_comm] at place
    exact ⟨k, by omega, before, by omega⟩
  · rintro ⟨k, rfl, before, rfl⟩
    rw [Nat.add_sub_cancel_left]
    exact ⟨⟨Nat.le_add_right _ _, before, Nat.mul_mod_left k run.step⟩, rfl⟩

def CaseRun.Ahead (a b : CaseRun) : Prop := a.last < b.first ∧ b.first ≤ b.last

instance : Trans CaseRun.Ahead CaseRun.Ahead CaseRun.Ahead :=
  ⟨fun first second => ⟨Nat.lt_trans (Nat.lt_of_lt_of_le first.1 first.2) second.1, second.2⟩⟩

theorem runs_apart : lowerRuns.Pairwise CaseRun.Ahead := by
  have chained : lowerRuns.IsChain CaseRun.Ahead := by
    unfold CaseRun.Ahead
    decide +kernel
  exact chained.pairwise

theorem Pairs.unique {n m m' : Nat} (pairs : Pairs n m) (pairs' : Pairs n m') : m = m' := by
  obtain ⟨run, member, k, place, inside, rfl⟩ := pairs
  obtain ⟨run', member', k', place', inside', rfl⟩ := pairs'
  have apart : lowerRuns.Pairwise fun a b => a.last < b.first ∨ b.last < a.first :=
    runs_apart.imp fun ahead => .inl ahead.1
  have swap : Std.Symm fun a b : CaseRun => a.last < b.first ∨ b.last < a.first :=
    ⟨fun _ _ => Or.symm⟩
  have same : run = run' := by
    by_contra other
    rcases apart.forall member member' other with ahead | ahead <;> omega
  subst same
  omega

theorem findSome?_lowered (n m : Nat) :
    lowerRuns.findSome? (·.lowered? n) = some m ↔ Pairs n m := by
  have pairs {m : Nat} (found : lowerRuns.findSome? (·.lowered? n) = some m) : Pairs n m := by
    obtain ⟨run, member, lowered⟩ := List.exists_of_findSome?_eq_some found
    exact ⟨run, member, (lowered?_eq_some run n m).mp lowered⟩
  refine ⟨pairs, fun paired => ?_⟩
  obtain ⟨run, member, place⟩ := paired
  have some_form : (lowerRuns.findSome? (·.lowered? n)).isSome = true :=
    List.findSome?_isSome_iff.mpr
      ⟨run, member, Option.isSome_iff_exists.mpr ⟨m, (lowered?_eq_some run n m).mpr place⟩⟩
  obtain ⟨found, lowered⟩ := Option.isSome_iff_exists.mp some_form
  rw [lowered, (pairs lowered).unique ⟨run, member, place⟩]

theorem forms_valid : ∀ run ∈ lowerRuns, run.target + (run.last - run.first) < 0xD800 ∨
    0xDFFF < run.target ∧ run.target + (run.last - run.first) < 0x110000 := by
  decide +kernel

theorem Pairs.valid {n m : Nat} (pairs : Pairs n m) : m.isValidChar := by
  obtain ⟨run, member, k, rfl, inside, rfl⟩ := pairs
  rcases forms_valid run member with low | ⟨high, below⟩
  · exact .inl (by omega)
  · exact .inr ⟨by omega, by omega⟩

/-- What a character is in lower case, if it is not a capital sigma. -/
inductive LowerForm (c : Char) : List Char → Prop
  | dotted (dotted : c = 'İ') : LowerForm c ['i', '\u0307']
  | paired (d : Char) (plain : c ≠ 'İ') (pairs : Pairs c.toNat d.toNat) : LowerForm c [d]
  | same (plain : c ≠ 'İ') (unpaired : ∀ m, ¬Pairs c.toNat m) : LowerForm c [c]

theorem lowerForm_lowerChar (c : Char) : LowerForm c (lowerChar c) := by
  have dotted : c.toNat = 0x130 ↔ c = 'İ' := by
    constructor
    · intro same
      rw [← c.ofNat_toNat, same]
    · rintro rfl
      rfl
  rw [lowerChar]
  split
  · rename_i here
    exact .dotted (dotted.mp here)
  · rename_i other
    have plain := mt dotted.mpr other
    split
    · rename_i n found
      have pairs := (findSome?_lowered c.toNat n).mp found
      refine .paired _ plain ?_
      rwa [toNat_ofNat_scalar pairs.valid]
    · rename_i missing
      refine .same plain fun m pairs => ?_
      rw [(findSome?_lowered c.toNat m).mpr pairs] at missing
      cases missing

theorem LowerForm.unique {c : Char} {form form' : List Char} (lowers : LowerForm c form)
    (lowers' : LowerForm c form') : form = form' := by
  cases lowers with
  | dotted dotted =>
      cases lowers' with
      | dotted => rfl
      | paired _ plain | same plain => exact absurd dotted plain
  | paired d plain pairs =>
      cases lowers' with
      | dotted dotted => exact absurd dotted plain
      | paired e _ pairs' => rw [Char.toNat_inj.mp (pairs.unique pairs')]
      | same _ unpaired => exact absurd pairs (unpaired _)
  | same plain unpaired =>
      cases lowers' with
      | dotted dotted => exact absurd dotted plain
      | paired d _ pairs => exact absurd pairs (unpaired _)
      | same => rfl

theorem lowerForm_iff (c : Char) (form : List Char) : LowerForm c form ↔ lowerChar c = form :=
  ⟨(lowerForm_lowerChar c).unique, fun same => same ▸ lowerForm_lowerChar c⟩

/-- The first letter of the text that counts for case is a cased one. -/
def MeetsCased (s : List Char) : Prop :=
  ∃ near c far, s = near ++ c :: far ∧ (∀ d ∈ near, isCaseIgnorable d = true) ∧
    isCaseIgnorable c = false ∧ isCased c = true

theorem startsCased_iff (s : List Char) : startsCased s = true ↔ MeetsCased s := by
  constructor
  · intro starts
    rw [startsCased] at starts
    split at starts
    · cases starts
    · rename_i c far shape
      have counts : isCaseIgnorable c = false := by
        have head := List.head?_dropWhile_not isCaseIgnorable s
        simpa [shape] using head
      refine ⟨s.takeWhile isCaseIgnorable, c, far, ?_, fun d => List.mem_takeWhile_imp, counts,
        starts⟩
      rw [← shape, List.takeWhile_append_dropWhile]
  · rintro ⟨near, c, far, rfl, ignored, counts, cased⟩
    have skipped : (near ++ c :: far).dropWhile isCaseIgnorable = c :: far := by
      rw [List.dropWhile_append_of_pos ignored, List.dropWhile_cons_of_neg (by simp [counts])]
    rw [startsCased, skipped]
    exact cased

instance (s : List Char) : Decidable (MeetsCased s) := decidable_of_iff _ (startsCased_iff s)

theorem lowerSigma_eq (before after : List Char) : lowerSigma before after =
    if MeetsCased before ∧ ¬MeetsCased after then 'ς' else 'σ' := by
  simp only [lowerSigma, Bool.and_eq_true, Bool.not_eq_true', ← Bool.not_eq_true, startsCased_iff]

/-- A text and what it is in lower case, where it follows the text `before`, which is given from its
end to its start. -/
inductive Lowers : List Char → List Char → List Char → Prop
  | nil (before : List Char) : Lowers before [] []
  | final (before rest out : List Char) (joins : MeetsCased before) (ends : ¬MeetsCased rest)
      (later : Lowers ('Σ' :: before) rest out) : Lowers before ('Σ' :: rest) ('ς' :: out)
  | inner (before rest out : List Char) (inner : MeetsCased before → MeetsCased rest)
      (later : Lowers ('Σ' :: before) rest out) : Lowers before ('Σ' :: rest) ('σ' :: out)
  | letter (before rest out : List Char) (c : Char) (form : List Char) (other : c ≠ 'Σ')
      (lowers : LowerForm c form) (later : Lowers (c :: before) rest out) :
      Lowers before (c :: rest) (form ++ out)

theorem lowers_lowerAfter (before text : List Char) :
    Lowers before text (lowerAfter before text) := by
  induction text generalizing before with
  | nil => exact .nil before
  | cons c rest ih =>
      have later := ih (c :: before)
      rw [lowerAfter]
      split
      · rename_i sigma
        subst sigma
        rw [lowerSigma_eq]
        split
        · rename_i final
          exact .final _ _ _ final.1 final.2 later
        · rename_i inner
          exact .inner _ _ _ (fun joins => of_not_not fun ends => inner ⟨joins, ends⟩) later
      · rename_i other
        exact .letter _ _ _ c _ other (lowerForm_lowerChar c) later

theorem Lowers.unique (lowers : Lowers before text out) : lowerAfter before text = out := by
  induction lowers with
  | nil => rfl
  | final before rest out joins ends later ih =>
      rw [lowerAfter, if_pos rfl, lowerSigma_eq, if_pos ⟨joins, ends⟩, ih]
      rfl
  | inner before rest out inner later ih =>
      rw [lowerAfter, if_pos rfl, lowerSigma_eq, if_neg fun both => both.2 (inner both.1), ih]
      rfl
  | letter before rest out c form other lowers later ih =>
      rw [lowerAfter, if_neg other, ih, (lowerForm_iff c form).mp lowers]

/-- Lower-casing follows the forms of the letters, and nothing else does. -/
theorem lowers_iff : Lowers before text out ↔ lowerAfter before text = out :=
  ⟨Lowers.unique, fun same => same ▸ lowers_lowerAfter before text⟩

theorem lowerChar_ascii (c : Char) (ascii : c.toNat < 0x80) : lowerChar c = [c.toLower] := by
  have beyond : ∀ run ∈ lowerRuns.tail, 0x80 ≤ run.first := by decide +kernel
  have unpaired : lowerRuns.tail.findSome? (·.lowered? c.toNat) = none := by
    refine List.findSome?_eq_none_iff.mpr fun run member => if_neg fun inside => ?_
    have first := beyond run member
    omega
  -- only the first run can hold the character
  have only : lowerRuns.findSome? (·.lowered? c.toNat) =
      CaseRun.lowered? ⟨0x41, 0x5A, 1, 0x61⟩ c.toNat := by
    rw [show lowerRuns = ⟨0x41, 0x5A, 1, 0x61⟩ :: lowerRuns.tail from rfl, List.findSome?_cons,
      unpaired]
    cases CaseRun.lowered? ⟨0x41, 0x5A, 1, 0x61⟩ c.toNat <;> rfl
  have letters : ∀ n < 0x80, Char.ofNat ((CaseRun.lowered? ⟨0x41, 0x5A, 1, 0x61⟩ n).getD n) =
      (Char.ofNat n).toLower := by decide +kernel
  have here := letters c.toNat ascii
  rw [c.ofNat_toNat] at here
  rw [← here, lowerChar, if_neg (by omega), only]
  cases CaseRun.lowered? ⟨0x41, 0x5A, 1, 0x61⟩ c.toNat with
  | none => rw [Option.getD_none, c.ofNat_toNat]
  | some m => rfl

/-- Among the ASCII characters, A to Z become a to z, and all others stay. -/
theorem lower_ascii (ascii : ∀ c ∈ text, c.toNat < 0x80) : lower text = text.map Char.toLower := by
  have after (before : List Char) : lowerAfter before text = text.map Char.toLower := by
    induction text generalizing before with
    | nil => rfl
    | cons c rest ih =>
        obtain ⟨here, later⟩ := List.forall_mem_cons.mp ascii
        have other : c ≠ 'Σ' := by
          rintro rfl
          exact absurd here (by decide)
        rw [lowerAfter, if_neg other, lowerChar_ascii c here, ih later]
        rfl
  exact after []

end ModalHost.Text
