import Mathlib.Data.List.Infix
import Mathlib.Data.List.TakeWhile
import ModalHost.Text.Lowercase

/-! Lower-casing a text piece by piece. A piece is lower-cased as if it stood alone, but for its
capital sigmas, which look at what surrounds it. -/

namespace ModalHost.Text

variable {before text after : List Char}

/-- The lower-case form of a text between two others. The first of them is given from its end to its
start. -/
def lowerWithin (before : List Char) : List Char → List Char → List Char
  | [], _ => []
  | c :: rest, after =>
    (if c = 'Σ' then [lowerSigma before (rest ++ after)] else lowerChar c) ++
      lowerWithin (c :: before) rest after

theorem lowerAfter_append (before text after : List Char) :
    lowerAfter before (text ++ after) =
      lowerWithin before text after ++ lowerAfter (text.reverse ++ before) after := by
  induction text generalizing before with
  | nil => rfl
  | cons c rest ih =>
      rw [List.cons_append, lowerAfter, lowerWithin, ih, List.reverse_cons, List.append_assoc,
        List.append_assoc, List.singleton_append]

theorem lower_append_three (before text after : List Char) :
    lower (before ++ text ++ after) = lowerWithin [] before (text ++ after) ++
      lowerWithin before.reverse text after ++ lowerAfter (before ++ text).reverse after := by
  rw [lower, List.append_assoc, lowerAfter_append, lowerAfter_append, List.append_nil,
    List.reverse_append, List.append_assoc]

/-- Every capital sigma of the text has the same form between these two texts as it has without
them. -/
def SameSigmas (before text after : List Char) : Prop :=
  ∀ front back, text = front ++ 'Σ' :: back →
    lowerSigma (front.reverse ++ before.reverse) (back ++ after) = lowerSigma front.reverse back

/-- Here `seen` is what has been read of the whole text, and `before` stands before all of it. -/
theorem lowerWithin_eq_lowerAfter_iff (seen before text after : List Char) :
    lowerWithin (seen ++ before) text after = lowerAfter seen text ↔
      ∀ front back, text = front ++ 'Σ' :: back →
        lowerSigma (front.reverse ++ (seen ++ before)) (back ++ after) =
          lowerSigma (front.reverse ++ seen) back := by
  induction text generalizing seen with
  | nil => simp [lowerWithin, lowerAfter]
  | cons c rest ih =>
      have later := ih (c :: seen)
      rw [List.cons_append] at later
      have same_length : (if c = 'Σ' then [lowerSigma (seen ++ before) (rest ++ after)]
          else lowerChar c).length =
          (if c = 'Σ' then [lowerSigma seen rest] else lowerChar c).length := by
        split <;> rfl
      rw [lowerWithin, lowerAfter, List.append_eq_append_iff_of_size_eq_left same_length, later]
      constructor
      · rintro ⟨first, others⟩ front back split
        cases front with
        | nil =>
            obtain ⟨rfl, rfl⟩ := List.cons.inj split
            simpa using first
        | cons d front =>
            obtain ⟨rfl, rest_split⟩ := List.cons.inj split
            simpa using others front back rest_split
      · intro same
        refine ⟨?_, fun front back split => ?_⟩
        · by_cases sigma : c = 'Σ'
          · simpa [sigma] using same [] rest (by rw [sigma]; rfl)
          · rw [if_neg sigma, if_neg sigma]
        · simpa using same (c :: front) back (congrArg (c :: ·) split)

theorem lowerWithin_eq_lower_iff :
    lowerWithin before.reverse text after = lower text ↔ SameSigmas before text after := by
  simpa [SameSigmas, lower] using lowerWithin_eq_lowerAfter_iff [] before.reverse text after

instance (before text after : List Char) : Decidable (SameSigmas before text after) :=
  decidable_of_iff _ lowerWithin_eq_lower_iff

theorem lower_infix (same : SameSigmas before text after) :
    lower text <:+: lower (before ++ text ++ after) := by
  rw [lower_append_three, lowerWithin_eq_lower_iff.mpr same]
  exact ⟨_, _, rfl⟩

theorem sameSigmas_of_not_mem (none : 'Σ' ∉ text) : SameSigmas before text after :=
  fun front back split => absurd (by rw [split]; simp) none

theorem startsCased_append {near : List Char} (far : List Char)
    (counts : ∃ c ∈ near, isCaseIgnorable c = false) :
    startsCased (near ++ far) = startsCased near := by
  obtain ⟨c, member, counts⟩ := counts
  have left : near.dropWhile isCaseIgnorable ≠ [] := by
    rw [Ne, List.dropWhile_eq_nil_iff]
    intro ignored
    rw [ignored c member] at counts
    cases counts
  rw [startsCased, startsCased, List.dropWhile_append, if_neg (by simpa using left)]
  cases shape : near.dropWhile isCaseIgnorable with
  | nil => exact absurd shape left
  | cons d rest => rfl

theorem sigma_at_end (changed : ¬SameSigmas before text after) :
    ∃ front back, text = front ++ 'Σ' :: back ∧
      ((∀ c ∈ front, isCaseIgnorable c = true) ∨ ∀ c ∈ back, isCaseIgnorable c = true) := by
  simp only [SameSigmas, not_forall] at changed
  obtain ⟨front, back, split, differs⟩ := changed
  refine ⟨front, back, split, ?_⟩
  by_contra inside
  simp only [not_or, not_forall, Bool.not_eq_true, exists_prop] at inside
  obtain ⟨⟨c, in_front, counts⟩, in_back⟩ := inside
  refine differs ?_
  rw [lowerSigma, lowerSigma, startsCased_append _ in_back,
    startsCased_append _ ⟨c, List.mem_reverse.mpr in_front, counts⟩]

end ModalHost.Text
