import Mathlib.Data.List.Basic
import Mathlib.Algebra.GroupWithZero.Nat

/-! Lists that change in one place, or grow at their end. -/

namespace ModalHost

variable {α β : Type}

/-- A property of the members of a list, checked member by member. To decide the quantifier itself
would be to try all values of the type. -/
theorem forall_mem_of_all {l : List α} {p : α → Prop} [DecidablePred p]
    (checked : l.all (fun a => decide (p a)) = true) : ∀ a ∈ l, p a :=
  fun a member => of_decide_eq_true (List.all_eq_true.mp checked a member)

theorem map_modify (f : α → α) (g : β → β) (view : α → β) (k : Nat) (l : List α)
    (commutes : ∀ x, view (f x) = g (view x)) :
    (l.modify k f).map view = (l.map view).modify k g := by
  apply List.ext_getElem?
  intro n
  simp only [List.getElem?_map, List.getElem?_modify]
  cases l[n]? with
  | none => rfl
  | some x => by_cases at_k : k = n <;> simp [at_k, commutes]

theorem map_modify_invisible (f : α → α) (view : α → β) (k : Nat) (l : List α)
    (invisible : ∀ x, view (f x) = view x) : (l.modify k f).map view = l.map view := by
  rw [map_modify f id view k l invisible, List.modify_id]

theorem modify_eq_self (f : α → α) (k : Nat) (l : List α)
    (same : ∀ x, l[k]? = some x → f x = x) : l.modify k f = l := by
  apply List.ext_getElem?
  intro n
  rw [List.getElem?_modify]
  by_cases at_k : k = n
  · subst at_k
    cases found : l[k]? with
    | none => rfl
    | some x => simp [same x found]
  · simp [at_k]

theorem modify_congr (f g : α → α) (k : Nat) (l : List α)
    (same : ∀ x, l[k]? = some x → f x = g x) : l.modify k f = l.modify k g := by
  apply List.ext_getElem?
  intro n
  rw [List.getElem?_modify, List.getElem?_modify]
  by_cases at_k : k = n
  · subst at_k
    cases found : l[k]? with
    | none => rfl
    | some x => simp [same x found]
  · simp [at_k]

theorem modify_comm (f g : α → α) (commute : ∀ x, f (g x) = g (f x)) (j k : Nat) (l : List α) :
    (l.modify j f).modify k g = (l.modify k g).modify j f := by
  apply List.ext_getElem?
  intro n
  simp only [List.getElem?_modify]
  cases l[n]? with
  | none => rfl
  | some x => by_cases at_j : j = n <;> by_cases at_k : k = n <;> simp [at_j, at_k, commute]

theorem modify_comm_ne (f g : α → α) (j k : Nat) (other : j ≠ k) (l : List α) :
    (l.modify j f).modify k g = (l.modify k g).modify j f := by
  apply List.ext_getElem?
  intro n
  simp only [List.getElem?_modify]
  by_cases at_j : j = n
  · have not_k : k ≠ n := fun at_k => other (at_j.trans at_k.symm)
    cases l[n]? <;> simp [at_j, not_k]
  · cases l[n]? <;> simp [at_j]

theorem stays_modify (f : α → α) (view : α → β) (same : ∀ x, view (f x) = view x)
    (xs : List α) (k n : Nat) (x : α) (found : xs[n]? = some x) :
    ∃ y, (xs.modify k f)[n]? = some y ∧ view y = view x := by
  rw [List.getElem?_modify, found]
  refine ⟨_, rfl, ?_⟩
  dsimp only
  split
  · exact same x
  · rfl

theorem origin_modify (f : α → α) (view : α → β) (same : ∀ x, view (f x) = view x)
    (xs : List α) (k n : Nat) (y : α) (there : (xs.modify k f)[n]? = some y) :
    ∃ x, xs[n]? = some x ∧ view x = view y := by
  rw [List.getElem?_modify, Option.map_eq_map, Option.map_eq_some_iff] at there
  obtain ⟨x, found, rfl⟩ := there
  refine ⟨x, found, ?_⟩
  split
  · exact (same x).symm
  · rfl

theorem modify_concat (xs : List α) (x : α) (f : α → α) :
    (xs ++ [x]).modify xs.length f = xs ++ [f x] := by
  induction xs with
  | nil => rfl
  | cons y xs ih => exact congrArg (y :: ·) ih

theorem getElem?_concat_cases (xs : List α) (x y : α) (n : Nat)
    (there : (xs ++ [x])[n]? = some y) : xs[n]? = some y ∨ n = xs.length ∧ y = x := by
  rw [List.getElem?_append] at there
  split at there
  · exact .inl there
  · rename_i beyond
    rw [List.getElem?_singleton] at there
    split at there
    · exact .inr ⟨by omega, (Option.some.inj there).symm⟩
    · cases there

theorem eq_of_getElem?_concat (view : α → β) (xs : List α) (x : α) (n : Nat) (y : β)
    (absent : xs[n]?.map view = none) (there : (xs ++ [x])[n]?.map view = some y) : y = view x := by
  obtain ⟨z, found, rfl⟩ := Option.map_eq_some_iff.mp there
  rcases getElem?_concat_cases xs x z n found with before | ⟨-, rfl⟩
  · cases (Option.map_eq_none_iff.mp absent).symm.trans before
  · rfl

theorem any_getElem?_modify (f : α → α) (test : α → Bool) (same : ∀ x, test (f x) = test x)
    (xs : List α) (k n : Nat) : (xs.modify k f)[n]?.any test = xs[n]?.any test := by
  rw [List.getElem?_modify]
  cases xs[n]? with
  | none => rfl
  | some x =>
      dsimp only [Option.map_eq_map, Option.map_some, Option.any_some]
      split
      · exact same x
      · rfl

theorem any_modify (f : α → α) (test : α → Bool) (xs : List α) (k : Nat)
    (kept : ∀ x, xs[k]? = some x → test (f x) = true → test x = true)
    (passes : (xs.modify k f).any test = true) : xs.any test = true := by
  obtain ⟨y, member, passed⟩ := List.any_eq_true.mp passes
  obtain ⟨n, there⟩ := List.mem_iff_getElem?.mp member
  rw [List.getElem?_modify, Option.map_eq_map, Option.map_eq_some_iff] at there
  obtain ⟨x, found, rfl⟩ := there
  refine List.any_eq_true.mpr ⟨x, List.mem_of_getElem? found, ?_⟩
  split at passed
  · rename_i here
    exact kept x (here ▸ found) passed
  · exact passed

theorem sum_modify (f : α → α) (value : α → Nat) (xs : List α) (k : Nat) (x : α)
    (found : xs[k]? = some x) :
    ((xs.modify k f).map value).sum + value x = (xs.map value).sum + value (f x) := by
  induction xs generalizing k with
  | nil => cases found
  | cons y xs ih =>
      cases k with
      | zero =>
          obtain rfl : y = x := Option.some.inj found
          simp only [List.modify_zero_cons, List.map_cons, List.sum_cons]
          omega
      | succ k =>
          have later := ih k found
          simp only [List.modify_succ_cons, List.map_cons, List.sum_cons]
          omega

end ModalHost
