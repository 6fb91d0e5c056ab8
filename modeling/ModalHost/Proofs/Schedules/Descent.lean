import Mathlib.Data.List.Basic
import Mathlib.Algebra.Order.BigOperators.Group.List
import Mathlib.Algebra.Order.Group.Nat
import Mathlib.Tactic.Choose

/-! Runs of steps that may be taken in any order. Where the steps go down, all runs end; where they
commute up to some likeness, all runs that end have ends that are alike. -/

namespace ModalHost

variable {σ μ : Type}

/-- Takes steps one after the other, unless one of them cannot be taken. -/
def drive (step : σ → μ → Option σ) (s : σ) (ms : List μ) : Option σ := ms.foldlM step s

theorem drive_cons {step : σ → μ → Option σ} {s e : σ} {m : μ} {ms : List μ} :
    drive step s (m :: ms) = some e ↔ ∃ t, step s m = some t ∧ drive step t ms = some e := by
  simp only [drive, List.foldlM_cons, Option.bind_eq_bind, Option.bind_eq_some_iff]

/-- Where only finitely many steps can be taken at a time, and no run goes on for ever, there is a
limit to the length of all runs. -/
theorem bounded_of_acc {step : σ → μ → Option σ} (options : σ → List μ)
    (only : ∀ s m t, step s m = some t → m ∈ options s) (s : σ)
    (acc : Acc (fun t s => ∃ m, step s m = some t) s) :
    ∃ limit, ∀ ms e, drive step s ms = some e → ms.length ≤ limit := by
  induction acc with
  | intro s _ ih =>
      have each (m : μ) : ∃ limit, ∀ t, step s m = some t →
          ∀ ms e, drive step t ms = some e → ms.length ≤ limit := by
        cases taken : step s m with
        | none => exact ⟨0, nofun⟩
        | some t =>
            obtain ⟨limit, bounded⟩ := ih t ⟨m, taken⟩
            exact ⟨limit, fun u same => Option.some.inj same ▸ bounded⟩
      choose limit bounded using each
      refine ⟨((options s).map limit).sum + 1, ?_⟩
      intro ms e run
      cases ms with
      | nil => exact Nat.zero_le _
      | cons m ms =>
          obtain ⟨t, first, rest⟩ := drive_cons.mp run
          have short := bounded m t first ms e rest
          have below := List.le_sum_of_mem (List.mem_map_of_mem (f := limit) (only s m t first))
          rw [List.length_cons]
          omega

theorem acc_of_drive {step : σ → μ → Option σ} {s e : σ} {ms : List μ}
    (acc : Acc (fun t s => ∃ m, step s m = some t) s) (run : drive step s ms = some e) :
    Acc (fun t s => ∃ m, step s m = some t) e := by
  induction ms generalizing s with
  | nil =>
      obtain rfl : s = e := Option.some.inj run
      exact acc
  | cons m ms ih =>
      obtain ⟨t, first, rest⟩ := drive_cons.mp run
      exact ih (acc.inv ⟨m, first⟩) rest

theorem halts_of_acc {step : σ → μ → Option σ} (s : σ)
    (acc : Acc (fun t s => ∃ m, step s m = some t) s) :
    ∃ ms e, drive step s ms = some e ∧ ∀ m, step e m = none := by
  induction acc with
  | intro s _ ih =>
      by_cases still : ∀ m, step s m = none
      · exact ⟨[], s, rfl, still⟩
      · obtain ⟨m, goes⟩ := not_forall.mp still
        obtain ⟨t, taken⟩ := Option.ne_none_iff_exists'.mp goes
        obtain ⟨ms, e, rest, stopped⟩ := ih t ⟨m, taken⟩
        exact ⟨m :: ms, e, drive_cons.mpr ⟨t, taken, rest⟩, stopped⟩

/-- Steps that commute up to likeness, from states that are calm. Some steps are quiet: they lead to a
state that is like the one before. -/
structure Commutes (step : σ → μ → Option σ) (quiet : μ → Prop) (calm : σ → Prop)
    (alike : σ → σ → Prop) : Prop where
  symm {s t : σ} : alike s t → alike t s
  trans {s t u : σ} : alike s t → alike t u → alike s u
  refl (s : σ) : alike s s
  calm_alike {s t : σ} : alike s t → calm s → calm t
  calm_step {s t : σ} {m : μ} : ¬quiet m → calm s → step s m = some t → calm t
  still {s t : σ} {m : μ} : quiet m → step s m = some t → alike s t
  follows {s t next : σ} {m : μ} : ¬quiet m → calm s → alike s t → step s m = some next →
    ∃ other, step t m = some other ∧ alike next other
  diamond {s t u : σ} {m n : μ} : ¬quiet m → ¬quiet n → m ≠ n → calm s → step s m = some t →
    step s n = some u → ∃ v w, step t n = some v ∧ step u m = some w ∧ alike v w

namespace Commutes

variable {step : σ → μ → Option σ} {quiet : μ → Prop} {calm : σ → Prop} {alike : σ → σ → Prop}
variable {s t e f : σ} {ms ns : List μ}

structure Runs (step : σ → μ → Option σ) (quiet : μ → Prop) (s : σ) (ms : List μ) (e : σ) : Prop where
  taken : drive step s ms = some e
  loud : ∀ m ∈ ms, ¬quiet m

theorem Runs.tail {m : μ} (runs : Runs step quiet s (m :: ms) e) :
    ¬quiet m ∧ ∃ t, step s m = some t ∧ Runs step quiet t ms e := by
  obtain ⟨t, first, rest⟩ := drive_cons.mp runs.taken
  exact ⟨runs.loud m List.mem_cons_self, t, first, rest,
    fun n later => runs.loud n (List.mem_cons_of_mem m later)⟩

theorem Runs.cons {m : μ} (loud : ¬quiet m) (first : step s m = some t)
    (runs : Runs step quiet t ms e) : Runs step quiet s (m :: ms) e :=
  ⟨drive_cons.mpr ⟨t, first, runs.taken⟩, List.forall_mem_cons.mpr ⟨loud, runs.loud⟩⟩

theorem Runs.nil (s : σ) : Runs step quiet s [] s := ⟨rfl, nofun⟩

theorem Runs.nil_eq (runs : Runs step quiet s [] e) : s = e := Option.some.inj runs.taken

variable (commutes : Commutes step quiet calm alike)
include commutes

theorem calm_run (runs : Runs step quiet s ms e) (is_calm : calm s) : calm e := by
  induction ms generalizing s with
  | nil => exact runs.nil_eq ▸ is_calm
  | cons m ms ih =>
      obtain ⟨loud, t, first, rest⟩ := runs.tail
      exact ih rest (commutes.calm_step loud is_calm first)

theorem transfer (runs : Runs step quiet s ms e) (is_calm : calm s) (like : alike s t) :
    ∃ f, Runs step quiet t ms f ∧ alike e f := by
  induction ms generalizing s t with
  | nil => exact ⟨t, .nil t, runs.nil_eq ▸ like⟩
  | cons m ms ih =>
      obtain ⟨loud, next, first, rest⟩ := runs.tail
      obtain ⟨other, second, likes⟩ := commutes.follows loud is_calm like first
      obtain ⟨f, ran, ends⟩ := ih rest (commutes.calm_step loud is_calm first) likes
      exact ⟨f, ran.cons loud second, ends⟩

theorem leave_out (taken : drive step s ms = some e) (is_calm : calm s) :
    ∃ ns f, Runs step quiet s ns f ∧ alike e f := by
  induction ms generalizing s with
  | nil =>
      obtain rfl : s = e := Option.some.inj taken
      exact ⟨[], s, .nil s, commutes.refl s⟩
  | cons m ms ih =>
      obtain ⟨t, first, rest⟩ := drive_cons.mp taken
      by_cases hush : quiet m
      · have like := commutes.still hush first
        obtain ⟨ns, f, runs, ends⟩ := ih rest (commutes.calm_alike like is_calm)
        obtain ⟨g, ran, same⟩ := commutes.transfer runs (commutes.calm_alike like is_calm)
          (commutes.symm like)
        exact ⟨ns, g, ran, commutes.trans ends same⟩
      · obtain ⟨ns, f, runs, ends⟩ := ih rest (commutes.calm_step hush is_calm first)
        exact ⟨m :: ns, f, runs.cons hush first, ends⟩

/-- A step that can be taken at the start can be taken out of a run that goes on until nothing can be
done. -/
theorem strip {m : μ} (runs : Runs step quiet s ms e) (is_calm : calm s) (loud : ¬quiet m)
    (first : step s m = some t) (halted : ∀ m, ¬quiet m → step e m = none) :
    ∃ ns f, Runs step quiet t ns f ∧ alike e f := by
  induction ms generalizing s t with
  | nil =>
      rw [runs.nil_eq, halted m loud] at first
      cases first
  | cons n ms ih =>
      obtain ⟨aloud, u, second, rest⟩ := runs.tail
      by_cases same : n = m
      · subst same
        obtain rfl := Option.some.inj (first.symm.trans second)
        exact ⟨ms, e, rest, commutes.refl e⟩
      · obtain ⟨v, w, after, before, like⟩ :=
          commutes.diamond aloud loud same is_calm second first
        have calm_u := commutes.calm_step aloud is_calm second
        obtain ⟨ns, f, ran, ends⟩ := ih rest calm_u after
        obtain ⟨g, again, same_end⟩ := commutes.transfer ran
          (commutes.calm_step loud calm_u after) like
        exact ⟨n :: ns, g, again.cons aloud before, commutes.trans ends same_end⟩

theorem halted_alike (is_calm : calm f) (like : alike e f) (halted : ∀ m, ¬quiet m → step e m = none)
    (m : μ) (loud : ¬quiet m) : step f m = none := by
  cases taken : step f m with
  | none => rfl
  | some next =>
      obtain ⟨other, goes, -⟩ := commutes.follows loud is_calm (commutes.symm like) taken
      rw [halted m loud] at goes
      cases goes

theorem runs_end_alike (is_calm : calm s) (like : alike s t) (one : Runs step quiet s ms e)
    (two : Runs step quiet t ns f) (halted : ∀ m, ¬quiet m → step e m = none)
    (ended : ∀ m, ¬quiet m → step f m = none) : alike e f := by
  induction ns generalizing s t ms e with
  | nil =>
      have end_t := two.nil_eq
      cases ms with
      | nil => exact one.nil_eq ▸ end_t ▸ like
      | cons m ms =>
          obtain ⟨loud, u, first, -⟩ := one.tail
          obtain ⟨other, goes, -⟩ := commutes.follows loud is_calm like first
          rw [end_t, ended m loud] at goes
          cases goes
  | cons n ns ih =>
      obtain ⟨loud, u, first, rest⟩ := two.tail
      have calm_t := commutes.calm_alike like is_calm
      obtain ⟨v, second, likes⟩ := commutes.follows loud calm_t (commutes.symm like) first
      obtain ⟨ms', e', ran, ends⟩ := commutes.strip one is_calm loud second halted
      have calm_v := commutes.calm_step loud is_calm second
      have halted' := commutes.halted_alike (commutes.calm_run ran calm_v) ends halted
      exact commutes.trans ends (ih calm_v (commutes.symm likes) ran rest halted')

theorem end_alike (is_calm : calm s) (one : drive step s ms = some e) (two : drive step s ns = some f)
    (halted : ∀ m, ¬quiet m → step e m = none) (ended : ∀ m, ¬quiet m → step f m = none) :
    alike e f := by
  obtain ⟨ms', e', ran, ends⟩ := commutes.leave_out one is_calm
  obtain ⟨ns', f', runs, endings⟩ := commutes.leave_out two is_calm
  have halted' := commutes.halted_alike (commutes.calm_run ran is_calm) ends halted
  have ended' := commutes.halted_alike (commutes.calm_run runs is_calm) endings ended
  have like := commutes.runs_end_alike is_calm (commutes.refl s) ran runs halted' ended'
  exact commutes.trans ends (commutes.trans like (commutes.symm endings))

end Commutes

end ModalHost
