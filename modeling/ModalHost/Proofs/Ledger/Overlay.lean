import ModalHost.Proofs.Ledger.Mooring

/-! What changes a loading dialog on screen: the jobs that are about it, while its scope is live. -/

namespace ModalHost

namespace Loading

inductive Turns (i : Nat) (l : Loading) : Job → Loading → Prop
  | toggled (shown : Bool) : Turns i l (.setLoading i shown) (l.setShown shown)
  | entered (w level : Nat) : Turns i l (.enter i w level) l.enter
  | left (w level : Nat) (awaited : Bool) : Turns i l (.leave i w level awaited) l.leave

theorem Turns.about {i : Nat} {l next : Loading} {job : Job} (turns : l.Turns i job next) :
    job.loading? = some i := by
  cases turns <;> rfl

theorem Turns.scope {i : Nat} {l next : Loading} {job : Job} (turns : l.Turns i job next) :
    next.scope = l.scope := by
  cases turns <;> rfl

/-- The overlay is shown while a block runs, and only then. -/
def Faithful (l : Loading) : Prop := l.shown.value = decide (0 < l.inFlight)

def Modest (l : Loading) : Prop := l.shown.value = true → 0 < l.inFlight

theorem faithful_enter (l : Loading) : l.enter.Faithful := by
  simp [Faithful, enter]

theorem Faithful.leave {l : Loading} (faithful : l.Faithful) : l.leave.Faithful := by
  unfold Faithful at faithful ⊢
  unfold Loading.leave
  by_cases last : l.inFlight ≤ 1
  · simp [last]
  · simp only [if_neg last, faithful, decide_eq_decide]
    omega

theorem modest_enter (l : Loading) : l.enter.Modest := fun _ => Nat.succ_pos l.inFlight

theorem Modest.leave {l : Loading} (modest : l.Modest) : l.leave.Modest := by
  unfold Modest at modest ⊢
  unfold Loading.leave
  by_cases last : l.inFlight ≤ 1
  · simp [last]
  · simp only [if_neg last]
    intro shown
    have running := modest shown
    omega

theorem modest_hidden (l : Loading) : (l.setShown false).Modest := by
  simp [Modest, setShown]

end Loading

namespace Ledger

variable {allowed : Job → Prop} {γ δ : Ledger}

theorem perform_about (job : Job) (i : Nat) (about : job.loading? = some i) (l : Loading)
    (found : γ.loadings[i]? = some l) :
    ∃ next, (γ.perform job).loadings[i]? = some next ∧ l.Turns i job next := by
  cases job with
  | setLoading j shown =>
      obtain rfl : j = i := Option.some.inj about
      exact ⟨l.setShown shown, by simp [perform, found], .toggled shown⟩
  | enter j w level =>
      obtain rfl : j = i := Option.some.inj about
      exact ⟨l.enter, by simp [perform, found], .entered w level⟩
  | leave j w level awaited =>
      obtain rfl : j = i := Option.some.inj about
      exact ⟨l.leave, by simp [perform, found], .left w level awaited⟩
  | _ => cases about

theorem perform_elsewhere (job : Job) (i : Nat) (elsewhere : job.loading? ≠ some i) :
    (γ.perform job).loadings[i]? = γ.loadings[i]? := by
  cases job with
  | setLoading j | enter j | leave j =>
      have apart : j ≠ i := by simpa [Job.loading?] using elsewhere
      simp [perform, apart]
  | _ => rfl

theorem perform_loading (job : Job) (i : Nat) (l next : Loading)
    (found : γ.loadings[i]? = some l) (after : (γ.perform job).loadings[i]? = some next) :
    next = l ∨ l.Turns i job next := by
  by_cases about : job.loading? = some i
  · right
    obtain ⟨turned, there, turns⟩ := perform_about job i about l found
    obtain rfl : turned = next := Option.some.inj (there.symm.trans after)
    exact turns
  · left
    rw [perform_elsewhere job i about, found] at after
    exact (Option.some.inj after).symm

theorem Step.loading_cases (step : Step allowed γ δ) (i : Nat) (l next : Loading)
    (found : γ.loadings[i]? = some l) (after : δ.loadings[i]? = some next) :
    (next.shown = l.shown ∧ next.inFlight = l.inFlight) ∨
      ∃ (scope : Nat) (lineage : List Nat) (job : Job) (jobs : List Job),
        γ.scopes[scope]? = some ⟨lineage, false, job :: jobs⟩ ∧ allowed job ∧
          l.Turns i job next := by
  cases step with
  | opened scope inside =>
      have here : i < γ.loadings.length := (List.getElem?_eq_some_iff.mp found).1
      rw [List.getElem?_append_left here] at after
      obtain rfl : l = next := Option.some.inj (found.symm.trans after)
      exact .inl ⟨rfl, rfl⟩
  | tended j handle =>
      obtain ⟨same, at_i, view⟩ := origin_modify (fun l => { l with handle })
        (fun l : Loading => (l.shown, l.inFlight)) (fun _ => rfl) _ j i next after
      obtain rfl : l = same := Option.some.inj (found.symm.trans at_i)
      exact .inl (Prod.mk.inj view.symm)
  | ran scope lineage job jobs front permitted =>
      rcases perform_loading (γ := { γ with
        scopes := γ.scopes.modify scope fun s => { s with queue := jobs } }) job i l next found
        after with rfl | turns
      · exact .inl ⟨rfl, rfl⟩
      · exact .inr ⟨scope, lineage, job, jobs, front, permitted, turns⟩
  | _ =>
      obtain rfl : l = next := Option.some.inj (found.symm.trans after)
      exact .inl ⟨rfl, rfl⟩

theorem Path.every_loading (path : Path allowed blank γ) (i : Nat) (holds : Bool → Nat → Prop)
    (new : holds false 0)
    (turn : ∀ (l : Loading) job next, allowed job → l.Turns i job next → holds l.shown.value l.inFlight →
      holds next.shown.value next.inFlight)
    (l : Loading) (found : γ.loadings[i]? = some l) : holds l.shown.value l.inFlight := by
  induction path generalizing l with
  | refl => cases found
  | tail _ step ih =>
      rcases step.loading_origin i l found with ⟨former, here, -⟩ | ⟨-, -, -, -, fresh⟩
      · rcases step.loading_cases i former l here found with
          ⟨shown, count⟩ | ⟨-, -, job, -, -, permitted, turns⟩
        · rw [shown, count]
          exact ih former here
        · exact turn former job l permitted turns (ih former here)
      · rw [fresh]
        exact new

/-- While nobody shows or hides a loading dialog, its overlay is there when a block runs. -/
theorem Path.faithful (path : Path allowed blank γ) (i : Nat)
    (silent : ∀ shown, ¬allowed (.setLoading i shown)) (l : Loading)
    (found : γ.loadings[i]? = some l) : l.Faithful := by
  refine path.every_loading i (fun shown count => shown = decide (0 < count)) rfl ?_ l found
  intro l job next permitted turns faithful
  cases turns with
  | toggled shown => exact absurd permitted (silent shown)
  | entered => exact l.faithful_enter
  | left => exact Loading.Faithful.leave faithful

theorem Path.modest (path : Path allowed blank γ) (i : Nat)
    (silent : ¬allowed (.setLoading i true)) (l : Loading) (found : γ.loadings[i]? = some l) :
    l.Modest := by
  refine path.every_loading i (fun shown count => shown = true → 0 < count) nofun ?_ l found
  intro l job next permitted turns modest
  cases turns with
  | toggled shown =>
      cases shown with
      | true => exact absurd permitted silent
      | false => exact l.modest_hidden
  | entered => exact l.modest_enter
  | left => exact Loading.Modest.leave modest

theorem Path.frozen (path : Path allowed γ δ) (reachable : γ.Reachable) (i : Nat) (l : Loading)
    (found : γ.loadings[i]? = some l) (dead : γ.isCancelled l.scope = true) :
    ∃ next, δ.loadings[i]? = some next ∧ next.scope = l.scope ∧ next.shown = l.shown ∧
      next.inFlight = l.inFlight ∧ δ.isCancelled l.scope = true := by
  induction path with
  | refl => exact ⟨l, found, rfl, rfl, rfl, dead⟩
  | @tail before after path step ih =>
      obtain ⟨middle, here, home, shown, count, still⟩ := ih
      obtain ⟨next, there, stays⟩ := step.loading_stays i middle here
      have later : after.isCancelled l.scope = true := by
        by_contra revived
        have alive := step.persist.live (Bool.eq_false_iff.mpr revived)
        exact absurd (still.symm.trans alive) nofun
      rcases step.loading_cases i middle next here there with
        same | ⟨scope, lineage, job, jobs, front, -, turns⟩
      · exact ⟨next, there, stays.trans home, same.1.trans shown, same.2.trans count, later⟩
      · have queue := queueAt_of_front _ _ _ _ _ front
        have member : job ∈ before.queued scope := by
          unfold queued
          rw [queue.1]
          exact List.mem_cons_self
        obtain ⟨owner, at_i, at_scope⟩ :=
          (reachable.path path).moored.homes scope job i member turns.about
        obtain rfl : middle = owner := Option.some.inj (here.symm.trans at_i)
        rw [← home, at_scope] at still
        exact absurd (still.symm.trans queue.2) nofun

end Ledger

end ModalHost
