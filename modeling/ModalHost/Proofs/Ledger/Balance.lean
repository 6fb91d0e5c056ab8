import ModalHost.Proofs.Ledger.Passages
import Mathlib.Algebra.Order.BigOperators.Group.List
import Mathlib.Algebra.Order.Group.Nat
import Mathlib.Algebra.GroupWithZero.Nat

/-! While its scope is live, a loading dialog counts what its works hold: the count, with the enters
and leaves that are still queued, comes to the number of levels that are yet to queue a leave. -/

namespace ModalHost

/-- What a job makes of the count of a loading dialog; a leave needs a count above zero. -/
def tick (i n : Nat) : Job → Option Nat
  | .enter j _ _ => some (if j = i then n + 1 else n)
  | .leave j _ _ _ => if j = i then (if n = 0 then none else some (n - 1)) else some n
  | _ => some n

/-- What the count of a loading dialog is after a number of jobs, unless a leave finds it at zero. -/
def tally (i n : Nat) (jobs : List Job) : Option Nat := jobs.foldlM (tick i) n

theorem tally_append (i n : Nat) (before after : List Job) :
    tally i n (before ++ after) = (tally i n before).bind fun m => tally i m after :=
  List.foldlM_append

theorem tick_foreign (i n : Nat) (job : Job) (foreign : job.loading? ≠ some i) :
    tick i n job = some n := by
  cases job with
  | enter j w level =>
      have apart : j ≠ i := by simpa [Job.loading?] using foreign
      simp [tick, apart]
  | leave j w level awaited =>
      have apart : j ≠ i := by simpa [Job.loading?] using foreign
      simp [tick, apart]
  | _ => rfl

theorem tally_foreign (i n : Nat) (jobs : List Job)
    (foreign : ∀ job ∈ jobs, job.loading? ≠ some i) : tally i n jobs = some n := by
  induction jobs with
  | nil => rfl
  | cons job jobs ih =>
      unfold tally at ih ⊢
      rw [List.foldlM_cons, tick_foreign i n job (foreign job List.mem_cons_self)]
      exact ih fun other later => foreign other (List.mem_cons_of_mem job later)

namespace Work

theorem tally_leaves (loading w n held : Nat) (enough : held ≤ n) :
    tally loading n (leaves loading w held) = some (n - held) := by
  induction held generalizing n with
  | zero => rfl
  | succ held ih =>
      have some_left : n ≠ 0 := by omega
      have rest := ih (n - 1) (by omega)
      have first : tally loading n (leaves loading w (held + 1)) =
          tally loading (n - 1) (leaves loading w held) := by
        simp [tally, leaves, tick, some_left]
      rw [first, rest]
      congr 1
      omega

theorem Proceeds.tallies {work : Work} {w n : Nat} {stage : Stage} {jobs : List Job}
    (how : work.Proceeds w false stage jobs) (staged : work.Staged) (enough : work.armed ≤ n) :
    tally work.loading n jobs = some (n - work.armed + { work with stage : Work }.armed) := by
  cases how with
  | deeper level done before =>
      have armed : work.armed = level := by rw [Work.armed, before]
      rw [armed] at enough ⊢
      have more : tally work.loading n [.enter work.loading w (level + 1)] = some (n + 1) := by
        simp [tally, tick]
      rw [more]
      congr 1
      change n + 1 = n - level + (level + 1)
      omega
  | begun level done before through full =>
      have armed : work.armed = level := by rw [Work.armed, before]
      have innermost : level ≤ work.depth := by
        unfold Staged at staged
        rw [before] at staged
        exact staged.2
      rw [armed] at enough ⊢
      change some n = some (n - level + work.depth)
      congr 1
      omega
  | outward level text given before =>
      have armed : work.armed = level + 1 := by
        unfold Work.armed
        obtain ⟨inside, innermost⟩ | ⟨done, leaving, -⟩ := before
        · rw [inside]
          exact innermost.symm
        · rw [leaving]
          rfl
      rw [armed] at enough ⊢
      have less : tally work.loading n [.leave work.loading w (level + 1) true] =
          some (n - 1) := by
        have some_left : n ≠ 0 := by omega
        simp [tally, tick, some_left]
      rw [less]
      congr 1
      change n - 1 = n - (level + 1) + level
      omega
  | returned text given before =>
      have armed : work.armed = 0 := by
        unfold Work.armed
        obtain ⟨inside, bare⟩ | ⟨level, done, outermost, leaving, -⟩ := before
        · rw [inside]
          exact bare
        · rw [leaving]
          exact Nat.sub_eq_zero_of_le outermost
      rw [armed]
      rfl
  | dropped =>
      rw [tally_leaves work.loading w n work.armed enough]
      rfl

theorem Starts.tallies {w loading depth n : Nat} {stage : Stage} {jobs : List Job}
    (how : Starts w loading depth stage jobs) (name : String) (outcome : Option Outcome) :
    tally loading n jobs = some (n + (⟨name, loading, depth, stage, outcome⟩ : Work).armed) := by
  cases how with
  | bare none =>
      subst none
      rfl
  | wrapped => simp [tally, tick, armed]

def holds (i : Nat) (work : Work) : Nat := if work.loading = i then work.armed else 0

end Work

namespace Ledger

variable {allowed : Job → Prop} {γ δ : Ledger}

def held (γ : Ledger) (i : Nat) : Nat := (γ.works.map (Work.holds i)).sum

theorem holds_le_held (i w : Nat) (work : Work) (there : γ.works[w]? = some work) :
    work.holds i ≤ γ.held i :=
  List.le_sum_of_mem (List.mem_map_of_mem (List.mem_of_getElem? there))

/-- The count of a loading dialog stands for what works hold. -/
def Balanced (γ : Ledger) (i : Nat) (l : Loading) : Prop :=
  tally i l.inFlight (γ.queued l.scope) = some (γ.held i)

theorem tally_launches (home : Nat) (jobs : List Job) (loading i k n : Nat)
    (about : ∀ job ∈ jobs, job.loading? = some loading) (same : loading = i → home = k)
    (opens : openAt γ.scopes k = true) :
    tally i n ((γ.launches home jobs).queued k) =
      (tally i n (γ.queued k)).bind fun m => if loading = i then tally i m jobs else some m := by
  have queue : (γ.launches home jobs).queued k =
      if k = home ∧ openAt γ.scopes home = true then γ.queued k ++ jobs else γ.queued k :=
    queueAt_pushAll γ.scopes k home jobs
  by_cases mine : loading = i
  · obtain rfl := same mine
    rw [queue, if_pos ⟨rfl, opens⟩, tally_append]
    simp only [mine, if_true]
  · have foreign (m : Nat) : tally i m jobs = some m := by
      apply tally_foreign
      intro job member away
      exact mine (Option.some.inj ((about job member).symm.trans away))
    rw [queue]
    simp only [if_neg mine, Option.bind_fun_some]
    split
    · simp only [tally_append, foreign, Option.bind_fun_some]
    · rfl

theorem loadings_perform (job : Job) (i : Nat) (l : Loading) (found : γ.loadings[i]? = some l)
    (n : Nat) (ticked : tick i l.inFlight job = some n) :
    ∃ next, (γ.perform job).loadings[i]? = some next ∧ next.scope = l.scope ∧
      next.inFlight = n := by
  cases job with
  | setLoading j shown =>
      obtain rfl : l.inFlight = n := Option.some.inj ticked
      by_cases same : j = i
      · subst same
        exact ⟨l.setShown shown, by simp [perform, found], rfl, rfl⟩
      · exact ⟨l, by simp [perform, same, found], rfl, rfl⟩
  | enter j w level =>
      obtain rfl : (if j = i then l.inFlight + 1 else l.inFlight) = n := Option.some.inj ticked
      by_cases same : j = i
      · subst same
        exact ⟨l.enter, by simp [perform, found], rfl, by simp [Loading.enter]⟩
      · exact ⟨l, by simp [perform, same, found], rfl, by simp [same]⟩
  | leave j w level awaited =>
      by_cases same : j = i
      · subst same
        have less : l.inFlight - 1 = n := by
          by_cases zero : l.inFlight = 0
          · simp [tick, zero] at ticked
          · simpa [tick, zero] using ticked
        exact ⟨l.leave, by simp [perform, found], rfl, less⟩
      · obtain rfl : l.inFlight = n := by simpa [tick, same] using ticked
        exact ⟨l, by simp [perform, same, found], rfl, rfl⟩
  | _ =>
      obtain rfl : l.inFlight = n := Option.some.inj ticked
      exact ⟨l, found, rfl, rfl⟩

theorem held_perform (job : Job) (i : Nat) : (γ.perform job).held i = γ.held i := by
  have same (news : Job) (work : Work) : (work.told news).holds i = work.holds i := by
    unfold Work.holds
    rw [Work.told_armed, (work.told_frame news).1]
  cases job with
  | enter j w level =>
      exact congrArg List.sum
        (map_modify_invisible _ _ w γ.works (same (.enter j w level)))
  | leave j w level awaited =>
      cases awaited with
      | true =>
          exact congrArg List.sum
            (map_modify_invisible _ _ w γ.works (same (.leave j w level true)))
      | false => rfl
  | _ => rfl

theorem held_modify (i w : Nat) (f : Work → Work) (work : Work) (there : γ.works[w]? = some work)
    (scopes : List Scope) :
    ({ γ with works := γ.works.modify w f, scopes } : Ledger).held i + work.holds i =
      γ.held i + (f work).holds i :=
  sum_modify f (Work.holds i) γ.works w work there

theorem Balanced.started {i loading depth : Nat} {l home : Loading} {stage : Stage}
    {jobs : List Job} (balanced : γ.Balanced i l) (found : γ.loadings[i]? = some l)
    (opens : openAt γ.scopes l.scope = true) (at_home : γ.loadings[loading]? = some home)
    (how : Work.Starts γ.works.length loading depth stage jobs) (name : String)
    (outcome : Option Outcome) :
    Balanced ({ γ with
      works := γ.works ++ [⟨name, loading, depth, stage, outcome⟩] : Ledger }.launches home.scope
        jobs) i l := by
  have homes (same : loading = i) : home.scope = l.scope := by
    subst same
    rw [Option.some.inj (at_home.symm.trans found)]
  unfold Balanced at balanced ⊢
  change tally i l.inFlight ((γ.launches home.scope jobs).queued l.scope) = _
  rw [tally_launches home.scope jobs loading i l.scope _
    (fun job member => (how.about job member).1) homes opens, balanced, Option.bind_some]
  by_cases same : loading = i
  · subst same
    rw [if_pos rfl, how.tallies name outcome]
    simp [held, launches, Work.holds]
  · rw [if_neg same]
    simp [held, launches, Work.holds, same]

theorem Balanced.proceeded {i w : Nat} {l home : Loading} {work : Work} {stage : Stage}
    {jobs : List Job} (balanced : γ.Balanced i l) (reachable : γ.Reachable)
    (found : γ.loadings[i]? = some l) (live : γ.isCancelled l.scope = false)
    (opens : openAt γ.scopes l.scope = true) (there : γ.works[w]? = some work)
    (at_home : γ.loadings[work.loading]? = some home)
    (how : work.Proceeds w (γ.isCancelled home.scope) stage jobs) :
    Balanced ((γ.launches home.scope jobs).setStage w stage) i l := by
  have homes (same : work.loading = i) : home = l := by
    subst same
    exact Option.some.inj (at_home.symm.trans found)
  have changed : ((γ.launches home.scope jobs).setStage w stage).held i + work.holds i =
      γ.held i + { work with stage : Work }.holds i := held_modify i w _ work there _
  have holds := holds_le_held i w work there
  unfold Balanced at balanced ⊢
  change tally i l.inFlight ((γ.launches home.scope jobs).queued l.scope) = _
  rw [tally_launches home.scope jobs work.loading i l.scope _
    (fun job member => (how.about job member).1) (fun same => by rw [homes same]) opens,
    balanced, Option.bind_some]
  by_cases same : work.loading = i
  · obtain rfl := homes same
    subst same
    simp only [Work.holds, if_true] at changed holds
    rw [live] at how
    have staged := (reachable.sane w work there home at_home live).staged
    rw [if_pos rfl, how.tallies staged holds]
    congr 1
    omega
  · simp only [Work.holds, if_neg same] at changed
    rw [if_neg same]
    exact congrArg some changed.symm

theorem Balanced.ran {i scope : Nat} {l next : Loading} {lineage : List Nat} {job : Job}
    {jobs : List Job} (balanced : γ.Balanced i l) (moored : γ.Moored)
    (found : γ.loadings[i]? = some l)
    (front : γ.scopes[scope]? = some ⟨lineage, false, job :: jobs⟩)
    (after : ({ γ with scopes := γ.scopes.modify scope fun s => { s with queue := jobs } :
      Ledger }.perform job).loadings[i]? = some next) :
    Balanced ({ γ with scopes := γ.scopes.modify scope fun s => { s with queue := jobs } :
      Ledger }.perform job) i next := by
  have queue := queueAt_of_front _ _ _ _ _ front
  have pop := queueAt_pop γ.scopes l.scope scope jobs (List.getElem?_eq_some_iff.mp front).1
  unfold Balanced at balanced ⊢
  let popped : Ledger :=
    { γ with scopes := γ.scopes.modify scope fun s => { s with queue := jobs } }
  have ticked : ∃ n, tick i l.inFlight job = some n ∧
      tally i n (popped.queued l.scope) = some (γ.held i) := by
    change ∃ n, _ ∧ tally i n (queueAt popped.scopes l.scope) = _
    rw [pop]
    by_cases here : l.scope = scope
    · rw [if_pos here]
      change tally i l.inFlight (queueAt γ.scopes l.scope) = _ at balanced
      rw [here, queue.1] at balanced
      exact Option.bind_eq_some_iff.mp balanced
    · rw [if_neg here]
      refine ⟨l.inFlight, tick_foreign i _ job ?_, balanced⟩
      intro mine
      have member : job ∈ γ.queued scope := by
        unfold queued
        rw [queue.1]
        exact List.mem_cons_self
      obtain ⟨home, at_i, at_scope⟩ := moored.homes scope job i member mine
      obtain rfl : l = home := Option.some.inj (found.symm.trans at_i)
      exact here at_scope
  obtain ⟨n, ticks, rest⟩ := ticked
  obtain ⟨made, at_i, same, count⟩ := loadings_perform (γ := popped) job i l found n ticks
  obtain rfl : made = next := Option.some.inj (at_i.symm.trans after)
  rw [count, same, queued_perform, held_perform]
  exact rest

theorem Step.balanced (step : Step allowed γ δ) (reachable : γ.Reachable) (i : Nat) (l : Loading)
    (found : γ.loadings[i]? = some l) (next : Loading) (after : δ.loadings[i]? = some next)
    (live : δ.isCancelled l.scope = false) (balanced : γ.Balanced i l) : δ.Balanced i next := by
  have was : γ.isCancelled l.scope = false := step.persist.live live
  have opens : openAt γ.scopes l.scope = true :=
    openAt_of_live _ _ (reachable.sound.loadings i l found) was
  cases step with
  | started loading home at_home name depth outcome stage jobs how =>
      obtain rfl : l = next := Option.some.inj (found.symm.trans after)
      exact balanced.started found opens at_home how name outcome
  | proceeded w work there home at_home stage jobs how =>
      obtain rfl : l = next := Option.some.inj (found.symm.trans after)
      exact balanced.proceeded reachable found was opens there at_home how
  | given w work there can outcome =>
      obtain rfl : l = next := Option.some.inj (found.symm.trans after)
      have changed := held_modify i w (fun work => { work with outcome := some outcome }) work
        there γ.scopes
      unfold Balanced
      rw [show Ledger.held { γ with works := _ } i = γ.held i from Nat.add_right_cancel changed]
      exact balanced
  | toggled j home at_home shown =>
      obtain rfl : l = next := Option.some.inj (found.symm.trans after)
      have homes (same : j = i) : home.scope = l.scope := by
        subst same
        rw [Option.some.inj (at_home.symm.trans found)]
      unfold Balanced at balanced ⊢
      rw [tally_launches home.scope [.setLoading j shown] j i l.scope _
        (fun job member => by rw [List.mem_singleton.mp member]; rfl) homes opens, balanced,
        Option.bind_some]
      split <;> rfl
  | cancelled root =>
      obtain rfl : l = next := Option.some.inj (found.symm.trans after)
      have queue := queueAt_cancel_live γ.scopes l.scope root live
      unfold Balanced queued
      rw [queue]
      exact balanced
  | branched lineage cancelled =>
      obtain rfl : l = next := Option.some.inj (found.symm.trans after)
      unfold Balanced queued
      rw [queueAt_branch]
      exact balanced
  | opened scope inside =>
      have here : i < γ.loadings.length := (List.getElem?_eq_some_iff.mp found).1
      rw [List.getElem?_append_left here] at after
      obtain rfl : l = next := Option.some.inj (found.symm.trans after)
      exact balanced
  | tended j handle =>
      obtain ⟨same, at_i, view⟩ := origin_modify (fun l => { l with handle })
        (fun l : Loading => (l.scope, l.inFlight)) (fun _ => rfl) _ j i next after
      obtain rfl : l = same := Option.some.inj (found.symm.trans at_i)
      obtain ⟨scope, count⟩ := Prod.mk.inj view
      unfold Balanced
      rw [← scope, ← count]
      exact balanced
  | housed | renamed =>
      obtain rfl : l = next := Option.some.inj (found.symm.trans after)
      exact balanced
  | ran scope lineage job jobs front => exact balanced.ran reachable.moored found front after

theorem Moored.balanced_new (moored : γ.Moored) (sound : γ.Sound) (i : Nat)
    (new : γ.loadings.length ≤ i) (scope : Nat) :
    tally i 0 (γ.queued scope) = some (γ.held i) := by
  have none : γ.held i = 0 := by
    apply List.sum_eq_zero
    intro n member
    obtain ⟨work, there, rfl⟩ := List.mem_map.mp member
    obtain ⟨w, at_w⟩ := List.mem_iff_getElem?.mp there
    obtain ⟨l, found⟩ := sound.works w work at_w
    have known := (List.getElem?_eq_some_iff.mp found).1
    exact if_neg (by omega)
  rw [none]
  apply tally_foreign
  intro job member about
  obtain ⟨l, found, -⟩ := moored.homes scope job i member about
  have known := (List.getElem?_eq_some_iff.mp found).1
  omega

theorem Reachable.balanced (reachable : γ.Reachable) (i : Nat) (l : Loading)
    (found : γ.loadings[i]? = some l) (live : γ.isCancelled l.scope = false) :
    γ.Balanced i l := by
  induction reachable generalizing l with
  | refl => cases found
  | @tail before after path step ih =>
      have reached : before.Reachable := path
      rcases step.loading_origin i l found with ⟨former, here, same⟩ | ⟨rfl, -, works, scopes, new⟩
      · rw [← same] at live
        exact step.balanced reached i former here l found live
          (ih former here (step.persist.live live))
      · have nothing := reached.moored.balanced_new reached.sound _ (Nat.le_refl _) l.scope
        unfold Balanced queued held
        rw [works, scopes, new]
        exact nothing

end Ledger

end ModalHost
