import ModalHost.Proofs.Ledger.Thread

/-! While the scope of its loading dialog is live, a work goes along its thread, whatever else
happens to the ledger. -/

namespace ModalHost

theorem Job.of_eq_true {w : Nat} {job : Job} (mine : job.of w = true) :
    ∃ level passage, job.passage? = some ((w, level), passage) := by
  obtain ⟨⟨⟨v, level⟩, passage⟩, passes, same⟩ :
      ∃ entry, job.passage? = some entry ∧ (entry.1.1 == w) = true := by
    simpa [Job.of, Option.any_eq_true] using mine
  obtain rfl : v = w := by simpa using same
  exact ⟨level, passage, passes⟩

theorem Job.of_passage {w level : Nat} {passage : Passage} {job : Job}
    (passes : job.passage? = some ((w, level), passage)) (v : Nat) :
    job.of v = (w == v) := by
  simp [Job.of, passes]

namespace Work

variable {work : Work} {v loading depth : Nat} {cancelled : Bool} {stage : Stage} {jobs : List Job}

theorem Proceeds.own (how : work.Proceeds v cancelled stage jobs) :
    jobs.filter (Job.of v) = jobs := by
  apply List.filter_eq_self.mpr
  intro job member
  obtain ⟨-, level, passage, passes⟩ := how.about job member
  simp [Job.of_passage passes]

theorem Proceeds.foreign (how : work.Proceeds v cancelled stage jobs) (w : Nat) (other : v ≠ w) :
    jobs.filter (Job.of w) = [] := by
  apply List.filter_eq_nil_iff.mpr
  intro job member
  obtain ⟨-, level, passage, passes⟩ := how.about job member
  simp [Job.of_passage passes, other]

theorem Starts.own (how : Starts v loading depth stage jobs) : jobs.filter (Job.of v) = jobs := by
  apply List.filter_eq_self.mpr
  intro job member
  obtain ⟨-, level, passage, passes⟩ := how.about job member
  simp [Job.of_passage passes]

theorem Starts.foreign (how : Starts v loading depth stage jobs) (w : Nat) (other : v ≠ w) :
    jobs.filter (Job.of w) = [] := by
  apply List.filter_eq_nil_iff.mpr
  intro job member
  obtain ⟨-, level, passage, passes⟩ := how.about job member
  simp [Job.of_passage passes, other]

end Work

namespace Ledger

variable {allowed : Job → Prop} {γ δ : Ledger}

def thread (γ : Ledger) (scope w : Nat) (work : Work) : Thread where
  work
  ran := γ.log.filter (Event.of w)
  waiting := (γ.queued scope).filter (Job.of w)

theorem waiting_launches (home : Nat) (jobs : List Job) (scope w : Nat)
    (foreign : jobs.filter (Job.of w) = []) :
    ((γ.launches home jobs).queued scope).filter (Job.of w) =
      (γ.queued scope).filter (Job.of w) := by
  unfold queued launches
  rw [queueAt_pushAll]
  split
  · rw [List.filter_append, foreign, List.append_nil]
  · rfl

theorem perform_other (job : Job) (w : Nat) (other : job.of w = false) :
    (γ.perform job).works[w]? = γ.works[w]? ∧
      (γ.perform job).log.filter (Event.of w) = γ.log.filter (Event.of w) := by
  cases job with
  | enter i v level =>
      have apart : v ≠ w := by simpa [Job.of, Job.passage?] using other
      constructor
      · simp [perform, apart]
      · apply List.filter_cons_of_neg
        simpa [Event.of, Event.passage?] using apart
  | leave i v level awaited =>
      have apart : v ≠ w := by simpa [Job.of, Job.passage?] using other
      constructor
      · cases awaited <;> simp [perform, apart]
      · apply List.filter_cons_of_neg
        simpa [Event.of, Event.passage?] using apart
  | _ => exact ⟨rfl, rfl⟩

theorem perform_own (job : Job) (w : Nat) (mine : job.of w = true) (work : Work)
    (there : γ.works[w]? = some work) :
    (γ.perform job).works[w]? = some (work.told job) ∧
      ∃ e, e.passage? = job.passage? ∧
        (γ.perform job).log.filter (Event.of w) = e :: γ.log.filter (Event.of w) := by
  cases job with
  | enter i v level =>
      obtain rfl : v = w := by simpa [Job.of, Job.passage?] using mine
      refine ⟨by simp [perform, there, Work.told], .entered v level, rfl, ?_⟩
      apply List.filter_cons_of_pos
      simp [Event.of, Event.passage?]
  | leave i v level awaited =>
      obtain rfl : v = w := by simpa [Job.of, Job.passage?] using mine
      refine ⟨?_, .left v level, rfl, ?_⟩
      · cases awaited <;> simp [perform, there, Work.told]
      · apply List.filter_cons_of_pos
        simp [Event.of, Event.passage?]
  | _ => cases mine

@[simp] theorem queued_perform (job : Job) (scope : Nat) :
    (γ.perform job).queued scope = γ.queued scope := by
  unfold queued
  rw [scopes_perform]

theorem thread_rested (scope w : Nat) (work : Work) (there : γ.works[w]? = some work)
    (same : δ.works[w]? = γ.works[w]?)
    (ran : δ.log.filter (Event.of w) = γ.log.filter (Event.of w))
    (waiting : (δ.queued scope).filter (Job.of w) = (γ.queued scope).filter (Job.of w)) :
    ∃ next, δ.works[w]? = some next ∧ (γ.thread scope w work).Step w (δ.thread scope w next) := by
  refine ⟨work, same.trans there, ?_⟩
  have rested : δ.thread scope w work = γ.thread scope w work := by
    unfold thread
    rw [ran, waiting]
  rw [rested]
  exact .rested

theorem thread_proceeded (w : Nat) (work : Work) (there : γ.works[w]? = some work) (l : Loading)
    (opens : openAt γ.scopes l.scope = true) (stage : Stage) (jobs : List Job)
    (how : work.Proceeds w false stage jobs) :
    ∃ next, ((γ.launches l.scope jobs).setStage w stage).works[w]? = some next ∧
      (γ.thread l.scope w work).Step w
        (((γ.launches l.scope jobs).setStage w stage).thread l.scope w next) := by
  refine ⟨{ work with stage }, by simp [setStage, launches, there], ?_⟩
  have queue : (((γ.launches l.scope jobs).setStage w stage).queued l.scope).filter (Job.of w) =
      (γ.queued l.scope).filter (Job.of w) ++ jobs := by
    change (queueAt (pushAll γ.scopes l.scope jobs) l.scope).filter _ = _
    rw [queueAt_pushAll, if_pos ⟨rfl, opens⟩, List.filter_append, how.own]
    rfl
  unfold Ledger.thread
  rw [queue]
  exact .proceeded stage jobs how

theorem thread_ran (moored : γ.Moored) (w : Nat) (work : Work) (there : γ.works[w]? = some work)
    (l : Loading) (found : γ.loadings[work.loading]? = some l) (scope : Nat) (lineage : List Nat)
    (job : Job) (jobs : List Job)
    (front : γ.scopes[scope]? = some ⟨lineage, false, job :: jobs⟩) (δ : Ledger)
    (ran : δ = { γ with
      scopes := γ.scopes.modify scope fun s => { s with queue := jobs } : Ledger }.perform job) :
    ∃ next, δ.works[w]? = some next ∧
      (γ.thread l.scope w work).Step w (δ.thread l.scope w next) := by
  subst ran
  have queue := queueAt_of_front _ _ _ _ _ front
  have pop (k : Nat) := queueAt_pop γ.scopes k scope jobs (List.getElem?_eq_some_iff.mp front).1
  let popped : Ledger :=
    { γ with scopes := γ.scopes.modify scope fun s => { s with queue := jobs } }
  cases mine : job.of w with
  | true =>
      obtain ⟨level, passage, passes⟩ := Job.of_eq_true mine
      have member : job ∈ γ.queued scope := by
        unfold queued
        rw [queue.1]
        exact List.mem_cons_self
      obtain ⟨owner, at_w, about⟩ := moored.owners scope job _ _ member passes
      obtain rfl : work = owner := Option.some.inj (there.symm.trans at_w)
      obtain ⟨home, at_home, rfl⟩ := moored.homes scope job _ member about
      obtain rfl : l = home := Option.some.inj (found.symm.trans at_home)
      obtain ⟨told, e, same, log⟩ := perform_own (γ := popped) job w mine work there
      refine ⟨work.told job, told, ?_⟩
      unfold Ledger.thread
      rw [log, queued_perform]
      unfold queued
      rw [pop, if_pos rfl, queue.1, List.filter_cons_of_pos mine]
      exact .ran job _ rfl e same
  | false =>
      obtain ⟨same, log⟩ := perform_other (γ := popped) job w mine
      refine thread_rested l.scope w work there same log ?_
      rw [queued_perform]
      unfold queued
      rw [pop]
      split
      · rename_i here
        rw [here, queue.1, List.filter_cons_of_neg (by simp [mine])]
      · rfl

theorem Step.thread (step : Step allowed γ δ) (sound : γ.Sound) (moored : γ.Moored) (w : Nat)
    (work : Work) (there : γ.works[w]? = some work) (l : Loading)
    (found : γ.loadings[work.loading]? = some l) (live : δ.isCancelled l.scope = false) :
    ∃ next, δ.works[w]? = some next ∧
      (γ.thread l.scope w work).Step w (δ.thread l.scope w next) := by
  have was : γ.isCancelled l.scope = false := step.persist.live live
  have inside : w < γ.works.length := (List.getElem?_eq_some_iff.mp there).1
  cases step with
  | started loading home _ name depth outcome stage jobs how =>
      refine thread_rested l.scope w work there ?_ rfl ?_
      · simp only [launches, List.getElem?_append_left inside]
      · exact waiting_launches (γ := { γ with works := _ }) home.scope jobs l.scope w
          (how.foreign w (by omega))
  | proceeded v other at_v home at_home stage jobs how =>
      by_cases same : v = w
      · subst same
        obtain rfl : work = other := Option.some.inj (there.symm.trans at_v)
        obtain rfl : l = home := Option.some.inj (found.symm.trans at_home)
        rw [was] at how
        exact thread_proceeded v work there l (openAt_of_live _ _ (sound.loadings _ l found) was)
          stage jobs how
      · refine thread_rested l.scope w work there ?_ rfl ?_
        · simp [setStage, launches, same]
        · exact waiting_launches home.scope jobs l.scope w (how.foreign w same)
  | given v other at_v can outcome =>
      by_cases same : v = w
      · subst same
        obtain rfl : work = other := Option.some.inj (there.symm.trans at_v)
        exact ⟨{ work with outcome := some outcome }, by simp [there], .given can outcome⟩
      · exact thread_rested l.scope w work there (by simp [same]) rfl rfl
  | toggled i home _ shown =>
      exact thread_rested l.scope w work there rfl rfl (waiting_launches home.scope _ l.scope w rfl)
  | cancelled root =>
      refine thread_rested l.scope w work there rfl rfl ?_
      unfold queued
      rw [queueAt_cancel_live γ.scopes l.scope root live]
  | branched lineage cancelled =>
      refine thread_rested l.scope w work there rfl rfl ?_
      unfold queued
      rw [queueAt_branch]
  | opened | housed | tended | renamed => exact thread_rested l.scope w work there rfl rfl rfl
  | ran scope lineage job jobs front =>
      exact thread_ran moored w work there l found scope lineage job jobs front _ rfl

end Ledger

theorem Work.Starts.sane {w loading depth : Nat} {stage : Stage} {jobs : List Job} (name : String)
    (outcome : Option Outcome) (how : Starts w loading depth stage jobs) :
    Thread.Sane w ⟨⟨name, loading, depth, stage, outcome⟩, [], jobs⟩ := by
  cases how with
  | bare none =>
      subst none
      refine ⟨trivial, trivial, 0, rfl, ?_⟩
      intro level
      exact (expected_none level).symm
  | wrapped some =>
      refine ⟨⟨Nat.le_refl 1, some⟩, List.mem_cons_self, 1, rfl, ?_⟩
      intro level
      have first := expected_enter w 0 level
      rw [expected_none, List.nil_append] at first
      exact first

namespace Ledger

variable {allowed : Job → Prop} {γ δ : Ledger}

theorem Moored.unknown (moored : γ.Moored) (scope w : Nat) (new : γ.works.length ≤ w) :
    γ.log.filter (Event.of w) = [] ∧ (γ.queued scope).filter (Job.of w) = [] := by
  constructor
  · apply List.filter_eq_nil_iff.mpr
    intro e member mine
    obtain ⟨⟨⟨v, level⟩, passage⟩, passes, same⟩ :
        ∃ entry, e.passage? = some entry ∧ (entry.1.1 == w) = true := by
      simpa [Event.of, Option.any_eq_true] using mine
    have known := moored.logged e _ _ member passes
    have here : v = w := by simpa using same
    omega
  · apply List.filter_eq_nil_iff.mpr
    intro job member mine
    obtain ⟨level, passage, passes⟩ := Job.of_eq_true mine
    obtain ⟨work, there, -⟩ := moored.owners scope job _ _ member passes
    have known := (List.getElem?_eq_some_iff.mp there).1
    omega

theorem Reachable.sane (reachable : γ.Reachable) (w : Nat) (work : Work)
    (there : γ.works[w]? = some work) (l : Loading)
    (found : γ.loadings[work.loading]? = some l) (live : γ.isCancelled l.scope = false) :
    (γ.thread l.scope w work).Sane w := by
  induction reachable generalizing work l with
  | refl => cases there
  | @tail before after path step ih =>
      have reached : before.Reachable := path
      have sound := reached.sound
      rcases step.work_origin w work there with
        ⟨former, here, frame⟩ | ⟨new, home, jobs, at_home, how, loadings, log, scopes⟩
      · have same : former.loading = work.loading := congrArg Prod.fst frame
        obtain ⟨home, at_home⟩ := sound.works w former here
        obtain ⟨now, at_now, stays⟩ := step.loading_stays _ home at_home
        obtain rfl : now = l := Option.some.inj (at_now.symm.trans (same ▸ found))
        have sane := ih former here home at_home (stays ▸ step.persist.live live)
        obtain ⟨next, there', went⟩ :=
          step.thread sound reached.moored w former here home at_home (stays ▸ live)
        obtain rfl : next = work := Option.some.inj (there'.symm.trans there)
        exact stays ▸ went.sane sane
      · rw [loadings] at found
        obtain rfl : home = l := Option.some.inj (at_home.symm.trans found)
        have unknown := reached.moored.unknown home.scope w (Nat.le_of_eq new.symm)
        have thread : after.thread home.scope w work = ⟨work, [], jobs⟩ := by
          have was := step.persist.live live
          unfold Ledger.thread queued
          rw [log, scopes, queueAt_pushAll,
            if_pos ⟨rfl, openAt_of_live _ _ (sound.loadings _ home at_home) was⟩,
            List.filter_append, unknown.1, how.own]
          congr 1
          exact congrArg (· ++ jobs) unknown.2
        rw [thread]
        exact how.sane work.name work.outcome

theorem Path.trace_grows (path : Path allowed γ δ) (reachable : γ.Reachable) (w : Nat)
    (work : Work) (there : γ.works[w]? = some work) (l : Loading)
    (found : γ.loadings[work.loading]? = some l) (live : δ.isCancelled l.scope = false)
    (next : Work) (after : δ.works[w]? = some next) :
    (γ.thread l.scope w work).trace <+: (δ.thread l.scope w next).trace := by
  induction path generalizing next with
  | refl =>
      obtain rfl : work = next := Option.some.inj (there.symm.trans after)
      exact List.prefix_rfl
  | @tail before last path step ih =>
      obtain ⟨middle, at_w, frame⟩ := Path.work_stays path w work there
      obtain ⟨home, at_home, stays⟩ := Path.loading_stays path work.loading l found
      have reached : before.Reachable := reachable.path path
      have same : middle.loading = work.loading := congrArg Prod.fst frame
      obtain ⟨now, at_now, went⟩ := step.thread reached.sound reached.moored w middle at_w home
        (same ▸ at_home) (stays ▸ live)
      obtain rfl : now = next := Option.some.inj (at_now.symm.trans after)
      exact (ih (step.persist.live live) middle at_w).trans (stays ▸ went.trace_grows)

end Ledger

end ModalHost
