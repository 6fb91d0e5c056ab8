import ModalHost.Proofs.Counting
import ModalHost.Proofs.Lane.Runs

/-! A call that a loading dialog has to itself. Whether the dialog was shown before is forgotten when
the call enters, and when it has returned the dialog is hidden. -/

namespace ModalHost

/-- How a call of the work number `w` goes: where the work is, which jobs of the dialog are queued,
and whether the dialog is shown and how many calls it counts. -/
inductive Passing (i w : Nat) (before : Bool) : Stage → List Job → Bool → Nat → Prop
  | arriving : Passing i w before (.entering 1 false) [.enter i w 1] before 0
  | entered : Passing i w before (.entering 1 true) [] true 1
  | inside : Passing i w before .inside [] true 1
  | leaving : Passing i w before (.leaving 1 false) [.leave i w 1 true] true 1
  | left : Passing i w before (.leaving 1 true) [] false 0
  | past (jobs : List Job) (shown : Bool) (count : Nat) :
      Passing i w before .ended jobs shown count

theorem Passing.proceeds {i w count : Nat} {before shown : Bool} {work : Work} {stage : Stage}
    {queue jobs : List Job} (passing : Passing i w before work.stage queue shown count)
    (mine : work.loading = i) (single : work.depth = 1)
    (how : work.Proceeds w false stage jobs) :
    Passing i w before stage (queue ++ jobs) shown count := by
  subst mine
  cases how with
  | deeper level done at_level through room =>
      rw [at_level] at passing
      cases passing <;> simp_all
  | begun level done at_level through full =>
      rw [at_level] at passing
      cases passing with
      | arriving => simp at through
      | entered => exact .inside
  | outward level text given at_level =>
      rcases at_level with ⟨inside, innermost⟩ | ⟨done, leaving, -⟩
      · obtain rfl : level = 0 := by omega
        rw [inside] at passing
        cases passing
        exact .leaving
      · rw [leaving] at passing
        cases passing
  | returned text given at_level => exact .past _ _ _
  | dropped waits => exact .past _ _ _

theorem Passing.ran {i w : Nat} {before : Bool} {work : Work} {l : Loading} {job : Job}
    {jobs : List Job}
    (passing : Passing i w before work.stage (job :: jobs) l.shown.value l.inFlight) :
    ∀ next, l.Turns i job next →
      Passing i w before (work.told job).stage jobs next.shown.value next.inFlight := by
  intro next turns
  generalize stage : work.stage = at_stage at passing
  generalize shown : l.shown.value = value at passing
  generalize count : l.inFlight = n at passing
  generalize queue : job :: jobs = waiting at passing
  cases passing with
  | arriving =>
      obtain ⟨rfl, rfl⟩ := List.cons.inj queue
      cases turns
      have told : (work.told (.enter i w 1)).stage = .entering 1 true := by
        simp [Work.told, Work.entered, stage]
      rw [told]
      simpa [Loading.enter, count] using Passing.entered
  | leaving =>
      obtain ⟨rfl, rfl⟩ := List.cons.inj queue
      cases turns
      have told : (work.told (.leave i w 1 true)).stage = .leaving 1 true := by
        simp [Work.told, Work.left, stage]
      rw [told]
      simpa [Loading.leave, count] using Passing.left
  | past =>
      have told : (work.told job).stage = .ended := by
        rcases work.told_stage job with same | ⟨level, other, -⟩ | ⟨level, other, -⟩
        · exact same.trans stage
        · rw [stage] at other
          cases other
        · rw [stage] at other
          cases other
      rw [told]
      exact .past _ _ _
  | _ => cases queue

namespace Ledger

variable {allowed : Job → Prop} {γ δ : Ledger} {i w k : Nat} {before : Bool}

/-- The jobs of a loading dialog that are queued on a scope. -/
def about (γ : Ledger) (i scope : Nat) : List Job :=
  (γ.queued scope).filter fun job => job.loading? = some i

/-- All jobs of a loading dialog that are queued on a scope are of one work. -/
def Only (γ : Ledger) (i w scope : Nat) : Prop :=
  ∀ job ∈ γ.queued scope, job.loading? = some i → job.of w = true

/-- A call of the work number `w` has a loading dialog to itself. -/
structure Alone (i w : Nat) (before : Bool) (γ : Ledger) (l : Loading) (work : Work) : Prop where
  found : γ.loadings[i]? = some l
  there : γ.works[w]? = some work
  mine : work.loading = i
  single : work.depth = 1
  passing : Passing i w before work.stage (γ.about i l.scope) l.shown.value l.inFlight

theorem about_launches (home : Nat) (jobs : List Job) (foreign : jobs.filter (Job.of w) = [])
    (only : (γ.launches home jobs).Only i w k) :
    (γ.launches home jobs).about i k = γ.about i k := by
  have queue : (γ.launches home jobs).queued k =
      if k = home ∧ openAt γ.scopes home = true then γ.queued k ++ jobs else γ.queued k :=
    queueAt_pushAll γ.scopes k home jobs
  unfold about
  split at queue
  · have none : jobs.filter (fun job => job.loading? = some i) = [] := by
      apply List.filter_eq_nil_iff.mpr
      intro job new about
      refine List.filter_eq_nil_iff.mp foreign job new (only job ?_ (of_decide_eq_true about))
      rw [queue]
      exact List.mem_append_right _ new
    rw [queue, List.filter_append, none, List.append_nil]
  · rw [queue]

namespace Alone

variable {l : Loading} {work : Work}

theorem rested (alone : Alone i w before γ l work) (loadings : δ.loadings[i]? = γ.loadings[i]?)
    (works : δ.works[w]? = γ.works[w]?) (about : δ.about i l.scope = γ.about i l.scope) :
    Alone i w before δ l work where
  found := loadings.trans alone.found
  there := works.trans alone.there
  mine := alone.mine
  single := alone.single
  passing := about ▸ alone.passing

theorem proceeded (alone : Alone i w before γ l work) (sound : γ.Sound)
    (live : γ.isCancelled l.scope = false) (stage : Stage) (jobs : List Job)
    (how : work.Proceeds w false stage jobs) :
    Alone i w before ((γ.launches l.scope jobs).setStage w stage) l { work with stage } where
  found := alone.found
  there := by simp [setStage, launches, alone.there]
  mine := alone.mine
  single := alone.single
  passing := by
    have queue : ((γ.launches l.scope jobs).setStage w stage).about i l.scope =
        γ.about i l.scope ++ jobs := by
      have opens := openAt_of_live _ _ (sound.loadings i l alone.found) live
      have own : jobs.filter (fun job => job.loading? = some i) = jobs := by
        apply List.filter_eq_self.mpr
        intro job member
        simpa [alone.mine] using (how.about job member).1
      change (queueAt (pushAll γ.scopes l.scope jobs) l.scope).filter _ = _
      rw [queueAt_pushAll, if_pos ⟨rfl, opens⟩, List.filter_append, own]
      rfl
    rw [queue]
    exact alone.passing.proceeds alone.mine alone.single how

theorem ran (alone : Alone i w before γ l work) (moored : γ.Moored) (scope : Nat)
    (lineage : List Nat) (job : Job) (jobs : List Job)
    (front : γ.scopes[scope]? = some ⟨lineage, false, job :: jobs⟩) (only : γ.Only i w l.scope)
    (δ : Ledger)
    (ran : δ = { γ with
      scopes := γ.scopes.modify scope fun s => { s with queue := jobs } : Ledger }.perform job) :
    ∃ next later, Alone i w before δ next later ∧ next.scope = l.scope := by
  subst ran
  have queue := queueAt_of_front _ _ _ _ _ front
  have member : job ∈ γ.queued scope := by
    unfold queued
    rw [queue.1]
    exact List.mem_cons_self
  have pop (k : Nat) := queueAt_pop γ.scopes k scope jobs (List.getElem?_eq_some_iff.mp front).1
  let popped : Ledger :=
    { γ with scopes := γ.scopes.modify scope fun s => { s with queue := jobs } }
  have waiting : (popped.perform job).about i l.scope =
      (if l.scope = scope then jobs else γ.queued l.scope).filter
        fun job => job.loading? = some i := by
    unfold about
    rw [queued_perform]
    unfold queued
    rw [pop]
  by_cases about : job.loading? = some i
  · obtain ⟨home, at_i, rfl⟩ := moored.homes scope job i member about
    obtain rfl : l = home := Option.some.inj (alone.found.symm.trans at_i)
    have mine : job.of w = true := only job member about
    obtain ⟨told, -⟩ := perform_own (γ := popped) job w mine work alone.there
    obtain ⟨next, after, turns⟩ := perform_about (γ := popped) job i about l alone.found
    obtain ⟨loading, depth, -⟩ := work.told_frame job
    have passing := alone.passing
    have before_pop : γ.about i l.scope =
        job :: jobs.filter fun job => job.loading? = some i := by
      unfold Ledger.about queued
      rw [queue.1]
      exact List.filter_cons_of_pos (by simpa using about)
    rw [before_pop] at passing
    refine ⟨next, work.told job, ⟨after, told, loading.trans alone.mine, depth.trans alone.single,
      ?_⟩, turns.scope⟩
    rw [turns.scope, waiting, if_pos rfl]
    exact passing.ran next turns
  · have foreign : job.of w = false := by
      apply Bool.eq_false_iff.mpr
      intro mine
      obtain ⟨level, passage, passes⟩ := Job.of_eq_true mine
      obtain ⟨owner, at_w, owned⟩ := moored.owners scope job _ _ member passes
      obtain rfl : work = owner := Option.some.inj (alone.there.symm.trans at_w)
      exact about (owned.trans (congrArg some alone.mine))
    obtain ⟨same, -⟩ := perform_other (γ := popped) job w foreign
    refine ⟨l, work, alone.rested (perform_elsewhere (γ := popped) job i about) same ?_, rfl⟩
    rw [waiting]
    split
    · rename_i here
      unfold Ledger.about queued
      rw [here, queue.1]
      exact (List.filter_cons_of_neg (by simpa using about)).symm
    · rfl

theorem step (alone : Alone i w before γ l work) (step : Step allowed γ δ) (sound : γ.Sound)
    (moored : γ.Moored) (live : δ.isCancelled l.scope = false) (was : γ.Only i w l.scope)
    (only : δ.Only i w l.scope) :
    ∃ next later, Alone i w before δ next later ∧ next.scope = l.scope := by
  have inside : w < γ.works.length := (List.getElem?_eq_some_iff.mp alone.there).1
  have still (loadings : δ.loadings[i]? = γ.loadings[i]?) (works : δ.works[w]? = γ.works[w]?)
      (about : δ.about i l.scope = γ.about i l.scope) :
      ∃ next later, Alone i w before δ next later ∧ next.scope = l.scope :=
    ⟨l, work, alone.rested loadings works about, rfl⟩
  cases step with
  | started loading home found name depth outcome stage jobs how =>
      refine still rfl ?_ ?_
      · simp only [launches, List.getElem?_append_left inside]
      · exact about_launches (γ := { γ with works := _ }) home.scope jobs (how.foreign w (by omega))
          only
  | proceeded v other there home at_home stage jobs how =>
      by_cases same : v = w
      · subst same
        obtain rfl : work = other := Option.some.inj (alone.there.symm.trans there)
        obtain rfl : l = home :=
          Option.some.inj (alone.found.symm.trans (alone.mine ▸ at_home))
        have alive : γ.isCancelled l.scope = false :=
          (Persist.pushAll l.scope jobs).live live
        rw [alive] at how
        exact ⟨l, _, alone.proceeded sound alive stage jobs how, rfl⟩
      · refine still rfl ?_ ?_
        · simp [setStage, launches, same]
        · exact about_launches home.scope jobs (how.foreign w same) only
  | given v other there can outcome =>
      by_cases same : v = w
      · subst same
        exact ⟨l, { work with outcome := some outcome }, ⟨alone.found, by simp [alone.there],
          alone.mine, alone.single, alone.passing⟩, rfl⟩
      · exact still rfl (by simp [same]) rfl
  | toggled j home found shown =>
      exact still rfl rfl (about_launches home.scope [.setLoading j shown] rfl only)
  | cancelled root =>
      refine still rfl rfl ?_
      unfold Ledger.about queued
      rw [queueAt_cancel_live γ.scopes l.scope root live]
  | branched lineage cancelled =>
      refine still rfl rfl ?_
      unfold Ledger.about queued
      rw [queueAt_branch]
  | opened scope =>
      exact still (List.getElem?_append_left (List.getElem?_eq_some_iff.mp alone.found).1) rfl rfl
  | tended j handle =>
      by_cases same : j = i
      · subst same
        exact ⟨{ l with handle }, work, ⟨by simp [alone.found], alone.there, alone.mine,
          alone.single, alone.passing⟩, rfl⟩
      · exact still (by simp [same]) rfl rfl
  | housed | renamed => exact still rfl rfl rfl
  | ran scope lineage job jobs front =>
      exact alone.ran moored scope lineage job jobs front was _ rfl

end Alone

/-- While no job runs, a call keeps a loading dialog to itself if it has it at the end. -/
theorem Alone.path {l : Loading} {work : Work} (alone : Alone i w before γ l work)
    (path : Path (fun _ => False) γ δ) (reachable : γ.Reachable)
    (live : δ.isCancelled l.scope = false) (only : δ.Only i w l.scope) :
    ∃ next later, Alone i w before δ next later ∧ next.scope = l.scope := by
  induction path with
  | refl => exact ⟨l, work, alone, rfl⟩
  | @tail middle last path step ih =>
      have grown := step.queue_grows live
      have kept : middle.Only i w l.scope := fun job member => only job (grown.subset member)
      obtain ⟨now, at_work, there, home⟩ := ih (step.persist.live live) kept
      have reached : middle.Reachable := reachable.path path
      obtain ⟨next, later, alone, same⟩ := there.step step reached.sound reached.moored
        (home ▸ live) (home ▸ kept) (home ▸ only)
      exact ⟨next, later, alone, same.trans home⟩

end Ledger

namespace Host

variable {h next : Host} {i w k : Nat} {before : Bool}

/-- The last step of a work, which ends it with the value of its block. -/
def Returns (h : Host) (w : Nat) (next : Host) : Prop :=
  h.move? (.advanceWork w) = some next ∧
    ∃ name text, next.history = .ended (.work w) name (.finished text) :: h.history

/-- A stretch of a run in which nobody asks anything of a loading dialog but one work. -/
def LeftTo (i w : Nat) : Host → Host → Prop :=
  RunsUnasked fun job => job.loading? = some i ∧ job.of w = false

theorem only_unasked (only : h.ledger.Only i w k)
    (silent : ∀ job : Job, job.loading? = some i ∧ job.of w = false → ¬ Queues job h next) :
    next.ledger.Only i w k := by
  intro job member about
  by_contra foreign
  rw [queued_ledger] at member
  have more := silent job ⟨about, Bool.eq_false_iff.mpr foreign⟩
  have was : job ∈ h.queued k := by
    apply List.count_pos_iff.mp
    have now := List.count_pos_iff.mpr (List.mem_of_mem_filter member)
    have no_more : (next.queued k).count job ≤ (h.queued k).count job :=
      Nat.le_of_not_lt fun grown => more ⟨k, grown⟩
    omega
  refine foreign (only job ?_ about)
  rw [queued_ledger]
  exact List.mem_filter.mpr ⟨was, by simp [Job.counted, about]⟩

theorem Advances.alone {l : Loading} {work : Work} (step : h.Advances next)
    (reachable : h.Reachable) (alone : Ledger.Alone i w before h.ledger l work)
    (live : next.isCancelled l.scope = false) (was : h.ledger.Only i w l.scope)
    (only : next.ledger.Only i w l.scope) :
    ∃ m later, Ledger.Alone i w before next.ledger m later ∧ m.scope = l.scope := by
  have ledger := reachable.ledger
  rw [← isCancelled_ledger] at live
  -- A job that runs is one step of the ledger, and all else is a path on which no job runs.
  by_cases dispatches : ∃ scope, h.move? (.dispatch scope) = some next
  · obtain ⟨scope, taken⟩ := dispatches
    have counted : next.ledger = h.ledger ∨ Ledger.Step (fun _ => True) h.ledger next.ledger :=
      step_dispatch scope next taken fun _ _ _ _ => trivial
    rcases counted with same | step
    · exact ⟨l, work, same ▸ alone, rfl⟩
    · exact alone.step step ledger.sound ledger.moored live was only
  · refine alone.path (step.ledger ledger.sound ?_) ledger live only
    intro scope lineage job jobs _ taken
    exact dispatches ⟨scope, taken⟩

theorem LeftTo.alone {l : Loading} {work : Work} (run : LeftTo i w h next)
    (reachable : h.Reachable) (alone : Ledger.Alone i w before h.ledger l work)
    (live : next.isCancelled l.scope = false) (only : h.ledger.Only i w l.scope) :
    next.ledger.Only i w l.scope ∧
      ∃ m later, Ledger.Alone i w before next.ledger m later ∧ m.scope = l.scope := by
  induction run with
  | refl => exact ⟨only, l, work, alone, rfl⟩
  | @tail middle last run step ih =>
      obtain ⟨advance, silent⟩ := step
      have reached : middle.Reachable := reachable.trans (RunsUnasked.leads run)
      obtain ⟨kept, m, later, there, home⟩ := ih (Leads.live (.single advance) reached l.scope live)
      have onward := only_unasked kept silent
      obtain ⟨n, at_work, after, same⟩ := advance.alone reached there (home ▸ live) (home ▸ kept)
        (home ▸ onward)
      exact ⟨onward, n, at_work, after, same.trans home⟩

theorem Returns.left {l : Loading} {work : Work} (returns : h.Returns w next)
    (alone : Ledger.Alone i w before h.ledger l work) (live : h.isCancelled l.scope = false) :
    work.stage = .leaving 1 true ∧ next.loadings = h.loadings := by
  obtain ⟨moved, name, text, told⟩ := returns
  obtain ⟨other, there, how⟩ := work_cases w moved
  obtain rfl : work = other := Option.some.inj (alone.there.symm.trans there)
  have passing := alone.passing
  generalize h.ledger.about i l.scope = queue at passing
  generalize l.shown.value = shown at passing
  generalize l.inFlight = count at passing
  have found : h.loadings[work.loading]? = some l := alone.mine.symm ▸ alone.found
  have unended (longer : h.history = .ended (.work w) name (.finished text) :: h.history) :
      False := by
    have lengths := congrArg List.length longer
    simp at lengths
  cases how with
  | entered level done stage through =>
      rw [stage] at passing
      cases passing with
      | arriving => simp [found, live] at through
      | entered => simp [enterLevel, there, alone.single, beginBlock, record] at told
  | returned value stage given =>
      simp only [leaveLevel, there, alone.single, found] at told
      exact (unended told).elim
  | panicked stage given => simp [dropWork, there, record] at told
  | left level done value stage given through =>
      rw [stage] at passing ⊢
      cases passing with
      | leaving => simp [found, live] at through
      | left =>
          refine ⟨rfl, ?_⟩
          simp [leaveLevel, there, record, updateWork]

theorem alone_work (i : Nat) (l : Loading) (found : h.loadings[i]? = some l)
    (inside : l.scope < h.scopes.length) (live : h.isCancelled l.scope = false)
    (drained : h.Drained i l) (none : l.inFlight = 0) (task : String) (outcome : Option Outcome) :
    (h.work task i 1 outcome).ledger.Only i h.works.length l.scope ∧
      ∃ work, Ledger.Alone i h.works.length l.shown.value (h.work task i 1 outcome).ledger l
        work := by
  obtain ⟨stage, jobs, how, same⟩ := ledger_work task i l found 1 outcome
  cases how with
  | bare none => cases none
  | wrapped =>
      have opens : openAt h.ledger.scopes l.scope = true :=
        openAt_of_live _ _ (by simpa [ledger] using inside) ((isCancelled_ledger ..).trans live)
      have queue : (h.work task i 1 outcome).ledger.queued l.scope =
          h.ledger.queued l.scope ++ [.enter i h.works.length 1] := by
        rw [same]
        change queueAt (pushAll h.ledger.scopes l.scope _) l.scope = _
        rw [queueAt_pushAll, if_pos ⟨rfl, opens⟩]
        rfl
      have silent (job : Job) (member : job ∈ h.ledger.queued l.scope) : job.loading? ≠ some i := by
        rw [queued_ledger] at member
        exact drained job (List.mem_of_mem_filter member)
      constructor
      · intro job member about
        rw [queue] at member
        rcases List.mem_append.mp member with before | new
        · exact absurd about (silent job before)
        · obtain rfl := List.mem_singleton.mp new
          simp [Job.of, Job.passage?]
      · refine ⟨⟨task, i, 1, .entering 1 false, outcome⟩, ?_, ?_, rfl, rfl, ?_⟩
        · rw [same]
          exact found
        · rw [same]
          exact List.getElem?_concat_length
        · have waiting : (h.work task i 1 outcome).ledger.about i l.scope =
              [.enter i h.works.length 1] := by
            unfold Ledger.about
            rw [queue, List.filter_append,
              List.filter_eq_nil_iff.mpr fun job member => by simpa using silent job member]
            simp [Job.loading?]
          rw [waiting, none]
          exact .arriving

/-- When a loading dialog on a live scope counts no call and has no job queued, a call on it that
returns, and has it to itself until then, leaves it hidden. So the dialog looks as it did before the
call exactly if it was hidden then: what a call to show it has done is undone. -/
theorem hidden_after_sole_call (reachable : h.Reachable) (i : Nat) (l : Loading)
    (found : h.loadings[i]? = some l) (drained : h.Drained i l) (none : l.inFlight = 0)
    (dialog task : String) (outcome : Option Outcome) (named : h.loading? dialog = some i)
    (g : Host)
    (run : LeftTo i h.works.length (Session.act h (.work dialog task outcome 1)).1 g)
    (returns : g.Returns h.works.length next) (m : Loading) (after : next.loadings[i]? = some m)
    (live : next.isCancelled m.scope = false) :
    m.inFlight = 0 ∧ m.shown.value = false ∧
      (m.shown.value = l.shown.value ↔ l.shown.value = false) := by
  have first : h.Advances (Session.act h (.work dialog task outcome 1)).1 := .act _
  have begun : (Session.act h (.work dialog task outcome 1)).1 = h.work task i 1 outcome := by
    simp [Session.act, named]
  have leads : Leads h g := .head first (RunsUnasked.leads run)
  have last : g.Advances next := .move _ _ returns.1
  obtain ⟨now, there, home⟩ :=
    Ledger.Path.loading_stays (Leads.ledger (leads.tail last) reachable) i l found
  obtain rfl : now = m := Option.some.inj (there.symm.trans after)
  rw [home] at live
  have running := Leads.live (.single last) (reachable.trans leads) l.scope live
  have alive := Leads.live leads reachable l.scope running
  have inside : l.scope < h.scopes.length := by
    simpa [ledger] using reachable.ledger.sound.loadings i l found
  obtain ⟨only, work, alone⟩ := alone_work i l found inside alive drained none task outcome
  rw [begun] at run first
  obtain ⟨-, m, later, left, at_home⟩ := run.alone (reachable.tail first) alone running only
  obtain ⟨stage, same⟩ := returns.left left (at_home ▸ running)
  obtain rfl : now = m := by
    rw [same] at after
    exact Option.some.inj (after.symm.trans left.found)
  have passing := left.passing
  rw [stage] at passing
  generalize g.ledger.about i now.scope = queue at passing
  generalize now.shown.value = shown at passing ⊢
  generalize now.inFlight = count at passing ⊢
  cases passing
  exact ⟨rfl, rfl, eq_comm⟩

def shownByCall : Host :=
  initial.run [.inl (.openDialog "d" "main" .loading), .inl (.call (.setShown "d" true)),
    .inr (.dispatch 0)]

def blockUnder : Host :=
  (Session.act shownByCall (.work "d" "w" (some (.value "1")) 1)).1.run
    [.inr (.dispatch 0), .inr (.advanceWork 0), .inr (.advanceWork 0), .inr (.dispatch 0)]

theorem shownByCall_reachable : shownByCall.Reachable := Reachable.run .refl _

theorem blockUnder_left : LeftTo 0 shownByCall.works.length
    (Session.act shownByCall (.work "d" "w" (some (.value "1")) 1)).1 blockUnder := by
  apply RunsUnasked.run _ fun job => job.loading? = some 0 && !job.of 0
  · rintro job ⟨about, foreign⟩
    have apart : job.of 0 = false := foreign
    simp [about, apart]
  · decide

theorem blockUnder_returns : ∃ next, blockUnder.Returns 0 next ∧
    next.isCancelled 0 = false ∧ ∃ m, next.loadings[0]? = some m ∧ m.scope = 0 :=
  ⟨_, ⟨rfl, "w", "1", rfl⟩, rfl, _, rfl, rfl⟩

theorem block_hides_shown : ∃ l m : Loading, ∃ next, shownByCall.loadings[0]? = some l ∧
    l.shown.value = true ∧ blockUnder.Returns 0 next ∧ next.loadings[0]? = some m ∧
    m.shown.value = false := by
  obtain ⟨next, returns, live, m, after, home⟩ := blockUnder_returns
  have hidden := hidden_after_sole_call shownByCall_reachable 0 _ rfl nofun rfl "d" "w"
    (some (.value "1")) rfl blockUnder blockUnder_left returns m after (home ▸ live)
  exact ⟨_, m, next, rfl, rfl, returns, after, hidden.2.1⟩

/-- The call has returned with nothing left to run and nobody else asking, but the dialog is not
shown any more. -/
theorem visibility_not_restored : ¬ ∀ (h g next : Host) (i : Nat) (l m : Loading)
    (dialog task : String) (outcome : Option Outcome), h.Reachable → h.loadings[i]? = some l →
    h.Rests i l → l.inFlight = 0 → h.loading? dialog = some i →
    LeftTo i h.works.length (Session.act h (.work dialog task outcome 1)).1 g →
    g.Returns h.works.length next → next.loadings[i]? = some m →
    next.isCancelled m.scope = false → m.shown.value = l.shown.value := by
  intro restored
  obtain ⟨next, returns, live, m, after, home⟩ := blockUnder_returns
  obtain ⟨l, found⟩ : ∃ l, shownByCall.loadings[0]? = some l := ⟨_, rfl⟩
  have rests : shownByCall.Rests 0 l := by
    obtain rfl := Option.some.inj found
    exact ⟨nofun, nofun⟩
  have same := restored shownByCall blockUnder next 0 l m "d" "w" (some (.value "1"))
    shownByCall_reachable found rests (by obtain rfl := Option.some.inj found; rfl) rfl
    blockUnder_left returns after (home ▸ live)
  obtain rfl := Option.some.inj found
  obtain ⟨moved, -⟩ := returns
  obtain rfl := Option.some.inj moved
  obtain rfl := Option.some.inj after
  cases same

end Host

end ModalHost
