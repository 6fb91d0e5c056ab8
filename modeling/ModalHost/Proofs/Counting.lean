import ModalHost.Proofs.Ledger.Balance
import ModalHost.Proofs.Ledger.Overlay
import ModalHost.Proofs.Ledger.Runs

/-! What a loading dialog counts. -/

namespace ModalHost

/-- How many calls of a work have a block that runs. -/
def Work.running (work : Work) : Nat :=
  match work.stage with
  | .entering level _ | .leaving level _ => level - 1
  | .inside => work.depth
  | .ended => 0

namespace Host

variable {h : Host}

/-- What the call at a level of a work has queued on a scope so far: what has run of it, and then
what still waits. -/
def passages (h : Host) (scope w level : Nat) : List Passage :=
  own (w, level) (h.history.reverse.filterMap Event.passage? ++
    (h.queued scope).filterMap Job.passage?)

/-- How many calls on a loading dialog have a block that runs. -/
def runningCalls (h : Host) (i : Nat) : Nat :=
  (h.works.map fun work => if work.loading = i then work.running else 0).sum

/-- No job of a loading dialog is queued on its scope. -/
def Drained (h : Host) (i : Nat) (l : Loading) : Prop :=
  ∀ job ∈ h.queued l.scope, job.loading? ≠ some i

/-- Nothing is left to run for a loading dialog: no job is queued, and no work can go on. -/
structure Rests (h : Host) (i : Nat) (l : Loading) : Prop where
  drained : h.Drained i l
  works (w : Nat) (work : Work) : h.works[w]? = some work → work.loading = i →
    h.advanceWork? w = none

theorem own_passages (scope w : Nat) (work : Work) (level : Nat) :
    own (w, level) (h.ledger.thread scope w work).trace = h.passages scope w level := by
  have ran : own (w, level) (((h.history.filter Event.counted).filter (Event.of w)).reverse.filterMap
      Event.passage?) = own (w, level) (h.history.reverse.filterMap Event.passage?) := by
    rw [← List.filter_reverse, ← List.filter_reverse, own_filter _ (Event.of w), own_filter]
    · intro e passage passes
      simp [Event.counted, passes]
    · intro e passage passes
      simp [Event.of, passes]
  have waits : own (w, level) (((h.ledger.queued scope).filter (Job.of w)).filterMap Job.passage?) =
      own (w, level) ((h.queued scope).filterMap Job.passage?) := by
    rw [queued_ledger, own_filter _ (Job.of w), own_filter]
    · intro job passage passes
      cases job with
      | enter | leave => rfl
      | _ => cases passes
    · intro job passage passes
      simp [Job.of, passes]
  unfold Thread.trace passages
  rw [own_append, own_append]
  exact congrArg₂ (· ++ ·) ran waits

theorem passages_expected (reachable : h.Reachable) (w : Nat) (work : Work)
    (there : h.works[w]? = some work) (l : Loading) (found : h.loadings[work.loading]? = some l)
    (live : h.isCancelled l.scope = false) :
    ∃ reach, work.armed ≤ reach ∧ work.Reaches reach ∧ ∀ level,
      h.passages l.scope w level = Work.expected reach work.armed level := by
  have sane := reachable.ledger.sane w work there l found (by simpa using live)
  obtain ⟨reach, reaches, calls⟩ := sane.calls
  refine ⟨reach, (Work.armed_le_reach sane.staged reaches).1, reaches, ?_⟩
  intro level
  rw [← own_passages l.scope w work level]
  exact calls level

theorem passages_started (before : Host) (started : before.Reachable) (run : Leads before h)
    (w : Nat) (was work : Work) (here : before.works[w]? = some was)
    (there : h.works[w]? = some work) (l : Loading) (found : h.loadings[work.loading]? = some l)
    (live : h.isCancelled l.scope = false) (level : Nat) (outermost : 1 ≤ level)
    (held : level ≤ was.armed) :
    h.passages l.scope w level = if level ≤ work.armed then [.enter] else [.enter, .leave] := by
  have path := run.ledger started
  obtain ⟨home, at_home⟩ := started.ledger.sound.works w was here
  obtain ⟨now, at_now, stays⟩ := Ledger.Path.loading_stays path was.loading home at_home
  obtain ⟨next, at_w, frame⟩ := Ledger.Path.work_stays path w was here
  obtain rfl : next = work := Option.some.inj (at_w.symm.trans there)
  have same : next.loading = was.loading := congrArg Prod.fst frame
  obtain rfl : now = l := Option.some.inj (at_now.symm.trans (same ▸ found))
  rw [← isCancelled_ledger, stays] at live
  have was_live : before.isCancelled home.scope = false := by
    rw [← isCancelled_ledger]
    exact (Ledger.Path.persist path).live live
  obtain ⟨first, early, -, entered⟩ := passages_expected started w was here home at_home was_live
  obtain ⟨reach, late, -, queued⟩ := passages_expected (started.trans run) w next there now found
    (by rwa [← isCancelled_ledger, stays])
  have grown : before.passages home.scope w level <+: h.passages home.scope w level := by
    rw [← own_passages home.scope w was, ← own_passages home.scope w next]
    have traces := Ledger.Path.trace_grows path started.ledger w was here home at_home live next at_w
    exact traces.filterMap _
  rw [queued level]
  rw [← stays, queued level, stays, entered level,
    Work.expected_held first was.armed level outermost held early] at grown
  split
  · rename_i still
    exact Work.expected_held reach next.armed level outermost still late
  · rename_i through
    by_cases known : level ≤ reach
    · exact Work.expected_through reach next.armed level (by omega) known
    · rw [Work.expected_beyond reach next.armed level (by omega)] at grown
      exact absurd grown.length_le (by simp)

theorem settled_work (reachable : h.Reachable) (w : Nat) (work : Work)
    (there : h.works[w]? = some work) (l : Loading) (found : h.loadings[work.loading]? = some l)
    (live : h.isCancelled l.scope = false) (drained : h.Drained work.loading l)
    (stuck : h.advanceWork? w = none) : work.armed = work.running := by
  have sane := reachable.ledger.sane w work there l found (by simpa using live)
  have staged : work.Staged := sane.staged
  have waits : Thread.Waits w ⟨work, _, (h.ledger.queued l.scope).filter (Job.of w)⟩ := sane.waits
  have gone (job : Job) (mine : job.loading? = some work.loading)
      (queued : job ∈ (h.ledger.queued l.scope).filter (Job.of w)) : False := by
    rw [queued_ledger] at queued
    exact drained job (List.mem_of_mem_filter (List.mem_of_mem_filter queued)) mine
  unfold Work.Staged at staged
  unfold Thread.Waits at waits
  simp only [advanceWork?, there] at stuck
  unfold Work.armed Work.running
  cases stage : work.stage with
  | entering level done =>
      simp only [stage] at waits stuck
      cases done with
      | true => simp at stuck
      | false => exact (gone _ rfl waits).elim
  | leaving level done =>
      simp only [stage] at staged waits stuck
      obtain ⟨-, -, text, given⟩ := staged
      cases done with
      | true => simp [given] at stuck
      | false => exact (gone _ rfl waits).elim
  | inside => rfl
  | ended => rfl

theorem count_drained (reachable : h.Reachable) (i : Nat) (l : Loading)
    (found : h.loadings[i]? = some l) (live : h.isCancelled l.scope = false)
    (drained : h.Drained i l) : l.inFlight = h.ledger.held i := by
  have balanced := reachable.ledger.balanced i l found (by simpa using live)
  unfold Ledger.Balanced at balanced
  rw [tally_foreign i l.inFlight] at balanced
  · exact Option.some.inj balanced
  · intro job queued
    rw [queued_ledger] at queued
    exact drained job (List.mem_of_mem_filter queued)

theorem count_resting (reachable : h.Reachable) (i : Nat) (l : Loading)
    (found : h.loadings[i]? = some l) (live : h.isCancelled l.scope = false)
    (rests : h.Rests i l) : l.inFlight = h.runningCalls i := by
  rw [count_drained reachable i l found live rests.drained]
  apply congrArg List.sum
  apply List.map_congr_left
  intro work member
  obtain ⟨w, there⟩ := List.mem_iff_getElem?.mp member
  unfold Work.holds
  split
  · rename_i mine
    subst mine
    exact settled_work reachable w work there l found live rests.drained
      (rests.works w work there rfl)
  · rfl

theorem count_at_leave (reachable : h.Reachable) (scope : Nat) (lineage : List Nat)
    (i w level : Nat) (awaited : Bool) (jobs : List Job)
    (front : h.scopes[scope]? = some ⟨lineage, false, .leave i w level awaited :: jobs⟩)
    (l : Loading) (found : h.loadings[i]? = some l) : 0 < l.inFlight := by
  have ledger := reachable.ledger
  have fronts : h.ledger.scopes[scope]? = some ⟨lineage, false,
      .leave i w level awaited :: jobs.filter Job.counted⟩ := by
    simp only [Host.ledger, List.getElem?_map, front]
    rfl
  have queue := queueAt_of_front _ _ _ _ _ fronts
  have member : .leave i w level awaited ∈ h.ledger.queued scope := by
    unfold Ledger.queued
    rw [queue.1]
    exact List.mem_cons_self
  obtain ⟨home, at_i, rfl⟩ := ledger.moored.homes scope _ i member rfl
  obtain rfl : l = home := Option.some.inj (found.symm.trans at_i)
  have balanced := ledger.balanced i l found queue.2
  change tally i l.inFlight (queueAt h.ledger.scopes l.scope) = _ at balanced
  rw [queue.1] at balanced
  apply Nat.pos_of_ne_zero
  intro zero
  rw [zero] at balanced
  simp [tally, tick] at balanced

/-- On a live scope every call on a loading dialog that has been started has queued its enter once,
and its leave once, after it, as soon as its work does not hold the level any more, be it that the
block is left or that the work was dropped; a call that was never started has queued nothing. No
leave finds the count at zero. When nothing is left to run, the count is the number of calls whose
block runs. If nobody shows or hides the dialog, its overlay is shown while the count is positive,
and only then. -/
theorem loading_calls_counted (reachable : h.Reachable) (i : Nat) (l : Loading)
    (found : h.loadings[i]? = some l) (live : h.isCancelled l.scope = false) :
    (∀ (before : Host) (w level : Nat) (was work : Work), before.Reachable → Leads before h →
      before.works[w]? = some was → h.works[w]? = some work → work.loading = i → 1 ≤ level →
      level ≤ was.armed →
        h.passages l.scope w level = if level ≤ work.armed then [.enter] else [.enter, .leave]) ∧
    (∀ (w : Nat) (work : Work), h.works[w]? = some work → work.loading = i →
      ∃ reach, work.armed ≤ reach ∧ work.Reaches reach ∧
        ∀ level, h.passages l.scope w level = Work.expected reach work.armed level) ∧
    (∀ (scope : Nat) (lineage : List Nat) (w level : Nat) (awaited : Bool) (jobs : List Job),
      h.scopes[scope]? = some ⟨lineage, false, .leave i w level awaited :: jobs⟩ →
        0 < l.inFlight) ∧
    (h.Rests i l → l.inFlight = h.runningCalls i) ∧
    (RunsWithout (fun job => ∃ shown, job = .setLoading i shown) initial h →
      (l.shown.value = true ↔ 0 < l.inFlight)) := by
  refine ⟨?_, ?_, ?_, ?_, ?_⟩
  · rintro before w level was work started run here there rfl outermost held
    exact passages_started before started run w was work here there l found live level outermost held
  · rintro w work there rfl
    exact passages_expected reachable w work there l found live
  · intro scope lineage w level awaited jobs front
    exact count_at_leave reachable scope lineage i w level awaited jobs front l found
  · intro rests
    exact count_resting reachable i l found live rests
  · intro run
    have path := run.ledger .refl
    have faithful := Ledger.Path.faithful path i (fun shown other => other ⟨shown, rfl⟩) l found
    unfold Loading.Faithful at faithful
    simp [faithful]

/-- A work of two levels is dropped while its block runs, and another goes on. -/
def overlapping : List (Session.Step ⊕ Move) :=
  [.inl (.openDialog "d" "main" .loading), .inl (.work "d" "a" none 2), .inr (.dispatch 0),
    .inr (.advanceWork 0), .inr (.dispatch 0), .inr (.advanceWork 0), .inl (.work "d" "b" none 1),
    .inr (.dispatch 0), .inr (.advanceWork 1), .inl (.call (.abandon "a")), .inr (.dispatch 0),
    .inr (.dispatch 0)]

theorem overlapping_rests (l : Loading) (found : (initial.run overlapping).loadings[0]? = some l) :
    (initial.run overlapping).Rests 0 l where
  drained job member := by
    obtain rfl := Option.some.inj found
    cases member
  works w work there _ := by
    rcases w with _ | _ | w
    · rfl
    · rfl
    · cases there

theorem overlapping_counted : ∃ l : Loading, (initial.run overlapping).loadings[0]? = some l ∧
    l.inFlight = (initial.run overlapping).runningCalls 0 ∧
    (initial.run overlapping).passages 0 0 2 = [.enter, .leave] ∧
    (initial.run overlapping).passages 0 1 1 = [.enter] ∧
    (l.shown.value = true ↔ 0 < l.inFlight) := by
  have reachable := Reachable.run .refl overlapping
  have started := Reachable.run .refl (overlapping.take 9)
  have dropped : Leads (initial.run (overlapping.take 9)) (initial.run overlapping) :=
    Leads.run _ (overlapping.drop 9)
  have silent : RunsWithout (fun job => ∃ shown, job = .setLoading 0 shown) initial
      (initial.run overlapping) := by
    apply RunsWithout.run _ fun job => job matches .setLoading _ _
    · rintro _ ⟨shown, rfl⟩
      rfl
    · decide
  have counted := loading_calls_counted reachable 0 _ rfl rfl
  refine ⟨_, rfl, counted.2.2.2.1 (overlapping_rests _ rfl), ?_, ?_, counted.2.2.2.2 silent⟩
  · exact counted.1 _ 0 2 _ _ started dropped rfl rfl rfl (by decide) (by decide)
  · exact counted.1 _ 1 1 _ _ reachable .refl rfl rfl rfl (by decide) (by decide)

end Host

end ModalHost
