import ModalHost.Proofs.Strand.Runs
import ModalHost.Proofs.Lane.Strands

/-! Along every run of a host, a prompt on a live scope has a lane that goes on step by step. -/

namespace ModalHost.Host

variable {h : Host} {i : Nat}

/-- The jobs of a prompt that are left to run. -/
def jobsOf (h : Host) (i : Nat) (p : Prompt) : List Job :=
  (h.queued p.scope).filter (·.prompt? == some i)

def lane (h : Host) (i : Nat) (p : Prompt) : Lane := ⟨p, h.jobsOf i p, none⟩

theorem lane_strand (p : Prompt) : (h.strand i none).lane p = h.lane i p := by
  rw [Strand.lane, queued_strand]
  rfl

theorem Reachable.kept (reachable : h.Reachable) (p : Prompt) (present : h.prompts[i]? = some p)
    (live : h.isCancelled p.scope = false) : (h.lane i p).Kept i := by
  rw [← lane_strand]
  exact (reachable.woven i).kept p present (by simpa using live)

theorem Reachable.opens (reachable : h.Reachable) (p : Prompt) (present : h.prompts[i]? = some p)
    (live : h.isCancelled p.scope = false) : openAt h.scopes p.scope = true := by
  apply openAt_of_live
  · simpa [strand] using (reachable.woven i).anchored p present
  · exact live

theorem lane_dispatch (woven : h.Woven fun _ => none) (scope : Nat) (next : Host)
    (taken : h.dispatch? scope = some next) (p : Prompt) (present : h.prompts[i]? = some p) :
    (next.strand i none = h.strand i none ∧ ∀ lineage job jobs,
        h.scopes[scope]? = some ⟨lineage, false, job :: jobs⟩ → job.prompt? ≠ some i) ∨
      ∃ owned job q, next.prompts[i]? = some q ∧ q.scope = p.scope ∧
        h.jobsOf i p = job :: next.jobsOf i q ∧ p.perform? owned job = some q ∧
        Lane.Step i (fun _ => True) (fun _ => False) (h.lane i p) (next.lane i q) := by
  rcases strand_dispatch i woven.tidy scope next taken with
    same | ⟨q, lineage, job, jobs, made, here, found, about, front, done, strand⟩
  · exact .inl same
  · obtain rfl : q = p := Option.some.inj (here.symm.trans present)
    have home := (q.perform_frame made _ job done).1
    have after : next.prompts[i]? = some made := congrArg Strand.prompt strand
    have queue := Strand.front_of_scope _ _ _ _ front
    have ran : Lane.Step i (fun _ => True) (fun _ => False) _ _ :=
      Strand.lane_ran (woven i) q present rfl job _ queue trivial _ made done
    have lane : next.lane i made = ⟨made, jobs.filter (·.prompt? == some i), none⟩ := by
      rw [← lane_strand, strand, Strand.lane_of_home q made home,
        Strand.queued_pop _ _ _ _ _ front, if_pos rfl]
      rfl
    refine .inr ⟨_, job, made, after, home, ?_, done, ?_⟩
    · rw [queued_strand] at queue
      exact queue.trans (congrArg (job :: ·) (congrArg Lane.jobs lane).symm)
    · rw [← lane_strand, lane]
      exact ran

theorem Advances.lane {next : Host} (step : h.Advances next) (reachable : h.Reachable) (p : Prompt)
    (present : h.prompts[i]? = some p) (live : next.isCancelled p.scope = false) :
    ∃ q, next.prompts[i]? = some q ∧ q.scope = p.scope ∧
      (Lane.Path i (fun _ => False) (fun _ => True) (h.lane i p) (next.lane i q) ∨
        Lane.Step i (fun _ => True) (fun _ => False) (h.lane i p) (next.lane i q)) := by
  have woven := reachable.woven
  have idle (path : Strand.Path i (fun _ => False) (h.strand i none) (next.strand i none)) :
      ∃ q, next.prompts[i]? = some q ∧ q.scope = p.scope ∧
        (Lane.Path i (fun _ => False) (fun _ => True) (h.lane i p) (next.lane i q) ∨
          Lane.Step i (fun _ => True) (fun _ => False) (h.lane i p) (next.lane i q)) := by
    obtain ⟨q, there, home, lane⟩ := path.lane (woven i) p present (by simpa using live)
    rw [lane_strand, lane_strand] at lane
    exact ⟨q, there, home, .inl lane⟩
  cases step with
  | act s => exact idle (path_act i none reachable.ledger.sound woven.tidy s)
  | move m _ taken =>
      by_cases dispatch : ∃ scope, m = .dispatch scope
      · obtain ⟨scope, rfl⟩ := dispatch
        rcases lane_dispatch woven scope next taken p present with
          ⟨same, -⟩ | ⟨_, _, q, there, home, -, -, ran⟩
        · rw [same] at idle
          exact idle .refl
        · exact ⟨q, there, home, .inr ran⟩
      · refine idle (path_move i woven m next taken ?_)
        intro scope _ _ _ same
        exact absurd ⟨scope, same⟩ dispatch

theorem queues_of_added {next : Host} (p q : Prompt) (home : q.scope = p.scope) (added : List Job)
    (queue : next.jobsOf i q = h.jobsOf i p ++ added) (job : Job) (member : job ∈ added) :
    Queues job h next := by
  have about : (job.prompt? == some i) = true := by
    have inside : job ∈ next.jobsOf i q := queue ▸ List.mem_append_right _ member
    exact (List.mem_filter.mp inside).2
  have counted (host : Host) : (host.queued p.scope).count job =
      ((host.queued p.scope).filter (·.prompt? == some i)).count job :=
    (List.count_filter (p := fun other => Job.prompt? other == some i) about).symm
  refine ⟨p.scope, ?_⟩
  have some_more : 0 < added.count job := List.count_pos_iff.mpr member
  unfold jobsOf at queue
  rw [home] at queue
  rw [counted next, counted h, queue, List.count_append]
  omega

theorem Leads.live {later : Host} (run : Leads h later) (reachable : h.Reachable) (scope : Nat)
    (live : later.isCancelled scope = false) : h.isCancelled scope = false := by
  have path := run.strand 0 reachable
  rw [← isCancelled_strand later 0 none] at live
  rw [← isCancelled_strand h 0 none]
  exact path.persist.live live

theorem Leads.home {later : Host} (run : Leads h later) (reachable : h.Reachable) (p q : Prompt)
    (present : h.prompts[i]? = some p) (there : later.prompts[i]? = some q) :
    q.scope = p.scope := by
  obtain ⟨next, after, same⟩ := path_scope (run.strand i reachable) p present
  obtain rfl : next = q := Option.some.inj (after.symm.trans there)
  exact same

theorem RunsUnasked.leads {kind : Job → Prop} {later : Host} (run : RunsUnasked kind h later) :
    Leads h later := by
  induction run with
  | refl => exact .refl
  | tail _ last ih => exact ih.tail last.1

theorem RunsUnasked.lane {kind : Job → Prop} {later : Host} (run : RunsUnasked kind h later)
    (reachable : h.Reachable) (p q : Prompt) (present : h.prompts[i]? = some p)
    (there : later.prompts[i]? = some q) (live : later.isCancelled q.scope = false) :
    Lane.Path i (fun _ => True) (¬kind ·) (h.lane i p) (later.lane i q) := by
  induction run generalizing q with
  | refl =>
      obtain rfl : p = q := Option.some.inj (present.symm.trans there)
      exact .refl
  | @tail between next run last ih =>
      obtain ⟨step, unasked⟩ := last
      have leads : Leads h between := RunsUnasked.leads run
      have reached : between.Reachable := reachable.trans leads
      rw [Leads.home (leads.tail step) reachable p q present there] at live
      obtain ⟨m, here, home⟩ := path_scope (leads.strand i reachable) p present
      have alive := Leads.live (.single step) reached p.scope live
      have path := ih m here (home ▸ alive)
      obtain ⟨r, after, stays, course⟩ := step.lane reached m here (home ▸ live)
      obtain rfl : r = q := Option.some.inj (after.symm.trans there)
      rcases course with grown | ran
      · obtain ⟨added, queue, grown⟩ := grown.grows
        refine path.trans (grown.weaken (fun _ => False.elim) ?_)
        intro job member some_kind
        exact unasked job some_kind (queues_of_added m r stays added queue job member)
      · exact path.tail (ran.weaken (fun _ _ => trivial) fun _ => False.elim)

end ModalHost.Host
