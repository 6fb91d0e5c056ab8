import ModalHost.Proofs.Moments
import ModalHost.Proofs.Lane.Runs

/-! The lane of a prompt along the moments of a run, those in the midst of a delivery included. -/

namespace ModalHost.Moment

variable {m n : Moment} {i : Nat}

def lane (m : Moment) (i : Nat) (p : Prompt) : Lane := ⟨p, m.host.jobsOf i p, m.due i⟩

theorem lane_strand (p : Prompt) : (m.strand i).lane p = m.lane i p := by
  rw [Strand.lane, strand, Host.queued_strand]
  rfl

theorem Kept.lane (kept : m.Kept) (p : Prompt) (present : m.host.prompts[i]? = some p)
    (live : m.host.isCancelled p.scope = false) : (m.lane i p).Kept i := by
  rw [← lane_strand]
  exact (kept.woven i).kept p present ((Host.isCancelled_strand _ _ _ _).trans live)

def Runs (kind : Job → Prop) (m n : Moment) : Prop := Host.RunsJob kind m.host n.host

/-- After a step more jobs like this one are queued than before. -/
def Queues (job : Job) (m n : Moment) : Prop := Host.Queues job m.host n.host

/-- A stretch of a run in which no job of some kind runs. -/
def RunsWithout (kind : Job → Prop) : Moment → Moment → Prop :=
  Relation.ReflTransGen fun m n => m.Next n ∧ ¬ Runs kind m n

/-- A stretch of a run in which no job of some kind is queued. -/
def RunsUnasked (kind : Job → Prop) : Moment → Moment → Prop :=
  Relation.ReflTransGen fun m n => m.Next n ∧ ∀ job, kind job → ¬ Queues job m n

theorem RunsWithout.run {kind : Job → Prop} (run : RunsWithout kind m n) : m.Run n := by
  induction run with
  | refl => exact .refl
  | tail _ last ih => exact ih.tail last.1

theorem RunsUnasked.run {kind : Job → Prop} (run : RunsUnasked kind m n) : m.Run n := by
  induction run with
  | refl => exact .refl
  | tail _ last ih => exact ih.tail last.1

theorem RunsUnasked.dispatch {kind : Job → Prop} (look : Job → Bool)
    (seen : ∀ job, kind job → look job = true) (h : Host) (scope : Nat) (next : Host)
    (taken : h.move? (.dispatch scope) = some next) (silent : next.lacks look = true) :
    RunsUnasked kind (between h) (between next) :=
  .single ⟨.moves h (.dispatch scope) next taken (fun _ _ _ delivery => nomatch delivery),
    fun job some_kind => Host.not_queues_of_lacks silent (seen job some_kind)⟩

theorem RunsWithout.path {kind : Job → Prop} (run : RunsWithout kind m n) (kept : m.Kept)
    (i : Nat) : Strand.Path i (¬kind ·) (m.strand i) (n.strand i) := by
  induction run with
  | refl => exact .refl
  | tail before last ih =>
      refine ih.trans (last.1.path (Run.kept (RunsWithout.run before) kept) i ?_)
      rintro h after scope lineage job jobs rfl rfl taken front - some_kind
      exact last.2 ⟨scope, lineage, job, jobs, front, some_kind, taken⟩

theorem Run.live (run : m.Run n) (kept : m.Kept) (scope : Nat)
    (live : n.host.isCancelled scope = false) : m.host.isCancelled scope = false := by
  have path := run.strand kept 0
  rw [← Host.isCancelled_strand n.host 0 (n.due 0)] at live
  rw [← Host.isCancelled_strand m.host 0 (m.due 0)]
  exact path.persist.live live

theorem Run.prompt (run : m.Run n) (kept : m.Kept) (p : Prompt)
    (present : m.host.prompts[i]? = some p) :
    ∃ q, n.host.prompts[i]? = some q ∧ q.scope = p.scope :=
  Host.path_scope (run.strand kept i) p present

def RunsOne (i : Nat) (m n : Moment) : Prop :=
  ∃ h after scope lineage job jobs, m = between h ∧ n = between after ∧
    h.dispatch? scope = some after ∧ h.scopes[scope]? = some ⟨lineage, false, job :: jobs⟩ ∧
    job.prompt? = some i

theorem RunsOne.lane (ran : RunsOne i m n) (kept : m.Kept) (p : Prompt)
    (present : m.host.prompts[i]? = some p) :
    ∃ owned job q, n.host.prompts[i]? = some q ∧ q.scope = p.scope ∧
      m.host.jobsOf i p = job :: n.host.jobsOf i q ∧ p.perform? owned job = some q ∧
      Lane.Step i (fun _ => True) (fun _ => False) (m.lane i p) (n.lane i q) := by
  obtain ⟨h, after, scope, lineage, job, jobs, rfl, rfl, taken, front, about⟩ := ran
  rcases Host.lane_dispatch kept.woven scope after taken p present with ⟨-, other⟩ | first
  · exact absurd about (other lineage job jobs front)
  · exact first

theorem Next.grown (next : m.Next n) (idle : ¬RunsOne i m n) (kept : m.Kept) (p : Prompt)
    (present : m.host.prompts[i]? = some p) (live : n.host.isCancelled p.scope = false) :
    ∃ q, n.host.prompts[i]? = some q ∧ q.scope = p.scope ∧
      Lane.Path i (fun _ => False) (fun _ => True) (m.lane i p) (n.lane i q) := by
  have path : Strand.Path i (fun _ => False) (m.strand i) (n.strand i) := by
    refine next.path kept i ?_
    intro h after scope lineage job jobs before next taken front about
    exact idle ⟨h, after, scope, lineage, job, jobs, before, next, taken, front, about⟩
  obtain ⟨q, there, home, lane⟩ := path.lane (kept.woven i) p present
    ((Host.isCancelled_strand _ _ _ _).trans live)
  rw [lane_strand, lane_strand] at lane
  exact ⟨q, there, home, lane⟩

theorem Next.lane (next : m.Next n) (kept : m.Kept) (p : Prompt)
    (present : m.host.prompts[i]? = some p) (live : n.host.isCancelled p.scope = false) :
    ∃ q, n.host.prompts[i]? = some q ∧ q.scope = p.scope ∧
      (Lane.Path i (fun _ => False) (fun _ => True) (m.lane i p) (n.lane i q) ∨
        Lane.Step i (fun _ => True) (fun _ => False) (m.lane i p) (n.lane i q)) := by
  by_cases runs : RunsOne i m n
  · obtain ⟨owned, job, q, there, home, -, -, ran⟩ := runs.lane kept p present
    exact ⟨q, there, home, .inr ran⟩
  · obtain ⟨q, there, home, grown⟩ := next.grown runs kept p present live
    exact ⟨q, there, home, .inl grown⟩

inductive RunsCounting (i : Nat) (m : Moment) : Nat → Moment → Prop
  | refl : RunsCounting i m 0 m
  | passed (k : Nat) (n o : Moment) (run : RunsCounting i m k n) (next : n.Next o)
      (idle : ¬RunsOne i n o) : RunsCounting i m k o
  | ran (k : Nat) (n o : Moment) (run : RunsCounting i m k n) (next : n.Next o)
      (ran : RunsOne i n o) : RunsCounting i m (k + 1) o

theorem RunsCounting.run {k : Nat} (run : RunsCounting i m k n) : m.Run n := by
  induction run with
  | refl => exact .refl
  | passed k n o _ next _ ih | ran k n o _ next _ ih => exact ih.tail next

theorem Run.counting (run : m.Run n) (i : Nat) : ∃ k, RunsCounting i m k n := by
  induction run with
  | refl => exact ⟨0, .refl⟩
  | @tail n o _ next ih =>
      obtain ⟨k, run⟩ := ih
      by_cases ran : RunsOne i n o
      · exact ⟨k + 1, .ran k n o run next ran⟩
      · exact ⟨k, .passed k n o run next ran⟩

theorem RunsUnasked.lane {kind : Job → Prop} (run : RunsUnasked kind m n) (kept : m.Kept)
    (p q : Prompt) (present : m.host.prompts[i]? = some p) (there : n.host.prompts[i]? = some q)
    (live : n.host.isCancelled q.scope = false) :
    Lane.Path i (fun _ => True) (¬kind ·) (m.lane i p) (n.lane i q) := by
  induction run generalizing q with
  | refl =>
      obtain rfl : p = q := Option.some.inj (present.symm.trans there)
      exact .refl
  | @tail between n run last ih =>
      obtain ⟨step, unasked⟩ := last
      have passed : between.Kept := Run.kept (RunsUnasked.run run) kept
      obtain ⟨r, here, home⟩ := Run.prompt (RunsUnasked.run run) kept p present
      obtain ⟨s, after, stays⟩ := Run.prompt (.single step) passed r here
      obtain rfl : s = q := Option.some.inj (after.symm.trans there)
      rw [stays] at live
      have path := ih r here (Run.live (.single step) passed r.scope live)
      obtain ⟨_, same, -, course⟩ := step.lane passed r here live
      obtain rfl := Option.some.inj (same.symm.trans there)
      rcases course with grown | ran
      · obtain ⟨added, queue, grown⟩ := grown.grows
        refine path.trans (grown.weaken (fun _ => False.elim) ?_)
        intro job member some_kind
        exact unasked job some_kind (Host.queues_of_added r _ stays added queue job member)
      · exact path.tail (ran.weaken (fun _ _ => trivial) fun _ => False.elim)

end ModalHost.Moment
