import ModalHost.Proofs.Lane.Moments
import ModalHost.Proofs.Lane.Shutting
import ModalHost.Proofs.Orphans
import ModalHost.Proofs.Reopening
import ModalHost.Proofs.Trail.Track

/-! What becomes of a prompt when a call that waits on it is dropped. -/

namespace ModalHost

/-- The slot of a prompt belongs to a caller that waits for `request`. -/
def Prompt.Holds (p : Prompt) (request : Nat) : Prop := ∃ c, p.parked = some ⟨request, c⟩

theorem Orderly.publish_le {asked : List (Nat × Visuals)} {issued published : Nat} {jobs : List Job}
    (orderly : Orderly asked issued published jobs) {i request : Nat} {visuals : Visuals}
    (member : .publish i request visuals ∈ jobs) : request ≤ issued := by
  fun_induction Orderly asked issued published jobs with
  | case1 published => cases member
  | case2 published j first shown jobs ih =>
      rcases List.mem_cons.mp member with same | later
      · cases same
        exact orderly.2.2.le
      · exact ih orderly.2.2 later
  | case3 published j tap jobs ih =>
      rcases List.mem_cons.mp member with same | later
      · cases same
      · exact ih orderly.2 later
  | case4 published job jobs no_publish no_offer ih =>
      rcases List.mem_cons.mp member with same | later
      · exact absurd same.symm (no_publish i request visuals)
      · exact ih orderly later

namespace Host

variable {h next : Host} {i request c : Nat} {caller : Caller} {p : Prompt}

/-- Empties the slot of a prompt. -/
def vacate (h : Host) (i : Nat) : Host := h.updatePrompt i fun p => { p with parked := none }

end Host

open Host

namespace Moment

variable {m n : Moment} {i request c : Nat} {caller : Caller} {p : Prompt}

/-- A call that waits is dropped, by code or by a hook. -/
inductive Drops (c : Nat) : Moment → Moment → Prop
  | acts (h : Host) (task : String) (named : h.names.tasks.find? task = some (.caller c)) :
      Drops c (between h) (between (h.call (.abandon task)))
  | calls (h : Host) (i request : Nat) (rest : List Call) (task : String)
      (named : h.names.tasks.find? task = some (.caller c)) :
      Drops c (within h i request (.abandon task :: rest))
        (within (h.call (.abandon task)) i request rest)

theorem Drops.next (drops : m.Drops c n) : m.Next n := by
  cases drops with
  | acts h task => exact .acts h (.call (.abandon task))
  | calls h i request rest task => exact .calls h i request (.abandon task) rest

theorem Drops.host (drops : m.Drops c n) : n.host = m.host.abandon (.caller c) := by
  cases drops with
  | acts h task named | calls h i request rest task named =>
      simp only [Moment.host, Host.call, named, Option.elim_some]

theorem Drops.due (drops : m.Drops c n) : n.due = m.due := by
  cases drops <;> rfl

theorem Kept.newest (kept : m.Kept) (present : m.host.prompts[i]? = some p)
    (held : p.Holds request) : p.issued = request := by
  obtain ⟨c, parked⟩ := held
  exact (((kept.woven i).attended.present p present).newest _ parked).symm

theorem Kept.unowed (kept : m.Kept) (present : m.host.prompts[i]? = some p)
    (live : m.host.isCancelled p.scope = false) (held : p.Holds request) :
    ¬(m.lane i p).Owes i request := by
  intro owes
  obtain ⟨c, parked⟩ := held
  have newest := kept.newest present ⟨c, parked⟩
  have free : p.parked = none := (kept.lane p present live).alone (newest.symm ▸ owes)
  cases parked.symm.trans free

theorem Kept.shown (kept : m.Kept) (present : m.host.prompts[i]? = some p)
    (awaits : p.phase = .awaitingInput) : p.shown.value = true :=
  ((kept.woven i).coherent p present).phase.mpr (by simp [awaits])

theorem Kept.hidden (kept : m.Kept) (present : m.host.prompts[i]? = some p)
    (idle : p.phase = .idle) : p.Hidden := by
  refine ⟨?_, idle⟩
  rw [← Bool.not_eq_true, ((kept.woven i).coherent p present).phase]
  exact fun up => up idle

theorem present_vacate {h next : Host} (present : h.prompts[i]? = some p)
    (same : next.prompts = (h.vacate i).prompts) :
    next.prompts[i]? = some { p with parked := none } := by
  rw [same]
  simp [vacate, updatePrompt, present]

theorem Run.issued_le (run : m.Run n) (kept : m.Kept) (p q : Prompt)
    (present : m.host.prompts[i]? = some p) (there : n.host.prompts[i]? = some q) :
    p.issued ≤ q.issued := by
  have path : Strand.Path i _ (m.strand i) (n.strand i) := run.strand kept i
  obtain ⟨next, after, course⟩ := path.goesOn (kept.woven i) p present
  obtain rfl : next = q := Option.some.inj (after.symm.trans there)
  exact course.issued

/-- What a run goes on from when the slot was emptied and no hooks are registered. A job that hides
the prompt was queued behind its `jobs`. -/
structure Hides (n : Moment) (i request : Nat) (jobs : List Job) : Prop where
  /-- The prompt ends hidden unless something that opens it is queued. -/
  hidden (o : Moment) (q : Prompt) :
    n.RunsUnasked (fun job => job.prompt? = some i ∧ job.opens = true) o →
    o.host.prompts[i]? = some q → o.host.isCancelled q.scope = false → o.host.jobsOf i q = [] →
    q.Hidden
  /-- When `k` jobs of the prompt have run, those behind them are still queued in their order, and
  as long as the one that hides the prompt is among them, no later request is published. -/
  fenced (k : Nat) (o : Moment) (q : Prompt) : RunsCounting i n k o →
    o.host.prompts[i]? = some q → o.host.isCancelled q.scope = false →
    (∃ since, o.host.jobsOf i q = (jobs ++ [Job.setPrompt i false]).drop k ++ since) ∧
      (k ≤ jobs.length → q.published ≤ request)
  /-- A later request that asks something is open in the end if it is the last thing asked. -/
  opened (o later : Moment) (q r : Prompt) (visuals : Visuals) (before after : List Job) :
    n.Run o → o.host.prompts[i]? = some q → request < q.issued → visuals.isEmpty = false →
    o.host.jobsOf i q = before ++ .publish i q.issued visuals :: after →
    (∀ job ∈ after, ∃ s, job = .settle i s) → o.RunsUnasked (Job.ofCall i) later →
    later.host.prompts[i]? = some r → later.host.isCancelled r.scope = false →
    later.host.jobsOf i r = [] →
    r.shown.value = true ∧ r.phase = .awaitingInput ∧ r.published = q.issued ∧
      r.visuals.value = visuals

theorem jobsOf_launch {h : Host} (job : Job) (about : job.prompt? = some i)
    (opens : openAt h.scopes p.scope = true) :
    (h.launch p.scope job).jobsOf i p = h.jobsOf i p ++ [job] := by
  have pushed := queueAt_push h.scopes p.scope p.scope job
  rw [if_pos ⟨rfl, opens⟩] at pushed
  have queue : (h.launch p.scope job).queued p.scope = h.queued p.scope ++ [job] := pushed
  rw [jobsOf, queue, List.filter_append, List.filter_cons_of_pos (by simpa using about)]
  rfl

theorem Kept.fenced (kept : m.Kept) (present : m.host.prompts[i]? = some p) (next : Prompt)
    (published : next.published = p.published) (due : Option Nat) :
    Lane.Fenced i p.issued (m.host.jobsOf i p ++ [.setPrompt i false]) []
      ⟨next, m.host.jobsOf i p ++ [.setPrompt i false], due⟩ := by
  have orderly : Orderly _ p.issued p.published ((m.host.strand i (m.due i)).queued p.scope) :=
    ((kept.woven i).scheduled.present p present).orderly
  rw [queued_strand] at orderly
  refine ⟨(List.append_nil _).symm, fun j r v member => ?_, fun _ => published ▸ orderly.le⟩
  rcases List.mem_append.mp member with queued | last
  · exact orderly.publish_le queued
  · cases List.mem_singleton.mp last

theorem RunsCounting.fenced {k : Nat} {before : List Job} (run : RunsCounting i m k n)
    (kept : m.Kept) (present : m.host.prompts[i]? = some p)
    (begins : ∃ after, (m.lane i p).Fenced i request before after) (q : Prompt)
    (there : n.host.prompts[i]? = some q) (live : n.host.isCancelled q.scope = false) :
    ∃ after, (n.lane i q).Fenced i request (before.drop k) after := by
  induction run generalizing q with
  | refl =>
      obtain rfl := Option.some.inj (present.symm.trans there)
      exact begins
  | passed k n o run next idle ih =>
      have passed := Run.kept run.run kept
      obtain ⟨r, here, home⟩ := run.run.prompt kept p present
      obtain ⟨s, same, stays⟩ := Run.prompt (.single next) passed r here
      obtain rfl := Option.some.inj (same.symm.trans there)
      rw [stays] at live
      obtain ⟨t, again, -, grown⟩ := next.grown idle passed r here live
      obtain rfl := Option.some.inj (again.symm.trans there)
      obtain ⟨after, fenced⟩ := ih r here (Run.live (.single next) passed r.scope live)
      exact fenced.grows grown
  | ran k n o run next ran ih =>
      have passed := Run.kept run.run kept
      obtain ⟨r, here, home⟩ := run.run.prompt kept p present
      obtain ⟨owned, job, s, same, stays, queue, done, -⟩ := ran.lane passed r here
      obtain rfl := Option.some.inj (same.symm.trans there)
      rw [stays] at live
      obtain ⟨after, fenced⟩ := ih r here (Run.live (.single next) passed r.scope live)
      rw [← List.tail_drop]
      exact fenced.runs job _ queue owned s done (o.due i)

theorem Kept.opens (kept : m.Kept) {q : Prompt} {visuals : Visuals} {before after : List Job}
    (present : m.host.prompts[i]? = some p) (asks : visuals.isEmpty = false)
    (queue : m.host.jobsOf i p = before ++ .publish i p.issued visuals :: after)
    (settlings : ∀ job ∈ after, ∃ s, job = .settle i s)
    (course : m.RunsUnasked (Job.ofCall i) n) (there : n.host.prompts[i]? = some q)
    (live : n.host.isCancelled q.scope = false) (drained : n.host.jobsOf i q = []) :
    q.shown.value = true ∧ q.phase = .awaitingInput ∧ q.published = p.issued ∧
      q.visuals.value = visuals := by
  obtain ⟨s, same, home⟩ := Run.prompt course.run kept p present
  obtain rfl := Option.some.inj (same.symm.trans there)
  have path := course.lane kept p s present there live
  have begins : (m.lane i p).Opening i p.issued visuals := by
    rw [← lane_strand]
    refine (kept.woven i).opening p present ?_ visuals before after ?_ settlings
    · rw [isCancelled_strand]
      exact Run.live course.run kept p.scope (home ▸ live)
    · rw [queued_strand]
      exact queue
  obtain ⟨published, visible, awaits⟩ :=
    (path.opening (fun _ called => not_not_intro called) asks begins).drained drained
  exact ⟨(Run.kept course.run kept).shown there awaits, awaits, published, visible⟩

theorem Kept.hides (kept : m.Kept) (kept_after : n.Kept)
    (present : m.host.prompts[i]? = some p) (live : m.host.isCancelled p.scope = false)
    (held : p.Holds request)
    (prompts : n.host.prompts = (m.host.vacate i).prompts)
    (scopes : n.host.scopes = (m.host.launch p.scope (.setPrompt i false)).scopes)
    (due : n.due = m.due) : n.Hides i request (m.host.jobsOf i p) := by
  have vacated := present_vacate present prompts
  have newest := kept.newest present held
  have opens : openAt m.host.scopes p.scope = true := by
    apply openAt_of_live
    · simpa [Moment.strand, Host.strand] using (kept.woven i).anchored p present
    · exact live
  have lane : n.lane i { p with parked := none } =
      ⟨{ p with parked := none }, m.host.jobsOf i p ++ [.setPrompt i false], m.due i⟩ := by
    rw [← jobsOf_launch _ rfl opens, Moment.lane, due, jobsOf, jobsOf, queued, queued, scopes]
  constructor
  case hidden =>
    intro o q run there alive drained
    have begins : (n.lane i { p with parked := none }).Shutting i := by
      rw [lane]
      exact .ahead _ [] rfl fun _ absent => absurd absent List.not_mem_nil
    have path := run.lane kept_after _ q vacated there alive
    have quiet (job : Job) (about : job.prompt? = some i)
        (shut : ¬(job.prompt? = some i ∧ job.opens = true)) : job.opens = false :=
      Bool.eq_false_iff.mpr fun opens => shut ⟨about, opens⟩
    exact (Run.kept run.run kept_after).hidden there
      ((path.shutting quiet begins).drained drained)
  case fenced =>
    intro k o q run there alive
    have begins : ∃ after, (n.lane i { p with parked := none }).Fenced i p.issued
        (m.host.jobsOf i p ++ [.setPrompt i false]) after := by
      rw [lane]
      exact ⟨_, kept.fenced present { p with parked := none } rfl _⟩
    obtain ⟨since, fenced⟩ := run.fenced kept_after vacated begins q there alive
    refine ⟨⟨since, fenced.queue⟩, fun early => newest ▸ fenced.behind fun gone => ?_⟩
    rw [List.drop_eq_nil_iff, List.length_append, List.length_singleton] at gone
    omega
  case opened =>
    intro o later q r visuals before after run here newer asks queue settlings course there alive
      drained
    exact (Run.kept run kept_after).opens here asks queue settlings course there alive drained

end Moment

def waiting (hooks : Hooks Call) : Host :=
  initial.run [.inl (.openDialog "d" "main" (.confirm hooks .blank)),
    .inl (.call (.await "d" (.ofTitle "Delete?") "t"))]

end ModalHost
